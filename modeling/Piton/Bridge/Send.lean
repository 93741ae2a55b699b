import Piton.Bridge.Link

/-! `chip_bridge_out` and `fpga_bridge_send_32`: a chooser and a buffer that puts the halves of a flit on the
wires one after the other. The second has registers behind the buffer and a queue for the credits. -/

namespace Piton.Bridge

open Hw

/-! ### The buffer -/

/-- `data` is on the wires; `serial_buffer_data_f` on the chip, where `dataNext` is `serial_buffer_data`. -/
structure SerialBuffer where
  data : BitVec 32
  dataNext : BitVec 32
  channel : Channel
  counter : Bool

/-- `data_to_serial_buffer`. -/
def dataToSerialBuffer (rdy : Net → Bool) (din : Net → Flit) : Flit :=
  if rdy .net1 then din .net1 else if rdy .net2 then din .net2 else if rdy .net3 then din .net3 else 0

namespace SerialBuffer

variable (b : SerialBuffer) (channel : Channel) (data : Flit)

/-- The clock edge: a new flit is loaded, the second half follows the first, or the wires go idle.
-/
def next : SerialBuffer :=
  if channel ≠ none && b.counter then ⟨data.extractLsb' 0 32, data.extractLsb' 32 32, channel, false⟩
  else if b.channel ≠ none && !b.counter then { b with data := b.dataNext, counter := true }
  else { b with counter := true, channel := channel }

/-- What the buffer still puts on the wires. -/
def promised : List Word := (b.channel, b.data) :: if b.counter then [] else [(b.channel, b.dataNext)]

variable {b}

theorem join_halves : join (data.extractLsb' 0 32) (data.extractLsb' 32 32) = data := by
  exact @BitVec.extractLsb'_append_extractLsb' 32 32 data

theorem promised_next (hb : b.counter = false → b.channel ≠ none) :
    ∃ new, b.promised ++ new = (b.channel, b.data) :: (b.next channel data).promised ∧ Paired new ∧
      ∀ n, crossing join n new = if b.counter && channel = some n then [data] else [] := by
  cases hc : b.counter with
  | false => exact ⟨[], by simp [promised, next, hc, hb hc], paired_nil, fun n => rfl⟩
  | true =>
    cases channel with
    | none =>
      exact ⟨[(none, b.data)], by simp [promised, next, hc], paired_idle.2 paired_nil, fun n => rfl⟩
    | some m =>
      refine ⟨[(some m, data.extractLsb' 0 32), (some m, data.extractLsb' 32 32)],
        by simp [promised, next, hc], by simp, fun n => ?_⟩
      simp [join_halves]

variable {channel data}

theorem counter_next (hb : b.counter = false → b.channel ≠ none) :
    (b.next channel data).counter = (!b.counter || channel = none) := by
  cases hc : b.counter <;> cases channel <;> simp [next, hc, hb]

theorem channel_next (hb : b.counter = false → b.channel ≠ none)
    (hn : (b.next channel data).counter = false) : (b.next channel data).channel ≠ none := by
  rw [counter_next hb] at hn
  cases hc : b.counter <;> cases channel <;> simp_all [next]

end SerialBuffer

theorem dataToSerialBuffer_eq {rdy : Net → Bool} {n : Net} (h : ∀ a, rdy a = decide (a = n))
    (din : Net → Flit) : dataToSerialBuffer rdy din = din n := by
  cases n <;> simp [dataToSerialBuffer, h]

/-! ### The chip -/

/-- `chip_bridge_out`, but for its queues. -/
structure ChipOut where
  separator : Chooser
  serial : SerialBuffer

/-- `serial_buffer_channel_dup` is always `serial_buffer_channel`. -/
def chipOut : Transmitter ChipOut Unit where
  init s := s = ⟨.init, ⟨0, 0, none, true⟩⟩
  word s := (s.serial.channel, s.serial.data)
  rdy s val := s.separator.first 255 val
  next s _ val din back :=
    { separator := s.separator.next 255 val (s.separator.first 255 val) back
      serial := s.serial.next (s.separator.select 255 val)
        (dataToSerialBuffer (s.separator.first 255 val) din) }

namespace ChipOut

/-- The chooser is in the second cycle of a selection when the buffer has a half left, and has counted the
credits that are owed. -/
structure Ok (s : ChipOut) (o : Net → Nat) : Prop where
  counter : s.separator.selectCounter = !s.serial.counter
  channel : s.serial.counter = false → s.serial.channel ≠ none
  credit : ∀ n, (s.separator.credit n).toNat = o n
  le : ∀ n, o n ≤ 255

variable {s : ChipOut} {o : Net → Nat} {val back : Net → Bool} {din : Net → Flit} {n : Net}

theorem unblocked_of_first (h : s.separator.first 255 val n = true) :
    s.separator.blocked 255 val n = false := by
  simp only [Chooser.first, Bool.and_eq_true, decide_eq_true_iff, Bool.not_eq_true'] at h
  exact (Chooser.select_eq_some h.1 h.2).1

theorem sends_eq (n : Net) : Chooser.sends val (s.separator.first 255 val) n =
    s.separator.first 255 val n := by
  cases hf : s.separator.first 255 val n with
  | false => rw [Chooser.sends, hf, Bool.false_and]
  | true =>
    have hb := unblocked_of_first hf
    simp only [Chooser.blocked, Bool.or_eq_false_iff, Bool.not_eq_false'] at hb
    rw [Chooser.sends, hf, hb.2]
    rfl

theorem credit_lt (h : s.Ok o) (hf : s.separator.first 255 val n = true) :
    s.separator.credit n < 255 := by
  have hb := unblocked_of_first hf
  simp only [Chooser.blocked, Bool.or_eq_false_iff, decide_eq_false_iff_not] at hb
  have hle := h.le n
  rw [← h.credit] at hle
  have hne := hb.1
  bv_omega

theorem ok_next {o' : Net → Nat} (h : s.Ok o)
    (ho : ∀ n, o' n + (back n).toNat = o n + (s.separator.first 255 val n).toNat)
    (hback : ∀ n, (back n).toNat ≤ o n) : (chipOut.next s () val din back).Ok o' where
  counter := by
    change (if s.separator.select 255 val = none then false else !s.separator.selectCounter) =
      !(s.serial.next _ _).counter
    rw [SerialBuffer.counter_next h.channel]
    cases hc : s.serial.counter with
    | true => cases s.separator.select 255 val <;> simp [h.counter, hc]
    | false => cases s.separator.select 255 val <;> simp [h.counter, hc]
  channel := SerialBuffer.channel_next h.channel
  credit n := by
    have hne : back n = true → s.separator.credit n ≠ 0 := fun hb hz => by
      have hle := hback n
      rw [hb, ← h.credit, hz] at hle
      exact absurd hle (by decide)
    have hlt : Chooser.sends val (s.separator.first 255 val) n = true →
        s.separator.credit n < 255 := fun hs => credit_lt h (sends_eq (s := s) n ▸ hs)
    have hcount := Chooser.toNat_creditNext 255 s.separator hlt hne
    have hn := ho n
    rw [sends_eq, h.credit] at hcount
    change (s.separator.creditNext val (s.separator.first 255 val) back n).toNat = _
    omega
  le n := by
    have hn := ho n
    cases hf : s.separator.first 255 val n with
    | false =>
      have hle := h.le n
      rw [hf, Bool.toNat_false] at hn
      omega
    | true =>
      have hlt := credit_lt h hf
      have hcredit := h.credit n
      rw [hf, Bool.toNat_true] at hn
      bv_omega

theorem promised_next (h : s.Ok o) : ∃ new, s.serial.promised ++ new =
      chipOut.word s :: (chipOut.next s () val din back).serial.promised ∧ Paired new ∧
    ∀ n, crossing join n new = if s.separator.first 255 val n then [din n] else [] := by
  obtain ⟨new, hnew, hpaired, hcross⟩ := SerialBuffer.promised_next (s.separator.select 255 val)
    (dataToSerialBuffer (s.separator.first 255 val) din) h.channel
  refine ⟨new, hnew, hpaired, fun n => ?_⟩
  rw [hcross]
  cases hf : s.separator.first 255 val n with
  | false =>
    rw [if_neg Bool.false_ne_true, if_neg]
    rw [Chooser.first, h.counter, Bool.not_not, Bool.and_comm] at hf
    rw [hf]
    exact Bool.false_ne_true
  | true =>
    have hdata : dataToSerialBuffer (s.separator.first 255 val) din = din n := by
      refine dataToSerialBuffer_eq (fun a => ?_) din
      simp only [Chooser.first, Bool.and_eq_true, decide_eq_true_iff] at hf ⊢
      simp only [hf.1, hf.2, Bool.and_true, Option.some.injEq]
      exact decide_eq_decide.2 eq_comm
    rw [Chooser.first, h.counter, Bool.not_not, Bool.and_comm] at hf
    rw [hdata, hf]

end ChipOut

/-- The chip's transmitter keeps at most 255 flits of a network without credit. -/
def chipOutLaw : chipOut.Law 255 where
  Ok := ChipOut.Ok
  wanted _ _ := false
  promised s := s.serial.promised
  init_ok h := by
    cases h
    exact ⟨rfl, fun hc => absurd hc (by decide), fun _ => rfl, fun _ => Nat.zero_le _⟩
  init_wanted _ _ := rfl
  init_promised h := by
    cases h
    exact ⟨paired_idle.2 paired_nil, fun _ => rfl⟩
  owed_le h := h.le
  val_of_rdy _ _ n hr := by
    have hb := ChipOut.unblocked_of_first hr
    simpa [Chooser.blocked] using (Bool.or_eq_false_iff.1 hb).2
  next_ok h _ ho hback := ChipOut.ok_next h ho hback
  next_wanted _ _ _ hw := by cases hw
  next_promised h _ := ChipOut.promised_next h

/-! ### The FPGA -/

/-- `fpga_bridge_send_32`, but for its queues of flits. -/
structure FpgaOut where
  separator : NetworkChooser32
  serial : SerialBuffer
  serialBufferDataF : BitVec 32
  serialBufferChannelF : Channel
  creditFromChipF : Credits
  creditFromChipFf : Credits
  creditFifoWrenF : Bool
  creditFifo : AsyncFifo 9 Credits
  creditFifoOutF : Credits

namespace FpgaOut

/-- After reset, in which the chip sends no credits. -/
def Init (s : FpgaOut) : Prop :=
  s.separator = .init ∧ s.serial.channel = none ∧ s.serial.counter = true ∧
    s.serialBufferChannelF = none ∧ s.creditFromChipF = (fun _ => false) ∧ s.creditFifoWrenF = false ∧
    (∃ fifo, s.creditFifo = .init fifo) ∧ s.creditFifoOutF = fun _ => false

/-- The wires' two clocks are one. -/
def creditInput (s : FpgaOut) (blur : BitVec 11 × BitVec 11) : FifoInput 9 Credits where
  wclk := true
  wval := s.creditFifoWrenF
  wdata := s.creditFromChipFf
  rclk := true
  ren := true
  blurR := blur.1
  blurW := blur.2

end FpgaOut

/-- The input is what the synchronisers of the credit queue see of the pointers that change. -/
def fpgaOut (threshold : BitVec 9) : Transmitter FpgaOut (BitVec 11 × BitVec 11) where
  init := FpgaOut.Init
  word s := (s.serialBufferChannelF, s.serialBufferDataF)
  rdy s _ := s.separator.rdyF
  next s blur val din back :=
    { separator := s.separator.next threshold val s.creditFifoOutF
      serial := s.serial.next s.separator.base.selectReg (dataToSerialBuffer s.separator.rdyF din)
      serialBufferDataF := s.serial.data
      serialBufferChannelF := s.serial.channel
      creditFromChipF := back
      creditFromChipFf := s.creditFromChipF
      creditFifoWrenF := s.creditFromChipF .net1 || s.creditFromChipF .net2 || s.creditFromChipF .net3
      creditFifo := s.creditFifo.next (s.creditInput blur)
      creditFifoOutF := if s.creditFifo.rempty then fun _ => false else s.creditFifo.rdata }

namespace FpgaOut

/-- The buffer has a half left in the cycle after a read, and the chooser has counted the credits that are
owed or are still in the registers and in the queue. -/
structure Ok (threshold : BitVec 9) (s : FpgaOut) (o : Net → Nat) (l : FifoLog Credits) : Prop where
  chooser : s.separator.Ok
  reading : s.separator.base.selectCounter = true → s.serial.counter = true
  loading : s.serial.counter = true → s.separator.base.selectReg ≠ none →
    s.separator.base.selectCounter = true
  channel : s.serial.counter = false → s.serial.channel ≠ none
  fifo : Tracks s.creditFifo l
  draining : Draining l
  credit : ∀ n, (s.separator.base.credit n).toNat + credited n l.out = o n +
    (s.creditFromChipF n).toNat + (s.creditFifoWrenF && s.creditFromChipFf n).toNat +
    credited n l.written + (s.creditFifoOutF n).toNat
  le : ∀ n, s.separator.base.credit n ≤ threshold
  lt : ∀ n, s.separator.rdyF n = true → s.separator.base.credit n < threshold

variable {threshold : BitVec 9} {s : FpgaOut} {o o' : Net → Nat} {l : FifoLog Credits}
  {val back : Net → Bool} {din : Net → Flit} {blur : BitVec 11 × BitVec 11} {n : Net}

theorem init_ok (h : s.Init) : s.Ok threshold (fun _ => 0) .empty := by
  obtain ⟨hsep, -, hcounter, -, hf, hwren, ⟨fifo, hfifo⟩, hout⟩ := h
  refine ⟨hsep ▸ .init, fun _ => hcounter, fun _ hne => ?_, fun hc => ?_, hfifo ▸ .init fifo, ?_,
    fun n => ?_, fun n => ?_, fun n hr => ?_⟩
  · rw [hsep] at hne
    exact absurd rfl hne
  · rw [hcounter] at hc
    cases hc
  · exact ⟨by decide, by decide, by decide, by decide, by decide⟩
  · rw [hsep, hf, hwren, hout]
    rfl
  · rw [hsep]
    exact Nat.zero_le _
  · rw [hsep] at hr
    cases hr

/-- What the chooser decides on is not blocked, and nothing is read meanwhile. -/
theorem first_next (h : s.Ok threshold o l) (hf : s.separator.base.first threshold val n = true) :
    s.separator.base.credit n ≠ threshold ∧ val n = true ∧ ∀ a, s.separator.rdyF a = false := by
  simp only [Chooser.first, Bool.and_eq_true, decide_eq_true_iff, Bool.not_eq_true'] at hf
  have hb := (Chooser.select_eq_some hf.1 hf.2).1
  simp only [Chooser.blocked, Bool.or_eq_false_iff, decide_eq_false_iff_not, Bool.not_eq_false'] at hb
  exact ⟨hb.1, hb.2, fun a => by rw [h.chooser.rdy, hf.2, Bool.false_and]⟩

theorem sends_eq (hval : ∀ n, s.separator.rdyF n = true → val n = true) (n : Net) :
    Chooser.sends val s.separator.rdyF n = s.separator.rdyF n := by
  cases hr : s.separator.rdyF n with
  | false => rw [Chooser.sends, hr, Bool.false_and]
  | true => rw [Chooser.sends, hr, hval n hr, Bool.and_true]

/-- A credit that comes to the chooser was counted. -/
theorem toNat_credit_next (h : s.Ok threshold o l)
    (hval : ∀ n, s.separator.rdyF n = true → val n = true) (n : Net) :
    ((s.separator.base.creditNext val s.separator.rdyF s.creditFifoOutF n).toNat +
      (s.creditFifoOutF n).toNat =
        (s.separator.base.credit n).toNat + (s.separator.rdyF n).toNat) := by
  have hcredit := h.credit n
  have hout := credited_mono (n := n) h.fifo.out
  have hlt : Chooser.sends val s.separator.rdyF n = true → s.separator.base.credit n < threshold :=
    fun hs => h.lt n (sends_eq hval n ▸ hs)
  rw [← sends_eq hval n]
  refine Chooser.toNat_creditNext threshold s.separator.base hlt fun hb hz => ?_
  rw [hb, hz, show (0 : BitVec 9).toNat = 0 from rfl, Bool.toNat_true] at hcredit
  omega

theorem fifo_writes (h : s.Ok threshold o l) :
    s.creditFifo.writes (s.creditInput blur) = s.creditFifoWrenF := by
  have hfull := not_full_of_draining h.fifo h.draining (by decide)
  simp [AsyncFifo.writes, creditInput, hfull]

theorem fifo_reads : s.creditFifo.reads (s.creditInput blur) = !s.creditFifo.rempty := by
  simp [AsyncFifo.reads, creditInput]

variable (blur) in
theorem credit_next (h : s.Ok threshold o l) (hval : ∀ n, s.separator.rdyF n = true → val n = true)
    (ho : ∀ n, o' n + (back n).toNat = o n + (s.separator.rdyF n).toNat) (n : Net) :
    (s.separator.base.creditNext val s.separator.rdyF s.creditFifoOutF n).toNat +
        credited n (l.update s.creditFifo (s.creditInput blur)).out = o' n + (back n).toNat +
      (((s.creditFromChipF .net1 || s.creditFromChipF .net2 || s.creditFromChipF .net3) &&
        s.creditFromChipF n).toNat + credited n (l.update s.creditFifo (s.creditInput blur)).written +
      ((if s.creditFifo.rempty then fun _ => false else s.creditFifo.rdata : Credits) n).toNat) := by
  have hcount := toNat_credit_next h hval n
  have hcredit := h.credit n
  have hn := ho n
  have hany : ((s.creditFromChipF .net1 || s.creditFromChipF .net2 || s.creditFromChipF .net3) &&
      s.creditFromChipF n) = s.creditFromChipF n := by
    cases n <;> grind
  have hout : credited n (l.update s.creditFifo (s.creditInput blur)).out = credited n l.out +
      ((if s.creditFifo.rempty then fun _ => false else s.creditFifo.rdata : Credits) n).toNat := by
    change credited n (if s.creditFifo.reads (s.creditInput blur) then _ else _) = _
    rw [fifo_reads]
    cases s.creditFifo.rempty <;> simp [credited_append, credited_single]
  have hwritten : credited n (l.update s.creditFifo (s.creditInput blur)).written =
      credited n l.written + (s.creditFifoWrenF && s.creditFromChipFf n).toNat := by
    change credited n (if s.creditFifo.writes (s.creditInput blur) then _ else _) = _
    rw [fifo_writes h]
    cases s.creditFifoWrenF <;> simp [credited_append, credited_single, creditInput]
  rw [hany, hout, hwritten]
  omega

/-- The chooser enters the second cycle of a selection from the first. -/
theorem selectCounter_next
    (hc : ((fpgaOut threshold).next s blur val din back).separator.base.selectCounter = true) :
    s.separator.base.selectCounter = false := by
  change (if s.separator.base.select threshold val = none then false
    else !s.separator.base.selectCounter) = true at hc
  split at hc
  · cases hc
  · simpa using hc

theorem ok_next (h : s.Ok threshold o l) (hval : ∀ n, s.separator.rdyF n = true → val n = true)
    (ho : ∀ n, o' n + (back n).toNat = o n + (s.separator.rdyF n).toNat) :
    ((fpgaOut threshold).next s blur val din back).Ok threshold o'
      (l.update s.creditFifo (s.creditInput blur)) where
  chooser := NetworkChooser32.ok_next
  reading hc := by
    have hoff := selectCounter_next hc
    change (s.serial.next _ _).counter = true
    rw [SerialBuffer.counter_next h.channel]
    cases hcounter : s.serial.counter with
    | false => rfl
    | true =>
      have hreg : s.separator.base.selectReg = none := by
        by_contra hne
        have := h.loading hcounter hne
        rw [hoff] at this
        cases this
      simp [hreg]
  loading hc hne := by
    change (s.serial.next _ _).counter = true at hc
    change s.separator.base.select threshold val ≠ none at hne
    rw [SerialBuffer.counter_next h.channel] at hc
    have hoff : s.separator.base.selectCounter = false := by
      by_contra hon
      rw [Bool.not_eq_false] at hon
      simp [h.reading hon, h.chooser.busy hon] at hc
    change (if s.separator.base.select threshold val = none then false
      else !s.separator.base.selectCounter) = true
    rw [if_neg hne, hoff]
    rfl
  channel := SerialBuffer.channel_next h.channel
  fifo := h.fifo.step
  draining := draining_next h.fifo h.draining rfl rfl rfl
  credit n := by
    have hnext := credit_next blur h hval ho n
    rw [← Nat.add_assoc, ← Nat.add_assoc] at hnext
    exact hnext
  le n := by
    have hcount := toNat_credit_next h hval n
    have hle := h.le n
    change s.separator.base.creditNext val s.separator.rdyF s.creditFifoOutF n ≤ threshold
    rw [BitVec.le_def] at hle ⊢
    cases hr : s.separator.rdyF n with
    | false =>
      rw [hr, Bool.toNat_false] at hcount
      omega
    | true =>
      have hlt := h.lt n hr
      rw [BitVec.lt_def] at hlt
      rw [hr, Bool.toNat_true] at hcount
      omega
  lt n hr := by
    obtain ⟨hne, -, hquiet⟩ := first_next h hr
    have hcount := toNat_credit_next h hval n
    have hlt := BitVec.lt_of_le_ne (h.le n) hne
    change s.separator.base.creditNext val s.separator.rdyF s.creditFifoOutF n < threshold
    rw [BitVec.lt_def] at hlt ⊢
    rw [hquiet n, Bool.toNat_false] at hcount
    omega

theorem promised_next (h : s.Ok threshold o l) :
    ∃ new, ((s.serialBufferChannelF, s.serialBufferDataF) :: s.serial.promised) ++ new =
      (s.serialBufferChannelF, s.serialBufferDataF) :: (s.serial.channel, s.serial.data) ::
        (s.serial.next s.separator.base.selectReg
          (dataToSerialBuffer s.separator.rdyF din)).promised ∧ Paired new ∧
      ∀ n, crossing join n new = if s.separator.rdyF n then [din n] else [] := by
  obtain ⟨new, hnew, hpaired, hcross⟩ := SerialBuffer.promised_next s.separator.base.selectReg
    (dataToSerialBuffer s.separator.rdyF din) h.channel
  refine ⟨new, by rw [List.cons_append, hnew], hpaired, fun n => ?_⟩
  rw [hcross]
  have hbusy : (s.serial.counter && decide (s.separator.base.selectReg = some n)) =
      s.separator.rdyF n := by
    rw [h.chooser.rdy]
    by_cases hreg : s.separator.base.selectReg = some n
    · rw [decide_eq_true hreg, Bool.and_true, Bool.and_true, Bool.eq_iff_iff]
      exact ⟨fun hc => h.loading hc (by simp [hreg]), h.reading⟩
    · rw [decide_eq_false hreg, Bool.and_false, Bool.and_false]
  rw [hbusy]
  cases hr : s.separator.rdyF n with
  | false => rfl
  | true =>
    have hdata : dataToSerialBuffer s.separator.rdyF din = din n := by
      refine dataToSerialBuffer_eq (fun a => ?_) din
      rw [h.chooser.rdy, Bool.and_eq_true, decide_eq_true_iff] at hr
      simp only [h.chooser.rdy, hr.1, hr.2, Bool.true_and, Option.some.injEq]
      exact decide_eq_decide.2 eq_comm
    rw [hdata]

end FpgaOut

/-- The FPGA's transmitter keeps at most `FULL_THRESHOLD` flits of a network without credit. -/
def fpgaOutLaw (threshold : BitVec 9) : (fpgaOut threshold).Law threshold.toNat where
  Ok s o := ∃ l, s.Ok threshold o l
  wanted s := s.separator.rdyF
  promised s := (s.serialBufferChannelF, s.serialBufferDataF) :: s.serial.promised
  init_ok h := ⟨_, FpgaOut.init_ok h⟩
  init_wanted h n := by
    rw [h.1]
    rfl
  init_promised {s} h := by
    have hpromised : s.serial.promised = [(none, s.serial.data)] := by
      simp [SerialBuffer.promised, h.2.1, h.2.2.1]
    rw [hpromised, h.2.2.2.1]
    exact ⟨paired_idle.2 (paired_idle.2 paired_nil), fun _ => rfl⟩
  owed_le {s o} h n := by
    obtain ⟨l, h⟩ := h
    have hcredit := h.credit n
    have hout := credited_mono (n := n) h.fifo.out
    have hle := BitVec.le_def.1 (h.le n)
    omega
  val_of_rdy _ hval := hval
  next_ok h hval ho _ := by
    obtain ⟨l, h⟩ := h
    exact ⟨_, FpgaOut.ok_next h hval ho⟩
  next_wanted h hval n hw := by
    obtain ⟨l, h⟩ := h
    have hfirst := FpgaOut.first_next h hw
    exact ⟨hfirst.2.1, hfirst.2.2 n⟩
  next_promised h _ := by
    obtain ⟨l, h⟩ := h
    exact FpgaOut.promised_next h

end Piton.Bridge
