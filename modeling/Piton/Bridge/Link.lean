import Piton.Bridge.AsyncFifo
import Piton.Bridge.Chooser
import Piton.Lib.Halves
import Piton.Lib.Wire

/-! One direction of the off-chip link: the flits of three networks share wires of half their width, and
credits come back on other wires. Between a transmitter and a receiver that keep to their laws no flit is
lost or reordered, and the receiver's queues are never full. -/

namespace Piton.Bridge

open Hw

/-- A flit of the on-chip network. -/
abbrev Flit := BitVec 64

/-- `data_channel` and the data of a cycle. -/
abbrev Word := Channel × BitVec 32

/-- A bit for each network. -/
abbrev Credits := Net → Bool

/-- The flit of its two halves on the wires. -/
def join (low high : BitVec 32) : Flit := high ++ low

/-! ### The ends -/

/-- The sending side, from its queues to the wires. `rdy` reads the queues. -/
structure Transmitter (σ β : Type) where
  init : σ → Prop
  word : σ → Word
  rdy : σ → (Net → Bool) → Net → Bool
  next : σ → β → (Net → Bool) → (Net → Flit) → Credits → σ

/-- The receiving side, from the wires to its queues and from the credit queue to the wires. -/
structure Receiver (ρ : Type) where
  init : ρ → Prop
  sortVal : ρ → Net → Bool
  sortData : ρ → Word → Net → Flit
  credit : ρ → Credits
  next : ρ → Word → Bool → Credits → ρ

variable {σ β ρ : Type}

/-- `Ok s o` also says that the credits of `o` have yet to come back, `wanted` is what the transmitter has
seen in its queues and will read, and `promised` are the words that it will put on the wires. -/
structure Transmitter.Law (T : Transmitter σ β) (limit : Nat) where
  Ok : σ → (Net → Nat) → Prop
  wanted : σ → Net → Bool
  promised : σ → List Word
  init_ok : ∀ {s}, T.init s → Ok s fun _ => 0
  init_wanted : ∀ {s}, T.init s → ∀ n, wanted s n = false
  init_promised : ∀ {s}, T.init s → Paired (promised s) ∧ ∀ n, crossing join n (promised s) = []
  owed_le : ∀ {s o}, Ok s o → ∀ n, o n ≤ limit
  val_of_rdy : ∀ {s o val}, Ok s o → (∀ n, wanted s n = true → val n = true) →
    ∀ n, T.rdy s val n = true → val n = true
  next_ok : ∀ {s o o' b val din back}, Ok s o → (∀ n, wanted s n = true → val n = true) →
    (∀ n, o' n + (back n).toNat = o n + (T.rdy s val n).toNat) →
    (∀ n, (back n).toNat ≤ o n) → Ok (T.next s b val din back) o'
  next_wanted : ∀ {s o b val din back}, Ok s o → (∀ n, wanted s n = true → val n = true) →
    ∀ n, wanted (T.next s b val din back) n = true → val n = true ∧ T.rdy s val n = false
  next_promised : ∀ {s o b val din back}, Ok s o → (∀ n, wanted s n = true → val n = true) →
    ∃ new, promised s ++ new = T.word s :: promised (T.next s b val din back) ∧ Paired new ∧
      ∀ n, crossing join n new = if T.rdy s val n then [din n] else []

/-- `held` are the words of which no flit has come yet, and `returning` are the credits on their way to
the wires. -/
structure Receiver.Law (R : Receiver ρ) where
  Ok : ρ → Prop
  held : ρ → List Word
  returning : ρ → Net → Nat
  init_ok : ∀ {r}, R.init r → Ok r
  init_held : ∀ {r}, R.init r → Paired (held r) ∧ ∀ n, crossing join n (held r) = []
  init_returning : ∀ {r}, R.init r → ∀ n, returning r n = 0
  next_ok : ∀ {r w v c}, Ok r → Ok (R.next r w v c)
  next_held : ∀ {r w l v c}, Ok r → Paired (held r ++ w :: l) →
    Paired (held (R.next r w v c) ++ l) ∧ ∀ n, crossing join n (held r ++ w :: l) =
      (if R.sortVal r n then [R.sortData r w n] else []) ++ crossing join n (held (R.next r w v c) ++ l)
  next_returning : ∀ {r w v c} n,
    returning (R.next r w v c) n + (R.credit r n).toNat = returning r n + (v && c n).toNat

/-! ### The link -/

variable {kt kr kc dw dc : Nat}

/-- The wires delay the words by `dw` cycles and the credits by `dc`. -/
structure Link (σ ρ : Type) (kt kr kc dw dc : Nat) where
  txFifo : Net → AsyncFifo kt Flit
  tx : σ
  words : Wire dw Word
  rx : ρ
  rxFifo : Net → AsyncFifo kr Flit
  creditFifo : AsyncFifo kc Credits
  credits : Wire dc Credits

/-- Which clocks have an edge, what is offered and taken, and what the synchronisers see of the pointers
that change. -/
structure LinkInput (kt kr kc : Nat) (β : Type) where
  txClk : Bool
  ioClk : Bool
  rxClk : Bool
  binVal : Net → Bool
  binData : Net → Flit
  boutRdy : Net → Bool
  txBlur : Net → BitVec (kt + 2) × BitVec (kt + 2)
  rxBlur : Net → BitVec (kr + 2) × BitVec (kr + 2)
  creditBlur : BitVec (kc + 2) × BitVec (kc + 2)
  blur : β

namespace Link

variable (T : Transmitter σ β) (R : Receiver ρ) (s : Link σ ρ kt kr kc dw dc)
  (i : LinkInput kt kr kc β)

/-- `network_val`: the transmitter's queue of the network holds a flit. -/
def networkVal (n : Net) : Bool := !(s.txFifo n).rempty

/-- The wires of the transmitter's queue of a network: the tile writes it, the link's clock reads
it. -/
def txInput (n : Net) : FifoInput kt Flit where
  wclk := i.txClk
  wval := i.binVal n
  wdata := i.binData n
  rclk := i.ioClk
  ren := T.rdy s.tx s.networkVal n
  blurR := (i.txBlur n).1
  blurW := (i.txBlur n).2

/-- What the receiver has on its wires. -/
def word : Word := s.words.out (T.word s.tx)

/-- The wires of the receiver's queue of a network: a flit is taken out only with room in the
credit queue. -/
def rxInput (n : Net) : FifoInput kr Flit where
  wclk := i.ioClk
  wval := R.sortVal s.rx n
  wdata := R.sortData s.rx (s.word T) n
  rclk := i.rxClk
  ren := i.boutRdy n && !s.creditFifo.wfull
  blurR := (i.rxBlur n).1
  blurW := (i.rxBlur n).2

/-- The receiver offers a flit of the network to its side of the chip. -/
def boutVal (n : Net) : Bool := !(s.rxFifo n).rempty && !s.creditFifo.wfull

/-- A flit of the network is taken, so that a credit is due. -/
def creditGather (n : Net) : Bool := s.boutVal n && i.boutRdy n

/-- The wires of the credit queue: it is written when a flit of some network is taken. -/
def creditInput : FifoInput kc Credits where
  wclk := i.rxClk
  wval := s.creditGather i .net1 || s.creditGather i .net2 || s.creditGather i .net3
  wdata := s.creditGather i
  rclk := i.ioClk
  ren := true
  blurR := i.creditBlur.1
  blurW := i.creditBlur.2

/-- The credits that the transmitter has on its wires. -/
def back : Credits := s.credits.out (R.credit s.rx)

/-- The edge of whichever clocks tick, over queues, transmitter, receiver and the delayed wires. -/
def next : Link σ ρ kt kr kc dw dc where
  txFifo n := (s.txFifo n).next (s.txInput T i n)
  tx := if i.ioClk then
      T.next s.tx i.blur s.networkVal (fun n => (s.txFifo n).rdata) (s.back R)
    else s.tx
  words := if i.ioClk then s.words.step (T.word s.tx) else s.words
  rx := if i.ioClk then R.next s.rx (s.word T) (!s.creditFifo.rempty) s.creditFifo.rdata else s.rx
  rxFifo n := (s.rxFifo n).next (s.rxInput T R i n)
  creditFifo := s.creditFifo.next (s.creditInput i)
  credits := if i.ioClk then s.credits.step (R.credit s.rx) else s.credits

end Link

/-- The histories of all queues of the link. -/
structure LinkLog where
  tx : Net → FifoLog Flit
  rx : Net → FifoLog Flit
  credit : FifoLog Credits

namespace LinkLog

/-- The histories before the first edge. -/
def empty : LinkLog := ⟨fun _ => .empty, fun _ => .empty, .empty⟩

variable (T : Transmitter σ β) (R : Receiver ρ) (l : LinkLog) (s : Link σ ρ kt kr kc dw dc)
  (i : LinkInput kt kr kc β)

/-- What one edge adds to the histories. -/
def update : LinkLog where
  tx n := (l.tx n).update (s.txFifo n) (s.txInput T i n)
  rx n := (l.rx n).update (s.rxFifo n) (s.rxInput T R i n)
  credit := l.credit.update s.creditFifo (s.creditInput i)

end LinkLog

/-- How many of the credits are for a network. -/
def credited (n : Net) (l : List Credits) : Nat := l.countP fun c => c n

section Credited

variable {n : Net} {a b : List Credits}

theorem credited_append : credited n (a ++ b) = credited n a + credited n b := List.countP_append

theorem credited_single (c : Credits) : credited n [c] = (c n).toNat := by
  cases hc : c n <;> simp [credited, hc]

theorem credited_mono (h : a <+: b) : credited n a ≤ credited n b := h.sublist.countP_le

end Credited

section Invariant

variable {T : Transmitter σ β} {R : Receiver ρ} {limit : Nat} (L : T.Law limit) (K : R.Law)

namespace Link

variable (s : Link σ ρ kt kr kc dw dc)

/-- The words between the two ends' queues. -/
def stream : List Word := K.held s.rx ++ (s.words.cells ++ L.promised s.tx)

/-- The flits of a network between the queues. -/
def inFlight (n : Net) : List Flit := crossing join n (s.stream L K)

end Link

/-- What holds between the link and its logs. -/
structure Sound (s : Link σ ρ kt kr kc dw dc) (l : LinkLog) (o : Net → Nat) : Prop where
  tx : ∀ n, Tracks (s.txFifo n) (l.tx n)
  rx : ∀ n, Tracks (s.rxFifo n) (l.rx n)
  credit : Tracks s.creditFifo l.credit
  ok : L.Ok s.tx o
  rxOk : K.Ok s.rx
  wanted : ∀ n, L.wanted s.tx n = true → s.networkVal n = true
  paired : Paired (s.stream L K)
  flow : ∀ n, (l.tx n).out = (l.rx n).written ++ s.inFlight L K n
  gathered : ∀ n, credited n l.credit.written = (l.rx n).out.length
  seen : ∀ n, credited n (l.credit.written.take l.credit.w2) ≤ (l.rx n).r1
  returned : ∀ n, credited n l.credit.out ≤ (l.rx n).r2
  account : ∀ n, o n + credited n l.credit.out =
    (s.inFlight L K n).length + (l.rx n).written.length + K.returning s.rx n + s.credits.load (· n)

variable {L K} {s : Link σ ρ kt kr kc dw dc} {l : LinkLog} {o : Net → Nat}
  {i : LinkInput kt kr kc β} {n : Net}

namespace Sound

/-- The room that the credits promise is there. -/
theorem not_full (h : Sound L K s l o) (hroom : limit < 2 ^ (kr + 1)) (n : Net) :
    (s.rxFifo n).wfull = false := by
  have hle := L.owed_le h.ok n
  have hacc := h.account n
  have hret := h.returned n
  rw [← Bool.not_eq_true, (h.rx n).wfull_iff]
  omega

theorem val_of_rdy (h : Sound L K s l o) (hr : T.rdy s.tx s.networkVal n = true) :
    (s.txFifo n).rempty = false := by
  simpa [Link.networkVal] using L.val_of_rdy h.ok h.wanted n hr

theorem tx_reads (h : Sound L K s l o) :
    (s.txFifo n).reads (s.txInput T i n) = (i.ioClk && T.rdy s.tx s.networkVal n) := by
  cases hr : T.rdy s.tx s.networkVal n with
  | false => simp [AsyncFifo.reads, Link.txInput, hr]
  | true => simp [AsyncFifo.reads, Link.txInput, hr, h.val_of_rdy hr]

theorem rx_writes (h : Sound L K s l o) (hroom : limit < 2 ^ (kr + 1)) :
    (s.rxFifo n).writes (s.rxInput T R i n) = (i.ioClk && R.sortVal s.rx n) := by
  simp [AsyncFifo.writes, Link.rxInput, h.not_full hroom]

theorem rx_reads : (s.rxFifo n).reads (s.rxInput T R i n) = (i.rxClk && s.creditGather i n) := by
  simp only [AsyncFifo.reads, Link.rxInput, Link.creditGather, Link.boutVal]
  grind

theorem credit_reads : s.creditFifo.reads (s.creditInput i) = (i.ioClk && !s.creditFifo.rempty) := by
  simp [AsyncFifo.reads, Link.creditInput]

theorem credit_writes : s.creditFifo.writes (s.creditInput i) =
    (i.rxClk && (s.creditGather i .net1 || s.creditGather i .net2 || s.creditGather i .net3)) := by
  simp only [AsyncFifo.writes, Link.creditInput, Link.creditGather, Link.boutVal]
  grind

/-- A credit is written for each flit that is read. -/
theorem gathered_next (h : Sound L K s l o) (n : Net) :
    credited n (l.update T R s i).credit.written = ((l.update T R s i).rx n).out.length := by
  have hg := h.gathered n
  have hout := Tracks.length_out (l := l.rx n) (f := s.rxFifo n) (i := s.rxInput T R i n)
  rw [rx_reads] at hout
  refine Eq.trans ?_ hout.symm
  change credited n (if s.creditFifo.writes (s.creditInput i) then
    l.credit.written ++ [s.creditGather i] else l.credit.written) = _
  rw [credit_writes]
  cases hclk : i.rxClk with
  | false => simpa using hg
  | true =>
    rw [Bool.true_and, Bool.true_and]
    split
    next => rw [credited_append, credited_single, hg]
    next hnone =>
      have hn : s.creditGather i n = false := by cases n <;> simp_all
      rw [hg, hn]
      rfl

theorem seen_next (h : Sound L K s l o) (n : Net) :
    credited n ((l.update T R s i).credit.written.take (l.update T R s i).credit.w2) ≤
      ((l.update T R s i).rx n).r1 := by
  obtain ⟨-, hon, hoff⟩ := (h.rx n).rsync1_next (i := s.rxInput T R i n)
  obtain ⟨-, -, -, hw2, hw1, -⟩ := h.credit.order
  have htake : ∀ m ≤ l.credit.written.length,
      (l.update T R s i).credit.written.take m = l.credit.written.take m := by
    intro m hm
    obtain ⟨rest, hrest⟩ := Tracks.written_grows (f := s.creditFifo) (l := l.credit)
      (i := s.creditInput i)
    change (l.credit.update s.creditFifo (s.creditInput i)).written.take m = _
    rw [← hrest, List.take_append_of_le_length hm]
  cases hclk : i.ioClk with
  | false =>
    have hw : (l.update T R s i).credit.w2 = l.credit.w2 := by
      simp [LinkLog.update, FifoLog.update, Link.creditInput, hclk]
    rw [hw, htake _ (hw2.trans hw1)]
    exact (h.seen n).trans (hoff hclk).ge
  | true =>
    have hw : (l.update T R s i).credit.w2 = l.credit.w1 := by
      simp [LinkLog.update, FifoLog.update, Link.creditInput, hclk]
    rw [hw, htake _ hw1]
    exact ((credited_mono (List.take_prefix _ _)).trans (h.gathered n).le).trans (hon hclk).1

theorem returned_next (h : Sound L K s l o) (n : Net) :
    credited n (l.update T R s i).credit.out ≤ ((l.update T R s i).rx n).r2 := by
  have hr := (h.rx n).order
  cases hclk : i.ioClk with
  | false =>
    have hr2 : ((l.update T R s i).rx n).r2 = (l.rx n).r2 := by
      simp [LinkLog.update, FifoLog.update, Link.rxInput, hclk]
    have hout : (l.update T R s i).credit.out = l.credit.out := by
      simp [LinkLog.update, FifoLog.update, credit_reads, hclk]
    rw [hr2, hout]
    exact h.returned n
  | true =>
    have hr2 : ((l.update T R s i).rx n).r2 = (l.rx n).r1 := by
      simp [LinkLog.update, FifoLog.update, Link.rxInput, hclk]
    rw [hr2]
    exact (credited_mono h.credit.out_seen).trans (h.seen n)

theorem credited_le_out (h : Sound L K s l o) (n : Net) :
    credited n l.credit.out ≤ (l.rx n).out.length :=
  (credited_mono h.credit.out).trans (h.gathered n).le

/-- A credit that comes back was owed. -/
theorem back_le (h : Sound L K s l o) (n : Net) : (s.back R n).toNat ≤ o n := by
  have hacc := h.account n
  have hout := h.credited_le_out n
  have hle := (h.rx n).out.length_le
  have hret := K.next_returning (r := s.rx) (w := s.word T) (v := false) (c := s.creditFifo.rdata) n
  have hload := s.credits.load_step (R.credit s.rx) (· n)
  simp only [Bool.false_and, Bool.toNat_false] at hret
  change _ + (s.back R n).toNat = _ at hload
  omega

/-- What an edge of the wires' clock does to the words under way. -/
theorem stream_next (h : Sound L K s l o) (hclk : i.ioClk = true) :
    Paired ((s.next T R i).stream L K) ∧ ∀ n, s.inFlight L K n ++
        (if T.rdy s.tx s.networkVal n then [(s.txFifo n).rdata] else []) =
      (if R.sortVal s.rx n then [R.sortData s.rx (s.word T) n] else []) ++
        (s.next T R i).inFlight L K n := by
  obtain ⟨new, hnew, hpaired, hcross⟩ : ∃ new, L.promised s.tx ++ new = T.word s.tx ::
        L.promised (T.next s.tx i.blur s.networkVal (fun n => (s.txFifo n).rdata) (s.back R)) ∧
      Paired new ∧ ∀ n, crossing join n new =
        if T.rdy s.tx s.networkVal n then [(s.txFifo n).rdata] else [] :=
    L.next_promised h.ok h.wanted
  have hnext : (s.next T R i).stream L K =
      K.held (R.next s.rx (s.word T) (!s.creditFifo.rempty) s.creditFifo.rdata) ++
        ((s.words.step (T.word s.tx)).cells ++ L.promised
          (T.next s.tx i.blur s.networkVal (fun n => (s.txFifo n).rdata) (s.back R))) := by
    simp [Link.stream, Link.next, hclk]
  have hall : s.stream L K ++ new = K.held s.rx ++ s.word T ::
      ((s.words.step (T.word s.tx)).cells ++ L.promised
        (T.next s.tx i.blur s.networkVal (fun n => (s.txFifo n).rdata) (s.back R))) := by
    rw [Link.stream, List.append_assoc, List.append_assoc, hnew, ← List.cons_append, Link.word,
      Wire.out_cons_step, List.append_assoc, List.singleton_append]
  have hp : Paired (s.stream L K ++ new) := (paired_append h.paired).2 hpaired
  rw [hall] at hp
  obtain ⟨hp', hc⟩ := K.next_held h.rxOk hp
  refine ⟨hnext ▸ hp', fun n => ?_⟩
  rw [← hcross, Link.inFlight, ← crossing_append h.paired, hall, hc, Link.inFlight, hnext]

theorem flow_next (h : Sound L K s l o) (hroom : limit < 2 ^ (kr + 1)) (n : Net) :
    ((l.update T R s i).tx n).out =
      ((l.update T R s i).rx n).written ++ (s.next T R i).inFlight L K n := by
  have hout : ((l.update T R s i).tx n).out = if i.ioClk && T.rdy s.tx s.networkVal n then
      (l.tx n).out ++ [(s.txFifo n).rdata] else (l.tx n).out := by
    rw [← h.tx_reads]
    rfl
  have hwritten : ((l.update T R s i).rx n).written = if i.ioClk && R.sortVal s.rx n then
      (l.rx n).written ++ [R.sortData s.rx (s.word T) n] else (l.rx n).written := by
    rw [← h.rx_writes hroom]
    rfl
  rw [hout, hwritten]
  cases hclk : i.ioClk with
  | false =>
    have hkeep : (s.next T R i).inFlight L K n = s.inFlight L K n := by
      simp [Link.inFlight, Link.stream, Link.next, hclk]
    simpa [hkeep] using h.flow n
  | true =>
    have hnext := (h.stream_next hclk).2 n
    have hflow := h.flow n
    cases hr : T.rdy s.tx s.networkVal n <;> cases hv : R.sortVal s.rx n <;>
      simp_all

/-- The credits owed after a step. -/
def owed (T : Transmitter σ β) (R : Receiver ρ) (s : Link σ ρ kt kr kc dw dc) (o : Net → Nat)
    (ioClk : Bool) (n : Net) : Nat :=
  if ioClk then o n + (T.rdy s.tx s.networkVal n).toNat - (s.back R n).toNat else o n

theorem owed_eq (h : Sound L K s l o) (n : Net) :
    owed T R s o true n + (s.back R n).toNat = o n + (T.rdy s.tx s.networkVal n).toNat := by
  have hle := h.back_le n
  simp only [owed, if_true]
  omega

theorem account_next (h : Sound L K s l o) (hroom : limit < 2 ^ (kr + 1)) (n : Net) :
    owed T R s o i.ioClk n + credited n (l.update T R s i).credit.out =
      ((s.next T R i).inFlight L K n).length + ((l.update T R s i).rx n).written.length +
        K.returning (s.next T R i).rx n + (s.next T R i).credits.load (· n) := by
  have hacc := h.account n
  have hwritten := Tracks.length_written (l := l.rx n) (f := s.rxFifo n) (i := s.rxInput T R i n)
  have hout : credited n (l.update T R s i).credit.out =
      credited n l.credit.out + (i.ioClk && !s.creditFifo.rempty && s.creditFifo.rdata n).toNat := by
    change credited n (if s.creditFifo.reads (s.creditInput i) then _ else _) = _
    rw [credit_reads]
    split
    next hread => rw [credited_append, credited_single, hread, Bool.true_and]
    next hread => simp [Bool.eq_false_iff.2 hread]
  change ((l.update T R s i).rx n).written.length = _ at hwritten
  rw [h.rx_writes hroom] at hwritten
  rw [hout, hwritten]
  cases hclk : i.ioClk with
  | false =>
    have hkeep : (s.next T R i).inFlight L K n = s.inFlight L K n := by
      simp [Link.inFlight, Link.stream, Link.next, hclk]
    rw [hkeep]
    simpa [owed, Link.next, hclk] using hacc
  | true =>
    have howed := h.owed_eq n
    have hret : K.returning (s.next T R i).rx n + (R.credit s.rx n).toNat =
        K.returning s.rx n + (!s.creditFifo.rempty && s.creditFifo.rdata n).toNat := by
      simp only [Link.next, hclk, if_true]
      exact K.next_returning n
    have hload : (s.next T R i).credits.load (· n) + (s.back R n).toNat =
        s.credits.load (· n) + (R.credit s.rx n).toNat := by
      simp only [Link.next, hclk, if_true]
      exact s.credits.load_step (R.credit s.rx) (· n)
    have hflight := congrArg List.length ((h.stream_next hclk).2 n)
    have hone : ∀ (b : Bool) (x : Flit), (if b then [x] else []).length = b.toNat := fun b _ => by
      cases b <;> rfl
    rw [List.length_append, List.length_append, hone, hone] at hflight
    simp only [Bool.true_and]
    omega

theorem wanted_next (h : Sound L K s l o) (n : Net)
    (hw : L.wanted (s.next T R i).tx n = true) : (s.next T R i).networkVal n = true := by
  have hseen := w2_mono (h.tx n) (i := s.txInput T i n)
  have hout := Tracks.length_out (l := l.tx n) (f := s.txFifo n) (i := s.txInput T i n)
  have hval : s.networkVal n = true ∧ (i.ioClk && T.rdy s.tx s.networkVal n) = false := by
    cases hclk : i.ioClk with
    | false =>
      rw [Link.next, hclk] at hw
      exact ⟨h.wanted n hw, rfl⟩
    | true =>
      rw [Link.next, hclk] at hw
      have := L.next_wanted h.ok h.wanted n hw
      exact ⟨this.1, by rw [this.2, Bool.and_false]⟩
  have hempty : ¬ (l.tx n).out.length = (l.tx n).w2 := by
    rw [← (h.tx n).rempty_iff]
    simpa [Link.networkVal] using hval.1
  have hle := (h.tx n).order
  rw [h.tx_reads, hval.2] at hout
  have hnext := (h.tx n).step (i := s.txInput T i n)
  rw [Link.networkVal, Bool.not_eq_true', ← Bool.not_eq_true]
  change ¬ ((s.txFifo n).next (s.txInput T i n)).rempty = true
  rw [hnext.rempty_iff]
  simp only [Bool.toNat_false] at hout
  omega

theorem step (h : Sound L K s l o) (hroom : limit < 2 ^ (kr + 1)) (i : LinkInput kt kr kc β) :
    Sound L K (s.next T R i) (l.update T R s i) (owed T R s o i.ioClk) where
  tx n := (h.tx n).step
  rx n := (h.rx n).step
  credit := h.credit.step
  ok := by
    cases hclk : i.ioClk with
    | false =>
      have hkeep : (s.next T R i).tx = s.tx := by simp [Link.next, hclk]
      rw [hkeep]
      exact h.ok
    | true =>
      have hnext : (s.next T R i).tx =
          T.next s.tx i.blur s.networkVal (fun n => (s.txFifo n).rdata) (s.back R) := by
        simp [Link.next, hclk]
      rw [hnext]
      exact L.next_ok h.ok h.wanted h.owed_eq h.back_le
  rxOk := by
    cases hclk : i.ioClk with
    | false =>
      have hkeep : (s.next T R i).rx = s.rx := by simp [Link.next, hclk]
      rw [hkeep]
      exact h.rxOk
    | true =>
      have hnext : (s.next T R i).rx =
          R.next s.rx (s.word T) (!s.creditFifo.rempty) s.creditFifo.rdata := by
        simp [Link.next, hclk]
      rw [hnext]
      exact K.next_ok h.rxOk
  wanted := h.wanted_next
  paired := by
    cases hclk : i.ioClk with
    | false =>
      have hkeep : (s.next T R i).stream L K = s.stream L K := by
        simp [Link.stream, Link.next, hclk]
      rw [hkeep]
      exact h.paired
    | true => exact (h.stream_next hclk).1
  flow := h.flow_next hroom
  gathered := h.gathered_next
  seen := h.seen_next
  returned := h.returned_next
  account := h.account_next hroom

end Sound

end Invariant

/-! ### Runs -/

/-- The link between any transmitter and any receiver as a machine. -/
def link (T : Transmitter σ β) (R : Receiver ρ) (kt kr kc dw dc : Nat) :
    Machine (Link σ ρ kt kr kc dw dc) (LinkInput kt kr kc β) where
  init s := T.init s.tx ∧ R.init s.rx ∧ (∀ n, ∃ fifo, s.txFifo n = .init fifo) ∧
    (∀ n, ∃ fifo, s.rxFifo n = .init fifo) ∧ (∃ fifo, s.creditFifo = .init fifo) ∧
    s.words = .still dw (none, 0) ∧ s.credits = .still dc fun _ => false
  step s i := s.next T R i

/-- The link with the logs of its queues. -/
def loggedLink (T : Transmitter σ β) (R : Receiver ρ) (kt kr kc dw dc : Nat) :
    Machine (Link σ ρ kt kr kc dw dc × LinkLog) (LinkInput kt kr kc β) :=
  (link T R kt kr kc dw dc).withHistory .empty fun l s i => l.update T R s i

section Runs

variable {T : Transmitter σ β} {R : Receiver ρ} {limit : Nat} (L : T.Law limit) (K : R.Law)

theorem Sound.init {s : Link σ ρ kt kr kc dw dc} (h : (link T R kt kr kc dw dc).init s) :
    Sound L K s .empty fun _ => 0 := by
  obtain ⟨ht, hr, htx, hrx, ⟨fifo, hcredit⟩, hwords, hcredits⟩ := h
  have hheld := K.init_held hr
  have hpromised := L.init_promised ht
  have hcells : s.words.cells = List.replicate dw (none, 0) := by
    rw [hwords]
    rfl
  have hflight : ∀ n, s.inFlight L K n = [] := fun n => by
    rw [Link.inFlight, Link.stream, hcells, crossing_append hheld.1, hheld.2,
      crossing_append (paired_replicate dw _), crossing_replicate, hpromised.2]
    rfl
  refine ⟨fun n => ?_, fun n => ?_, hcredit ▸ .init fifo, L.init_ok ht, K.init_ok hr,
    fun n hn => ?_, ?_, fun n => ?_, fun n => rfl, fun n => Nat.le_refl 0, fun n => Nat.le_refl 0, fun n => ?_⟩
  · obtain ⟨fifo, hf⟩ := htx n
    exact hf ▸ .init fifo
  · obtain ⟨fifo, hf⟩ := hrx n
    exact hf ▸ .init fifo
  · rw [L.init_wanted ht] at hn
    cases hn
  · rw [Link.stream, hcells, paired_append hheld.1, paired_append (paired_replicate dw _)]
    exact hpromised.1
  · rw [hflight]
    rfl
  · have hload : s.credits.load (· n) = 0 := by
      rw [hcredits]
      exact Wire.load_still _ (fun c : Credits => c n) rfl
    rw [hflight, K.init_returning hr, hload]
    rfl

theorem sound_of_reachable (hroom : limit < 2 ^ (kr + 1))
    {y : Link σ ρ kt kr kc dw dc × LinkLog}
    (h : (loggedLink T R kt kr kc dw dc).Reachable (fun _ _ => True) y) :
    ∃ o, Sound L K y.1 y.2 o := by
  refine h.invariant (P := fun y => ∃ o, Sound L K y.1 y.2 o) (fun y hy => ?_) fun y i hs _ => ?_
  · rw [hy.2]
    exact ⟨_, .init L K hy.1⟩
  · obtain ⟨o, hs⟩ := hs
    exact ⟨_, hs.step hroom i⟩

/-- On each network, what went into the link came out or is under way, in order; the receiver's queues are
never full, and each credit that is owed is for a flit under way or is on its way back. -/
structure Delivered (y : Link σ ρ kt kr kc dw dc × LinkLog) : Prop where
  written : ∀ n, (y.2.tx n).written = (y.2.rx n).out ++
    ((y.2.rx n).held ++ (y.1.inFlight L K n ++ (y.2.tx n).held))
  not_full : ∀ n, (y.1.rxFifo n).wfull = false
  credits : ∃ o, L.Ok y.1.tx o ∧ ∀ n, o n ≤ limit ∧ o n = (y.1.inFlight L K n).length +
    (y.2.rx n).held.length + credited n y.2.credit.held + K.returning y.1.rx n +
      y.1.credits.load (· n)

theorem delivered (hroom : limit < 2 ^ (kr + 1)) {y : Link σ ρ kt kr kc dw dc × LinkLog}
    (h : (loggedLink T R kt kr kc dw dc).Reachable (fun _ _ => True) y) : Delivered L K y := by
  obtain ⟨o, hs⟩ := sound_of_reachable L K hroom h
  refine ⟨fun n => ?_, hs.not_full hroom, o, hs.ok, fun n => ⟨L.owed_le hs.ok n, ?_⟩⟩
  · rw [written_eq (hs.tx n), hs.flow n, written_eq (hs.rx n)]
    simp only [List.append_assoc]
  · have hacc := hs.account n
    have hlen := length_held (hs.rx n)
    have hgathered := hs.gathered n
    rw [written_eq hs.credit, credited_append] at hgathered
    omega

end Runs

end Piton.Bridge
