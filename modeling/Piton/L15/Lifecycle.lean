import Piton.L15.Entries

/-! The life of an MSHR: S1 allocates a free entry, the entry keeps its contents, and only the
response to the request that allocated it frees it.

Serial numbers tell the requests of an entry apart. Each allocation takes the next number of its
entry, and the number goes with the request through the pipeline, the NoC1 buffer and the outside,
and comes back with the answer. -/

namespace Piton.L15

open Hw

/-! ### Serial numbers -/

/-- The serial numbers of the newest allocations, and of the requests and answers under way. -/
structure Serials where
  alloc : MshrId → ThreadId → Nat
  s2 : Nat
  s3 : Nat
  slot : Fin 8 → Nat
  outstanding : MshrId → ThreadId → Nat
  noc2 : Nat

/-- No entry was allocated. -/
def Serials.zero : Serials :=
  { alloc := fun _ _ => 0, s2 := 0, s3 := 0, slot := fun _ => 0, outstanding := fun _ _ => 0,
    noc2 := 0 }

/-- The serial numbers after a cycle. An issued NoC2 message keeps the number of the request that it
answers, an issued PCX request takes the next number of its entry. -/
def serialsNext (g : Serials) (y : State × Traffic) (i : Inputs) : Serials where
  alloc id t :=
    if (y.1.mshrS1Write i).allocates id t then g.alloc id t + 1 else g.alloc id t
  s2 :=
    if y.1.stallS2 i then g.s2
    else if y.1.predecodeSource = .noc2 then g.noc2
    else g.alloc y.1.s1Instr.mshrid y.1.s1Instr.threadid + 1
  s3 := if y.1.stallS3 i then g.s3 else g.s2
  slot k :=
    if (y.1.noc1Request i).val && y.1.noc1buffer.commandWrindex = k then g.s3 else g.slot k
  outstanding id t :=
    if y.1.sends i id t then g.slot y.1.noc1buffer.commandRdindex else g.outstanding id t
  noc2 :=
    match y.1.noc2Accepts i with
    | some m => g.outstanding m.mshrid m.threadid
    | none => g.noc2

/-- The L1.5, its traffic and the serial numbers. -/
def serialSystem : Machine ((State × Traffic) × Serials) Inputs :=
  system.withHistory Serials.zero serialsNext

/-! ### The property -/

/-- One cycle in the life of the entry `id` of thread `t`. Since every allocation takes a new
number, a repeated deallocation of an older request never frees a newer one. -/
structure Lifecycle (y : (State × Traffic) × Serials) (i : Inputs) (id : MshrId) (t : ThreadId) :
    Prop where
  allocatesFree : (y.1.1.mshrS1Write i).allocates id t = true → y.1.1.mshr.val id t = false
  allocated : y.1.1.mshr.val id t = false → (y.1.1.step i).mshr.val id t = true →
    (y.1.1.mshrS1Write i).allocates id t = true
  allocationWins : (y.1.1.mshrS1Write i).allocates id t = true →
    (y.1.1.step i).mshr.val id t = true
  stays : y.1.1.mshr.val id t = true → y.1.1.mshrS3Write.deallocates id t = false →
    (y.1.1.step i).mshr.val id t = true
  kept : y.1.1.mshr.val id t = true →
    (y.1.1.step i).mshr.readControl id t = y.1.1.mshr.readControl id t ∧
      (y.1.1.step i).mshr.address id t = y.1.1.mshr.address id t
  freedByOwn : y.1.1.mshr.val id t = true → y.1.1.mshrS3Write.deallocates id t = true →
    y.2.s3 = y.2.alloc id t ∧
      (y.1.1.s3.completes id t = true ∨ (y.1.1.reqS3 id t && y.1.1.hitS3) = true)

/-! ### The numbers of requests under way -/

/-- Every request and every answer of an entry has the number of the newest allocation. -/
structure SerialInv (y : (State × Traffic) × Serials) : Prop where
  s2 : ∀ id t, (y.1.1.reqS2 id t || y.1.1.ackS2 id t) = true → y.2.s2 = y.2.alloc id t
  s3 : ∀ id t, (y.1.1.reqS3 id t || y.1.1.ackS3 id t) = true → y.2.s3 = y.2.alloc id t
  slot : ∀ k id t, y.1.1.noc1buffer.commandBufferVal k = true →
    (y.1.1.noc1buffer.commandBuffer k).waits id t = true → y.2.slot k = y.2.alloc id t
  outstanding : ∀ id t, (y.1.2.outstanding id t).isSome = true →
    y.2.outstanding id t = y.2.alloc id t
  noc2 : ∀ id t, y.1.1.answerWaits id t = true → y.2.noc2 = y.2.alloc id t

variable {y : State × Traffic} {g : Serials} {i : Inputs} {id : MshrId} {t : ThreadId}

theorem serialInv_init {z : (State × Traffic) × Serials} (h : serialSystem.init z) :
    SerialInv z := by
  obtain ⟨⟨hs, ht⟩, hg⟩ := h
  refine ⟨fun id t hr => ?_, fun id t hr => ?_, fun k id t hk => ?_, fun id t ho => ?_,
    fun id t ha => ?_⟩
  · unfold State.reqS2 State.ackS2 at hr
    rw [hs.valS2] at hr
    exact absurd hr Bool.false_ne_true
  · unfold State.reqS3 State.ackS3 at hr
    rw [hs.valS3] at hr
    exact absurd hr Bool.false_ne_true
  · rw [hs.commandBufferVal k] at hk
    exact absurd hk Bool.false_ne_true
  · rw [ht] at ho
    exact absurd ho Bool.false_ne_true
  · unfold State.answerWaits at ha
    rw [hs.noc2Val] at ha
    exact absurd ha Bool.false_ne_true

/-- The request of an entry that is in S2 is nowhere else. -/
theorem Inv.only_reqS2 (h : Inv y) (hr : y.1.reqS2 id t = true) :
    y.1.reqS3 id t = false ∧ y.1.reqBuffered id t = 0 ∧ (y.2.outstanding id t).isSome = false ∧
      y.1.answerWaits id t = false ∧ y.1.ackS3 id t = false := by
  have htok := h.tokens id t
  have hle := Bool.toNat_le (y.1.mshr.val id t)
  unfold State.tokens at htok
  rw [hr, Bool.toNat_true] at htok
  refine ⟨Bool.toNat_eq_zero.1 ?_, ?_, Bool.toNat_eq_zero.1 ?_, Bool.toNat_eq_zero.1 ?_,
    Bool.toNat_eq_zero.1 ?_⟩ <;> omega

/-- A command that waits for the answer to an entry is one of its buffered requests. -/
theorem reqBuffered_pos {s : State} {k : Fin 8} (hk : s.noc1buffer.commandBufferVal k = true)
    (hw : (s.noc1buffer.commandBuffer k).waits id t = true) : s.reqBuffered id t ≠ 0 := by
  have hle : ((s.noc1buffer.commandBuffer k).waits id t).toNat ≤ s.reqBuffered id t :=
    s.noc1buffer.ring.le_weight (fun c => (c.waits id t).toNat) hk
  rw [hw, Bool.toNat_true] at hle
  omega

/-- An allocated entry has its request in S2. -/
theorem Inv.reqS2_of_allocates (h : Inv y) (ha : (y.1.mshrS1Write i).allocates id t = true) :
    (y.1.step i).reqS2 id t = true ∧ y.1.stallS2 i = false ∧ y.1.predecodeSource ≠ .noc2 ∧
      y.1.s1Instr.mshrid = id ∧ y.1.s1Instr.threadid = t := by
  rw [h.allocates_eq, Bool.and_eq_true] at ha
  obtain ⟨hi, hr⟩ := ha
  have hst := State.stallS2_of_issues hi
  have hsource := (h.issued_request hi hr).source
  refine ⟨?_, hst, by rw [hsource]; decide, ?_, ?_⟩
  · have hs2 : (y.1.step i).reqS2 id t =
        if y.1.stallS2 i then y.1.reqS2 id t else y.1.s1Issues i && y.1.s1Instr.requests id t :=
      State.s2_step fun x => x.requests id t
    rw [hs2, hst, if_neg Bool.false_ne_true, hi, hr, Bool.and_self]
  · unfold Instr.requests at hr
    simp only [Bool.and_eq_true, decide_eq_true_eq] at hr
    exact hr.1.2
  · unfold Instr.requests at hr
    simp only [Bool.and_eq_true, decide_eq_true_eq] at hr
    exact hr.2

theorem alloc_of_not (hno : (y.1.mshrS1Write i).allocates id t = false) :
    (serialsNext g y i).alloc id t = g.alloc id t := by
  show (if (y.1.mshrS1Write i).allocates id t then _ else _) = _
  rw [hno, if_neg Bool.false_ne_true]

theorem alloc_of_allocates (ha : (y.1.mshrS1Write i).allocates id t = true) :
    (serialsNext g y i).alloc id t = g.alloc id t + 1 := by
  show (if (y.1.mshrS1Write i).allocates id t then _ else _) = _
  rw [ha, if_pos rfl]

/-- The number in S2: a stalled instruction keeps it, an allocation takes the next one, and a
completion has that of its answer. -/
theorem SerialInv.step_s2 (hs : SerialInv (y, g)) (h : Inv y)
    (hr : ((y.1.step i).reqS2 id t || (y.1.step i).ackS2 id t) = true) :
    (serialsNext g y i).s2 = (serialsNext g y i).alloc id t := by
  have hreq : (y.1.step i).reqS2 id t =
      if y.1.stallS2 i then y.1.reqS2 id t else y.1.s1Issues i && y.1.s1Instr.requests id t :=
    State.s2_step fun x => x.requests id t
  have hack : (y.1.step i).ackS2 id t =
      if y.1.stallS2 i then y.1.ackS2 id t else y.1.s1Issues i && y.1.s1Instr.completes id t :=
    State.s2_step fun x => x.completes id t
  show (if y.1.stallS2 i then g.s2 else if y.1.predecodeSource = .noc2 then g.noc2
    else g.alloc y.1.s1Instr.mshrid y.1.s1Instr.threadid + 1) = _
  rw [hreq, hack] at hr
  cases hst : y.1.stallS2 i with
  | true =>
    rw [hst, if_pos rfl, if_pos rfl] at hr
    have hno : (y.1.mshrS1Write i).allocates id t = false := by
      rw [h.allocates_eq, State.s1Issues_of_stallS2 hst, Bool.false_and]
    rw [if_pos rfl, alloc_of_not hno]
    exact hs.s2 id t hr
  | false =>
    rw [hst, if_neg Bool.false_ne_true, if_neg Bool.false_ne_true, ← h.allocates_eq] at hr
    rw [if_neg Bool.false_ne_true]
    cases ha : (y.1.mshrS1Write i).allocates id t with
    | true =>
      obtain ⟨-, -, hsource, hid, ht⟩ := h.reqS2_of_allocates ha
      rw [alloc_of_allocates ha, if_neg hsource, hid, ht]
    | false =>
      rw [ha, Bool.false_or, Bool.and_eq_true] at hr
      obtain ⟨hi, hc⟩ := hr
      have hop := hc
      unfold Instr.completes at hop
      simp only [Bool.and_eq_true, decide_eq_true_eq] at hop
      rw [alloc_of_not ha, if_pos (source_of_completes hi hop.1.1)]
      exact hs.noc2 id t (h.answerWaits_of_completes hi hc).1

/-- The number in S3 comes from S2. A stalled S3 holds no request, and a completion that has freed
its entry. -/
theorem SerialInv.step_s3 (hs : SerialInv (y, g)) (h : Inv y)
    (hno : (y.1.mshrS1Write i).allocates id t = false)
    (hr : ((y.1.step i).reqS3 id t || (y.1.step i).ackS3 id t) = true) :
    (serialsNext g y i).s3 = (serialsNext g y i).alloc id t := by
  have hreq : (y.1.step i).reqS3 id t =
      if y.1.stallS3 i then y.1.reqS3 id t else y.1.reqS2 id t :=
    State.s3_step fun x => x.requests id t
  have hack : ((y.1.step i).valS3 && (y.1.step i).s3.completes id t) =
      if y.1.stallS3 i then y.1.valS3 && y.1.s3.completes id t else y.1.ackS2 id t :=
    State.s3_step fun x => x.completes id t
  show (if y.1.stallS3 i then g.s3 else g.s2) = _
  rw [alloc_of_not hno]
  have hr' : (y.1.step i).reqS3 id t = true ∨
      ((y.1.step i).valS3 && (y.1.step i).s3.completes id t) = true ∧
        (y.1.step i).cpxencoder = .normal := by
    rw [Bool.or_eq_true] at hr
    refine hr.imp_right fun hk => ?_
    unfold State.ackS3 at hk
    rwa [Bool.and_eq_true, decide_eq_true_eq] at hk
  cases hst : y.1.stallS3 i with
  | false =>
    rw [hreq, hack, hst, if_neg Bool.false_ne_true, if_neg Bool.false_ne_true] at hr'
    rw [if_neg Bool.false_ne_true]
    refine hs.s2 id t ?_
    rw [Bool.or_eq_true]
    exact hr'.imp_right And.left
  | true =>
    rw [hreq, hack, hst, if_pos rfl, if_pos rfl] at hr'
    rcases hr' with hr' | ⟨hc, hnormal⟩
    · rw [if_pos rfl]
      exact hs.s3 id t (by rw [hr', Bool.true_or])
    · rw [Bool.and_eq_true] at hc
      have hop : y.1.s3.ops.s3MshrOperation = .deallocation := by
        have hc2 := hc.2
        unfold Instr.completes at hc2
        simp only [Bool.and_eq_true, decide_eq_true_eq] at hc2
        exact hc2.1.1
      have hcpx := h.stallS3_of_completion hc.1 hop hst
      rw [(stallForCpx_eq_true (i := i) hcpx).2.2] at hnormal
      cases hnormal

/-- The commands of the buffer after a cycle. -/
theorem command_step {s : State} {k : Fin 8} (hk : (s.step i).noc1buffer.commandBufferVal k = true)
    (hw : ((s.step i).noc1buffer.commandBuffer k).waits id t = true) :
    (((s.noc1Request i).val && s.noc1buffer.commandWrindex = k) = true ∧
        s.reqS3 id t = true) ∨
      (((s.noc1Request i).val && s.noc1buffer.commandWrindex = k) = false ∧
        s.noc1buffer.commandBufferVal k = true ∧
        (s.noc1buffer.commandBuffer k).waits id t = true) := by
  have hslot : (s.step i).noc1buffer.commandBuffer k =
      if (s.noc1Request i).val && s.noc1buffer.commandWrindex = k then
        s.noc1buffer.command (s.noc1Request i)
      else s.noc1buffer.commandBuffer k := by
    show (if (s.noc1Request i).val then
        Function.update s.noc1buffer.commandBuffer s.noc1buffer.commandWrindex
          (s.noc1buffer.command (s.noc1Request i))
      else s.noc1buffer.commandBuffer) k = _
    cases (s.noc1Request i).val with
    | false => simp
    | true =>
      rw [if_pos rfl, Function.update_apply]
      by_cases hkw : k = s.noc1buffer.commandWrindex
      · simp [hkw]
      · simp [hkw, Ne.symm hkw]
  change (if (s.noc1Request i).val && s.noc1buffer.commandWrindex = k then true
    else if s.noc1encoderReqAck i && s.noc1buffer.commandRdindex = k then false
    else s.noc1buffer.commandBufferVal k) = true at hk
  rw [hslot] at hw
  cases hnew : ((s.noc1Request i).val && s.noc1buffer.commandWrindex = k) with
  | true =>
    rw [hnew, if_pos rfl, waits_command] at hw
    refine .inl ⟨rfl, ?_⟩
    have hv : s.valS3 = true := by
      rw [Bool.and_eq_true] at hnew
      have hval := hnew.1
      change ((s.valS3 && s.noc1Condition) && !s.noc1encoderReqStaled) = true at hval
      simp only [Bool.and_eq_true] at hval
      exact hval.1.1
    unfold State.reqS3
    rw [hv, hw, Bool.and_self]
  | false =>
    rw [hnew, if_neg Bool.false_ne_true] at hk hw
    refine .inr ⟨rfl, ?_, hw⟩
    split at hk
    · exact absurd hk Bool.false_ne_true
    · exact hk

theorem SerialInv.step_slot (hs : SerialInv (y, g)) {k : Fin 8}
    (hno : (y.1.mshrS1Write i).allocates id t = false)
    (hk : (y.1.step i).noc1buffer.commandBufferVal k = true)
    (hw : ((y.1.step i).noc1buffer.commandBuffer k).waits id t = true) :
    (serialsNext g y i).slot k = (serialsNext g y i).alloc id t := by
  show (if (y.1.noc1Request i).val && y.1.noc1buffer.commandWrindex = k then g.s3
    else g.slot k) = _
  rw [alloc_of_not hno]
  rcases command_step hk hw with ⟨hnew, hr3⟩ | ⟨hold, hk', hw'⟩
  · rw [hnew, if_pos rfl]
    exact hs.s3 id t (by rw [hr3, Bool.true_or])
  · rw [hold, if_neg Bool.false_ne_true]
    exact hs.slot k id t hk' hw'

/-- A request that the encoder takes was at the head of the buffer. -/
theorem head_of_sends {s : State} (hs : s.sends i id t = true) :
    s.noc1buffer.commandBufferVal s.noc1buffer.commandRdindex = true ∧
      (s.noc1buffer.commandBuffer s.noc1buffer.commandRdindex).waits id t = true := by
  unfold State.sends State.noc1Sent at hs
  cases hack : s.noc1encoderReqAck i with
  | false =>
    rw [hack] at hs
    exact absurd hs Bool.false_ne_true
  | true =>
    rw [hack, if_pos rfl] at hs
    unfold State.noc1encoderReqAck at hack
    rw [Bool.and_eq_true] at hack
    exact ⟨hack.2, hs⟩

theorem SerialInv.step_outstanding (hs : SerialInv (y, g))
    (hno : (y.1.mshrS1Write i).allocates id t = false)
    (ho : ((trafficNext y.2 y.1 i).outstanding id t).isSome = true) :
    (serialsNext g y i).outstanding id t = (serialsNext g y i).alloc id t := by
  show (if y.1.sends i id t then g.slot y.1.noc1buffer.commandRdindex
    else g.outstanding id t) = _
  rw [alloc_of_not hno]
  cases hsend : y.1.sends i id t with
  | true =>
    obtain ⟨hk, hw⟩ := head_of_sends hsend
    rw [if_pos rfl]
    exact hs.slot _ id t hk hw
  | false =>
    rw [if_neg Bool.false_ne_true]
    refine hs.outstanding id t ?_
    change (if y.1.accepts i id t then none else if y.1.sends i id t then y.1.noc1Sent i
      else y.2.outstanding id t).isSome = true at ho
    rw [hsend, if_neg Bool.false_ne_true] at ho
    split at ho
    · exact absurd ho Bool.false_ne_true
    · exact ho

theorem SerialInv.step_noc2 (hs : SerialInv (y, g)) (hok : InputOk y i)
    (hno : (y.1.mshrS1Write i).allocates id t = false)
    (ha : (y.1.step i).answerWaits id t = true) :
    (serialsNext g y i).noc2 = (serialsNext g y i).alloc id t := by
  show (match y.1.noc2Accepts i with
    | some m => g.outstanding m.mshrid m.threadid
    | none => g.noc2) = _
  rw [alloc_of_not hno]
  rcases answerWaits_cases ha with ⟨hw, -⟩ | ⟨hacc, -⟩
  · have hv := (answerWaits_message hw).1
    have hnone : y.1.noc2Accepts i = none := by
      unfold State.noc2Accepts
      rw [hv, if_pos rfl]
    rw [hnone]
    exact hs.noc2 id t hw
  · obtain ⟨m, c, hm, hid, ht, ho, -⟩ := hok.outstanding_of_accepts hacc
    rw [hm]
    show g.outstanding m.mshrid m.threadid = _
    rw [hid, ht]
    exact hs.outstanding id t (by rw [ho]; rfl)

theorem SerialInv.step (hs : SerialInv (y, g)) (h : Inv y) (hok : InputOk y i) :
    SerialInv (serialSystem.step (y, g) i) := by
  have h' : Inv (system.step y i) := h.step hok
  -- an entry allocated in this cycle has its request in S2 and nowhere else
  have honly : ∀ id t, (y.1.mshrS1Write i).allocates id t = true →
      (y.1.step i).reqS3 id t = false ∧ (y.1.step i).reqBuffered id t = 0 ∧
        ((trafficNext y.2 y.1 i).outstanding id t).isSome = false ∧
        (y.1.step i).answerWaits id t = false ∧ (y.1.step i).ackS3 id t = false :=
    fun id t ha => h'.only_reqS2 (h.reqS2_of_allocates ha).1
  refine ⟨fun id t hr => hs.step_s2 h hr, fun id t hr => ?_, fun k id t hk hw => ?_,
    fun id t ho => ?_, fun id t ha' => ?_⟩
  all_goals cases ha : (y.1.mshrS1Write i).allocates id t
  · exact hs.step_s3 h ha hr
  · obtain ⟨hr3, -, -, -, ha3⟩ := honly id t ha
    change ((y.1.step i).reqS3 id t || (y.1.step i).ackS3 id t) = true at hr
    rw [hr3, ha3] at hr
    exact absurd hr Bool.false_ne_true
  · exact hs.step_slot ha hk hw
  · exact absurd (honly id t ha).2.1 (reqBuffered_pos hk hw)
  · exact hs.step_outstanding ha ho
  · change ((trafficNext y.2 y.1 i).outstanding id t).isSome = true at ho
    rw [(honly id t ha).2.2.1] at ho
    exact absurd ho Bool.false_ne_true
  · exact hs.step_noc2 hok ha ha'
  · change (y.1.step i).answerWaits id t = true at ha'
    rw [(honly id t ha).2.2.2.1] at ha'
    exact absurd ha' Bool.false_ne_true

theorem reachable_serialInv {z : (State × Traffic) × Serials}
    (h : serialSystem.Reachable (fun z i => InputOk z.1 i) z) : Inv z.1 ∧ SerialInv z := by
  induction h with
  | init hinit => exact ⟨init_inv hinit.1, serialInv_init hinit⟩
  | step _ hok ih => exact ⟨ih.1.step hok, ih.2.step ih.1 hok⟩

/-! ### Every cycle -/

/-- A completion that meets a valid entry is in its first cycle: the second finds the entry freed
or allocated anew, and then its number is an older one. -/
theorem Inv.ackS3_of_completes (h : Inv y) (hv : y.1.mshr.val id t = true)
    (hv3 : y.1.valS3 = true) (hc : y.1.s3.completes id t = true) : y.1.ackS3 id t = true := by
  unfold State.ackS3
  cases hcpx : y.1.cpxencoder with
  | normal => simp [hv3, hc]
  | secondhalf =>
    rw [h.cpxFreed hcpx id t hc] at hv
    exact absurd hv Bool.false_ne_true

/-- In every cycle of a conforming run, only a free entry is allocated, an entry keeps its contents,
and only the response to its own request frees it. -/
theorem mshrLifecycle {z : (State × Traffic) × Serials}
    (hz : serialSystem.Reachable (fun z i => Conforms z.1 i ∧ IcacheUndisturbed z.1 i) z)
    (i : Inputs) (id : MshrId)
    (t : ThreadId) (hid : id ≠ .none) : Lifecycle z i id t := by
  obtain ⟨y, g⟩ := z
  obtain ⟨h, hs⟩ := reachable_serialInv hz
  have hval : (y.1.step i).mshr.val id t =
      mshrValNext (y.1.mshr.val id t) (y.1.mshrS3Write.deallocates id t)
        ((y.1.mshrS1Write i).allocates id t) := Mshr.tick_val _ _ _ _ _ hid
  unfold mshrValNext at hval
  refine ⟨fun ha => ?_, fun hv hv' => ?_, fun ha => ?_, fun hv hd => ?_, h.mshr_kept i,
    fun hv hd => ?_⟩
  · rw [h.allocates_eq, Bool.and_eq_true] at ha
    exact h.val_of_issues ha.1 ha.2
  · rw [hval, hv, Bool.false_and, Bool.false_or] at hv'
    exact hv'
  · rw [hval, ha, Bool.or_true]
  · rw [hval, hv, hd]
    rfl
  · rw [deallocates_eq] at hd
    rcases h.freed_cases hd with ⟨hv3, hc⟩ | hx
    · have ha3 := h.ackS3_of_completes hv hv3 hc
      exact ⟨hs.s3 id t (by rw [ha3, Bool.or_true]), .inl hc⟩
    · have hr3 := hx
      rw [Bool.and_eq_true] at hr3
      exact ⟨hs.s3 id t (by rw [hr3.1, Bool.true_or]), .inr hx⟩

/-! ### Runs -/

/-- What runs start from: the reset state without traffic and without serial numbers. -/
theorem serialSystem_init : serialSystem.init ((State.reset, Traffic.empty), Serials.zero) :=
  ⟨⟨State.reset_isReset, rfl⟩, rfl⟩

/-- The end of the fill of `fillRun`: its second pass is in S3. -/
def fillSerials : (State × Traffic) × Serials :=
  serialSystem.run ((State.reset, Traffic.empty), Serials.zero) (fillRun ++ [Inputs.quiet])

set_option maxRecDepth 20000 in
theorem mshrLifecycle_fillSerials :
    fillSerials.1.1.mshrS3Write.deallocates .ld 0 = true ∧
      Lifecycle fillSerials Inputs.quiet .ld 0 :=
  ⟨by decide +kernel,
    mshrLifecycle (Machine.Reachable.run (.init serialSystem_init) (by decide +kernel)) _ _ _
      (by decide)⟩

/-- An invalidation of instruction cache lines. -/
def Inputs.icacheInval (v : BitVec 4) : Inputs :=
  Inputs.ofNoc2 { Noc2Message.zero with
    reqtype := .invFwd, icacheType := true, fwdSubcachelineVector := v, address := 0x12340000 }

/-- While the NoC3 encoder is busy, two invalidations fill NoC3 and S3. The second pass of a third
one, of the low half alone, waits in S1 after its message was taken away. The answer to an
instruction fill arrives and is processed in its place, and then once more; in between, the next
fill allocates the entry. -/
def staleAnswerRun : List Inputs :=
  let wait (n : Nat) := List.replicate n Inputs.quiet
  let ifill := Inputs.ofPcx { PcxPacket.zero with rqtype := .ifill, address := 0x12340000 }
  [ifill] ++ wait 5 ++
    ([Inputs.icacheInval 15] ++ wait 3 ++ [Inputs.icacheInval 15] ++ wait 2 ++
      [Inputs.icacheInval 3] ++ wait 3 ++ [Inputs.dataAck .ifill 0 .S 5, ifill]).map
        (fun i => { i with noc3encoderAck := false }) ++
    wait 4

/-- The second response to the first fill is in S3. -/
def staleAnswer : (State × Traffic) × Serials :=
  serialSystem.run ((State.reset, Traffic.empty), Serials.zero) staleAnswerRun

set_option maxRecDepth 20000 in
theorem staleAnswer_reachable :
    serialSystem.Reachable (fun z i => Conforms z.1 i) staleAnswer :=
  Machine.Reachable.run (.init serialSystem_init) (by decide +kernel)

theorem staleAnswer_frees :
    staleAnswer.1.1.mshr.val .ifill 0 = true ∧
      staleAnswer.1.1.mshrS3Write.deallocates .ifill 0 = true ∧
      staleAnswer.2.s3 = 1 ∧ staleAnswer.2.alloc .ifill 0 = 2 := by
  decide +kernel

theorem not_mshrLifecycle :
    ¬ ∀ z, serialSystem.Reachable (fun z i => Conforms z.1 i) z →
      ∀ i id t, id ≠ MshrId.none → Lifecycle z i id t := by
  intro h
  obtain ⟨hv, hd, hs3, halloc⟩ := staleAnswer_frees
  have hown := (h _ staleAnswer_reachable Inputs.quiet .ifill 0 (by decide)).freedByOwn hv hd
  rw [hs3, halloc] at hown
  exact absurd hown.1 (by decide)

end Piton.L15
