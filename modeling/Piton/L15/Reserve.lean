import Piton.L15.Credit

/-! The reserved credits. Each cacheable request reserves, when it is sent, the credit that its fill
will need to evict a line; the first pass of the fill takes it. -/

namespace Piton.L15

open Hw

variable {y : State × Traffic} {s : State} {i : Inputs} {id : MshrId} {t : ThreadId}

/-! ### Requests whose answers have not been started -/

namespace State

variable (s : State) (i : Inputs) (id : MshrId) (t : ThreadId)

/-- The answer to an entry is in the NoC2 buffer and has not been started. -/
def answerNew : Bool := s.noc2Val && s.noc2IsMessageNew && s.noc2.answers id t

/-- S1 starts the answer to an entry. -/
def starts : Bool := s.noc2HeaderAck i && s.noc2.answers id t

/-- The request of an entry is outside and its answer has not been started. -/
def answerDue (g : Traffic) : Nat :=
  (g.outstanding id t).isSome.toNat + (s.answerNew id t).toNat

/-- The entry is that of a cacheable request. -/
def cacheable : Bool := !(s.mshr.readControl id t).nc

/-- The fills under way of an entry, from its request's command to the start of its answer. -/
def fillsDue (g : Traffic) : Nat :=
  if s.cacheable id t then s.reqBuffered id t + s.answerDue id t g else 0

/-- The fills of an entry whose request has left the NoC1 buffer. -/
def fillsOutside (g : Traffic) : Nat := if s.cacheable id t then s.answerDue id t g else 0

end State

/-- The sum over the data entries. -/
def sumEntries (f : MshrId → ThreadId → Nat) : Nat := ∑ t, (f .ld t + f .st t)

theorem sumEntries_single {f : MshrId → ThreadId → Nat} {n : Nat} (id : MshrId) (t : ThreadId)
    (hid : id = .ld ∨ id = .st) (h : ∀ j u, f j u = if j = id ∧ u = t then n else 0) :
    sumEntries f = n := by
  unfold sumEntries
  rcases hid with rfl | rfl <;> simp [h]

theorem sumEntries_zero {f : MshrId → ThreadId → Nat}
    (h : ∀ j u, j = .ld ∨ j = .st → f j u = 0) : sumEntries f = 0 := by
  unfold sumEntries
  refine Finset.sum_eq_zero fun u _ => ?_
  rw [h .ld u (.inl rfl), h .st u (.inr rfl), Nat.add_zero]

theorem sumEntries_congr {f f' g g' : MshrId → ThreadId → Nat}
    (h : ∀ j u, f j u + g j u = f' j u + g' j u) :
    sumEntries f + sumEntries g = sumEntries f' + sumEntries g' := by
  unfold sumEntries
  rw [← Finset.sum_add_distrib, ← Finset.sum_add_distrib]
  refine Finset.sum_congr rfl fun u _ => ?_
  have hld := h .ld u
  have hst := h .st u
  omega

theorem sumEntries_le {f g : MshrId → ThreadId → Nat} (h : ∀ j u, f j u ≤ g j u) :
    sumEntries f ≤ sumEntries g := by
  unfold sumEntries
  exact Finset.sum_le_sum fun u _ => Nat.add_le_add (h .ld u) (h .st u)

/-! ### One entry -/

/-- The weight of the command buffer after a cycle that overwrites nothing. -/
theorem weight_tick_eq (b : Noc1Buffer) (r : Noc1Request) (ack : Bool) (f : Noc1Command → Nat)
    (hack : ack = true → b.headVal = true)
    (hfree : r.val = true → b.commandBufferVal b.commandWrindex = false) :
    (b.tick r ack).ring.weight f + (if ack then f b.head else 0) =
      b.ring.weight f + (if r.val then f (b.command r) else 0) := by
  have hpop : (if ack then b.ring.pop else b.ring).weight f + (if ack then f b.head else 0) =
      b.ring.weight f := by
    cases hk : ack with
    | false => rfl
    | true => exact b.ring.weight_pop f (hack hk)
  rw [ring_tick]
  cases hr : r.val with
  | false =>
    rw [if_neg Bool.false_ne_true, if_neg Bool.false_ne_true]
    omega
  | true =>
    have hwr : (if ack then b.ring.pop else b.ring).full
        (if ack then b.ring.pop else b.ring).wr = false := by
      cases ack with
      | false => exact hfree hr
      | true =>
        show Function.update b.commandBufferVal b.commandRdindex false b.commandWrindex = false
        rw [Function.update_apply, hfree hr]
        exact ite_self _
    have hpush := (if ack then b.ring.pop else b.ring).weight_push f (b.command r) hwr
    rw [if_pos rfl, if_pos rfl]
    omega

theorem headVal_of_sends (h : s.sends i id t = true) :
    s.noc1buffer.commandBufferVal s.noc1buffer.commandRdindex = true ∧
      (s.noc1buffer.commandBuffer s.noc1buffer.commandRdindex).waits id t = true := by
  unfold State.sends State.noc1Sent at h
  cases hack : s.noc1encoderReqAck i with
  | false =>
    rw [hack] at h
    exact absurd h Bool.false_ne_true
  | true =>
    rw [hack] at h
    unfold State.noc1encoderReqAck at hack
    rw [Bool.and_eq_true] at hack
    exact ⟨hack.2, h⟩

/-- What the encoder sends for an entry was in the buffer. -/
theorem one_le_reqBuffered (h : s.sends i id t = true) : 1 ≤ s.reqBuffered id t := by
  obtain ⟨hfull, hw⟩ := headVal_of_sends h
  have hle : ((s.noc1buffer.commandBuffer s.noc1buffer.commandRdindex).waits id t).toNat ≤
      s.reqBuffered id t :=
    s.noc1buffer.ring.le_weight (fun c => (c.waits id t).toNat) hfull
  rw [hw] at hle
  exact hle

theorem reqBuffered_step_eq (s : State) (i : Inputs) (id : MshrId) (t : ThreadId)
    (hfree : (s.noc1Request i).val = true →
      s.noc1buffer.commandBufferVal s.noc1buffer.commandWrindex = false) :
    (s.step i).reqBuffered id t + (s.sends i id t).toNat =
      s.reqBuffered id t + (s.pushes i id t).toNat := by
  have hw := weight_tick_eq s.noc1buffer (s.noc1Request i) (s.noc1encoderReqAck i)
    (fun c => (c.waits id t).toNat) (fun hk => by
      unfold State.noc1encoderReqAck at hk
      rw [Bool.and_eq_true] at hk
      exact hk.2) hfree
  have hsent : (s.sends i id t).toNat =
      if s.noc1encoderReqAck i then (s.noc1buffer.head.waits id t).toNat else 0 := by
    unfold State.sends State.noc1Sent
    cases s.noc1encoderReqAck i <;> rfl
  have hpush : (s.pushes i id t).toNat =
      if (s.noc1Request i).val then
        ((s.noc1buffer.command (s.noc1Request i)).waits id t).toNat else 0 := by
    unfold State.pushes
    cases (s.noc1Request i).val <;> rfl
  rw [hsent, hpush]
  exact hw

/-- A request waits outside from the time the encoder takes it to the arrival of its answer. -/
theorem Inv.outstanding_step_eq (h : Inv y) (hok : InputOk y i) (id : MshrId) (t : ThreadId) :
    ((trafficNext y.2 y.1 i).outstanding id t).isSome.toNat + (y.1.accepts i id t).toNat =
      (y.2.outstanding id t).isSome.toNat + (y.1.sends i id t).toNat := by
  have htok := h.tokens id t
  have hval := Bool.toNat_le (y.1.mshr.val id t)
  unfold State.tokens at htok
  have htrue : true.toNat = 1 := rfl
  show (if y.1.accepts i id t then none else if y.1.sends i id t then y.1.noc1Sent i
    else y.2.outstanding id t).isSome.toNat + _ = _
  cases ha : y.1.accepts i id t with
  | true =>
    obtain ⟨-, c, -, -, -, ho, -⟩ := hok.outstanding_of_accepts ha
    have hsome : (some c).isSome.toNat = 1 := rfl
    have hno : y.1.sends i id t = false := by
      by_contra hs
      have hone := one_le_reqBuffered (i := i) (by simpa using hs)
      rw [ho, hsome] at htok
      omega
    rw [ho, hno]
    rfl
  | false =>
    cases hs : y.1.sends i id t with
    | false => rfl
    | true =>
      have hone := one_le_reqBuffered hs
      have hnone : (y.2.outstanding id t).isSome = false := by
        by_contra hsome
        rw [Bool.not_eq_false] at hsome
        rw [hsome] at htok
        omega
      have hsent : (y.1.noc1Sent i).isSome = true := by
        unfold State.sends at hs
        cases hn : y.1.noc1Sent i with
        | none =>
          rw [hn] at hs
          exact absurd hs Bool.false_ne_true
        | some c => rfl
      rw [hnone]
      simp [hsent]

/-- A message that S1 starts, or takes away while it is new, is started in this cycle. -/
theorem Inv.noc2HeaderAck_of_noc2Ack (h : Inv y) (hv : y.1.noc2Val = true)
    (hn : y.1.noc2IsMessageNew = true) (hack : y.1.noc2Ack i = true) :
    y.1.noc2HeaderAck i = true := by
  have hheld : y.1.noc2Held = false := by
    unfold State.noc2Held
    simp [hn]
  rw [h.noc2Ack_eq i (.inr hheld), Bool.and_eq_true, decide_eq_true_eq] at hack
  obtain ⟨hi, hst⟩ := hack
  rcases source_cases hi with ⟨hs, hfs⟩ | ⟨hs, -⟩
  · have hnormal : y.1.fetchState = .normal := by
      by_contra hne
      have hpass : y.1.noc2PassUser = true := by
        unfold State.noc2PassUser
        rw [hv]
        cases hf : y.1.fetchState <;> first | exact absurd hf hne | exact absurd hf hfs | rfl
      rw [(h.noc2Val_of_pass hpass).2] at hn
      exact absurd hn Bool.false_ne_true
    unfold State.noc2HeaderAck
    simp [hs, hi, hnormal]
  · rw [(pcx_signals hs).1] at hst
    cases hst

/-- A new answer stays until S1 starts it. -/
theorem Inv.answerNew_step (h : Inv y) (hidle : y.1.noc2Val = false → y.1.noc2IsMessageNew = true)
    (i : Inputs) (id : MshrId) (t : ThreadId) :
    ((y.1.step i).answerNew id t).toNat + (y.1.starts i id t).toNat =
      (y.1.answerNew id t).toNat + (y.1.accepts i id t).toNat := by
  have hnew : (y.1.step i).noc2IsMessageNew =
      State.isMessageNewNext y.1.noc2IsMessageNew (y.1.noc2Ack i) (y.1.noc2HeaderAck i) := rfl
  unfold State.answerNew State.starts State.accepts
  rcases noc2_cases y.1 i with ⟨⟨hv, hack⟩, hv', hm⟩ | ⟨hgone, hrest⟩
  · have hnone : y.1.noc2Accepts i = none := by
      unfold State.noc2Accepts
      simp [hv]
    rw [hv', hm, hnew, hnone, hv]
    unfold State.isMessageNewNext
    rw [hack]
    cases hh : y.1.noc2HeaderAck i with
    | true => simp [(new_of_noc2HeaderAck hh).2.1]
    | false => simp
  · have hnew' : (y.1.step i).noc2IsMessageNew = true := by
      rw [hnew]
      unfold State.isMessageNewNext
      cases hack : y.1.noc2Ack i with
      | true => rfl
      | false =>
        have hv : y.1.noc2Val = false := by
          by_contra hv
          rw [hgone (by simpa using hv)] at hack
          exact absurd hack.symm Bool.false_ne_true
        have hh : y.1.noc2HeaderAck i = false := by
          by_contra hh
          rw [(new_of_noc2HeaderAck (by simpa using hh)).1] at hv
          exact absurd hv.symm Bool.false_ne_true
        rw [hh]
        exact hidle hv
    -- a message that leaves the buffer while it is new is started in the same cycle
    have hstart : (y.1.noc2Val && y.1.noc2IsMessageNew && y.1.noc2.answers id t) =
        (y.1.noc2HeaderAck i && y.1.noc2.answers id t) := by
      cases hh : y.1.noc2HeaderAck i with
      | true => simp [(new_of_noc2HeaderAck hh).1, (new_of_noc2HeaderAck hh).2.1]
      | false =>
        cases hv : y.1.noc2Val with
        | false => rfl
        | true =>
          cases hn : y.1.noc2IsMessageNew with
          | false => rfl
          | true =>
            rw [h.noc2HeaderAck_of_noc2Ack hv hn (hgone hv)] at hh
            exact absurd hh.symm Bool.false_ne_true
    rw [hstart, hnew']
    rcases hrest with ⟨m, ha, hv', hm⟩ | ⟨ha, hv'⟩
    · rw [hv', hm, ha, Bool.true_and, Bool.true_and]
      exact Nat.add_comm _ _
    · rw [hv', ha]
      simp

/-- A free entry has no request anywhere. -/
theorem Inv.idle_of_free (h : Inv y) (i : Inputs) (hv : y.1.mshr.val id t = false) :
    y.1.reqBuffered id t = 0 ∧ y.1.answerDue id t y.2 = 0 ∧ y.1.pushes i id t = false ∧
      y.1.sends i id t = false ∧ y.1.starts i id t = false := by
  have htok := h.tokens id t
  rw [hv] at htok
  have hpush := h.pushes_le i id t
  have hfalse : false.toNat = 0 := rfl
  unfold State.tokens at htok
  have hwaits : y.1.answerWaits id t = false := Bool.toNat_eq_zero.1 (by omega)
  have hnew : y.1.answerNew id t = false := by
    by_contra hno
    unfold State.answerNew at hno
    unfold State.answerWaits at hwaits
    simp_all
  have hstart : y.1.starts i id t = false := by
    by_contra hno
    rw [Bool.not_eq_false] at hno
    unfold State.starts at hno
    rw [Bool.and_eq_true] at hno
    obtain ⟨hval, hn, -⟩ := new_of_noc2HeaderAck hno.1
    unfold State.answerNew at hnew
    rw [hval, hn, hno.2] at hnew
    exact absurd hnew.symm Bool.false_ne_true
  have hsend : y.1.sends i id t = false := by
    by_contra hno
    have hone := one_le_reqBuffered (i := i) (by simpa using hno)
    omega
  have hdue : y.1.answerDue id t y.2 = 0 := by
    unfold State.answerDue
    rw [hnew]
    omega
  exact ⟨by omega, hdue, Bool.toNat_eq_zero.1 (by omega), hsend, hstart⟩

/-- The answer that an entry waits for is due until S1 starts it. -/
theorem Inv.answerDue_step (h : Inv y) (hok : InputOk y i)
    (hidle : y.1.noc2Val = false → y.1.noc2IsMessageNew = true) (id : MshrId) (t : ThreadId) :
    (y.1.step i).answerDue id t (trafficNext y.2 y.1 i) + (y.1.starts i id t).toNat =
      y.1.answerDue id t y.2 + (y.1.sends i id t).toNat := by
  have hout := h.outstanding_step_eq hok id t
  have hans := h.answerNew_step hidle i id t
  unfold State.answerDue
  omega

theorem Inv.cacheable_step (h : Inv y) (i : Inputs) (hv : y.1.mshr.val id t = true) :
    (y.1.step i).cacheable id t = y.1.cacheable id t := by
  unfold State.cacheable
  rw [(h.mshr_kept i hv).1]

theorem Inv.fillsDue_step (h : Inv y) (hok : InputOk y i)
    (hidle : y.1.noc2Val = false → y.1.noc2IsMessageNew = true)
    (hfree : (y.1.noc1Request i).val = true →
      y.1.noc1buffer.commandBufferVal y.1.noc1buffer.commandWrindex = false)
    (id : MshrId) (t : ThreadId) :
    (y.1.step i).fillsDue id t (trafficNext y.2 y.1 i) +
        (y.1.cacheable id t && y.1.starts i id t).toNat =
      y.1.fillsDue id t y.2 + (y.1.cacheable id t && y.1.pushes i id t).toNat := by
  have hbuf := reqBuffered_step_eq y.1 i id t hfree
  have hdue := h.answerDue_step hok hidle id t
  unfold State.fillsDue
  cases hv : y.1.mshr.val id t with
  | true =>
    rw [h.cacheable_step i hv]
    cases y.1.cacheable id t with
    | false => rfl
    | true =>
      simp only [if_true, Bool.true_and]
      omega
  | false =>
    obtain ⟨hb, hd, hp, hs, hst⟩ := h.idle_of_free i hv
    have hfalse : false.toNat = 0 := rfl
    have hzero : (y.1.step i).reqBuffered id t +
        (y.1.step i).answerDue id t (trafficNext y.2 y.1 i) = 0 := by
      rw [hb, hp, hs] at hbuf
      rw [hd, hs, hst] at hdue
      omega
    rw [hzero, hb, hd, hp, hst]
    simp

theorem Inv.fillsOutside_step (h : Inv y) (hok : InputOk y i)
    (hidle : y.1.noc2Val = false → y.1.noc2IsMessageNew = true) (id : MshrId) (t : ThreadId) :
    (y.1.step i).fillsOutside id t (trafficNext y.2 y.1 i) +
        (y.1.cacheable id t && y.1.starts i id t).toNat =
      y.1.fillsOutside id t y.2 + (y.1.cacheable id t && y.1.sends i id t).toNat := by
  have hdue := h.answerDue_step hok hidle id t
  unfold State.fillsOutside
  cases hv : y.1.mshr.val id t with
  | true =>
    rw [h.cacheable_step i hv]
    cases y.1.cacheable id t with
    | false => rfl
    | true =>
      simp only [if_true, Bool.true_and]
      omega
  | false =>
    obtain ⟨-, hd, -, hs, hst⟩ := h.idle_of_free i hv
    have hfalse : false.toNat = 0 := rfl
    have hzero : (y.1.step i).answerDue id t (trafficNext y.2 y.1 i) = 0 := by
      rw [hd, hs, hst] at hdue
      omega
    rw [hzero, hd, hs, hst]
    simp

/-! ### All entries -/

/-- A cacheable request expects an answer for a data entry. -/
theorem expects_of_cacheable {op : Noc1Op} (h : op.cacheable = true) :
    op.expects = true ∧ (op.mshrId = .ld ∨ op.mshrId = .st) := by
  cases op <;>
    first
    | exact ⟨rfl, .inl rfl⟩
    | exact ⟨rfl, .inr rfl⟩
    | exact absurd h Bool.false_ne_true

/-- The two operations for which `noc1_reserve_s3` is raised are the cacheable ones. -/
theorem Noc1Op.cacheable_eq (op : Noc1Op) :
    (decide (op = .genDataLdRequestIfTagcheckMiss) ||
      decide (op = .genDataStUpgradeIfTagcheckSElseStFillIfTagcheckI)) = op.cacheable := by
  cases op <;> rfl

theorem valS3_of_noc1Request (h : (y.1.noc1Request i).val = true) : y.1.valS3 = true := by
  change ((y.1.valS3 && y.1.noc1Condition) && !y.1.noc1encoderReqStaled) = true at h
  simp only [Bool.and_eq_true] at h
  exact h.1.1

/-- S3 reserves a credit with the request of a cacheable operation. -/
theorem Inv.reserves_eq (h : Inv y) (hst : StaledSent y.1) (i : Inputs) :
    y.1.reserves i = ((y.1.noc1Request i).val && y.1.s3.ops.noc1Operation.cacheable) := by
  have hval : (y.1.noc1Request i).val =
    ((y.1.valS3 && y.1.noc1Condition) && !y.1.noc1encoderReqStaled) := rfl
  unfold State.reserves State.noc1ReserveS3 State.noc1ReqVal
  rw [hval, Noc1Op.cacheable_eq]
  cases hv : y.1.valS3 with
  | false => simp
  | true =>
    cases hc : y.1.s3.ops.noc1Operation.cacheable with
    | false => simp
    | true =>
      have he := (expects_of_cacheable hc).1
      have hnot : y.1.noc1encoderReqStaled = false := by
        by_contra hs
        rw [(hst (by simpa using hs)).2.2] at he
        exact absurd he Bool.false_ne_true
      rw [h.stallS3_of_expects hv he, hnot]
      simp

/-- The request that S3 sends for a data entry is cacheable as the entry is. -/
theorem Inv.cacheable_of_requests (h : Inv y) {id : MshrId} {t : ThreadId} (hid : id ≠ .ifill)
    (hval : (y.1.noc1Request i).val = true) (hr : y.1.s3.requests id t = true) :
    y.1.cacheable id t = y.1.s3.ops.noc1Operation.cacheable := by
  unfold Instr.requests at hr
  simp only [Bool.and_eq_true, decide_eq_true_eq] at hr
  obtain ⟨⟨he, hmid⟩, ht⟩ := hr
  obtain ⟨-, hcontrol⟩ := h.requestS3 (valS3_of_noc1Request hval) he
  have hc := (hcontrol (by rw [hmid]; exact hid)).2.1
  rw [hmid, ht] at hc
  exact hc.symm

/-- S3 reserves a credit exactly when it sends the request of a cacheable data entry. -/
theorem Inv.sum_pushes (h : Inv y) (hst : StaledSent y.1) (i : Inputs) :
    sumEntries (fun id t => (y.1.cacheable id t && y.1.pushes i id t).toNat) =
      (y.1.reserves i).toNat := by
  have hpush : ∀ id t, y.1.pushes i id t = ((y.1.noc1Request i).val && y.1.s3.requests id t) :=
    fun id t => by
      unfold State.pushes
      rw [waits_command]
  simp only [hpush, h.reserves_eq hst i]
  cases hval : (y.1.noc1Request i).val with
  | false => exact sumEntries_zero fun j u _ => by simp
  | true =>
    simp only [Bool.true_and]
    cases hc : y.1.s3.ops.noc1Operation.cacheable with
    | false =>
      refine sumEntries_zero fun j u hj => ?_
      cases hr : y.1.s3.requests j u with
      | false => simp
      | true =>
        rw [h.cacheable_of_requests (by rcases hj with rfl | rfl <;> decide) hval hr, hc]
        rfl
    | true =>
      obtain ⟨he, hmid⟩ := expects_of_cacheable hc
      have hid := (h.requestS3 (valS3_of_noc1Request hval) he).1
      refine sumEntries_single y.1.s3.mshrid y.1.s3.threadid (by rw [hid]; exact hmid)
        fun j u => ?_
      cases hr : y.1.s3.requests j u with
      | true =>
        have hr' := hr
        unfold Instr.requests at hr'
        simp only [Bool.and_eq_true, decide_eq_true_eq] at hr'
        have hne : j ≠ .ifill := by
          rw [← hr'.1.2, hid]
          rcases hmid with hm | hm <;> rw [hm] <;> decide
        rw [h.cacheable_of_requests hne hval hr, hc, if_pos ⟨hr'.1.2.symm, hr'.2.symm⟩]
        rfl
      | false =>
        rw [Bool.and_false, if_neg]
        · rfl
        · rintro ⟨rfl, rfl⟩
          rw [requests_self he] at hr
          exact absurd hr.symm Bool.false_ne_true

/-- The answers to cacheable data entries give a reserved credit back when S1 starts them. -/
theorem answerReqtype_unreserves (m : Mshr) (id : MshrId) (t : ThreadId) :
    ((answerReqtype m id t).isFill = true ∨ answerReqtype m id t = .ackdtStSm) ↔
      ((id = .ld ∨ id = .st) ∧ (m.readControl id t).nc = false) := by
  cases id with
  | none => simp [answerReqtype, Reqtype.isFill]
  | ifill => simp [answerReqtype, Reqtype.isFill]
  | ld =>
    show _ ↔ (_ ∧ (m.ldControl t).nc = false)
    unfold answerReqtype
    cases (m.ldControl t).nc <;> cases (m.ldControl t).load <;> simp [Reqtype.isFill]
  | st =>
    show _ ↔ (_ ∧ (m.stControl t).nc = false)
    unfold answerReqtype
    cases (m.stControl t).nc with
    | true => simp [Reqtype.isFill]
    | false => by_cases hs : m.stState t = .IM <;> simp [hs, Reqtype.isFill]

/-- Only the start of a message gives a reserved credit back. -/
theorem Inv.unreserves_iff (h : Inv y) (i : Inputs) : y.1.unreserves i = true ↔
    y.1.noc2HeaderAck i = true ∧
      (y.1.predecodeNoc2.reqtype.isFill = true ∨ y.1.predecodeNoc2.reqtype = .ackdtStSm) := by
  have hrow := (neededRow y.1.predecode.reqtype y.1.fetchState y.1.intVecDis y.1.hitStbuf
    y.1.predecode.isLastInval y.1.predecode.interruptBroadcast).unreserve
  change y.1.decode.creditmanNoc1Unreserve = true ↔ _ at hrow
  unfold State.unreserves
  rw [Bool.and_eq_true, hrow]
  constructor
  · rintro ⟨hi, hun⟩
    rcases source_cases hi with ⟨hs, hfs⟩ | ⟨hs, -⟩
    · rw [State.predecode_noc2 hs] at hun
      have hnormal : y.1.fetchState = .normal := by
        rcases hun with ⟨hn, -⟩ | hsm
        · exact hn
        · have hforward : y.1.noc2.isForward = true → False := by
            intro hf
            have hack := isAck_of_isForward hf
            rw [hsm] at hack
            exact absurd hack.symm Bool.false_ne_true
          cases hf : y.1.fetchState with
          | normal => rfl
          | pcxWritebackDone => exact absurd hf hfs
          | noc2WritebackDone =>
            have hfill := h.fillPass hf
            rw [hsm] at hfill
            exact absurd hfill Bool.false_ne_true
          | inval2 => exact (hforward (h.forwardPass (.inl hf)).1).elim
          | inval3 => exact (hforward (h.forwardPass (.inr (.inl hf))).1).elim
          | inval4 => exact (hforward (h.forwardPass (.inr (.inr hf))).1).elim
          | icacheInval2 => exact (hforward (h.icachePass hf).1).elim
      refine ⟨?_, hun.imp_left And.right⟩
      unfold State.noc2HeaderAck
      simp [hs, hi, hnormal]
    · have hrt : y.1.predecode.reqtype.isFill = true ∨ y.1.predecode.reqtype = .ackdtStSm :=
        hun.imp_left And.right
      rw [State.predecode_pcx hs] at hrt
      change (pcxReqtype y.1.pcx y.1.specialAccess).isFill = true ∨
        pcxReqtype y.1.pcx y.1.specialAccess = .ackdtStSm at hrt
      rcases pcxReqtype_fromPcx y.1.pcx y.1.specialAccess with hp | hp
      · cases hr : pcxReqtype y.1.pcx y.1.specialAccess <;> rw [hr] at hp hrt <;>
          first
          | exact absurd hp Bool.false_ne_true
          | exact absurd hrt (by decide)
      · rw [hp] at hrt
        exact absurd hrt (by decide)
  · rintro ⟨hh, hun⟩
    obtain ⟨-, -, hi, hn, hs⟩ := new_of_noc2HeaderAck hh
    rw [State.predecode_noc2 hs]
    exact ⟨hi, hun.imp_left fun hf => ⟨hn, hf⟩⟩

theorem Inv.sum_starts (h : Inv y) (i : Inputs) :
    sumEntries (fun id t => (y.1.cacheable id t && y.1.starts i id t).toNat) =
      (y.1.unreserves i).toNat := by
  cases hh : y.1.noc2HeaderAck i with
  | false =>
    have hun : y.1.unreserves i = false := by
      by_contra hno
      rw [((h.unreserves_iff i).1 (by simpa using hno)).1] at hh
      exact absurd hh.symm Bool.false_ne_true
    rw [hun]
    refine sumEntries_zero fun j u _ => ?_
    unfold State.starts
    simp [hh]
  | true =>
    obtain ⟨hv, hn, -, -, -⟩ := new_of_noc2HeaderAck hh
    have hstarts : ∀ j u, y.1.starts i j u = y.1.noc2.answers j u := fun j u => by
      unfold State.starts
      rw [hh, Bool.true_and]
    have hnames : ∀ j u, y.1.noc2.answers j u = true →
        y.1.noc2.mshrid = j ∧ y.1.noc2.threadid = u := fun j u ha => by
      unfold Noc2Message.answers at ha
      simp only [Bool.and_eq_true, decide_eq_true_eq] at ha
      exact ⟨ha.1.2, ha.2⟩
    simp only [hstarts]
    cases ha : y.1.noc2.answers y.1.noc2.mshrid y.1.noc2.threadid with
    | false =>
      have hno : ∀ j u, y.1.noc2.answers j u = false := fun j u => by
        by_contra hne
        rw [Bool.not_eq_false] at hne
        obtain ⟨rfl, rfl⟩ := hnames j u hne
        rw [hne] at ha
        exact absurd ha.symm Bool.false_ne_true
      have hun : y.1.unreserves i = false := by
        by_contra hne
        obtain ⟨-, hrt⟩ := (h.unreserves_iff i).1 (by simpa using hne)
        have hack : y.1.predecodeNoc2.reqtype.isAck = true := by
          rcases hrt with hf | hsm
          · cases hr : y.1.predecodeNoc2.reqtype <;> rw [hr] at hf <;>
              first | rfl | exact absurd hf Bool.false_ne_true
          · rw [hsm]
            rfl
        have hself : y.1.noc2.answers y.1.noc2.mshrid y.1.noc2.threadid = true := by
          unfold Noc2Message.answers
          rcases message_of_isAck hack with ⟨hk, hm⟩ | ⟨hk, hst⟩
          · simp [hk, hm]
          · simp [hk, hst]
        rw [hself] at ha
        exact absurd ha.symm Bool.false_ne_true
      rw [hun]
      exact sumEntries_zero fun j u _ => by rw [hno, Bool.and_false]; rfl
    | true =>
      have hwaits : y.1.answerWaits y.1.noc2.mshrid y.1.noc2.threadid = true := by
        unfold State.answerWaits
        simp [hv, hn, ha]
      have hrt := h.answer_reqtype hwaits
      have hiff := answerReqtype_unreserves y.1.mshr y.1.noc2.mshrid y.1.noc2.threadid
      rw [← hrt] at hiff
      by_cases hid : y.1.noc2.mshrid = .ld ∨ y.1.noc2.mshrid = .st
      · have hun : y.1.unreserves i = y.1.cacheable y.1.noc2.mshrid y.1.noc2.threadid := by
          rw [Bool.eq_iff_iff, h.unreserves_iff i, hiff]
          unfold State.cacheable
          simp [hh, hid]
        rw [hun]
        refine sumEntries_single _ y.1.noc2.threadid hid fun j u => ?_
        by_cases hju : j = y.1.noc2.mshrid ∧ u = y.1.noc2.threadid
        · rw [if_pos hju, hju.1, hju.2, ha, Bool.and_true]
        · have hno : y.1.noc2.answers j u = false := by
            by_contra hne
            obtain ⟨h1, h2⟩ := hnames j u (by simpa using hne)
            exact hju ⟨h1.symm, h2.symm⟩
          rw [if_neg hju, hno, Bool.and_false]
          rfl
      · have hun : y.1.unreserves i = false := by
          by_contra hne
          exact hid (hiff.1 ((h.unreserves_iff i).1 (by simpa using hne)).2).1
        rw [hun]
        refine sumEntries_zero fun j u hj => ?_
        cases hans : y.1.noc2.answers j u with
        | false => simp
        | true =>
          rw [(hnames j u hans).1] at hid
          exact absurd hj hid

/-- The encoder takes at most one request in a cycle. -/
theorem sum_sends_le (s : State) (i : Inputs) :
    sumEntries (fun id t => (s.cacheable id t && s.sends i id t).toNat) ≤
      (s.noc1encoderReqAck i).toNat := by
  have hle : ∀ j u, (s.cacheable j u && s.sends i j u).toNat ≤
      if j = s.noc1buffer.head.mshrid ∧ u = s.noc1buffer.head.threadid then
        (s.noc1encoderReqAck i).toNat else 0 := by
    intro j u
    unfold State.sends State.noc1Sent
    cases hack : s.noc1encoderReqAck i with
    | false => simp
    | true =>
      cases hw : s.noc1buffer.head.waits j u with
      | false => simp [hw]
      | true =>
        unfold Noc1Command.waits at hw
        simp only [Bool.and_eq_true, decide_eq_true_eq] at hw
        have hnames : j = s.noc1buffer.head.mshrid ∧ u = s.noc1buffer.head.threadid :=
          ⟨hw.1.2.symm, hw.2.symm⟩
        rw [if_pos hnames]
        exact Bool.toNat_le _
  refine (sumEntries_le hle).trans ?_
  by_cases hid : s.noc1buffer.head.mshrid = .ld ∨ s.noc1buffer.head.mshrid = .st
  · exact (sumEntries_single _ s.noc1buffer.head.threadid hid fun j u => rfl).le
  · refine (sumEntries_zero fun j u hj => if_neg ?_).le.trans (Nat.zero_le _)
    rintro ⟨rfl, -⟩
    exact hid hj

end Piton.L15
