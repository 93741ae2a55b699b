import Piton.L15.Preservation

/-! The contents of the MSHRs agree with the requests and the answers under way. With this the
invariant of the control part is complete: it holds in every state that conforming runs reach. -/

namespace Piton.L15

open Hw

variable {y : State × Traffic} {s : State} {i : Inputs} {id : MshrId} {t : ThreadId}

/-! ### Entries in use -/

/-- A request that is somewhere has a valid entry. -/
theorem Inv.val_of_tokens (h : Inv y) (hpos : 0 < y.1.tokens id t y.2) :
    y.1.mshr.val id t = true := by
  have htok := h.tokens id t
  have hle := Bool.toNat_le (y.1.mshr.val id t)
  exact Bool.toNat_eq_one.1 (by omega)

theorem Inv.val_of_reqS2 (h : Inv y) (hr : y.1.reqS2 id t = true) :
    y.1.mshr.val id t = true := by
  refine h.val_of_tokens ?_
  have htrue : true.toNat = 1 := rfl
  unfold State.tokens
  rw [hr]
  omega

theorem Inv.val_of_reqS3 (h : Inv y) (hr : y.1.reqS3 id t = true) :
    y.1.mshr.val id t = true := by
  refine h.val_of_tokens ?_
  have htrue : true.toNat = 1 := rfl
  unfold State.tokens
  rw [hr]
  omega

theorem Inv.val_of_outstanding (h : Inv y) {c : Noc1Command}
    (ho : y.2.outstanding id t = some c) : y.1.mshr.val id t = true := by
  refine h.val_of_tokens ?_
  have htrue : (some c).isSome.toNat = 1 := rfl
  unfold State.tokens
  rw [ho]
  omega

/-- A command in the NoC1 buffer has a valid entry. -/
theorem Inv.val_of_buffered (h : Inv y) {k : Fin 8}
    (hk : y.1.noc1buffer.commandBufferVal k = true)
    (hw : (y.1.noc1buffer.commandBuffer k).waits id t = true) : y.1.mshr.val id t = true := by
  refine h.val_of_tokens ?_
  have hle : ((y.1.noc1buffer.commandBuffer k).waits id t).toNat ≤ y.1.reqBuffered id t :=
    y.1.noc1buffer.ring.le_weight (fun c => (c.waits id t).toNat) hk
  rw [hw] at hle
  have htrue : true.toNat = 1 := rfl
  unfold State.tokens
  omega

theorem waits_self {c : Noc1Command} (he : c.reqtype.expects = true) :
    c.waits c.mshrid c.threadid = true := by
  unfold Noc1Command.waits
  simp [he]

/-- The request of a valid entry stays the request of that entry. -/
theorem Inv.fitsRequest_kept (h : Inv y) (i : Inputs) {x : Instr}
    (hv : y.1.mshr.val x.mshrid x.threadid = true) (hf : y.1.mshr.FitsRequest x) :
    (y.1.step i).mshr.FitsRequest x := by
  obtain ⟨hcontrol, haddress⟩ := h.mshr_kept i hv
  unfold Mshr.FitsRequest at hf ⊢
  rw [hcontrol, haddress]
  exact hf

/-- The command of a valid entry stays the command of that entry. -/
theorem Inv.fitsCommand_kept (h : Inv y) (i : Inputs) {c : Noc1Command}
    (hv : y.1.mshr.val c.mshrid c.threadid = true) (hf : y.1.mshr.FitsCommand c) :
    (y.1.step i).mshr.FitsCommand c := by
  obtain ⟨hcontrol, -⟩ := h.mshr_kept i hv
  intro hne
  obtain ⟨hnc, hst⟩ := hf hne
  refine ⟨by rw [hcontrol]; exact hnc, fun hid => ?_⟩
  rw [hid] at hcontrol
  change (y.1.step i).mshr.stControl c.threadid = y.1.mshr.stControl c.threadid at hcontrol
  rw [hcontrol]
  exact hst hid

/-! ### Allocation -/

/-- S1 issues a packet that is in the PCX buffer. -/
theorem Inv.pcxVal_of_issues (h : Inv y) (hi : y.1.s1Issues i = true)
    (hs : y.1.predecodeSource = .pcx) : y.1.pcxVal = true := by
  rcases source_cases hi with ⟨hs', -⟩ | ⟨-, hn | hp⟩
  · rw [hs] at hs'
    cases hs'
  · rcases State.source_normal hi hn with ⟨hs', -⟩ | ⟨-, hv, -⟩
    · rw [hs] at hs'
      cases hs'
    · exact hv
  · have hle := h.pcxUsers
    have huser : 1 ≤ y.1.pcxUsers := by
      unfold State.pcxUsers
      rw [hp]
      exact Nat.le_add_left _ _
    have hone := Bool.toNat_le y.1.pcxHeld
    have hheld : y.1.pcxHeld = true := Bool.toNat_eq_one.1 (by omega)
    unfold State.pcxHeld at hheld
    rw [Bool.and_eq_true] at hheld
    exact hheld.1

/-- What a request writes into its entry fits the kind of the entry; a data request is cacheable
exactly if its packet is. -/
theorem Inv.issued_packet (h : Inv y) (hi : y.1.s1Issues i = true)
    (hr : y.1.s1Instr.requests id t = true) :
    y.1.mshrControlBitsWrite.Fits id ∧
      (id ≠ .ifill → y.1.decode.noc1Operation.cacheable = !y.1.mshrControlBitsWrite.nc) := by
  have hreq := h.issued_request hi hr
  have hpre := State.predecode_pcx hreq.source
  have hdec : Decodes (pcxReqtype y.1.pcx y.1.specialAccess) y.1.decode := by
    have hd := y.1.decodes_s1
    change Decodes y.1.predecode.reqtype y.1.decode at hd
    rw [hpre] at hd
    exact hd
  have hcontrol : y.1.mshrControlBitsWrite.icache = decide (y.1.pcx.rqtype = .ifill) ∧
      y.1.mshrControlBitsWrite.load = decide (y.1.pcx.rqtype = .load) ∧
      y.1.mshrControlBitsWrite.atomic =
        (decide (y.1.pcx.rqtype = .cas1) || decide (y.1.pcx.rqtype = .swpLoadstub)) ∧
      y.1.mshrControlBitsWrite.nc = y.1.pcx.nc := by
    unfold State.mshrControlBitsWrite
    rw [hpre]
    exact ⟨rfl, rfl, rfl, rfl⟩
  obtain ⟨hicache, hload, hatomic, hnc⟩ := hcontrol
  have hatomics := h.pcxNc (h.pcxVal_of_issues hi hreq.source)
  unfold PcxPacket.atomicsNc at hatomics
  obtain ⟨hld, hldnc, hifill, hst, hwt, hcas, hswp⟩ :=
    @pcxReqtype_load y.1.pcx y.1.specialAccess
  have hid := hreq.mshrId
  cases id with
  | none => exact absurd rfl hreq.ne_none
  | ifill =>
    have hrt := hifill (hdec.ifillReqtype hreq.expects hid)
    refine ⟨?_, fun hne => absurd rfl hne⟩
    show y.1.mshrControlBitsWrite.icache = true
    rw [hicache, hrt]
    rfl
  | ld =>
    rw [hnc]
    show (y.1.mshrControlBitsWrite.icache = false ∧
      (y.1.mshrControlBitsWrite.nc = false → y.1.mshrControlBitsWrite.load = true) ∧
      (y.1.mshrControlBitsWrite.load = true ∨ y.1.mshrControlBitsWrite.atomic = true)) ∧ _
    rw [hicache, hload, hatomic, hnc]
    rcases (hdec.dataRequestRow hreq.expects).ld hid with ⟨hc, hrt⟩ | ⟨hc, hrt | hrt | hrt⟩
    · obtain ⟨hk, hn⟩ := hld hrt
      simp [hk, hn, hc]
    · obtain ⟨hk, hn⟩ := hldnc hrt
      simp [hk, hn, hc]
    · have hk := hcas hrt
      simp_all
    · have hk := hswp hrt
      simp_all
  | st =>
    rw [hnc]
    show (y.1.mshrControlBitsWrite.icache = false ∧ y.1.mshrControlBitsWrite.load = false ∧
      y.1.mshrControlBitsWrite.atomic = false) ∧ _
    rw [hicache, hload, hatomic]
    rcases (hdec.dataRequestRow hreq.expects).st hid with ⟨hc, hrt⟩ | ⟨hc, hrt⟩
    · obtain ⟨hk, hn⟩ := hst hrt
      simp [hk, hn, hc]
    · obtain ⟨hk, hn⟩ := hwt hrt
      simp [hk, hn, hc]

/-- An entry valid after a cycle was valid before and is not freed, or its request issues. -/
theorem Inv.val_cases (h : Inv y) (hv : (y.1.step i).mshr.val id t = true) :
    (y.1.mshr.val id t = true ∧
        (y.1.valS3 && (y.1.s3.ops.s3MshrOperation = .deallocation || y.1.hitS3) &&
          y.1.s3.mshrid = id && y.1.s3.threadid = t) = false ∧
        (y.1.s1Issues i && y.1.s1Instr.requests id t) = false) ∨
      (y.1.s1Issues i = true ∧ y.1.s1Instr.requests id t = true) := by
  by_cases hid : id = .none
  · rw [hid, step_val_none] at hv
    exact absurd hv Bool.false_ne_true
  · rw [h.val_step i hid, Bool.or_eq_true] at hv
    cases hr : (y.1.s1Issues i && y.1.s1Instr.requests id t) with
    | true =>
      rw [Bool.and_eq_true] at hr
      exact .inr hr
    | false =>
      rw [hr] at hv
      have hold := hv.resolve_right Bool.false_ne_true
      rw [Bool.and_eq_true, Bool.not_eq_true'] at hold
      exact .inl ⟨hold.1, hold.2, rfl⟩

theorem Inv.step_control (h : Inv y) (hv : (y.1.step i).mshr.val id t = true) :
    ((y.1.step i).mshr.readControl id t).Fits id := by
  rcases h.val_cases hv with ⟨hold, -, -⟩ | ⟨hi, hr⟩
  · rw [(h.mshr_kept i hold).1]
    exact h.control id t hold
  · rw [(h.mshr_allocated hi hr).1]
    exact (h.issued_packet hi hr).1

/-! ### Requests in the pipeline -/

theorem requests_self {x : Instr} (he : x.ops.noc1Operation.expects = true) :
    x.requests x.mshrid x.threadid = true := by
  unfold Instr.requests
  simp [he]

theorem Inv.step_requestS2 (h : Inv y) (hv : (y.1.step i).valS2 = true)
    (he : (y.1.step i).s2.ops.noc1Operation.expects = true) :
    (y.1.step i).mshr.FitsRequest (y.1.step i).s2 := by
  rcases State.s2_cases hv with ⟨-, hv2, hs⟩ | ⟨-, hi, hs⟩
  · rw [hs] at he ⊢
    refine h.fitsRequest_kept i (h.val_of_reqS2 ?_) (h.requestS2 hv2 he)
    unfold State.reqS2
    rw [hv2, requests_self he]
    rfl
  · rw [hs] at he ⊢
    have hr := requests_self he
    have hreq := h.issued_request hi hr
    obtain ⟨hcontrol, haddress⟩ := h.mshr_allocated hi hr
    obtain ⟨-, hcacheable⟩ := h.issued_packet hi hr
    refine ⟨hreq.mshrId.symm, fun hne => ?_⟩
    rw [hcontrol, haddress hne]
    refine ⟨rfl, hcacheable hne, ?_⟩
    show y.1.predecode.address = y.1.pcx.address
    rw [State.predecode_pcx hreq.source]
    rfl

theorem Inv.step_requestS3 (h : Inv y) (hv : (y.1.step i).valS3 = true)
    (he : (y.1.step i).s3.ops.noc1Operation.expects = true) :
    (y.1.step i).mshr.FitsRequest (y.1.step i).s3 := by
  rcases State.s3_cases hv with ⟨hst, hv3, hs, -⟩ | ⟨-, hv2, hs, -⟩
  · rw [hs] at he
    rw [h.stallS3_of_expects hv3 he] at hst
    exact absurd hst Bool.false_ne_true
  · rw [hs] at he ⊢
    refine h.fitsRequest_kept i (h.val_of_reqS2 ?_) (h.requestS2 hv2 he)
    unfold State.reqS2
    rw [hv2, requests_self he]
    rfl

/-! ### Requests outside the pipeline -/

/-- The request in S3 becomes the command of its entry. -/
theorem Inv.fitsCommand_of_s3 (h : Inv y) (i : Inputs) (hv : y.1.valS3 = true)
    (he : y.1.s3.ops.noc1Operation.expects = true) :
    y.1.mshr.FitsCommand (y.1.noc1buffer.command (y.1.noc1Request i)) := by
  obtain ⟨hid, hfits⟩ := h.requestS3 hv he
  intro hne
  change y.1.s3.mshrid ≠ .ifill at hne
  obtain ⟨hnc, hcacheable, -⟩ := hfits hne
  refine ⟨hnc, fun hst => ?_⟩
  change y.1.s3.mshrid = .st at hst
  show y.1.noc1Type = .writethroughRequest ↔ (y.1.mshr.stControl y.1.s3.threadid).nc = true
  rw [hst] at hid hcacheable
  change y.1.s3.ops.noc1Operation.cacheable = !(y.1.mshr.stControl y.1.s3.threadid).nc
    at hcacheable
  unfold State.noc1Type
  cases hop : y.1.s3.ops.noc1Operation <;> rw [hop] at hid hcacheable <;>
    first
    | exact absurd hid MshrId.noConfusion
    | skip
  case genDataStUpgradeIfTagcheckSElseStFillIfTagcheckI =>
    change true = !(y.1.mshr.stControl y.1.s3.threadid).nc at hcacheable
    cases hn : (y.1.mshr.stControl y.1.s3.threadid).nc with
    | true =>
      rw [hn] at hcacheable
      exact absurd hcacheable.symm Bool.false_ne_true
    | false =>
      by_cases hs : y.1.s3Result.tagcheckState = .S <;> simp [hs]
  case genDataWritethroughRequestFromPcx =>
    change false = !(y.1.mshr.stControl y.1.s3.threadid).nc at hcacheable
    cases hn : (y.1.mshr.stControl y.1.s3.threadid).nc with
    | true => simp
    | false =>
      rw [hn] at hcacheable
      exact absurd hcacheable Bool.false_ne_true

theorem Inv.step_buffered (h : Inv y) {k : Fin 8}
    (hk : (y.1.step i).noc1buffer.commandBufferVal k = true)
    (he : ((y.1.step i).noc1buffer.commandBuffer k).reqtype.expects = true) :
    (y.1.step i).mshr.FitsCommand ((y.1.step i).noc1buffer.commandBuffer k) := by
  have hslot : (y.1.step i).noc1buffer.commandBuffer k =
      if (y.1.noc1Request i).val = true ∧ y.1.noc1buffer.commandWrindex = k then
        y.1.noc1buffer.command (y.1.noc1Request i)
      else y.1.noc1buffer.commandBuffer k := by
    show (if (y.1.noc1Request i).val then
        Function.update y.1.noc1buffer.commandBuffer y.1.noc1buffer.commandWrindex
          (y.1.noc1buffer.command (y.1.noc1Request i))
      else y.1.noc1buffer.commandBuffer) k = _
    cases (y.1.noc1Request i).val with
    | false => simp
    | true =>
      rw [if_pos rfl, Function.update_apply]
      by_cases hkw : k = y.1.noc1buffer.commandWrindex
      · simp [hkw]
      · simp [hkw, Ne.symm hkw]
  rw [hslot] at he ⊢
  by_cases hnew : (y.1.noc1Request i).val = true ∧ y.1.noc1buffer.commandWrindex = k
  · rw [if_pos hnew] at he ⊢
    change y.1.noc1Type.expects = true at he
    rw [noc1Type_expects] at he
    have hv : y.1.valS3 = true := by
      have hval := hnew.1
      change ((y.1.valS3 && y.1.noc1Condition) && !y.1.noc1encoderReqStaled) = true at hval
      simp only [Bool.and_eq_true] at hval
      exact hval.1.1
    have hr3 : y.1.reqS3 y.1.s3.mshrid y.1.s3.threadid = true := by
      unfold State.reqS3
      rw [hv]
      exact requests_self he
    exact h.fitsCommand_kept i (h.val_of_reqS3 hr3) (h.fitsCommand_of_s3 i hv he)
  · rw [if_neg hnew] at he ⊢
    have hold : y.1.noc1buffer.commandBufferVal k = true := by
      change (if (y.1.noc1Request i).val && y.1.noc1buffer.commandWrindex = k then true
        else if y.1.noc1encoderReqAck i && y.1.noc1buffer.commandRdindex = k then false
        else y.1.noc1buffer.commandBufferVal k) = true at hk
      rw [if_neg (by simpa using hnew)] at hk
      split at hk
      · exact absurd hk Bool.false_ne_true
      · exact hk
    exact h.fitsCommand_kept i (h.val_of_buffered hold (waits_self he)) (h.buffered k hold he)

theorem Inv.step_outstanding (h : Inv y) {c : Noc1Command}
    (ho : (trafficNext y.2 y.1 i).outstanding id t = some c) :
    c.waits id t = true ∧ (y.1.step i).mshr.FitsCommand c := by
  have hkeep : ∀ c : Noc1Command, c.waits id t = true → y.1.mshr.val id t = true →
      y.1.mshr.FitsCommand c → (y.1.step i).mshr.FitsCommand c := by
    intro c hw hv hf
    refine h.fitsCommand_kept i ?_ hf
    unfold Noc1Command.waits at hw
    simp only [Bool.and_eq_true, decide_eq_true_eq] at hw
    rw [hw.1.2, hw.2]
    exact hv
  change (if y.1.accepts i id t then none else if y.1.sends i id t then y.1.noc1Sent i
    else y.2.outstanding id t) = some c at ho
  cases hacc : y.1.accepts i id t with
  | true =>
    rw [hacc] at ho
    cases ho
  | false =>
    cases hs : y.1.sends i id t with
    | false =>
      rw [hacc, hs] at ho
      obtain ⟨hw, hf⟩ := h.outstanding id t c ho
      exact ⟨hw, hkeep c hw (h.val_of_outstanding ho) hf⟩
    | true =>
      rw [hacc, hs] at ho
      change y.1.noc1Sent i = some c at ho
      unfold State.sends at hs
      rw [ho] at hs
      change c.waits id t = true at hs
      unfold State.noc1Sent at ho
      cases hack : y.1.noc1encoderReqAck i with
      | false =>
        rw [hack] at ho
        cases ho
      | true =>
        rw [hack, if_pos rfl, Option.some.injEq] at ho
        have hfull : y.1.noc1buffer.commandBufferVal y.1.noc1buffer.commandRdindex = true := by
          unfold State.noc1encoderReqAck at hack
          rw [Bool.and_eq_true] at hack
          exact hack.2
        have hslot : y.1.noc1buffer.commandBuffer y.1.noc1buffer.commandRdindex = c := ho
        have he : c.reqtype.expects = true := by
          unfold Noc1Command.waits at hs
          simp only [Bool.and_eq_true] at hs
          exact hs.1.1
        have hf := h.buffered _ hfull (by rw [hslot]; exact he)
        rw [hslot] at hf
        exact ⟨hs, hkeep c hs (h.val_of_buffered hfull (by rw [hslot]; exact hs)) hf⟩

/-! ### Answers -/

theorem Inv.step_answer (h : Inv y) (hok : InputOk y i)
    (ha : (y.1.step i).answerWaits .st t = true) :
    ((y.1.step i).noc2.reqtype = .nodataAck ↔ ((y.1.step i).mshr.stControl t).nc = true) ∧
      ((y.1.step i).noc2.reqtype = .dataAck → (y.1.step i).noc2.ackState = .M) := by
  have hkeep : y.1.mshr.val .st t = true →
      (y.1.step i).mshr.stControl t = y.1.mshr.stControl t := fun hv => (h.mshr_kept i hv).1
  rcases answerWaits_cases ha with ⟨hw, hm⟩ | ⟨hacc, hm⟩
  · rw [hm, hkeep (h.of_answerWaits hw).1]
    exact h.answer t hw
  · obtain ⟨m, c, hm', -, -, ho, hkind⟩ := hok.outstanding_of_accepts hacc
    rw [hm, Option.some.injEq] at hm'
    rw [hm', hkeep (h.val_of_outstanding ho)]
    obtain ⟨hw, hf⟩ := h.outstanding .st t c ho
    unfold Noc1Command.waits at hw
    simp only [Bool.and_eq_true, decide_eq_true_eq] at hw
    have hnc := (hf (by rw [hw.1.2]; decide)).2 hw.1.2
    rw [hw.2] at hnc
    rcases hkind with ⟨hk, hc, hstate⟩ | ⟨hk, hc⟩
    · rw [hk]
      exact ⟨⟨fun hx => Noc2Msgtype.noConfusion hx, fun hx => absurd (hnc.2 hx) hc⟩,
        fun _ => hstate rfl⟩
    · rw [hk]
      exact ⟨⟨fun _ => hnc.1 hc, fun _ => rfl⟩, fun hx => Noc2Msgtype.noConfusion hx⟩

/-- The request of a store entry that leaves S3 without freeing it writes the entry's state. -/
theorem Inv.stState_of_reqS3 (h : Inv y) (i : Inputs) (hr3 : y.1.reqS3 .st t = true)
    (hnf : (y.1.valS3 && (y.1.s3.ops.s3MshrOperation = .deallocation || y.1.hitS3) &&
      y.1.s3.mshrid = .st && y.1.s3.threadid = t) = false) :
    ((y.1.mshr.stControl t).nc = true ∧ (y.1.step i).mshr.stState t = .waitAck) ∨
      ((y.1.mshr.stControl t).nc = false ∧ y.1.s3Result.tagcheckState.me = false ∧
        (y.1.step i).mshr.stState t = (if y.1.s3Result.tagcheckState.mes then .SM else .IM) ∧
        (y.1.step i).mshr.stWay t = y.1.s3Result.tagcheckWay) := by
  unfold State.reqS3 Instr.requests at hr3
  simp only [Bool.and_eq_true, decide_eq_true_eq] at hr3
  obtain ⟨hv, ⟨he, hid⟩, ht⟩ := hr3
  obtain ⟨hmshr, hfits⟩ := h.requestS3 hv he
  obtain ⟨-, hcacheable, -⟩ := hfits (by rw [hid]; decide)
  rw [hid, ht] at hcacheable
  rw [hid] at hmshr
  change y.1.s3.ops.noc1Operation.cacheable = !(y.1.mshr.stControl t).nc at hcacheable
  obtain ⟨-, hst, hwt⟩ := (h.decodesS3 hv).s3MshrRow
  have hstate : (y.1.step i).mshr.stState t =
      if y.1.mshrS3Write.updates t then y.1.mshrS3Write.updateState else y.1.mshr.stState t := rfl
  have hway : (y.1.step i).mshr.stWay t =
      if y.1.mshrS3Write.updates t then y.1.mshrS3Write.updateWay else y.1.mshr.stWay t := rfl
  cases hop : y.1.s3.ops.noc1Operation <;> rw [hop] at hmshr hcacheable <;>
    first
    | exact absurd hmshr MshrId.noConfusion
    | skip
  case genDataStUpgradeIfTagcheckSElseStFillIfTagcheckI =>
    have hs3 := hst.2 hop
    have hme : y.1.s3Result.tagcheckState.me = false := by
      unfold State.hitS3 at hnf
      simpa [hv, hid, ht, hs3] using hnf
    have hup : y.1.mshrS3Write.updates t = true ∧
        y.1.mshrS3Write.updateState = (if y.1.s3Result.tagcheckState.mes then .SM else .IM) ∧
        y.1.mshrS3Write.updateWay = y.1.s3Result.tagcheckWay := by
      unfold MshrS3Write.updates State.mshrS3Write
      simp [hs3, hme, hv, ht]
    refine .inr ⟨?_, hme, ?_, ?_⟩
    · change true = !(y.1.mshr.stControl t).nc at hcacheable
      simpa using hcacheable.symm
    · rw [hstate, if_pos hup.1, hup.2.1]
    · rw [hway, if_pos hup.1, hup.2.2]
  case genDataWritethroughRequestFromPcx =>
    have hs3 := hwt.2 hop
    have hup : y.1.mshrS3Write.updates t = true ∧ y.1.mshrS3Write.updateState = .waitAck := by
      unfold MshrS3Write.updates State.mshrS3Write
      simp [hs3, hv, ht]
    refine .inl ⟨?_, ?_⟩
    · change false = !(y.1.mshr.stControl t).nc at hcacheable
      simpa using hcacheable.symm
    · rw [hstate, if_pos hup.1, hup.2]

/-- A store entry whose request has left S3 was so before, or its request leaves S3 now. -/
theorem Inv.stSettled_cases (h : Inv y) (hs : (y.1.step i).stSettled t) :
    y.1.mshr.stVal t = true ∧ y.1.reqS2 .st t = false ∧
      (y.1.valS3 && (y.1.s3.ops.s3MshrOperation = .deallocation || y.1.hitS3) &&
        y.1.s3.mshrid = .st && y.1.s3.threadid = t) = false ∧
      (y.1.step i).mshr.stControl t = y.1.mshr.stControl t := by
  obtain ⟨hval, hr2', hr3'⟩ := hs
  change (y.1.step i).mshr.val .st t = true at hval
  have hreqs := h.reqs_step i .st t
  rw [hr2', hr3'] at hreqs
  have hfalse : false.toNat = 0 := rfl
  have hr2 : y.1.reqS2 .st t = false := Bool.toNat_eq_zero.1 (by omega)
  rcases h.val_cases hval with ⟨hold, hnf, -⟩ | hissue
  · exact ⟨hold, hr2, hnf, (h.mshr_kept i hold).1⟩
  · rw [hissue.1, hissue.2] at hreqs
    have htrue : (true && true).toNat = 1 := rfl
    omega

theorem Inv.step_settled (h : Inv y) (hs : (y.1.step i).stSettled t) :
    (((y.1.step i).mshr.stControl t).nc = true → (y.1.step i).mshr.stState t = .waitAck) ∧
      (((y.1.step i).mshr.stControl t).nc = false →
        (y.1.step i).mshr.stState t = .IM ∨ (y.1.step i).mshr.stState t = .SM) := by
  obtain ⟨hold, hr2, hnf, hcontrol⟩ := h.stSettled_cases hs
  rw [hcontrol]
  cases hr3 : y.1.reqS3 .st t with
  | false =>
    obtain ⟨hwait, hupgrade⟩ := h.settled t ⟨hold, hr2, hr3⟩
    rcases h.stState_step i hr3 with ⟨hstate, -⟩ | ⟨hsm, him⟩
    · rw [hstate]
      exact ⟨hwait, hupgrade⟩
    · refine ⟨fun hnc => ?_, fun _ => .inl him⟩
      rw [hwait hnc] at hsm
      cases hsm
  | true =>
    rcases h.stState_of_reqS3 i hr3 hnf with ⟨hnc, hstate⟩ | ⟨hnc, -, hstate, -⟩
    · exact ⟨fun _ => hstate, fun hno => absurd (hno.symm.trans hnc) Bool.false_ne_true⟩
    · refine ⟨fun hno => absurd (hnc.symm.trans hno) Bool.false_ne_true, fun _ => ?_⟩
      rw [hstate]
      cases y.1.s3Result.tagcheckState.mes
      · exact .inl rfl
      · exact .inr rfl

/-! ### The invariant in every reachable state -/

theorem init_inv (h : system.init y) : Inv y := by
  obtain ⟨hr, hg⟩ := h
  change y.1.IsReset at hr
  have hnone : ∀ id t, y.2.outstanding id t = none := by
    intro id t
    rw [hg]
    rfl
  have hr2 : ∀ id t, y.1.reqS2 id t = false := fun id t => by
    unfold State.reqS2
    rw [hr.valS2, Bool.false_and]
  have hr3 : ∀ id t, y.1.reqS3 id t = false := fun id t => by
    unfold State.reqS3
    rw [hr.valS3, Bool.false_and]
  have hanswer : ∀ id t, y.1.answerWaits id t = false := fun id t => by
    unfold State.answerWaits
    rw [hr.noc2Val, Bool.false_and, Bool.false_and]
  refine { decodesS2 := ?decodesS2, decodesS3 := ?decodesS3, cpxHalf := ?cpxHalf,
           cpxFreed := ?cpxFreed, pcxNc := ?pcxNc, pcxUsers := ?pcxUsers, pcxPass := ?pcxPass,
           pcxPassFree := ?pcxPassFree, noc2Users := ?noc2Users, noc2Sane := ?noc2Sane,
           fillPass := ?fillPass, forwardPass := ?forwardPass, icachePass := ?icachePass,
           control := ?control, requestS2 := ?requestS2, requestS3 := ?requestS3,
           buffered := ?buffered, outstanding := ?outstanding, answer := ?answer,
           settled := ?settled, tokens := ?tokens }
  case tokens =>
    intro id t
    have hbuf : y.1.reqBuffered id t = 0 := Ring.weight_eq_zero hr.commandBufferVal _
    have hk2 : y.1.ackS2 id t = false := by
      unfold State.ackS2
      rw [hr.valS2, Bool.false_and]
    have hk3 : y.1.ackS3 id t = false := by
      unfold State.ackS3
      rw [hr.valS3, Bool.false_and, Bool.false_and]
    unfold State.tokens
    rw [hr2, hr3, hbuf, hnone, hanswer, hk2, hk3]
    exact Nat.zero_le _
  case pcxUsers =>
    unfold State.pcxUsers
    rw [hr.valS2, hr.valS3, hr.fetchState]
    exact Nat.zero_le _
  case noc2Users =>
    unfold State.noc2Users State.noc2PassUser
    rw [hr.valS2, hr.valS3, hr.fetchState]
    exact Nat.zero_le _
  case settled =>
    rintro t ⟨hv, -⟩
    rw [show y.1.mshr.stVal t = false from hr.mshrVal .st t] at hv
    exact absurd hv Bool.false_ne_true
  all_goals
    simp [hr.valS2, hr.valS3, hr.cpxencoder, hr.pcxVal, hr.fetchState, hr.noc2Val, hr.mshrVal,
      hr.commandBufferVal, hnone, hanswer]

theorem Inv.step (h : Inv y) (hok : InputOk y i) : Inv (system.step y i) where
  decodesS2 := (h.stagesDecode.step i).s2
  decodesS3 := (h.stagesDecode.step i).s3
  cpxHalf := step_cpxHalf
  cpxFreed := h.step_cpxFreed i
  pcxNc := h.step_pcxNc hok
  pcxUsers := h.step_pcxUsers i
  pcxPass := h.step_pcxPass
  pcxPassFree := h.step_pcxPassFree
  noc2Users := h.step_noc2Users hok
  noc2Sane := h.step_noc2Sane hok
  fillPass := h.step_fillPass hok
  forwardPass := h.step_forwardPass hok
  icachePass := h.step_icachePass hok
  control _ _ := h.step_control
  requestS2 := h.step_requestS2
  requestS3 := h.step_requestS3
  buffered _ := h.step_buffered
  outstanding _ _ _ := h.step_outstanding
  answer _ := h.step_answer hok
  settled _ := h.step_settled
  tokens := h.step_tokens hok

/-- The invariant holds in every state that conforming runs reach. -/
theorem reachable_inv (h : system.Reachable InputOk y) : Inv y :=
  h.invariant (fun _ => init_inv) fun _ _ => Inv.step

end Piton.L15
