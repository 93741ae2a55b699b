import Piton.L15.Tokens

/-! The invariant of the control part holds after reset and after every conforming cycle. -/

namespace Piton.L15

open Hw

variable {y : State × Traffic} {s : State} {i : Inputs} {id : MshrId} {t : ThreadId}

/-! ### The stages -/

theorem Inv.stagesDecode (h : Inv y) : State.StagesDecode y.1 := ⟨h.decodesS2, h.decodesS3⟩

/-- S3 keeps the instruction whose acknowledgement takes a second cycle. -/
theorem s3_of_secondhalf (hc : (s.step i).cpxencoder = .secondhalf) :
    s.valS3 = true ∧ (s.step i).valS3 = true ∧ (s.step i).s3 = s.s3 ∧ s.cpxencoder = .normal ∧
      s.s3.ops.cpxOperation.twoCycles = true := by
  have hcpx := stallForCpx_of_secondhalf hc
  obtain ⟨htwo, hnormal, -⟩ := stallForCpx_eq_true (i := i) hcpx
  have hv : s.valS3 = true := by
    unfold State.stallForCpx State.cpxencoderVal at hcpx
    simp only [Bool.and_eq_true] at hcpx
    exact hcpx.1.1.1
  have hst : s.stallS3 i = true := by
    unfold State.stallS3
    rw [hv, hcpx]
    rfl
  have hv' : (s.step i).valS3 = true := by
    show (if s.stallS3 i then s.valS3 else s.valS2 && !s.stallS2 i) = true
    rw [hst, if_pos rfl, hv]
  have hs' : (s.step i).s3 = s.s3 := by
    show (if s.stallS3 i then s.s3 else s.s2) = s.s3
    rw [hst, if_pos rfl]
  exact ⟨hv, hv', hs', hnormal, htwo⟩

theorem step_cpxHalf (hc : (s.step i).cpxencoder = .secondhalf) :
    (s.step i).valS3 = true ∧ (s.step i).s3.ops.cpxOperation.twoCycles = true := by
  obtain ⟨-, hv', hs', -, htwo⟩ := s3_of_secondhalf hc
  rw [hs']
  exact ⟨hv', htwo⟩

theorem Inv.val_of_ackS3 (h : Inv y) (ha : y.1.ackS3 id t = true) :
    y.1.mshr.val id t = true := by
  have htok := h.tokens id t
  unfold State.tokens at htok
  rw [ha] at htok
  have htrue : true.toNat = 1 := rfl
  have hle := Bool.toNat_le (y.1.mshr.val id t)
  exact Bool.toNat_eq_one.1 (by omega)

theorem Inv.step_cpxFreed (h : Inv y) (i : Inputs)
    (hc : (y.1.step i).cpxencoder = .secondhalf) (id : MshrId) (t : ThreadId)
    (hcomp : (y.1.step i).s3.completes id t = true) : (y.1.step i).mshr.val id t = false := by
  obtain ⟨hv, -, hs', hnormal, -⟩ := s3_of_secondhalf hc
  rw [hs'] at hcomp
  by_cases hid : id = .none
  · rw [hid]
    exact step_val_none y.1 i t
  · have hval : y.1.mshr.val id t = true := by
      refine h.val_of_ackS3 ?_
      unfold State.ackS3
      simp [hv, hcomp, hnormal]
    have hissue : (y.1.s1Issues i && y.1.s1Instr.requests id t) = false := by
      by_contra hne
      rw [Bool.not_eq_false, Bool.and_eq_true] at hne
      rw [h.val_of_issues hne.1 hne.2] at hval
      exact absurd hval Bool.false_ne_true
    unfold Instr.completes at hcomp
    simp only [Bool.and_eq_true, decide_eq_true_eq] at hcomp
    obtain ⟨⟨hop, hid3⟩, ht3⟩ := hcomp
    rw [h.val_step i hid, hissue]
    simp [hv, hop, hid3, ht3]

/-! ### The PCX packet -/

theorem Inv.step_pcxNc (h : Inv y) (hok : InputOk y i) (hv : (y.1.step i).pcxVal = true) :
    (y.1.step i).pcx.atomicsNc = true := by
  change (y.1.pcxBufferNext i).1 = true at hv
  show (y.1.pcxBufferNext i).2.atomicsNc = true
  unfold State.pcxBufferNext at hv ⊢
  cases hkept : (y.1.pcxVal && !y.1.pcxAck i) with
  | true =>
    rw [Bool.and_eq_true] at hkept
    exact h.pcxNc hkept.1
  | false =>
    rw [hkept] at hv
    have hoffer := hok.pcx
    cases ho : i.pcxOffer with
    | none =>
      rw [ho] at hv
      exact absurd hv Bool.false_ne_true
    | some p =>
      rw [ho] at hoffer
      exact hoffer

/-- The second pass of a PCX request reads the packet of the first one. -/
theorem Inv.predecodePcx_kept (h : Inv y)
    (hfs : (y.1.step i).fetchState = .pcxWritebackDone) :
    (y.1.step i).predecodePcx = y.1.predecodePcx ∧ (y.1.step i).intVecDis = y.1.intVecDis ∧
      (y.1.step i).pcx = y.1.pcx := by
  obtain ⟨hv, hack⟩ := h.pcx_kept hfs
  obtain ⟨-, hp⟩ := pcx_step (i := i) hv hack
  refine ⟨?_, ?_, hp⟩
  · unfold State.predecodePcx State.specialAccess
    rw [hp]
  · unfold State.intVecDis
    rw [hp]

/-- The first pass of a PCX request issues from its packet. -/
theorem Inv.source_of_firstPass (h : Inv y) (hi : y.1.s1Issues i = true)
    (hnext : fetchStateNext .normal y.1.predecode.reqtype y.1.intVecDis false =
      .pcxWritebackDone) : y.1.predecodeSource = .pcx := by
  rcases source_cases hi with ⟨hs, -⟩ | ⟨hs, -⟩
  · exact absurd hnext
      (fetchStateNext_of_fromPcx (h.noc2_fromPcx hs) (by decide))
  · exact hs

theorem Inv.step_pcxPass (h : Inv y) (hfs : (y.1.step i).fetchState = .pcxWritebackDone) :
    (y.1.step i).predecodePcx.reqtype = .lineFlush ∨
      ((y.1.step i).predecodePcx.reqtype.twoPasses = true ∧
        ((y.1.step i).predecodePcx.reqtype = .writethrough → (y.1.step i).intVecDis = false)) := by
  obtain ⟨hp, hd, -⟩ := h.predecodePcx_kept hfs
  rw [hp, hd]
  rcases fetchState_pcx hfs with ⟨hwait, -⟩ | ⟨hi, hn, hnext⟩
  · exact h.pcxPass hwait
  · have hs := h.source_of_firstPass hi hnext
    have hpass := ((firstPassRow _ _ false false false).pcx hnext).2
    rw [State.predecode_pcx hs] at hpass
    exact hpass

theorem Inv.step_pcxPassFree (h : Inv y) (hfs : (y.1.step i).fetchState = .pcxWritebackDone)
    (htwo : (y.1.step i).predecodePcx.reqtype.twoPasses = true) :
    (y.1.step i).mshr.val (y.1.step i).predecodePcx.reqtype.passMshrId
      (y.1.step i).pcx.threadid = false := by
  obtain ⟨hp, hd, hpcx⟩ := h.predecodePcx_kept hfs
  rw [hp] at htwo
  rw [hp, hpcx]
  have hid : y.1.predecodePcx.reqtype.passMshrId ≠ .none := by
    cases y.1.predecodePcx.reqtype <;> exact MshrId.noConfusion
  rw [h.val_step i hid]
  rcases fetchState_pcx hfs with ⟨hwait, hi⟩ | ⟨hi, hn, hnext⟩
  · rw [h.pcxPassFree hwait htwo, hi]
    rfl
  · have hs := h.source_of_firstPass hi hnext
    have hpre := State.predecode_pcx hs
    have hpass := ((firstPassRow _ _ false false false).pcx hnext).2
    rw [hpre] at hpass
    have hvec : y.1.predecodePcx.reqtype = .writethrough → y.1.intVecDis = false := by
      intro hw
      rcases hpass with hl | ⟨-, hd⟩
      · rw [hl] at hw
        cases hw
      · exact hd hw
    have hdec : y.1.decode = decoder y.1.predecodePcx.reqtype .normal y.1.intVecDis y.1.hitStbuf
        y.1.predecode.isLastInval y.1.predecode.interruptBroadcast := by
      unfold State.decode
      rw [hn, hpre]
    obtain ⟨hwait, htype, hop⟩ := (firstPassRow y.1.predecodePcx.reqtype y.1.intVecDis
      y.1.hitStbuf y.1.predecode.isLastInval y.1.predecode.interruptBroadcast).reserves htwo hvec
    rw [← hdec] at hwait htype hop
    have hfree := (State.issues_iff.1 hi).2.2.2.2.1
    unfold State.stallMshrAllocationBusy State.decoderNoFreeMshr at hfree
    rw [hwait, htype, Bool.and_true, hpre] at hfree
    have hreq : y.1.s1Instr.requests y.1.predecodePcx.reqtype.passMshrId y.1.pcx.threadid =
        false := by
      by_contra hne
      have hall := (h.issued_request hi (by simpa using hne)).allocate
      rw [hop] at hall
      cases hall
    change y.1.mshr.val y.1.predecodePcx.reqtype.passMshrId y.1.pcx.threadid = false at hfree
    rw [hfree, hreq, Bool.and_false]
    rfl

/-! ### The NoC2 message -/

/-- The NoC2 buffer holds its message, or takes the accepted one. -/
theorem noc2_cases (s : State) (i : Inputs) :
    ((s.noc2Val = true ∧ s.noc2Ack i = false) ∧ (s.step i).noc2Val = true ∧
        (s.step i).noc2 = s.noc2) ∨
      ((s.noc2Val = true → s.noc2Ack i = true) ∧
        ((∃ m, s.noc2Accepts i = some m ∧ (s.step i).noc2Val = true ∧ (s.step i).noc2 = m) ∨
          (s.noc2Accepts i = none ∧ (s.step i).noc2Val = false))) := by
  cases hkept : (s.noc2Val && !s.noc2Ack i) with
  | true =>
    rw [Bool.and_eq_true, Bool.not_eq_true'] at hkept
    exact .inl ⟨hkept, noc2_step hkept.1 hkept.2⟩
  | false =>
    obtain ⟨hv, hm⟩ := noc2_accepted hkept
    refine .inr ⟨fun hval => by simpa [hval] using hkept, ?_⟩
    cases ha : s.noc2Accepts i with
    | none =>
      rw [ha] at hv
      exact .inr ⟨rfl, hv⟩
    | some m =>
      rw [ha] at hv
      exact .inl ⟨m, rfl, hv, hm m ha⟩

/-- The NoC2 buffer is ready for a new message whenever it is empty. -/
theorem idleNew_step (hidle : s.noc2Val = false → s.noc2IsMessageNew = true) (i : Inputs)
    (hv' : (s.step i).noc2Val = false) : (s.step i).noc2IsMessageNew = true := by
  show State.isMessageNewNext s.noc2IsMessageNew (s.noc2Ack i) (s.noc2HeaderAck i) = true
  unfold State.isMessageNewNext
  rcases noc2_cases s i with ⟨-, hv, -⟩ | ⟨hgone, -⟩
  · rw [hv] at hv'
    exact absurd hv'.symm Bool.false_ne_true
  · cases hv : s.noc2Val with
    | true =>
      rw [hgone hv]
      rfl
    | false =>
      have hh : s.noc2HeaderAck i = false := by
        by_contra hh
        rw [(new_of_noc2HeaderAck (by simpa using hh)).1] at hv
        exact absurd hv.symm Bool.false_ne_true
      rw [hh, hidle hv]
      cases s.noc2Ack i <;> rfl

theorem Inv.step_noc2Sane (h : Inv y) (hok : InputOk y i) (hv : (y.1.step i).noc2Val = true) :
    (y.1.step i).noc2.reqtype ≠ .other := by
  rcases noc2_cases y.1 i with ⟨hk, -, hm⟩ | ⟨-, ⟨m, ha, -, hm⟩ | ⟨-, hv'⟩⟩
  · rw [hm]
    exact h.noc2Sane hk.1
  · have hconf := hok.noc2
    rw [ha] at hconf
    change conforming y.2 m = true at hconf
    rw [hm]
    intro hother
    unfold conforming at hconf
    rw [hother] at hconf
    exact absurd hconf Bool.false_ne_true
  · rw [hv'] at hv
    exact absurd hv Bool.false_ne_true

/-- The stages take the NoC2 message away only where no pass still needs it. -/
theorem Inv.noc2AckStages_le (h : Inv y) (i : Inputs) :
    (y.1.noc2AckS2 i).toNat + (y.1.noc2AckS3 i).toNat + y.1.noc2PassUser.toNat ≤
      y.1.noc2Held.toNat := by
  have husers := h.noc2Users
  unfold State.noc2Users at husers
  have h2 : (y.1.noc2AckS2 i).toNat ≤ (y.1.valS2 && y.1.s2.acksNoc2).toNat := by
    unfold State.noc2AckS2 Instr.acksNoc2
    cases y.1.valS2 <;> cases y.1.stallS2 i <;> cases y.1.s2.ops.noc2AckStage <;> decide
  have h3 : (y.1.noc2AckS3 i).toNat ≤ (y.1.valS3 && y.1.s3.ops.noc2AckStage = .s3).toNat := by
    unfold State.noc2AckS3
    cases y.1.valS3 <;> cases y.1.stallS3 i <;> cases y.1.s3.ops.noc2AckStage <;> decide
  omega

/-- While no instruction in the stages takes the message away, S1 alone does. -/
theorem Inv.noc2Ack_eq (h : Inv y) (i : Inputs)
    (hp : y.1.noc2PassUser = true ∨ y.1.noc2Held = false) :
    y.1.noc2Ack i = (y.1.s1Issues i && y.1.decode.noc2AckStage = .s1) := by
  have hle := h.noc2AckStages_le i
  have hheld := Bool.toNat_le y.1.noc2Held
  have htrue : true.toNat = 1 := rfl
  have hfalse : false.toNat = 0 := rfl
  have hno : (y.1.noc2AckS2 i).toNat = 0 ∧ (y.1.noc2AckS3 i).toNat = 0 := by
    rcases hp with hp | hp <;> rw [hp] at hle <;> omega
  unfold State.noc2Ack
  rw [Bool.toNat_eq_zero.1 hno.1, Bool.toNat_eq_zero.1 hno.2, Bool.or_false, Bool.or_false]

/-- A message stays for the pass that needs it. -/
theorem Inv.noc2_kept (h : Inv y) (hok : InputOk y i) (hp : (y.1.step i).noc2PassUser = true) :
    y.1.noc2Val = true ∧ y.1.noc2Ack i = false ∧ (y.1.step i).noc2 = y.1.noc2 := by
  have hstep := h.noc2Users_step hok
  have hheld := h.noc2Users
  have huser : 1 ≤ (y.1.step i).noc2Users := by
    unfold State.noc2Users
    rw [hp]
    exact Nat.le_add_left _ _
  have hone := Bool.toNat_le y.1.noc2Held
  have htrue : true.toNat = 1 := rfl
  have hfalse : false.toNat = 0 := rfl
  have hkept : y.1.noc2Val = true ∧ y.1.noc2Ack i = false := by
    cases hh : y.1.noc2HeaderAck i with
    | true =>
      obtain ⟨hv, hn, -⟩ := new_of_noc2HeaderAck hh
      have hnot : y.1.noc2Held = false := by
        unfold State.noc2Held
        simp [hn]
      rw [hnot] at hheld
      rw [hh] at hstep
      exact ⟨hv, Bool.toNat_eq_zero.1 (by omega)⟩
    | false =>
      rw [hh] at hstep
      have hheld1 : y.1.noc2Held = true := Bool.toNat_eq_one.1 (by omega)
      unfold State.noc2Held at hheld1
      rw [Bool.and_eq_true] at hheld1
      exact ⟨hheld1.1, Bool.toNat_eq_zero.1 (by omega)⟩
  exact ⟨hkept.1, hkept.2, (noc2_step hkept.1 hkept.2).2⟩

theorem noc2PassUser_of_ne (hp : s.fetchState.noc2Pass = true)
    (hne : s.fetchState ≠ .icacheInval2) : s.noc2PassUser = true := by
  unfold State.noc2PassUser
  simp [hp, hne]

/-! ### The state of a store entry -/

/-- The S3 operations of a store's request belong to the entry of its thread. -/
theorem Inv.reqS3_of_op (h : Inv y) (hv : y.1.valS3 = true)
    (hop : y.1.s3.ops.s3MshrOperation = .deallocationIfTagcheckMEElseUpdateStateStmshr ∨
      y.1.s3.ops.s3MshrOperation = .updateStMshrWaitAck) (ht : y.1.s3.threadid = t) :
    y.1.reqS3 .st t = true := by
  obtain ⟨-, hst, hwt⟩ := (h.decodesS3 hv).s3MshrRow
  have hn : y.1.s3.ops.noc1Operation.expects = true ∧
      y.1.s3.ops.noc1Operation.mshrId = .st := by
    rcases hop with hop | hop
    · rw [hst.1 hop]
      exact ⟨rfl, rfl⟩
    · rw [hwt.1 hop]
      exact ⟨rfl, rfl⟩
  have hid := (h.requestS3 hv hn.1).1
  unfold State.reqS3 Instr.requests
  simp [hv, hn.1, hid, hn.2, ht]

/-- Once its request has left S3, a store entry changes its state only from SM to IM. -/
theorem Inv.stState_step (h : Inv y) (i : Inputs) (hr3 : y.1.reqS3 .st t = false) :
    ((y.1.step i).mshr.stState t = y.1.mshr.stState t ∧
        (y.1.step i).mshr.stWay t = y.1.mshr.stWay t) ∨
      (y.1.mshr.stState t = .SM ∧ (y.1.step i).mshr.stState t = .IM) := by
  show ((if y.1.mshrS3Write.updates t then y.1.mshrS3Write.updateState else y.1.mshr.stState t) =
      _ ∧ (if y.1.mshrS3Write.updates t then y.1.mshrS3Write.updateWay else y.1.mshr.stWay t) = _) ∨
    (_ ∧ (if y.1.mshrS3Write.updates t then y.1.mshrS3Write.updateState
      else y.1.mshr.stState t) = .IM)
  cases hu : y.1.mshrS3Write.updates t with
  | false => exact .inl ⟨rfl, rfl⟩
  | true =>
    obtain ⟨hv, ⟨hop, -, ht, -⟩ | ⟨hop, ht, -⟩ | ⟨-, hstate, hmatch⟩⟩ := updates_cases hu
    · rw [h.reqS3_of_op hv (.inl hop) ht] at hr3
      exact absurd hr3.symm Bool.false_ne_true
    · rw [h.reqS3_of_op hv (.inr hop) ht] at hr3
      exact absurd hr3.symm Bool.false_ne_true
    · unfold State.stbufCompareMatch at hmatch
      simp only [Bool.and_eq_true, decide_eq_true_eq] at hmatch
      exact .inr ⟨hmatch.1.2, hstate⟩

/-! ### The passes of a NoC2 message -/

/-- The answer whose second pass follows waits in the buffer. -/
theorem answerWaits_of_isFill (hv : s.noc2Val = true)
    (hw : s.noc2IsMessageNew = true ∨ s.fetchState = .noc2WritebackDone)
    (hf : s.predecodeNoc2.reqtype.isFill = true) :
    s.answerWaits s.noc2.mshrid s.noc2.threadid = true := by
  have hack : s.predecodeNoc2.reqtype.isAck = true := by
    cases hrt : s.predecodeNoc2.reqtype <;> rw [hrt] at hf <;>
      first | rfl | exact absurd hf Bool.false_ne_true
  unfold State.answerWaits Noc2Message.answers
  rcases message_of_isAck hack with ⟨hk, hm⟩ | ⟨hk, hst⟩ <;>
    rcases hw with hw | hw <;> simp [*]

theorem isFill_dataAckReqtype {c : Control} {st : TransState} :
    (dataAckReqtype c st).isFill = true ↔
      c.nc = false ∧ c.icache = false ∧ (c.load = true ∨ st = .IM) := by
  unfold dataAckReqtype
  cases c.nc <;> cases c.icache <;> cases c.load <;> cases c.atomic <;> cases st <;> decide

/-- The messages that decode to a fill. -/
theorem isFill_iff : s.predecodeNoc2.reqtype.isFill = true ↔
    s.noc2.reqtype = .dataAck ∧ s.noc2.hmcFill = false ∧
      (s.mshr.readControl s.noc2.mshrid s.noc2.threadid).nc = false ∧
      (s.mshr.readControl s.noc2.mshrid s.noc2.threadid).icache = false ∧
      ((s.mshr.readControl s.noc2.mshrid s.noc2.threadid).load = true ∨
        s.mshr.stState s.noc2.threadid = .IM) := by
  show (noc2Reqtype s.noc2 (s.mshr.readControl s.noc2.mshrid s.noc2.threadid)
    (s.mshr.stState s.noc2.threadid)).isFill = true ↔ _
  unfold noc2Reqtype
  cases s.noc2.reqtype with
  | dataAck =>
    cases s.noc2.hmcFill with
    | true => simp [Reqtype.isFill]
    | false => simpa using isFill_dataAckReqtype
  | storeFwd | invFwd | loadFwd => cases s.noc2.icacheType <;> simp [Reqtype.isFill]
  | nodataAck => by_cases hid : s.noc2.mshrid = .st <;> simp [hid, Reqtype.isFill]
  | interrupt | other => simp [Reqtype.isFill]

theorem Inv.step_fillPass (h : Inv y) (hok : InputOk y i)
    (hfs : (y.1.step i).fetchState = .noc2WritebackDone) :
    (y.1.step i).predecodeNoc2.reqtype.isFill = true := by
  have hpass := noc2PassUser_of_ne (s := y.1.step i) (by rw [hfs]; rfl) (by rw [hfs]; decide)
  obtain ⟨hv, -, hm⟩ := h.noc2_kept hok hpass
  have hfill : y.1.predecodeNoc2.reqtype.isFill = true ∧
      (y.1.noc2IsMessageNew = true ∨ y.1.fetchState = .noc2WritebackDone) := by
    rcases fetchState_fill hfs with ⟨hwait, -⟩ | ⟨-, -, -, -, hnew, hf⟩
    · exact ⟨h.fillPass hwait, .inr hwait⟩
    · exact ⟨hf, .inl hnew⟩
  have ha := answerWaits_of_isFill hv hfill.2 hfill.1
  obtain ⟨hval, -, hr3, -⟩ := h.of_answerWaits ha
  obtain ⟨hcontrol, -⟩ := h.mshr_kept i hval
  obtain ⟨hk, hhmc, hnc, hicache, hkind⟩ := isFill_iff.1 hfill.1
  refine isFill_iff.2 ?_
  rw [hm, hcontrol]
  refine ⟨hk, hhmc, hnc, hicache, ?_⟩
  cases hl : (y.1.mshr.readControl y.1.noc2.mshrid y.1.noc2.threadid).load with
  | true => exact .inl rfl
  | false =>
    right
    have hst : y.1.noc2.mshrid = .st := by
      have hfits := h.control _ _ hval
      cases hid : y.1.noc2.mshrid with
      | none =>
        rw [hid] at hval
        exact absurd hval Bool.false_ne_true
      | ifill =>
        rw [hid] at hfits hicache
        exact absurd (hicache.symm.trans hfits) Bool.false_ne_true
      | ld =>
        rw [hid] at hfits hnc hl
        exact absurd (hl.symm.trans (hfits.2.1 hnc)) Bool.false_ne_true
      | st => rfl
    rw [hst] at hr3
    have him := hkind.resolve_left (by rw [hl]; exact Bool.false_ne_true)
    rcases h.stState_step i hr3 with ⟨hs, -⟩ | ⟨-, hs⟩
    · rw [hs, him]
    · exact hs

/-! ### Forwards -/

/-- The messages that decode to an invalidation or a downgrade. -/
theorem message_of_forward {m : Noc2Message} {c : Control} {st : TransState} :
    ((noc2Reqtype m c st = .invalidation ∨ noc2Reqtype m c st = .downgrade) →
      m.isForward = true ∧ m.icacheType = false) ∧
    (noc2Reqtype m c st = .icacheInvalidation → m.isForward = true ∧ m.icacheType = true) := by
  unfold noc2Reqtype dataAckReqtype Noc2Message.isForward
  cases m.reqtype <;> cases m.icacheType <;> simp only [] <;> (repeat' split) <;> simp_all

/-- The fetch states that follow the first pass of a forward. -/
theorem fetchState_forward (h : (s.step i).fetchState = .inval2 ∨
    (s.step i).fetchState = .inval3 ∨ (s.step i).fetchState = .inval4) :
    (s.fetchState = .inval2 ∨ s.fetchState = .inval3 ∨ s.fetchState = .inval4) ∨
      (s.s1Issues i = true ∧ s.fetchState = .normal ∧
        (s.predecode.reqtype = .invalidation ∨ s.predecode.reqtype = .downgrade)) := by
  cases hi : s.s1Issues i with
  | false =>
    rw [fetchState_of_not_issues hi] at h
    exact .inl h
  | true =>
    rw [fetchState_of_issues hi] at h
    cases hfs : s.fetchState with
    | normal =>
      rw [hfs] at h
      refine .inr ⟨rfl, rfl, ?_⟩
      generalize s.intVecDis = a at h
      cases hrt : s.predecode.reqtype <;> rw [hrt] at h <;> revert h <;> cases a <;> decide
    | inval2 => exact .inl (.inl rfl)
    | inval3 => exact .inl (.inr (.inl rfl))
    | inval4 => exact .inl (.inr (.inr rfl))
    | pcxWritebackDone | noc2WritebackDone | icacheInval2 =>
      rw [hfs] at h
      rcases h with h | h | h <;> exact absurd h FetchState.noConfusion

/-- A forward that issues comes from the NoC2 buffer. -/
theorem source_of_forward (hi : s.s1Issues i = true) (hrt : s.predecode.reqtype.fromPcx = false)
    (hne : s.predecode.reqtype ≠ .none) : s.predecodeSource = .noc2 := by
  rcases source_cases hi with ⟨hs, -⟩ | ⟨hs, -⟩
  · exact hs
  · rw [State.predecode_pcx hs] at hrt hne
    rcases pcxReqtype_fromPcx s.pcx s.specialAccess with hp | hp
    · exact absurd (hrt.symm.trans hp) Bool.false_ne_true
    · exact absurd hp hne

theorem Inv.step_forwardPass (h : Inv y) (hok : InputOk y i)
    (hfs : (y.1.step i).fetchState = .inval2 ∨ (y.1.step i).fetchState = .inval3 ∨
      (y.1.step i).fetchState = .inval4) :
    (y.1.step i).noc2.isForward = true ∧ (y.1.step i).noc2.icacheType = false := by
  have hpass : (y.1.step i).noc2PassUser = true := by
    refine noc2PassUser_of_ne ?_ ?_ <;> rcases hfs with hfs | hfs | hfs <;> rw [hfs] <;> decide
  obtain ⟨-, -, hm⟩ := h.noc2_kept hok hpass
  rw [hm]
  rcases fetchState_forward hfs with hold | ⟨hi, -, hrt⟩
  · exact h.forwardPass hold
  · have hs : y.1.predecodeSource = .noc2 := by
      refine source_of_forward hi ?_ ?_ <;> rcases hrt with hrt | hrt <;> rw [hrt] <;> decide
    rw [State.predecode_noc2 hs] at hrt
    exact message_of_forward.1 hrt

/-- The second pass of an instruction cache invalidation follows the first one. -/
theorem fetchState_icache (h : (s.step i).fetchState = .icacheInval2) :
    (s.fetchState = .icacheInval2 ∧ s.s1Issues i = false) ∨
      (s.s1Issues i = true ∧ s.fetchState = .normal ∧
        s.predecode.reqtype = .icacheInvalidation) := by
  cases hi : s.s1Issues i with
  | false =>
    rw [fetchState_of_not_issues hi] at h
    exact .inl ⟨h, rfl⟩
  | true =>
    rw [fetchState_of_issues hi] at h
    cases hfs : s.fetchState with
    | normal =>
      rw [hfs] at h
      refine .inr ⟨rfl, rfl, ?_⟩
      generalize s.intVecDis = a at h
      cases hrt : s.predecode.reqtype <;> rw [hrt] at h <;> revert h <;> cases a <;> decide
    | inval2 | inval3 | inval4 | pcxWritebackDone | noc2WritebackDone | icacheInval2 =>
      rw [hfs] at h
      exact absurd h FetchState.noConfusion

theorem Inv.step_icachePass (h : Inv y) (hok : InputOk y i)
    (hfs : (y.1.step i).fetchState = .icacheInval2) :
    (y.1.step i).noc2.isForward = true ∧ (y.1.step i).noc2.icacheType = true ∧
      ((y.1.step i).noc2Val = false → (y.1.step i).noc2.fwdSubcachelineVector = 3) := by
  have hm := (noc2_of_noFlit (hok.icache hfs)).2
  have hgone : (y.1.step i).noc2Val = false → y.1.noc2Val = false ∨ y.1.noc2Ack i = true := by
    intro hv'
    rcases noc2_cases y.1 i with ⟨-, hv, -⟩ | ⟨hack, -⟩
    · rw [hv] at hv'
      exact absurd hv'.symm Bool.false_ne_true
    · cases hv : y.1.noc2Val with
      | false => exact .inl rfl
      | true => exact .inr (hack hv)
  rw [hm]
  rcases fetchState_icache hfs with ⟨hwait, hi⟩ | ⟨hi, hn, hrt⟩
  · obtain ⟨hf, hic, hvec⟩ := h.icachePass hwait
    refine ⟨hf, hic, fun hv' => hvec ?_⟩
    cases hv : y.1.noc2Val with
    | false => rfl
    | true =>
      have hpass : y.1.noc2PassUser = true := by
        unfold State.noc2PassUser
        rw [hwait, hv]
        rfl
      have hack := h.noc2Ack_eq i (.inl hpass)
      rw [hi, Bool.false_and] at hack
      rcases hgone hv' with hg | hg
      · rw [hv] at hg
        exact absurd hg.symm Bool.false_ne_true
      · rw [hack] at hg
        exact absurd hg Bool.false_ne_true
  · have hs : y.1.predecodeSource = .noc2 := by
      refine source_of_forward hi ?_ ?_ <;> rw [hrt] <;> decide
    rw [State.predecode_noc2 hs] at hrt
    obtain ⟨hf, hic⟩ := message_of_forward.2 hrt
    refine ⟨hf, hic, fun hv' => ?_⟩
    obtain ⟨hv, hnew⟩ : y.1.noc2Val = true ∧ y.1.noc2IsMessageNew = true := by
      rcases State.source_normal hi hn with ⟨-, hv, hnew⟩ | ⟨hs', -⟩
      · exact ⟨hv, hnew⟩
      · rw [hs] at hs'
        cases hs'
    have hheld : y.1.noc2Held = false := by
      unfold State.noc2Held
      simp [hnew]
    have hack := h.noc2Ack_eq i (.inr hheld)
    have hg := (hgone hv').resolve_left (by rw [hv]; simp)
    rw [hack, hi, Bool.true_and, decide_eq_true_eq] at hg
    unfold State.decode at hg
    rw [State.predecode_noc2 hs, hrt, icachePass_noc2AckStage] at hg
    have hlast : isLastInval y.1.noc2.icacheType y.1.fetchState
        y.1.noc2.fwdSubcachelineVector = true := by
      by_contra hno
      change (if isLastInval y.1.noc2.icacheType y.1.fetchState y.1.noc2.fwdSubcachelineVector
        then AckStage.s1 else .never) = .s1 at hg
      rw [if_neg hno] at hg
      cases hg
    unfold isLastInval at hlast
    rw [hic, hn] at hlast
    simpa using hlast

end Piton.L15
