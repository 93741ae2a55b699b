import Piton.L15.Invariant

/-! The messages of the input buffers: what each decodes to, and that a message stays in its
buffer as long as a pass or an instruction needs it. -/

namespace Piton.L15

open Hw

variable {y : State × Traffic} {s : State} {i : Inputs} {id : MshrId} {t : ThreadId}

/-! ### Answers -/

/-- An answer in the NoC2 buffer belongs to a valid entry whose request is nowhere else. -/
theorem Inv.of_answerWaits (h : Inv y)
    (ha : y.1.answerWaits id t = true) :
    y.1.mshr.val id t = true ∧ y.1.reqS2 id t = false ∧ y.1.reqS3 id t = false ∧
      y.1.ackS2 id t = false ∧ y.1.ackS3 id t = false ∧ y.2.outstanding id t = none := by
  have ht := h.tokens id t
  unfold State.tokens at ht
  rw [ha] at ht
  have hle := Bool.toNat_le (y.1.mshr.val id t)
  have htrue : true.toNat = 1 := rfl
  refine ⟨?_, ?_, ?_, ?_, ?_, ?_⟩
  · exact Bool.toNat_eq_one.1 (by omega)
  · exact Bool.toNat_eq_zero.1 (by omega)
  · exact Bool.toNat_eq_zero.1 (by omega)
  · exact Bool.toNat_eq_zero.1 (by omega)
  · exact Bool.toNat_eq_zero.1 (by omega)
  · exact Option.not_isSome_iff_eq_none.1 fun hs => by
      rw [hs] at ht
      omega

/-- A waiting answer names its entry and is a data acknowledgement or, for a store entry, an
acknowledgement without data. -/
theorem answerWaits_message (ha : s.answerWaits id t = true) :
    s.noc2Val = true ∧ s.noc2.mshrid = id ∧ s.noc2.threadid = t ∧
      ((s.noc2.reqtype = .dataAck ∧ s.noc2.hmcFill = false) ∨
        (s.noc2.reqtype = .nodataAck ∧ id = .st)) := by
  unfold State.answerWaits Noc2Message.answers at ha
  simp only [Bool.and_eq_true, Bool.or_eq_true, decide_eq_true_eq, Bool.not_eq_true'] at ha
  obtain ⟨⟨hv, -⟩, ⟨hk, hid⟩, ht⟩ := ha
  refine ⟨hv, hid, ht, ?_⟩
  rcases hk with hk | ⟨hk, hst⟩
  · exact .inl hk
  · exact .inr ⟨hk, by rw [← hid, hst]⟩

/-- The request type of the answer to an entry. -/
def answerReqtype (m : Mshr) (id : MshrId) (t : ThreadId) : Reqtype :=
  match id with
  | .none => .none
  | .ifill => .ackdtIfill
  | .ld =>
    if (m.ldControl t).nc then if (m.ldControl t).load then .ackdtLdNc else .ackAtomic
    else .ackdtLd
  | .st =>
    if (m.stControl t).nc then .ackWritethrough
    else if m.stState t = .IM then .ackdtStIm
    else .ackdtStSm

/-- An answer is decoded by the control bits and the store state of its entry. -/
theorem Inv.answer_reqtype (h : Inv y)
    (ha : y.1.answerWaits id t = true) :
    y.1.predecodeNoc2.reqtype = answerReqtype y.1.mshr id t := by
  obtain ⟨hval, hr2, hr3, -, -, -⟩ := h.of_answerWaits ha
  obtain ⟨-, hid, ht, hk⟩ := answerWaits_message ha
  have hc := h.control id t hval
  show noc2Reqtype y.1.noc2 (y.1.mshr.readControl y.1.noc2.mshrid y.1.noc2.threadid)
    (y.1.mshr.stState y.1.noc2.threadid) = _
  rw [hid, ht]
  cases id with
  | none => exact absurd hval Bool.false_ne_true
  | ifill =>
    change (y.1.mshr.ifillControl t).icache = true at hc
    rcases hk with ⟨hk, hm⟩ | ⟨-, hst⟩
    · unfold noc2Reqtype dataAckReqtype answerReqtype Mshr.readControl
      simp [hk, hm, hc]
    · cases hst
  | ld =>
    change (y.1.mshr.ldControl t).icache = false ∧ ((y.1.mshr.ldControl t).nc = false →
      (y.1.mshr.ldControl t).load = true) ∧ ((y.1.mshr.ldControl t).load = true ∨
        (y.1.mshr.ldControl t).atomic = true) at hc
    obtain ⟨hicache, hload, hkind⟩ := hc
    rcases hk with ⟨hk, hm⟩ | ⟨-, hst⟩
    · unfold noc2Reqtype dataAckReqtype answerReqtype Mshr.readControl
      cases hnc : (y.1.mshr.ldControl t).nc with
      | false => simp [hk, hm, hicache, hload hnc]
      | true =>
        cases hl : (y.1.mshr.ldControl t).load with
        | true => simp [hk, hm, hicache]
        | false =>
          rw [hl] at hkind
          simp [hk, hm, hicache, hkind.resolve_left Bool.false_ne_true]
    · cases hst
  | st =>
    change (y.1.mshr.stControl t).icache = false ∧ (y.1.mshr.stControl t).load = false ∧
      (y.1.mshr.stControl t).atomic = false at hc
    obtain ⟨hicache, hload, -⟩ := hc
    obtain ⟨hkind, -⟩ := h.answer t ha
    have hstate := h.settled t ⟨hval, hr2, hr3⟩
    rcases hk with ⟨hk, hm⟩ | ⟨hk, -⟩
    · have hnc : (y.1.mshr.stControl t).nc = false := by
        rw [hk] at hkind
        simpa using hkind
      unfold noc2Reqtype dataAckReqtype answerReqtype Mshr.readControl
      rcases hstate.2 hnc with hs | hs <;> simp [hk, hm, hicache, hload, hnc, hs]
    · have hnc := hkind.1 hk
      unfold noc2Reqtype answerReqtype
      simp [hk, hid, hnc]

theorem answerReqtype_fromPcx (m : Mshr) (id : MshrId) (t : ThreadId) :
    (answerReqtype m id t).fromPcx = false := by
  cases id with
  | none => rfl
  | ifill => rfl
  | ld =>
    unfold answerReqtype
    cases (m.ldControl t).nc <;> cases (m.ldControl t).load <;> rfl
  | st =>
    unfold answerReqtype
    cases (m.stControl t).nc <;> by_cases hs : m.stState t = .IM <;> simp [hs, Reqtype.fromPcx]

/-! ### What S1 decodes -/

/-- A forward decodes to an invalidation or a downgrade, of the data or the instruction cache. -/
theorem forward_reqtype (hf : s.noc2.isForward = true) :
    (s.noc2.icacheType = true → s.predecodeNoc2.reqtype = .icacheInvalidation) ∧
      (s.noc2.icacheType = false →
        s.predecodeNoc2.reqtype = .invalidation ∨ s.predecodeNoc2.reqtype = .downgrade) := by
  unfold Noc2Message.isForward at hf
  simp only [Bool.or_eq_true, decide_eq_true_eq] at hf
  show (_ → noc2Reqtype _ _ _ = _) ∧ (_ → noc2Reqtype _ _ _ = _ ∨ noc2Reqtype _ _ _ = _)
  unfold noc2Reqtype
  rcases hf with (hf | hf) | hf <;> cases hic : s.noc2.icacheType <;> simp [hf]

/-- A message that S1 reads from the NoC2 buffer never decodes to the request of a packet. -/
theorem Inv.noc2_fromPcx (h : Inv y) (hs : y.1.predecodeSource = .noc2) :
    y.1.predecode.reqtype.fromPcx = false := by
  rw [State.predecode_noc2 hs]
  have hforward : y.1.noc2.isForward = true →
      y.1.predecodeNoc2.reqtype.fromPcx = false := by
    intro hf
    obtain ⟨hicache, hdata⟩ := forward_reqtype hf
    cases hic : y.1.noc2.icacheType with
    | true =>
      rw [hicache hic]
      rfl
    | false => rcases hdata hic with hr | hr <;> rw [hr] <;> rfl
  cases hfs : y.1.fetchState with
  | pcxWritebackDone =>
    rw [State.source_pcxWritebackDone hfs] at hs
    cases hs
  | inval2 => exact hforward (h.forwardPass (.inl hfs)).1
  | inval3 => exact hforward (h.forwardPass (.inr (.inl hfs))).1
  | inval4 => exact hforward (h.forwardPass (.inr (.inr hfs))).1
  | icacheInval2 => exact hforward (h.icachePass hfs).1
  | noc2WritebackDone =>
    have hfill := h.fillPass hfs
    cases hrt : y.1.predecodeNoc2.reqtype <;> rw [hrt] at hfill <;>
      first | rfl | exact absurd hfill Bool.false_ne_true
  | normal =>
    have hnew : y.1.noc2decoderVal = true := by
      by_contra hn
      unfold State.predecodeSource at hs
      simp only [hfs, hn, if_false] at hs
      split at hs <;> cases hs
    unfold State.noc2decoderVal at hnew
    rw [Bool.and_eq_true] at hnew
    obtain ⟨hv, hn⟩ := hnew
    cases hk : y.1.noc2.reqtype with
    | storeFwd => exact hforward (by simp [Noc2Message.isForward, hk])
    | invFwd => exact hforward (by simp [Noc2Message.isForward, hk])
    | loadFwd => exact hforward (by simp [Noc2Message.isForward, hk])
    | interrupt =>
      show (noc2Reqtype _ _ _).fromPcx = false
      unfold noc2Reqtype
      simp only [hk]
      rfl
    | other => exact absurd hk (h.noc2Sane hv)
    | nodataAck =>
      show (noc2Reqtype _ _ _).fromPcx = false
      unfold noc2Reqtype
      simp only [hk]
      split <;> rfl
    | dataAck =>
      cases hm : y.1.noc2.hmcFill with
      | true =>
        show (noc2Reqtype _ _ _).fromPcx = false
        unfold noc2Reqtype
        simp only [hk, hm, if_true]
        rfl
      | false =>
        have ha : y.1.answerWaits y.1.noc2.mshrid y.1.noc2.threadid = true := by
          simp [State.answerWaits, Noc2Message.answers, hv, hn, hk, hm]
        rw [h.answer_reqtype ha]
        exact answerReqtype_fromPcx _ _ _

/-- The signals of an issued NoC2 message leave the PCX packet alone and allocate nothing. -/
theorem Inv.noc2_signals (h : Inv y) (hs : y.1.predecodeSource = .noc2) :
    y.1.decode.s1MshrOperation = .none ∧ y.1.decode.pcxAckStage = .never :=
  y.1.decodes_s1.sourceRow.noc2 (h.noc2_fromPcx hs)

/-- The signals of an issued PCX packet leave the NoC2 message alone. -/
theorem pcx_signals (hs : s.predecodeSource = .pcx) :
    s.decode.noc2AckStage = .never ∧ s.decode.s3MshrOperation ≠ .deallocation ∧
      s.decode.dtagOperation ≠ .write := by
  refine s.decodes_s1.sourceRow.pcx ?_
  show s.predecode.reqtype.fromPcx = true ∨ s.predecode.reqtype = .none
  rw [State.predecode_pcx hs]
  exact pcxReqtype_fromPcx s.pcx s.specialAccess

/-! ### Fetch states -/

theorem fetchState_of_issues (h : s.s1Issues i = true) :
    (s.step i).fetchState =
      fetchStateNext s.fetchState s.predecode.reqtype s.intVecDis false := by
  show fetchStateNext s.fetchState s.predecode.reqtype s.intVecDis (s.stallS1 i) = _
  rw [State.stallS1_of_issues h]

/-- Without an issue the fetch state stays. -/
theorem fetchState_of_not_issues (h : s.s1Issues i = false) :
    (s.step i).fetchState = s.fetchState := by
  show fetchStateNext s.fetchState s.predecode.reqtype s.intVecDis (s.stallS1 i) = _
  unfold State.s1Issues at h
  cases hv : s.valS1 with
  | true =>
    rw [hv, Bool.true_and, Bool.not_eq_false'] at h
    rw [h]
    unfold fetchStateNext
    cases s.fetchState <;> rfl
  | false =>
    have hinv : s.predecodeSource = .invalid := by
      unfold State.valS1 at hv
      simpa using hv
    have hrt : s.predecode.reqtype = .none := by
      unfold State.predecode
      rw [hinv]
      rfl
    cases hfs : s.fetchState with
    | normal =>
      rw [hrt]
      unfold fetchStateNext
      cases s.stallS1 i <;> rfl
    | pcxWritebackDone =>
      rw [State.source_pcxWritebackDone hfs] at hinv
      cases hinv
    | inval2 | inval3 | inval4 | noc2WritebackDone | icacheInval2 =>
      rw [State.source_noc2 (by rw [hfs]; decide) (by rw [hfs]; decide)] at hinv
      cases hinv

/-- Before the second pass of a fill, the pass already waited or the first one issues. -/
theorem fetchState_fill (h : (s.step i).fetchState = .noc2WritebackDone) :
    (s.fetchState = .noc2WritebackDone ∧ s.s1Issues i = false) ∨
      (s.s1Issues i = true ∧ s.fetchState = .normal ∧ s.predecodeSource = .noc2 ∧
        s.noc2Val = true ∧ s.noc2IsMessageNew = true ∧ s.predecodeNoc2.reqtype.isFill = true) := by
  cases hi : s.s1Issues i with
  | false =>
    rw [fetchState_of_not_issues hi] at h
    exact .inl ⟨h, rfl⟩
  | true =>
    rw [fetchState_of_issues hi] at h
    cases hfs : s.fetchState with
    | normal =>
      rw [hfs, fetchStateNext_fill] at h
      rcases State.source_normal hi hfs with ⟨hs, hv, hn⟩ | ⟨hs, -⟩
      · rw [State.predecode_noc2 hs] at h
        exact .inr ⟨rfl, rfl, hs, hv, hn, h⟩
      · rw [State.predecode_pcx hs] at h
        change (pcxReqtype s.pcx s.specialAccess).isFill = true at h
        rcases pcxReqtype_fromPcx s.pcx s.specialAccess with hp | hp
        · cases hrt : pcxReqtype s.pcx s.specialAccess <;> rw [hrt] at hp h <;>
            first | exact absurd hp Bool.false_ne_true | exact absurd h Bool.false_ne_true
        · rw [hp] at h
          exact absurd h Bool.false_ne_true
    | pcxWritebackDone | inval2 | inval3 | inval4 | noc2WritebackDone | icacheInval2 =>
      rw [hfs] at h
      exact absurd h FetchState.noConfusion

/-- Before the second pass of a PCX request, the pass already waited or the first one issues. -/
theorem fetchState_pcx (h : (s.step i).fetchState = .pcxWritebackDone) :
    (s.fetchState = .pcxWritebackDone ∧ s.s1Issues i = false) ∨
      (s.s1Issues i = true ∧ s.fetchState = .normal ∧
        fetchStateNext .normal s.predecode.reqtype s.intVecDis false = .pcxWritebackDone) := by
  cases hi : s.s1Issues i with
  | false =>
    rw [fetchState_of_not_issues hi] at h
    exact .inl ⟨h, rfl⟩
  | true =>
    rw [fetchState_of_issues hi] at h
    cases hfs : s.fetchState with
    | normal =>
      rw [hfs] at h
      exact .inr ⟨rfl, rfl, h⟩
    | pcxWritebackDone | inval2 | inval3 | inval4 | noc2WritebackDone | icacheInval2 =>
      rw [hfs] at h
      exact absurd h FetchState.noConfusion

/-! ### The users of a message -/

/-- The instructions that take a message away in S2 or S3 stay until they do. -/
theorem stageUsers_step (stage : Instr → AckStage) (s : State) (i : Inputs) :
    ((s.step i).valS2 && (stage (s.step i).s2 = .s2 || stage (s.step i).s2 = .s3)).toNat +
        ((s.step i).valS3 && stage (s.step i).s3 = .s3).toNat +
        (s.valS2 && !s.stallS2 i && stage s.s2 = .s2).toNat +
        (s.valS3 && !s.stallS3 i && stage s.s3 = .s3).toNat =
      (s.valS2 && (stage s.s2 = .s2 || stage s.s2 = .s3)).toNat +
        (s.valS3 && stage s.s3 = .s3).toNat +
        (s.s1Issues i && (stage s.s1Instr = .s2 || stage s.s1Instr = .s3)).toNat := by
  have h2 := State.s2_step (s := s) (i := i) fun x => stage x = .s2 || stage x = .s3
  have h3 := State.s3_step (s := s) (i := i) fun x => stage x = .s3
  rw [h2, h3]
  rcases s.movement i with ⟨hs3, hs2, -, -, hi⟩ | ⟨hs3, hs2, hv2, -⟩ | ⟨hs3, hs2⟩
  · simp [hs3, hs2, hi]
  · simp [hs3, hs2, hv2, Nat.add_comm]
  · simp only [hs3, hs2, Bool.not_false, Bool.and_true, if_false, Bool.false_eq_true]
    cases hv : s.valS2 with
    | false => simp only [Bool.false_and, Bool.toNat_false]; omega
    | true =>
      cases hst : stage s.s2 <;> simp only [reduceCtorEq, decide_false, decide_true,
        Bool.or_true, Bool.or_false, Bool.and_true, Bool.and_false, Bool.toNat_true,
        Bool.toNat_false] <;> omega

/-- The source of an issued request is a buffer, and PCX only in two fetch states. -/
theorem source_cases (h : s.s1Issues i = true) :
    (s.predecodeSource = .noc2 ∧ s.fetchState ≠ .pcxWritebackDone) ∨
      (s.predecodeSource = .pcx ∧
        (s.fetchState = .normal ∨ s.fetchState = .pcxWritebackDone)) := by
  by_cases hn : s.fetchState = .normal
  · rcases State.source_normal h hn with ⟨hs, -⟩ | ⟨hs, -⟩
    · exact .inl ⟨hs, by rw [hn]; decide⟩
    · exact .inr ⟨hs, .inl hn⟩
  · by_cases hp : s.fetchState = .pcxWritebackDone
    · exact .inr ⟨State.source_pcxWritebackDone hp, .inr hp⟩
    · exact .inl ⟨State.source_noc2 hn hp, hp⟩

/-- Only a pass of a NoC2 message completes a request. -/
theorem source_of_completes (hi : s.s1Issues i = true)
    (hop : s.decode.s3MshrOperation = .deallocation) : s.predecodeSource = .noc2 := by
  rcases source_cases hi with ⟨hs, -⟩ | ⟨hs, -⟩
  · exact hs
  · exact absurd hop (pcx_signals hs).2.1

/-- A PCX packet whose processing starts in this cycle is new. -/
theorem new_of_pcxHeaderAck (h : s.pcxHeaderAck i = true) :
    s.pcxVal = true ∧ s.pcxIsMessageNew = true ∧ s.s1Issues i = true ∧
      s.fetchState = .normal ∧ s.predecodeSource = .pcx := by
  unfold State.pcxHeaderAck at h
  simp only [Bool.and_eq_true, decide_eq_true_eq] at h
  obtain ⟨⟨hs, hi⟩, hfs⟩ := h
  rcases State.source_normal hi hfs with ⟨hs', -⟩ | ⟨-, hv, hn⟩
  · rw [hs] at hs'
    cases hs'
  · exact ⟨hv, hn, hi, hfs, hs⟩

/-- S1's part of the users of the PCX packet. -/
theorem Inv.pcxUsers_s1 (h : Inv y) (i : Inputs) :
    (y.1.s1Issues i && (y.1.decode.pcxAckStage = .s2 || y.1.decode.pcxAckStage = .s3)).toNat +
        (y.1.s1Issues i && y.1.decode.pcxAckStage = .s1).toNat +
        (decide ((y.1.step i).fetchState = .pcxWritebackDone)).toNat ≤
      (decide (y.1.fetchState = .pcxWritebackDone)).toNat + (y.1.pcxHeaderAck i).toNat := by
  cases hi : y.1.s1Issues i with
  | false =>
    rw [fetchState_of_not_issues hi]
    simp
  | true =>
    rw [fetchState_of_issues hi]
    rcases source_cases hi with ⟨hs, hfs⟩ | ⟨hs, hfs | hfs⟩
    · have hne := fetchStateNext_of_fromPcx (a := y.1.intVecDis) (h.noc2_fromPcx hs) hfs
      simp [(h.noc2_signals hs).2, hne]
    · have hhead : y.1.pcxHeaderAck i = true := by
        unfold State.pcxHeaderAck
        simp [hs, hi, hfs]
      rw [hhead, hfs]
      by_cases hp : fetchStateNext .normal y.1.predecode.reqtype y.1.intVecDis false =
          .pcxWritebackDone
      · have hst : y.1.decode.pcxAckStage = .never := by
          have hrow := ((firstPassRow y.1.predecode.reqtype y.1.intVecDis y.1.hitStbuf
            y.1.predecode.isLastInval y.1.predecode.interruptBroadcast).pcx hp).1
          unfold State.decode
          rw [hfs]
          exact hrow
        simp [hp, hst]
      · cases hst : y.1.decode.pcxAckStage <;> simp [hp]
    · have hnext : fetchStateNext .pcxWritebackDone y.1.predecode.reqtype y.1.intVecDis false =
          .normal := rfl
      rw [hfs, hnext]
      cases hst : y.1.decode.pcxAckStage <;> simp

/-- The users of the PCX packet after a cycle. -/
theorem Inv.pcxUsers_step (h : Inv y) (i : Inputs) :
    (y.1.step i).pcxUsers + (y.1.pcxAck i).toNat ≤
      y.1.pcxUsers + (y.1.pcxHeaderAck i).toNat := by
  have hstage := stageUsers_step (fun x => x.ops.pcxAckStage) y.1 i
  have hs1 := h.pcxUsers_s1 i
  have hack : (y.1.pcxAck i).toNat ≤
      (y.1.s1Issues i && y.1.decode.pcxAckStage = .s1).toNat + (y.1.pcxAckS2 i).toNat +
        (y.1.pcxAckS3 i).toNat := by
    unfold State.pcxAck
    cases (y.1.s1Issues i && y.1.decode.pcxAckStage = .s1) <;> cases y.1.pcxAckS2 i <;>
      cases y.1.pcxAckS3 i <;> decide
  have h2 : y.1.pcxAckS2 i = (y.1.valS2 && !y.1.stallS2 i && y.1.s2.ops.pcxAckStage = .s2) := rfl
  have h3 : y.1.pcxAckS3 i = (y.1.valS3 && !y.1.stallS3 i && y.1.s3.ops.pcxAckStage = .s3) := rfl
  have hinstr : y.1.s1Instr.ops.pcxAckStage = y.1.decode.pcxAckStage := rfl
  rw [h2, h3] at hack
  simp only [hinstr] at hstage
  unfold State.pcxUsers Instr.acksPcx
  omega

/-- A packet that is not taken away is still there after a cycle. -/
theorem pcx_step (hv : s.pcxVal = true) (hack : s.pcxAck i = false) :
    (s.step i).pcxVal = true ∧ (s.step i).pcx = s.pcx := by
  show (s.pcxBufferNext i).1 = true ∧ (s.pcxBufferNext i).2 = s.pcx
  unfold State.pcxBufferNext
  simp [hv, hack]

/-- A message that is not taken away is still there after a cycle. -/
theorem noc2_step (hv : s.noc2Val = true) (hack : s.noc2Ack i = false) :
    (s.step i).noc2Val = true ∧ (s.step i).noc2 = s.noc2 := by
  show (s.noc2BufferNext i).1 = true ∧ (s.noc2BufferNext i).2 = s.noc2
  unfold State.noc2BufferNext
  simp [hv, hack]

/-- A buffer that is empty, or whose message is taken away, holds the accepted message. -/
theorem noc2_accepted (h : (s.noc2Val && !s.noc2Ack i) = false) :
    (s.step i).noc2Val = (s.noc2Accepts i).isSome ∧
      ∀ m, s.noc2Accepts i = some m → (s.step i).noc2 = m := by
  show (s.noc2BufferNext i).1 = _ ∧ ∀ m, _ → (s.noc2BufferNext i).2 = m
  unfold State.noc2BufferNext State.noc2Accepts
  cases hv : s.noc2Val with
  | true =>
    rw [hv] at h
    simpa using h
  | false => cases i.noc2Offer <;> simp

/-- Without a flit the buffer keeps its contents. -/
theorem noc2_of_noFlit (h : s.noc2Flit i = none) :
    s.noc2Accepts i = none ∧ (s.step i).noc2 = s.noc2 := by
  show _ ∧ (s.noc2BufferNext i).2 = s.noc2
  unfold State.noc2Flit at h
  unfold State.noc2Accepts State.noc2BufferNext
  cases hv : s.noc2Val with
  | true => simp
  | false =>
    rw [hv] at h
    cases ho : i.noc2Offer <;> cases hr : i.noc2Receiving <;> simp_all

/-- A message that is processed, or that an issue begins to process, stays so until it is taken
away. -/
theorem held_step {val' isNew ack headerAck : Bool} (hv : val' = true)
    (hnew : isNew = false ∨ headerAck = true) (hack : ack = false) :
    (val' && !State.isMessageNewNext isNew ack headerAck) = true := by
  unfold State.isMessageNewNext
  rcases hnew with hnew | hnew <;> simp [hv, hnew, hack]

/-- Users that need a message, counted before and after a cycle: if only a message that is not yet
processed can gain one, and taking it away ends its last one, then no user is left without it. -/
theorem users_le {users users' : Nat} {held held' ack headerAck : Bool}
    (h : users ≤ held.toNat) (hstep : users' + ack.toNat ≤ users + headerAck.toNat)
    (hhead : headerAck = true → held = false)
    (hkeep : (held || headerAck) = true → ack = false → held' = true) :
    users' ≤ held'.toNat := by
  have htrue : true.toNat = 1 := rfl
  have hfalse : false.toNat = 0 := rfl
  have hfresh : held.toNat + headerAck.toNat ≤ 1 := by
    cases hh : headerAck with
    | false => cases held <;> decide
    | true => rw [hhead hh]; decide
  cases hack : ack with
  | true =>
    rw [hack] at hstep
    omega
  | false =>
    cases hh : (held || headerAck) with
    | true =>
      rw [hkeep hh hack]
      omega
    | false =>
      rw [Bool.or_eq_false_iff] at hh
      rw [hh.2] at hstep
      rw [hh.1] at h
      omega

theorem Inv.step_pcxUsers (h : Inv y) (i : Inputs) :
    (y.1.step i).pcxUsers ≤ (y.1.step i).pcxHeld.toNat := by
  refine users_le h.pcxUsers (h.pcxUsers_step i) (fun hh => ?_) fun hh hack => ?_
  · unfold State.pcxHeld
    simp [(new_of_pcxHeaderAck hh).2.1]
  · rw [Bool.or_eq_true] at hh
    rcases hh with hh | hh
    · unfold State.pcxHeld at hh
      rw [Bool.and_eq_true, Bool.not_eq_true'] at hh
      exact held_step (pcx_step hh.1 hack).1 (.inl hh.2) hack
    · exact held_step (pcx_step (new_of_pcxHeaderAck hh).1 hack).1 (.inr hh) hack

/-- Before the second pass of a PCX request its packet stays. -/
theorem Inv.pcx_kept (h : Inv y) (hfs : (y.1.step i).fetchState = .pcxWritebackDone) :
    y.1.pcxVal = true ∧ y.1.pcxAck i = false := by
  have hstep := h.pcxUsers_step i
  have hheld := h.pcxUsers
  have huser : 1 ≤ (y.1.step i).pcxUsers := by
    unfold State.pcxUsers
    rw [hfs]
    exact Nat.le_add_left _ _
  have hle := Bool.toNat_le (y.1.pcxHeaderAck i)
  have hone := Bool.toNat_le y.1.pcxHeld
  cases hh : y.1.pcxHeaderAck i with
  | true =>
    obtain ⟨hv, hn, -⟩ := new_of_pcxHeaderAck hh
    have hnot : y.1.pcxHeld = false := by
      unfold State.pcxHeld
      simp [hn]
    rw [hnot] at hheld
    rw [hh] at hstep
    have htrue : true.toNat = 1 := rfl
    have hfalse : false.toNat = 0 := rfl
    exact ⟨hv, Bool.toNat_eq_zero.1 (by omega)⟩
  | false =>
    rw [hh] at hstep
    have hfalse : false.toNat = 0 := rfl
    have hheld1 : y.1.pcxHeld = true := Bool.toNat_eq_one.1 (by omega)
    unfold State.pcxHeld at hheld1
    rw [Bool.and_eq_true] at hheld1
    exact ⟨hheld1.1, Bool.toNat_eq_zero.1 (by omega)⟩

/-- A NoC2 message whose processing starts in this cycle is new. -/
theorem new_of_noc2HeaderAck (h : s.noc2HeaderAck i = true) :
    s.noc2Val = true ∧ s.noc2IsMessageNew = true ∧ s.s1Issues i = true ∧
      s.fetchState = .normal ∧ s.predecodeSource = .noc2 := by
  unfold State.noc2HeaderAck at h
  simp only [Bool.and_eq_true, decide_eq_true_eq] at h
  obtain ⟨⟨hs, hi⟩, hfs⟩ := h
  rcases State.source_normal hi hfs with ⟨-, hv, hn⟩ | ⟨hs', -⟩
  · exact ⟨hv, hn, hi, hfs, hs⟩
  · rw [hs] at hs'
    cases hs'

/-- Without a message, an instruction cache invalidation acknowledged before its second pass stays
without one until the pass issues. -/
theorem noc2Val_of_icache (hok : InputOk y i)
    (hfs : (y.1.step i).fetchState = .icacheInval2)
    (hv : (y.1.noc2Val && !y.1.noc2Ack i) = false) : (y.1.step i).noc2Val = false := by
  have hnone := (noc2_of_noFlit (hok.icache hfs)).1
  rw [(noc2_accepted hv).1, hnone]
  rfl

/-- S1's part of the users of the NoC2 message, while a pass of a message is to follow. -/
theorem Inv.noc2Users_pass (h : Inv y) (hi : y.1.s1Issues i = true)
    (hn : y.1.fetchState ≠ .normal) (hp : y.1.fetchState ≠ .pcxWritebackDone) :
    (y.1.s1Issues i && (y.1.decode.noc2AckStage = .s2 || y.1.decode.noc2AckStage = .s3)).toNat +
        (y.1.s1Issues i && y.1.decode.noc2AckStage = .s1).toNat +
        (y.1.step i).noc2PassUser.toNat ≤ y.1.noc2PassUser.toNat := by
  have hs := State.source_noc2 hn hp
  have hrt : y.1.predecode.reqtype = y.1.predecodeNoc2.reqtype := by rw [State.predecode_noc2 hs]
  have hlast : y.1.predecode.isLastInval = y.1.predecodeNoc2.isLastInval := by
    rw [State.predecode_noc2 hs]
  have hstage : y.1.decode.noc2AckStage =
      (decoder y.1.predecodeNoc2.reqtype y.1.fetchState y.1.intVecDis y.1.hitStbuf
        y.1.predecodeNoc2.isLastInval y.1.predecode.interruptBroadcast).noc2AckStage := by
    unfold State.decode
    rw [hrt, hlast]
  have hnext := fetchState_of_issues hi
  unfold State.noc2PassUser
  rw [hnext, hstage, hi]
  have hforward : y.1.fetchState = .inval2 ∨ y.1.fetchState = .inval3 ∨ y.1.fetchState = .inval4 →
      y.1.predecodeNoc2.reqtype = .invalidation ∨ y.1.predecodeNoc2.reqtype = .downgrade := by
    intro hf
    obtain ⟨hfw, hic⟩ := h.forwardPass hf
    exact (forward_reqtype hfw).2 hic
  cases hfs : y.1.fetchState with
  | normal => exact absurd hfs hn
  | pcxWritebackDone => exact absurd hfs hp
  | inval2 =>
    rw [forwardPass_noc2AckStage (hforward (.inl hfs))]
    simp [fetchStateNext, FetchState.noc2Pass]
  | inval3 =>
    rw [forwardPass_noc2AckStage (hforward (.inr (.inl hfs)))]
    simp [fetchStateNext, FetchState.noc2Pass]
  | inval4 =>
    rw [forwardPass_noc2AckStage (hforward (.inr (.inr hfs)))]
    simp [fetchStateNext, FetchState.noc2Pass]
  | noc2WritebackDone =>
    rw [fillPass_noc2AckStage (h.fillPass hfs)]
    simp [fetchStateNext, FetchState.noc2Pass]
  | icacheInval2 =>
    obtain ⟨hfw, hic, hvec⟩ := h.icachePass hfs
    rw [(forward_reqtype hfw).1 hic, icachePass_noc2AckStage]
    cases hv : y.1.noc2Val with
    | true => cases y.1.predecodeNoc2.isLastInval <;> simp [fetchStateNext, FetchState.noc2Pass]
    | false =>
      have hnot : y.1.predecodeNoc2.isLastInval = false := by
        show isLastInval y.1.noc2.icacheType y.1.fetchState y.1.noc2.fwdSubcachelineVector = false
        rw [hic, hfs, hvec hv]
        decide
      rw [hnot]
      simp [fetchStateNext, FetchState.noc2Pass]

/-- S1's part of the users of the NoC2 message. -/
theorem Inv.noc2Users_s1 (h : Inv y) (hok : InputOk y i) :
    (y.1.s1Issues i && (y.1.decode.noc2AckStage = .s2 || y.1.decode.noc2AckStage = .s3)).toNat +
        (y.1.s1Issues i && y.1.decode.noc2AckStage = .s1).toNat +
        (y.1.step i).noc2PassUser.toNat ≤
      y.1.noc2PassUser.toNat + (y.1.noc2HeaderAck i).toNat := by
  cases hi : y.1.s1Issues i with
  | false =>
    have hnext := fetchState_of_not_issues hi
    have hle : (y.1.step i).noc2PassUser.toNat ≤ y.1.noc2PassUser.toNat := by
      by_cases hic : y.1.fetchState = .icacheInval2
      · cases hv : y.1.noc2Val with
        | true =>
          unfold State.noc2PassUser
          rw [hnext, hic, hv]
          cases (y.1.step i).noc2Val <;> decide
        | false =>
          have hv' := noc2Val_of_icache hok (by rw [hnext, hic]) (by rw [hv]; rfl)
          unfold State.noc2PassUser
          rw [hnext, hic, hv, hv']
      · unfold State.noc2PassUser
        rw [hnext]
        simp [hic]
    simpa using Nat.le_add_right_of_le hle
  | true =>
    rcases source_cases hi with ⟨hs, hfs⟩ | ⟨hs, hfs⟩
    · by_cases hn : y.1.fetchState = .normal
      · have hhead : y.1.noc2HeaderAck i = true := by
          unfold State.noc2HeaderAck
          simp [hs, hi, hn]
        have hnext := fetchState_of_issues hi
        rw [hn] at hnext
        rw [hhead]
        cases hp : (y.1.step i).fetchState.noc2Pass with
        | false =>
          have hno : (y.1.step i).noc2PassUser = false := by
            unfold State.noc2PassUser
            rw [hp, Bool.false_and]
          rw [hno]
          cases y.1.decode.noc2AckStage <;> simp
        | true =>
          rw [hnext] at hp
          have hrow := (firstPassRow y.1.predecode.reqtype y.1.intVecDis y.1.hitStbuf
            y.1.predecode.isLastInval y.1.predecode.interruptBroadcast).noc2 hp
          have hstage : y.1.decode.noc2AckStage =
              (decoder y.1.predecode.reqtype .normal y.1.intVecDis y.1.hitStbuf
                y.1.predecode.isLastInval y.1.predecode.interruptBroadcast).noc2AckStage := by
            unfold State.decode
            rw [hn]
          rw [← hstage] at hrow
          rcases hrow with hst | ⟨hic, hst, -⟩
          · have hle := Bool.toNat_le (y.1.step i).noc2PassUser
            simp only [hst]
            simpa using Nat.le_add_left_of_le hle
          · have hack : y.1.noc2Ack i = true := by
              unfold State.noc2Ack
              simp [hi, hst]
            have hic' : (y.1.step i).fetchState = .icacheInval2 := by rw [hnext, hic]
            have hv' := noc2Val_of_icache hok hic' (by rw [hack]; simp)
            have hno : (y.1.step i).noc2PassUser = false := by
              unfold State.noc2PassUser
              rw [hv', hic']
              rfl
            simp [hno, hst]
      · have hle := h.noc2Users_pass hi hn hfs
        rw [hi] at hle
        exact Nat.le_add_right_of_le hle
    · have hpcx := pcx_signals hs
      have hnext := fetchState_of_issues hi
      have hrt : y.1.predecode.reqtype.fromPcx = true ∨ y.1.predecode.reqtype = .none := by
        rw [State.predecode_pcx hs]
        exact pcxReqtype_fromPcx y.1.pcx y.1.specialAccess
      have hno : (y.1.step i).noc2PassUser = false := by
        unfold State.noc2PassUser
        rw [hnext, fetchStateNext_pcx hrt hfs, Bool.false_and]
      simp [hpcx.1, hno]

/-- The users of the NoC2 message after a cycle. -/
theorem Inv.noc2Users_step (h : Inv y) (hok : InputOk y i) :
    (y.1.step i).noc2Users + (y.1.noc2Ack i).toNat ≤
      y.1.noc2Users + (y.1.noc2HeaderAck i).toNat := by
  have hstage := stageUsers_step (fun x => x.ops.noc2AckStage) y.1 i
  have hs1 := h.noc2Users_s1 hok
  have hack : (y.1.noc2Ack i).toNat ≤
      (y.1.s1Issues i && y.1.decode.noc2AckStage = .s1).toNat + (y.1.noc2AckS2 i).toNat +
        (y.1.noc2AckS3 i).toNat := by
    unfold State.noc2Ack
    cases (y.1.s1Issues i && y.1.decode.noc2AckStage = .s1) <;> cases y.1.noc2AckS2 i <;>
      cases y.1.noc2AckS3 i <;> decide
  have h2 : y.1.noc2AckS2 i =
    (y.1.valS2 && !y.1.stallS2 i && y.1.s2.ops.noc2AckStage = .s2) := rfl
  have h3 : y.1.noc2AckS3 i =
    (y.1.valS3 && !y.1.stallS3 i && y.1.s3.ops.noc2AckStage = .s3) := rfl
  have hinstr : y.1.s1Instr.ops.noc2AckStage = y.1.decode.noc2AckStage := rfl
  rw [h2, h3] at hack
  simp only [hinstr] at hstage
  unfold State.noc2Users Instr.acksNoc2
  omega

theorem Inv.step_noc2Users (h : Inv y) (hok : InputOk y i) :
    (y.1.step i).noc2Users ≤ (y.1.step i).noc2Held.toNat := by
  refine users_le h.noc2Users (h.noc2Users_step hok) (fun hh => ?_) fun hh hack => ?_
  · unfold State.noc2Held
    simp [(new_of_noc2HeaderAck hh).2.1]
  · rw [Bool.or_eq_true] at hh
    rcases hh with hh | hh
    · unfold State.noc2Held at hh
      rw [Bool.and_eq_true, Bool.not_eq_true'] at hh
      exact held_step (noc2_step hh.1 hack).1 (.inl hh.2) hack
    · exact held_step (noc2_step (new_of_noc2HeaderAck hh).1 hack).1 (.inr hh) hack

end Piton.L15
