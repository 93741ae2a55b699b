import Piton.L15.System

/-! How instructions move through the pipeline, and what S1 issues. -/

namespace Piton.L15

open Hw

namespace State

variable {s : State} {i : Inputs}

/-! ### Movement -/

theorem valS3_of_stallS3 (h : s.stallS3 i = true) : s.valS3 = true := by
  unfold stallS3 at h
  rw [Bool.and_eq_true] at h
  exact h.1

theorem stallS2_eq : s.stallS2 i = (s.valS2 && s.stallS3 i) := rfl

theorem s1Issues_of_stallS2 (h : s.stallS2 i = true) : s.s1Issues i = false := by
  unfold s1Issues stallS1
  cases s.valS1 <;> simp [h]

/-- The three ways in which the stages move: both hold, S3 holds and S2 is empty, or both
advance. -/
theorem movement (s : State) (i : Inputs) :
    (s.stallS3 i = true ∧ s.stallS2 i = true ∧ s.valS2 = true ∧ s.valS3 = true ∧
      s.s1Issues i = false) ∨
    (s.stallS3 i = true ∧ s.stallS2 i = false ∧ s.valS2 = false ∧ s.valS3 = true) ∨
    (s.stallS3 i = false ∧ s.stallS2 i = false) := by
  cases h3 : s.stallS3 i with
  | false =>
    refine .inr (.inr ⟨rfl, ?_⟩)
    rw [stallS2_eq, h3, Bool.and_false]
  | true =>
    have hv := valS3_of_stallS3 h3
    cases h2 : s.valS2 with
    | false => exact .inr (.inl ⟨rfl, by rw [stallS2_eq, h2, Bool.false_and], rfl, hv⟩)
    | true =>
      have hst : s.stallS2 i = true := by rw [stallS2_eq, h2, h3, Bool.and_self]
      exact .inl ⟨rfl, hst, rfl, hv, s1Issues_of_stallS2 hst⟩

/-- What S2 holds after a cycle. -/
theorem s2_step (p : Instr → Bool) :
    ((s.step i).valS2 && p (s.step i).s2) =
      if s.stallS2 i then s.valS2 && p s.s2 else s.s1Issues i && p s.s1Instr := by
  show ((if s.stallS2 i then s.valS2 else s.s1Issues i) &&
    p (if s.stallS2 i then s.s2 else s.s1Instr)) = _
  cases s.stallS2 i <;> rfl

/-- What S3 holds after a cycle. -/
theorem s3_step (p : Instr → Bool) :
    ((s.step i).valS3 && p (s.step i).s3) =
      if s.stallS3 i then s.valS3 && p s.s3 else s.valS2 && p s.s2 := by
  show ((if s.stallS3 i then s.valS3 else s.valS2 && !s.stallS2 i) &&
    p (if s.stallS3 i then s.s3 else s.s2)) = _
  cases h3 : s.stallS3 i with
  | true => rfl
  | false => simp [stallS2_eq, h3]

/-- S2 and S3 together keep their instructions, but for those that leave S3 and the one that S1
issues. -/
theorem s2_s3_step (p : Instr → Bool)
    (h : s.valS3 = true → p s.s3 = true → s.stallS3 i = false) :
    ((s.step i).valS2 && p (s.step i).s2).toNat + ((s.step i).valS3 && p (s.step i).s3).toNat =
      (s.valS2 && p s.s2).toNat + (s.s1Issues i && p s.s1Instr).toNat := by
  rw [s2_step, s3_step]
  rcases s.movement i with ⟨h3, h2, hv2, hv3, hi⟩ | ⟨h3, h2, hv2, hv3⟩ | ⟨h3, h2⟩
  · have hp : p s.s3 = false := by
      by_contra hp
      rw [h hv3 (by simpa using hp)] at h3
      exact absurd h3 Bool.false_ne_true
    simp [h3, h2, hi, hp]
  · have hp : p s.s3 = false := by
      by_contra hp
      rw [h hv3 (by simpa using hp)] at h3
      exact absurd h3 Bool.false_ne_true
    simp [h3, h2, hv2, hp]
  · simp [h3, h2, Nat.add_comm]

/-- S2 holds its instruction or takes the one that S1 issues. -/
theorem s2_cases (h : (s.step i).valS2 = true) :
    (s.stallS2 i = true ∧ s.valS2 = true ∧ (s.step i).s2 = s.s2) ∨
      (s.stallS2 i = false ∧ s.s1Issues i = true ∧ (s.step i).s2 = s.s1Instr) := by
  change (if s.stallS2 i then s.valS2 else s.s1Issues i) = true at h
  show _ ∨ _ ∧ _ ∧ (if s.stallS2 i then s.s2 else s.s1Instr) = s.s1Instr
  cases hst : s.stallS2 i with
  | true =>
    rw [hst, if_pos rfl] at h
    refine .inl ⟨rfl, h, ?_⟩
    show (if s.stallS2 i then s.s2 else s.s1Instr) = s.s2
    rw [hst, if_pos rfl]
  | false =>
    rw [hst, if_neg Bool.false_ne_true] at h
    exact .inr ⟨rfl, h, rfl⟩

/-- S3 holds its instruction or takes that of S2. -/
theorem s3_cases (h : (s.step i).valS3 = true) :
    (s.stallS3 i = true ∧ s.valS3 = true ∧ (s.step i).s3 = s.s3 ∧
        (s.step i).s3Result = s.s3Result) ∨
      (s.stallS3 i = false ∧ s.valS2 = true ∧ (s.step i).s3 = s.s2 ∧
        (s.step i).s3Result = s.s2Result) := by
  change (if s.stallS3 i then s.valS3 else s.valS2 && !s.stallS2 i) = true at h
  cases hst : s.stallS3 i with
  | true =>
    refine .inl ⟨rfl, valS3_of_stallS3 hst, ?_, ?_⟩
    · show (if s.stallS3 i then s.s3 else s.s2) = s.s3
      rw [hst, if_pos rfl]
    · show (if s.stallS3 i then s.s3Result else s.s2Result) = s.s3Result
      rw [hst, if_pos rfl]
  | false =>
    rw [hst, if_neg Bool.false_ne_true, Bool.and_eq_true] at h
    refine .inr ⟨rfl, h.1, ?_, ?_⟩
    · show (if s.stallS3 i then s.s3 else s.s2) = s.s2
      rw [hst, if_neg Bool.false_ne_true]
    · show (if s.stallS3 i then s.s3Result else s.s2Result) = s.s2Result
      rw [hst, if_neg Bool.false_ne_true]

/-! ### S1 -/

theorem valS1_of_issues (h : s.s1Issues i = true) : s.valS1 = true := by
  unfold s1Issues at h
  rw [Bool.and_eq_true] at h
  exact h.1

theorem stallS1_of_issues (h : s.s1Issues i = true) : s.stallS1 i = false := by
  unfold s1Issues at h
  rw [Bool.and_eq_true] at h
  simpa using h.2

theorem stallS2_of_issues (h : s.s1Issues i = true) : s.stallS2 i = false := by
  by_contra h2
  rw [s1Issues_of_stallS2 (by simpa using h2)] at h
  exact absurd h Bool.false_ne_true

/-- What an issuing S1 does not wait for. -/
theorem issues_iff : s.s1Issues i = true ↔
    s.valS1 = true ∧ s.stallTagMatch = false ∧ s.stallIndexConflict = false ∧
      s.stallS2 i = false ∧ s.stallMshrAllocationBusy = false ∧ s.stallPcxNoc1Buffer = false := by
  unfold s1Issues stallS1
  cases s.valS1 <;> simp [and_assoc]

/-- S1 issues, so its signals are a row of the decoder for its request. -/
theorem decodes_s1 (s : State) : Decodes s.s1Instr.reqtype s.s1Instr.ops :=
  ⟨_, _, _, _, _, rfl⟩

/-- The instructions in S2 and S3 have rows of the decoder. -/
structure StagesDecode (s : State) : Prop where
  s2 : s.valS2 = true → Decodes s.s2.reqtype s.s2.ops
  s3 : s.valS3 = true → Decodes s.s3.reqtype s.s3.ops

theorem StagesDecode.step (h : StagesDecode s) (i : Inputs) : StagesDecode (s.step i) := by
  refine ⟨fun hv => ?_, fun hv => ?_⟩
  · rcases s2_cases hv with ⟨-, hv2, hs⟩ | ⟨-, -, hs⟩
    · rw [hs]
      exact h.s2 hv2
    · rw [hs]
      exact s.decodes_s1
  · rcases s3_cases hv with ⟨-, hv3, hs, -⟩ | ⟨-, hv2, hs, -⟩
    · rw [hs]
      exact h.s3 hv3
    · rw [hs]
      exact h.s2 hv2

theorem reachable_stagesDecode {ok : State → Inputs → Prop} (h : machine.Reachable ok s) :
    StagesDecode s := by
  refine h.invariant (fun s hs => ⟨fun hv => ?_, fun hv => ?_⟩) fun s i hs _ => hs.step i
  · rw [hs.valS2] at hv
    exact absurd hv Bool.false_ne_true
  · rw [hs.valS3] at hv
    exact absurd hv Bool.false_ne_true

theorem predecodeSource_ne_invalid (h : s.s1Issues i = true) :
    s.predecodeSource ≠ .invalid := by
  have hv := valS1_of_issues h
  unfold valS1 at hv
  simpa using hv

/-- The source of an issued request in the normal fetch state is a new message. -/
theorem source_normal (h : s.s1Issues i = true) (hfs : s.fetchState = .normal) :
    (s.predecodeSource = .noc2 ∧ s.noc2Val = true ∧ s.noc2IsMessageNew = true) ∨
      (s.predecodeSource = .pcx ∧ s.pcxVal = true ∧ s.pcxIsMessageNew = true) := by
  have hne := predecodeSource_ne_invalid h
  unfold predecodeSource at hne ⊢
  simp only [hfs] at hne ⊢
  cases hn : s.noc2decoderVal with
  | true =>
    have hn' := hn
    unfold noc2decoderVal at hn'
    rw [Bool.and_eq_true] at hn'
    exact .inl ⟨by simp, hn'⟩
  | false =>
    cases hp : s.pcxdecoderVal with
    | true =>
      have hp' := hp
      unfold pcxdecoderVal at hp'
      rw [Bool.and_eq_true] at hp'
      exact .inr ⟨by simp, hp'⟩
    | false =>
      rw [hn, hp] at hne
      exact absurd rfl hne

theorem source_pcxWritebackDone (hfs : s.fetchState = .pcxWritebackDone) :
    s.predecodeSource = .pcx := by
  unfold predecodeSource
  rw [hfs]

/-- In the fetch states that follow a pass of a NoC2 message, the source is NoC2. -/
theorem source_noc2 (hn : s.fetchState ≠ .normal) (hp : s.fetchState ≠ .pcxWritebackDone) :
    s.predecodeSource = .noc2 := by
  unfold predecodeSource
  cases hfs : s.fetchState <;> simp_all

theorem predecode_noc2 (h : s.predecodeSource = .noc2) : s.predecode = s.predecodeNoc2 := by
  unfold predecode
  rw [h]

theorem predecode_pcx (h : s.predecodeSource = .pcx) : s.predecode = s.predecodePcx := by
  unfold predecode
  rw [h]

end State

/-- A PCX packet has one of the request types of PCX packets, or none. -/
theorem pcxReqtype_fromPcx (p : PcxPacket) (sp : BitVec 8) :
    (pcxReqtype p sp).fromPcx = true ∨ pcxReqtype p sp = .none := by
  unfold pcxReqtype
  cases p.rqtype <;> simp only [reduceCtorEq] <;> (repeat' split) <;> simp [Reqtype.fromPcx]

/-- The packets of the requests that allocate MSHRs. -/
theorem pcxReqtype_load {p : PcxPacket} {sp : BitVec 8} :
    (pcxReqtype p sp = .load → p.rqtype = .load ∧ p.nc = false) ∧
    (pcxReqtype p sp = .loadNc → p.rqtype = .load ∧ p.nc = true) ∧
    (pcxReqtype p sp = .ifill → p.rqtype = .ifill) ∧
    (pcxReqtype p sp = .store → p.rqtype = .store ∧ p.nc = false) ∧
    (pcxReqtype p sp = .writethrough → p.rqtype = .store ∧ p.nc = true) ∧
    (pcxReqtype p sp = .cas → p.rqtype = .cas1) ∧
    (pcxReqtype p sp = .swpLoadstub → p.rqtype = .swpLoadstub) := by
  unfold pcxReqtype
  cases hp : p.rqtype <;> simp only [] <;> (repeat' split) <;> simp_all

end Piton.L15
