import Piton.L15.Messages

/-! The ports of the MSHRs: which entry an issue allocates, and which entry S3 frees or writes. -/

namespace Piton.L15

open Hw

variable {y : State × Traffic} {s : State} {i : Inputs} {id : MshrId} {t : ThreadId}

/-! ### Allocation -/

/-- The S1 port allocates an entry exactly when its request issues. -/
theorem Inv.allocates_eq (h : Inv y) (i : Inputs) (id : MshrId) (t : ThreadId) :
    (y.1.mshrS1Write i).allocates id t = (y.1.s1Issues i && y.1.s1Instr.requests id t) := by
  have hiff : y.1.decode.s1MshrOperation = .allocate ↔
      y.1.decode.noc1Operation.expects = true := y.1.decodes_s1.allocate_iff
  unfold MshrS1Write.allocates State.mshrS1Write Instr.requests
  show _ = (y.1.s1Issues i && (y.1.decode.noc1Operation.expects && y.1.decoderMshrid = id &&
    y.1.predecode.threadid = t))
  cases hop : y.1.decode.s1MshrOperation with
  | none =>
    have hno : y.1.decode.noc1Operation.expects = false := by
      by_contra he
      rw [hiff.2 (by simpa using he)] at hop
      cases hop
    simp [hno]
  | updateWritecache =>
    have hno : y.1.decode.noc1Operation.expects = false := by
      by_contra he
      rw [hiff.2 (by simpa using he)] at hop
      cases hop
    simp [hno]
  | allocate =>
    have hs : y.1.predecodeSource ≠ .noc2 := by
      intro hs
      rw [(h.noc2_signals hs).1] at hop
      cases hop
    have hid : y.1.decoderMshrid = y.1.decode.mshrAllocationType := by
      unfold State.decoderMshrid
      rw [if_neg hs]
    simp [hiff.1 hop, hid, Bool.and_assoc]

theorem mshrId_ne_none {op : Noc1Op} (h : op.expects = true) : op.mshrId ≠ .none := by
  cases op <;> first | exact absurd h Bool.false_ne_true | exact MshrId.noConfusion

/-- A request that issues comes from the core and allocates the entry that it names. -/
structure IssuedRequest (s : State) (id : MshrId) (t : ThreadId) : Prop where
  expects : s.decode.noc1Operation.expects = true
  source : s.predecodeSource = .pcx
  allocate : s.decode.s1MshrOperation = .allocate
  allocationType : s.decode.mshrAllocationType = id
  mshrId : s.decode.noc1Operation.mshrId = id
  threadid : s.pcx.threadid = t
  ne_none : id ≠ .none

theorem Inv.issued_request (h : Inv y) (hi : y.1.s1Issues i = true)
    (hr : y.1.s1Instr.requests id t = true) : IssuedRequest y.1 id t := by
  unfold Instr.requests at hr
  simp only [Bool.and_eq_true, decide_eq_true_eq] at hr
  obtain ⟨⟨he, hid⟩, ht⟩ := hr
  change y.1.decode.noc1Operation.expects = true at he
  have hop : y.1.decode.s1MshrOperation = .allocate := y.1.decodes_s1.allocate_iff.2 he
  have hs : y.1.predecodeSource = .pcx := by
    rcases source_cases hi with ⟨hs, -⟩ | ⟨hs, -⟩
    · rw [(h.noc2_signals hs).1] at hop
      cases hop
    · exact hs
  have hid' : y.1.decode.mshrAllocationType = id := by
    rw [← hid]
    show _ = y.1.decoderMshrid
    unfold State.decoderMshrid
    rw [hs]
    rfl
  have hmshr : y.1.decode.noc1Operation.mshrId = id := by
    rw [← hid']
    exact (y.1.decodes_s1.requestRow he).mshrId
  refine ⟨he, hs, hop, hid', hmshr, ?_, ?_⟩
  · rw [← ht]
    show _ = y.1.predecode.threadid
    rw [State.predecode_pcx hs]
    rfl
  · rw [← hmshr]
    exact mshrId_ne_none he

/-- A request issues only when its entry is free. -/
theorem Inv.val_of_issues (h : Inv y) (hi : y.1.s1Issues i = true)
    (hr : y.1.s1Instr.requests id t = true) : y.1.mshr.val id t = false := by
  have hreq := h.issued_request hi hr
  have hthread : y.1.predecode.threadid = t := by
    rw [State.predecode_pcx hreq.source]
    exact hreq.threadid
  have hop := hreq.allocate
  have hid := hreq.allocationType
  rcases source_cases hi with ⟨hs, -⟩ | ⟨-, hfs | hfs⟩
  · rw [hreq.source] at hs
    cases hs
  · have hwait : y.1.decode.stallOnMshrAllocation = true := by
      unfold State.decode at hop ⊢
      rw [hfs] at hop ⊢
      exact (firstPassRow _ _ _ _ _).allocates hop
    have hfree := (State.issues_iff.1 hi).2.2.2.2.1
    unfold State.stallMshrAllocationBusy State.decoderNoFreeMshr at hfree
    rw [hwait, Bool.and_true, hid, hthread] at hfree
    exact hfree
  · have hrt : y.1.predecode.reqtype = y.1.predecodePcx.reqtype := by
      rw [State.predecode_pcx hreq.source]
    unfold State.decode at hop hid
    rw [hfs, hrt] at hop hid
    obtain ⟨hnf, hpass⟩ := secondPass_allocates hop
    obtain ⟨htwo, -⟩ := (h.pcxPass hfs).resolve_left hnf
    have hfree := h.pcxPassFree hfs htwo
    rw [← hpass htwo, hid, hreq.threadid] at hfree
    exact hfree

/-- An entry without a number is never valid. -/
theorem step_val_none (s : State) (i : Inputs) (t : ThreadId) :
    (s.step i).mshr.val .none t = false := rfl

/-! ### S3 -/

/-- The request in S3 finds what it needs in the cache. -/
def State.hitS3 (s : State) : Bool :=
  match s.s3.ops.s3MshrOperation with
  | .deallocationIfTagcheckMes => s.s3Result.tagcheckState.mes
  | .deallocationIfTagcheckMEElseUpdateStateStmshr => s.s3Result.tagcheckState.me
  | _ => false

/-- S3 frees the entries of completions and of requests that hit. -/
theorem deallocates_eq (s : State) (id : MshrId) (t : ThreadId) :
    s.mshrS3Write.deallocates id t =
      (s.valS3 && (s.s3.ops.s3MshrOperation = .deallocation || s.hitS3) && s.s3.mshrid = id &&
        s.s3.threadid = t) := by
  unfold MshrS3Write.deallocates State.mshrS3Write State.hitS3
  cases hop : s.s3.ops.s3MshrOperation with
  | deallocationIfTagcheckMEElseUpdateStateStmshr =>
    cases hme : s.s3Result.tagcheckState.me <;> simp [hme]
  | _ => simp

theorem stbufCompareMatch_threadid (h : s.stbufCompareMatchVal = true) :
    s.stbufCompareMatch s.stbufCompareThreadid = true := by
  unfold State.stbufCompareThreadid
  unfold State.stbufCompareMatchVal at h
  cases h1 : s.stbufCompareMatch 1 with
  | true => simpa using h1
  | false =>
    rw [h1, Bool.or_false] at h
    simpa using h

theorem stbufCompareMatch_lruThreadid (h : s.stbufCompareLruMatchVal = true) :
    s.stbufCompareMatch s.stbufCompareLruThreadid = true := by
  have hlru : s.stbufCompareLruMatch s.stbufCompareLruThreadid = true := by
    unfold State.stbufCompareLruThreadid
    unfold State.stbufCompareLruMatchVal at h
    cases h1 : s.stbufCompareLruMatch 1 with
    | true => simpa using h1
    | false =>
      rw [h1, Bool.or_false] at h
      simpa using h
  unfold State.stbufCompareLruMatch at hlru
  rw [Bool.and_eq_true] at hlru
  exact hlru.1

/-- S3 writes the state of a store entry for its own request, or demotes it to IM when an entry in
SM has the line of the instruction. -/
theorem updates_cases (h : s.mshrS3Write.updates t = true) :
    s.valS3 = true ∧
      ((s.s3.ops.s3MshrOperation = .deallocationIfTagcheckMEElseUpdateStateStmshr ∧
          s.s3Result.tagcheckState.me = false ∧ s.s3.threadid = t ∧
          s.mshrS3Write.updateState =
            (if s.s3Result.tagcheckState.mes then .SM else .IM) ∧
          s.mshrS3Write.updateWay = s.s3Result.tagcheckWay) ∨
        (s.s3.ops.s3MshrOperation = .updateStMshrWaitAck ∧ s.s3.threadid = t ∧
          s.mshrS3Write.updateState = .waitAck) ∨
        ((s.s3.ops.s3MshrOperation = .updateStMshrImIfIndexTagcheckWayMatches ∨
            s.s3.ops.s3MshrOperation = .updateStMshrImIfIndexLruWayMatches) ∧
          s.mshrS3Write.updateState = .IM ∧ s.stbufCompareMatch t = true)) := by
  unfold MshrS3Write.updates State.mshrS3Write at h
  unfold State.mshrS3Write
  cases hop : s.s3.ops.s3MshrOperation with
  | none => simp [hop] at h
  | deallocation => simp [hop] at h
  | deallocationIfTagcheckMes => simp [hop] at h
  | deallocationIfTagcheckMEElseUpdateStateStmshr =>
    cases hme : s.s3Result.tagcheckState.me with
    | true => simp [hop, hme] at h
    | false =>
      simp only [hop, hme, Bool.and_eq_true, decide_eq_true_eq] at h
      exact ⟨h.1.1, .inl ⟨rfl, rfl, h.2, rfl, rfl⟩⟩
  | updateStMshrWaitAck =>
    simp only [hop, Bool.and_eq_true, decide_eq_true_eq] at h
    exact ⟨h.1.1, .inr (.inl ⟨rfl, h.2, rfl⟩)⟩
  | updateStMshrImIfIndexTagcheckWayMatches =>
    simp only [hop, Bool.and_eq_true, decide_eq_true_eq] at h
    obtain ⟨⟨⟨hv, hm⟩, -⟩, ht⟩ := h
    refine ⟨hv, .inr (.inr ⟨.inl rfl, rfl, ?_⟩)⟩
    rw [← ht]
    exact stbufCompareMatch_threadid hm
  | updateStMshrImIfIndexLruWayMatches =>
    simp only [hop, Bool.and_eq_true, decide_eq_true_eq] at h
    obtain ⟨⟨⟨hv, hm⟩, -⟩, ht⟩ := h
    refine ⟨hv, .inr (.inr ⟨.inr rfl, rfl, ?_⟩)⟩
    rw [← ht]
    exact stbufCompareMatch_lruThreadid hm

/-- A valid bit after a cycle. -/
theorem Inv.val_step (h : Inv y) (i : Inputs) (hid : id ≠ .none) :
    (y.1.step i).mshr.val id t =
      ((y.1.mshr.val id t &&
          !(y.1.valS3 && (y.1.s3.ops.s3MshrOperation = .deallocation || y.1.hitS3) &&
            y.1.s3.mshrid = id && y.1.s3.threadid = t)) ||
        (y.1.s1Issues i && y.1.s1Instr.requests id t)) := by
  show (y.1.mshr.tick (y.1.mshrS1Write i) y.1.mshrS3Write).val id t = _
  rw [Mshr.tick_val _ _ _ _ _ hid, h.allocates_eq, deallocates_eq]
  rfl

/-- An entry in use keeps its contents. -/
theorem Inv.mshr_kept (h : Inv y) (i : Inputs) (hv : y.1.mshr.val id t = true) :
    (y.1.step i).mshr.readControl id t = y.1.mshr.readControl id t ∧
      (y.1.step i).mshr.address id t = y.1.mshr.address id t := by
  have hno : (y.1.mshrS1Write i).allocates id t = false := by
    rw [h.allocates_eq]
    by_contra hne
    rw [Bool.not_eq_false, Bool.and_eq_true] at hne
    rw [h.val_of_issues hne.1 hne.2] at hv
    exact absurd hv Bool.false_ne_true
  show (y.1.mshr.tick (y.1.mshrS1Write i) y.1.mshrS3Write).readControl id t = _ ∧
    (y.1.mshr.tick (y.1.mshrS1Write i) y.1.mshrS3Write).address id t = _
  cases id with
  | none => exact ⟨rfl, rfl⟩
  | ifill => exact ⟨if_neg (by rw [hno]; exact Bool.false_ne_true), rfl⟩
  | ld =>
    exact ⟨if_neg (by rw [hno]; exact Bool.false_ne_true),
      if_neg (by rw [hno]; exact Bool.false_ne_true)⟩
  | st =>
    exact ⟨if_neg (by rw [hno]; exact Bool.false_ne_true),
      if_neg (by rw [hno]; exact Bool.false_ne_true)⟩

/-- An allocated entry has the address and the control bits of its request. -/
theorem Inv.mshr_allocated (h : Inv y) (hi : y.1.s1Issues i = true)
    (hr : y.1.s1Instr.requests id t = true) :
    (y.1.step i).mshr.readControl id t = y.1.mshrControlBitsWrite ∧
      (id ≠ .ifill → (y.1.step i).mshr.address id t = y.1.pcx.address) := by
  have hyes : (y.1.mshrS1Write i).allocates id t = true := by
    rw [h.allocates_eq, hi, hr, Bool.and_self]
  have hreq := h.issued_request hi hr
  have hop := hreq.allocate
  have hcontrol : (y.1.mshrS1Write i).control = y.1.mshrControlBitsWrite := by
    unfold State.mshrS1Write
    rw [hop]
  have haddress : (y.1.mshrS1Write i).address = y.1.pcx.address := by
    unfold State.mshrS1Write
    rw [hop]
  rw [← hcontrol, ← haddress]
  show (y.1.mshr.tick (y.1.mshrS1Write i) y.1.mshrS3Write).readControl id t = _ ∧
    (_ → (y.1.mshr.tick (y.1.mshrS1Write i) y.1.mshrS3Write).address id t = _)
  cases id with
  | none => exact absurd rfl hreq.ne_none
  | ifill => exact ⟨if_pos hyes, fun hne => absurd rfl hne⟩
  | ld => exact ⟨if_pos hyes, fun _ => if_pos hyes⟩
  | st => exact ⟨if_pos hyes, fun _ => if_pos hyes⟩

end Piton.L15
