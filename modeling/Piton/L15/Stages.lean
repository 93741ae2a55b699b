import Piton.L15.Entries

/-! Neighbouring stages: an instruction that S1 holds back for its set never meets that set in S3,
the second pass of a fill or a line flush follows right behind its first pass, and the registered
reads of the arrays are those of the set in S2. -/

namespace Piton.L15

open Hw

variable {y : State × Traffic} {s : State} {i : Inputs}

/-! ### Rows -/

namespace Instr

/-- The first pass of a fill. -/
def evicts (x : Instr) : Bool := x.ops.lruarrayWriteOp = .eviction

/-- The second pass of a fill. -/
def fills (x : Instr) : Bool := x.ops.dtagOperation = .write

/-- The second pass of a line flush. -/
def flushes (x : Instr) : Bool := x.ops.mesiWriteOp = .invalidateFlushWayIfMes

/-- S1 holds the instruction back while its set is in S2 or S3. -/
def waitsForSet (x : Instr) : Bool := x.ops.stallOnMatchedBypassedIndex

end Instr

/-- An instruction that does not wait for its set leaves the tags and states alone, or is a second
pass. -/
theorem Decodes.apartRow {rt : Reqtype} {d : Decoded} (h : Decodes rt d)
    (hno : d.stallOnMatchedBypassedIndex = false) :
    (d.mesiReadOp = .none ∧ d.mesiWriteOp = .none ∧ d.dtagOperation = .none) ∨
      d.dtagOperation = .write ∨ d.mesiWriteOp = .invalidateFlushWayIfMes :=
  h.of_rows (P := fun _ d => d.stallOnMatchedBypassedIndex = false →
    (d.mesiReadOp = .none ∧ d.mesiWriteOp = .none ∧ d.dtagOperation = .none) ∨
      d.dtagOperation = .write ∨ d.mesiWriteOp = .invalidateFlushWayIfMes) (by decide +kernel) hno

/-- What the first pass of a fill does. -/
structure EvictionRow (rt : Reqtype) (d : Decoded) : Prop where
  isFill : rt.isFill = true
  waits : d.stallOnMatchedBypassedIndex = true
  tagRead : d.dtagOperation = .read
  stateRead : d.mesiReadOp = .read
  noStateWrite : d.mesiWriteOp = .none
  mshr : d.s3MshrOperation = .updateStMshrImIfIndexLruWayMatches

theorem Decodes.evictionRow {rt : Reqtype} {d : Decoded} (h : Decodes rt d)
    (he : d.lruarrayWriteOp = .eviction) : EvictionRow rt d := by
  have hrow := h.of_rows (P := fun rt d => d.lruarrayWriteOp = .eviction →
    rt.isFill = true ∧ d.stallOnMatchedBypassedIndex = true ∧ d.dtagOperation = .read ∧
      d.mesiReadOp = .read ∧ d.mesiWriteOp = .none ∧
      d.s3MshrOperation = .updateStMshrImIfIndexLruWayMatches) (by decide +kernel) he
  obtain ⟨hf, hw, ht, hs, hn, hm⟩ := hrow
  exact ⟨hf, hw, ht, hs, hn, hm⟩

/-- What the second pass of a fill does. -/
structure FillRow (rt : Reqtype) (d : Decoded) : Prop where
  isFill : rt.isFill = true
  noTagMatch : d.stallOnMatchedMshr = false
  noSetMatch : d.stallOnMatchedBypassedIndex = false
  noAllocation : d.stallOnMshrAllocation = false
  noStateRead : d.mesiReadOp = .none
  stateWrite : d.mesiWriteOp = .writeLruWayAckState
  completes : d.s3MshrOperation = .deallocation

theorem Decodes.fillRow {rt : Reqtype} {d : Decoded} (h : Decodes rt d)
    (hf : d.dtagOperation = .write) : FillRow rt d := by
  have hrow := h.of_rows (P := fun rt d => d.dtagOperation = .write →
    rt.isFill = true ∧ d.stallOnMatchedMshr = false ∧ d.stallOnMatchedBypassedIndex = false ∧
      d.stallOnMshrAllocation = false ∧ d.mesiReadOp = .none ∧
      d.mesiWriteOp = .writeLruWayAckState ∧ d.s3MshrOperation = .deallocation)
    (by decide +kernel) hf
  obtain ⟨hfill, htag, hset, halloc, hread, hwrite, hdone⟩ := hrow
  exact ⟨hfill, htag, hset, halloc, hread, hwrite, hdone⟩

/-- The first pass of a fill evicts, and the second one fills. -/
theorem fillPasses {rt : Reqtype} {fs : FetchState} {a b c e : Bool} (hf : rt.isFill = true) :
    (fs = .normal → (decoder rt fs a b c e).lruarrayWriteOp = .eviction) ∧
      (fs ≠ .normal → (decoder rt fs a b c e).dtagOperation = .write) ∧
      ((decoder rt fs a b c e).dtagOperation = .write → fs ≠ .normal) := by
  revert hf
  revert rt fs a b c e
  decide +kernel

/-- What the second pass of a line flush does. -/
structure FlushRow (rt : Reqtype) (d : Decoded) : Prop where
  reqtype : rt = .lineFlush
  tagRead : d.dtagOperation = .read
  stateRead : d.mesiReadOp = .read

theorem Decodes.flushRow {rt : Reqtype} {d : Decoded} (h : Decodes rt d)
    (hf : d.mesiWriteOp = .invalidateFlushWayIfMes) : FlushRow rt d := by
  have hrow := h.of_rows (P := fun rt d => d.mesiWriteOp = .invalidateFlushWayIfMes →
    rt = .lineFlush ∧ d.dtagOperation = .read ∧ d.mesiReadOp = .read) (by decide +kernel) hf
  obtain ⟨hrt, ht, hs⟩ := hrow
  exact ⟨hrt, ht, hs⟩

/-- The first pass of a line flush waits for its set and changes nothing, and the second one does
not wait. -/
theorem flushPasses {fs : FetchState} {a b c e : Bool} :
    (fs = .normal → (decoder .lineFlush fs a b c e).stallOnMatchedBypassedIndex = true) ∧
      (fs = .normal ↔ (decoder .lineFlush fs a b c e).mesiWriteOp = .none) ∧
      (fs ≠ .normal → (decoder .lineFlush fs a b c e).stallOnMatchedMshr = false ∧
        (decoder .lineFlush fs a b c e).stallOnMatchedBypassedIndex = false ∧
        (decoder .lineFlush fs a b c e).stallOnMshrAllocation = false) := by
  revert fs a b c e
  decide +kernel

/-! ### Second passes issue behind their first passes -/

/-- A pass without stalls of its own waits for S2 alone. -/
theorem stallS2_of_pass (hv : s.valS1 = true) (hi : s.s1Issues i = false)
    (htag : s.decode.stallOnMatchedMshr = false)
    (hset : s.decode.stallOnMatchedBypassedIndex = false)
    (halloc : s.decode.stallOnMshrAllocation = false) (hpcx : s.stallPcxNoc1Buffer = false) :
    s.stallS2 i = true := by
  unfold State.s1Issues State.stallS1 State.stallTagMatch State.stallIndexConflict
    State.stallMshrAllocationBusy at hi
  simpa [hv, htag, hset, halloc, hpcx] using hi

theorem stallPcxNoc1Buffer_of_pass (hfs : s.fetchState ≠ .normal) :
    s.stallPcxNoc1Buffer = false := by
  unfold State.stallPcxNoc1Buffer
  simp [hfs]

theorem decode_noc2 (hs : s.predecodeSource = .noc2) :
    s.decode = decoder s.predecodeNoc2.reqtype s.fetchState s.intVecDis s.hitStbuf
      s.predecodeNoc2.isLastInval s.predecodeNoc2.interruptBroadcast := by
  unfold State.decode
  rw [State.predecode_noc2 hs]

theorem decode_pcx (hs : s.predecodeSource = .pcx) :
    s.decode = decoder s.predecodePcx.reqtype s.fetchState s.intVecDis s.hitStbuf
      s.predecodePcx.isLastInval s.predecodePcx.interruptBroadcast := by
  unfold State.decode
  rw [State.predecode_pcx hs]

/-- The second pass of a fill waits for S2 alone. -/
theorem Inv.stallS2_of_fillPass (h : Inv y) (hfs : y.1.fetchState = .noc2WritebackDone)
    (hi : y.1.s1Issues i = false) : y.1.stallS2 i = true := by
  have hne : y.1.fetchState ≠ .normal := by
    rw [hfs]
    decide
  have hs : y.1.predecodeSource = .noc2 := State.source_noc2 hne (by rw [hfs]; decide)
  have hv : y.1.valS1 = true := by
    unfold State.valS1
    rw [hs]
    rfl
  have hwrite : y.1.decode.dtagOperation = .write := by
    rw [decode_noc2 hs]
    exact (fillPasses (h.fillPass hfs)).2.1 hne
  have hrow := y.1.decodes_s1.fillRow hwrite
  exact stallS2_of_pass hv hi hrow.noTagMatch hrow.noSetMatch hrow.noAllocation
    (stallPcxNoc1Buffer_of_pass hne)

/-- The second pass of a line flush waits for S2 alone. -/
theorem stallS2_of_flushPass (hfs : s.fetchState = .pcxWritebackDone)
    (hrt : s.predecodePcx.reqtype = .lineFlush) (hi : s.s1Issues i = false) :
    s.stallS2 i = true := by
  have hne : s.fetchState ≠ .normal := by
    rw [hfs]
    decide
  have hs := State.source_pcxWritebackDone hfs
  have hv : s.valS1 = true := by
    unfold State.valS1
    rw [hs]
    rfl
  have hrow := (@flushPasses s.fetchState s.intVecDis s.hitStbuf s.predecodePcx.isLastInval
    s.predecodePcx.interruptBroadcast).2.2 hne
  have hd := decode_pcx hs
  rw [hrt] at hd
  rw [← hd] at hrow
  exact stallS2_of_pass hv hi hrow.1 hrow.2.1 hrow.2.2 (stallPcxNoc1Buffer_of_pass hne)

/-! ### The invariant -/

/-- The invariant of neighbouring stages and registered reads. -/
structure Stages (s : State) : Prop where
  apart : s.valS2 = true → s.valS3 = true → s.s2.waitsForSet = true → s.indexS2 ≠ s.indexS3
  fillWaits : s.fetchState = .noc2WritebackDone →
    s.valS2 = true ∧ s.s2.evicts = true ∧ s.s2.address = s.predecodeNoc2.address
  fillFollows : s.valS2 = true → s.s2.fills = true →
    s.valS3 = true ∧ s.s3.evicts = true ∧ s.s3.address = s.s2.address ∧
      s.s3Result.lruWay = s.lruWayS2
  flushWaits : s.fetchState = .pcxWritebackDone → s.predecodePcx.reqtype = .lineFlush →
    s.valS2 = true ∧ s.s2.reqtype = .lineFlush ∧ s.s2.flushes = false ∧
      s.s2.address = s.pcx.address
  flushFollows : s.valS2 = true → s.s2.flushes = true →
    s.valS3 = true ∧ s.s3.reqtype = .lineFlush ∧ s.s3.flushes = false ∧
      s.s3.address = s.s2.address
  lruRead : s.valS2 = true → s.lruarray.readIndexF = s.indexS2
  stateRead : s.valS2 = true → s.s2.ops.mesiReadOp = .read ∨ s.s2.fills = true →
    s.mesi.readIndexF = s.indexS2
  stateWrite : s.mesi.writeValidF = true → s.valS3 = true ∧ s.mesi.writeIndexF = s.indexS3

theorem stages_of_isReset (hs : s.IsReset) : Stages s := by
  have h2 : s.valS2 = true → False := fun hv => by
    rw [hs.valS2] at hv
    exact absurd hv Bool.false_ne_true
  refine ⟨fun hv => (h2 hv).elim, fun hf => ?_, fun hv => (h2 hv).elim, fun hf => ?_,
    fun hv => (h2 hv).elim, fun hv => (h2 hv).elim, fun hv => (h2 hv).elim, fun hw => ?_⟩
  · rw [hs.fetchState] at hf
    exact absurd hf FetchState.noConfusion
  · rw [hs.fetchState] at hf
    exact absurd hf FetchState.noConfusion
  · rw [hs.mesiWriteValidF] at hw
    exact absurd hw Bool.false_ne_true

/-! ### Steps -/

/-- An issued instruction that waits for its set finds it in neither stage. -/
theorem index_of_issues (hi : s.s1Issues i = true) (hw : s.s1Instr.waitsForSet = true) :
    (s.valS2 = true → s.indexS1 ≠ s.indexS2) ∧ (s.valS3 = true → s.indexS1 ≠ s.indexS3) := by
  have hc := (State.issues_iff.1 hi).2.2.1
  unfold State.stallIndexConflict at hc
  rw [show s.decode.stallOnMatchedBypassedIndex = true from hw, Bool.true_and] at hc
  unfold State.stallIndexBypassMatch at hc
  rw [Bool.or_eq_false_iff] at hc
  refine ⟨fun hv heq => ?_, fun hv heq => ?_⟩
  · simp [hv, heq] at hc
  · simp [hv, heq] at hc

theorem Stages.step_apart (hs : Stages s) (hv2 : (s.step i).valS2 = true)
    (hv3 : (s.step i).valS3 = true) (hw : (s.step i).s2.waitsForSet = true) :
    (s.step i).indexS2 ≠ (s.step i).indexS3 := by
  unfold State.indexS2 State.indexS3
  rcases State.s2_cases hv2 with ⟨hst, hv, hs2⟩ | ⟨-, hi, hs2⟩
  · rw [hs2] at hw ⊢
    rcases State.s3_cases hv3 with ⟨-, hv3', hs3, -⟩ | ⟨hst3, -⟩
    · rw [hs3]
      exact hs.apart hv hv3' hw
    · rw [State.stallS2_eq, hst3, Bool.and_false] at hst
      exact absurd hst Bool.false_ne_true
  · rw [hs2] at hw ⊢
    obtain ⟨h2, h3⟩ := index_of_issues hi hw
    rcases State.s3_cases hv3 with ⟨-, hv3', hs3, -⟩ | ⟨-, hv2', hs3, -⟩
    · rw [hs3]
      exact h3 hv3'
    · rw [hs3]
      exact h2 hv2'

/-- The address of the message whose second pass follows stays. -/
theorem Inv.fillAddress_step (h : Inv y) (hok : InputOk y i)
    (hfs : (y.1.step i).fetchState = .noc2WritebackDone) :
    (y.1.step i).predecodeNoc2.address = y.1.predecodeNoc2.address := by
  have hpass := noc2PassUser_of_ne (s := y.1.step i) (by rw [hfs]; rfl) (by rw [hfs]; decide)
  obtain ⟨hv, -, hm⟩ := h.noc2_kept hok hpass
  have hfill : y.1.predecodeNoc2.reqtype.isFill = true ∧
      (y.1.noc2IsMessageNew = true ∨ y.1.fetchState = .noc2WritebackDone) := by
    rcases fetchState_fill hfs with ⟨hwait, -⟩ | ⟨-, -, -, -, hnew, hf⟩
    · exact ⟨h.fillPass hwait, .inr hwait⟩
    · exact ⟨hf, .inl hnew⟩
  obtain ⟨hval, -⟩ := h.of_answerWaits (answerWaits_of_isFill hv hfill.2 hfill.1)
  obtain ⟨-, haddr⟩ := h.mshr_kept i hval
  obtain ⟨hk, hhmc, -⟩ := isFill_iff.1 hfill.1
  show noc2Address (y.1.step i).noc2 _ _ _ = noc2Address y.1.noc2 _ _ _
  rw [hm]
  unfold noc2Address
  simp only [hk, hhmc, if_neg Bool.false_ne_true]
  cases hid : y.1.noc2.mshrid with
  | none | ifill => rfl
  | ld =>
    rw [hid] at haddr
    exact haddr
  | st =>
    rw [hid] at haddr
    exact haddr

theorem Stages.step_fillWaits (hs : Stages y.1) (h : Inv y) (hok : InputOk y i)
    (hfs : (y.1.step i).fetchState = .noc2WritebackDone) :
    (y.1.step i).valS2 = true ∧ (y.1.step i).s2.evicts = true ∧
      (y.1.step i).s2.address = (y.1.step i).predecodeNoc2.address := by
  rw [h.fillAddress_step hok hfs]
  rcases fetchState_fill hfs with ⟨hwait, hi⟩ | ⟨hi, hn, hsource, -, -, hf⟩
  · have hst := h.stallS2_of_fillPass hwait hi
    have hs2 : (y.1.step i).s2 = y.1.s2 := by
      show (if y.1.stallS2 i then _ else _) = _
      rw [hst, if_pos rfl]
    have hv : (y.1.step i).valS2 = y.1.valS2 := by
      show (if y.1.stallS2 i then _ else _) = _
      rw [hst, if_pos rfl]
    rw [hs2, hv]
    exact hs.fillWaits hwait
  · have hst := State.stallS2_of_issues hi
    have hs2 : (y.1.step i).s2 = y.1.s1Instr := by
      show (if y.1.stallS2 i then _ else _) = _
      rw [hst, if_neg Bool.false_ne_true]
    have hv : (y.1.step i).valS2 = true := by
      show (if y.1.stallS2 i then _ else _) = _
      rw [hst, if_neg Bool.false_ne_true, hi]
    refine ⟨hv, ?_, ?_⟩
    · rw [hs2]
      show decide (y.1.decode.lruarrayWriteOp = .eviction) = true
      rw [decode_noc2 hsource]
      exact decide_eq_true ((fillPasses hf).1 hn)
    · rw [hs2]
      show y.1.predecode.address = _
      rw [State.predecode_noc2 hsource]

/-- The second pass of a fill issues in its fetch state, with the first one in S2. -/
theorem Inv.fetchState_of_fills (h : Inv y) (hi : y.1.s1Issues i = true)
    (hf : y.1.s1Instr.fills = true) :
    y.1.fetchState = .noc2WritebackDone ∧ y.1.predecodeSource = .noc2 := by
  have hop : y.1.decode.dtagOperation = .write := of_decide_eq_true hf
  rcases source_cases hi with ⟨hsource, hne⟩ | ⟨hsource, -⟩
  · refine ⟨?_, hsource⟩
    have hfill : y.1.predecodeNoc2.reqtype.isFill = true := by
      have hrow := (y.1.decodes_s1.fillRow hop).isFill
      change y.1.predecode.reqtype.isFill = true at hrow
      rwa [State.predecode_noc2 hsource] at hrow
    have hnormal : y.1.fetchState ≠ .normal := by
      rw [decode_noc2 hsource] at hop
      exact (fillPasses hfill).2.2 hop
    have hforward : y.1.noc2.isForward = true → False := by
      intro hfw
      obtain ⟨hk, -⟩ := isFill_iff.1 hfill
      unfold Noc2Message.isForward at hfw
      simp [hk] at hfw
    cases hfs : y.1.fetchState with
    | normal => exact absurd hfs hnormal
    | pcxWritebackDone => exact absurd hfs hne
    | noc2WritebackDone => rfl
    | inval2 => exact (hforward (h.forwardPass (.inl hfs)).1).elim
    | inval3 => exact (hforward (h.forwardPass (.inr (.inl hfs))).1).elim
    | inval4 => exact (hforward (h.forwardPass (.inr (.inr hfs))).1).elim
    | icacheInval2 => exact (hforward (h.icachePass hfs).1).elim
  · exact absurd hop (pcx_signals hsource).2.2

/-- The second pass of a line flush issues in its fetch state. -/
theorem Inv.fetchState_of_flushes (h : Inv y) (hi : y.1.s1Issues i = true)
    (hf : y.1.s1Instr.flushes = true) :
    y.1.fetchState = .pcxWritebackDone ∧ y.1.predecodePcx.reqtype = .lineFlush := by
  have hop : y.1.decode.mesiWriteOp = .invalidateFlushWayIfMes := of_decide_eq_true hf
  have hrow := (y.1.decodes_s1.flushRow hop).reqtype
  change y.1.predecode.reqtype = .lineFlush at hrow
  rcases source_cases hi with ⟨hsource, -⟩ | ⟨hsource, hfs⟩
  · have hfrom := h.noc2_fromPcx hsource
    rw [hrow] at hfrom
    exact absurd hfrom.symm Bool.false_ne_true
  · rw [State.predecode_pcx hsource] at hrow
    refine ⟨hfs.resolve_left fun hn => ?_, hrow⟩
    rw [decode_pcx hsource, hrow, hn] at hop
    cases hop

/-- An instruction that leaves S2 is in S3. -/
theorem s3_of_moves (hst : s.stallS2 i = false) (hv : s.valS2 = true) :
    (s.step i).valS3 = true ∧ (s.step i).s3 = s.s2 ∧ (s.step i).s3Result = s.s2Result := by
  have hst3 : s.stallS3 i = false := by
    rwa [State.stallS2_eq, hv, Bool.true_and] at hst
  refine ⟨?_, ?_, ?_⟩
  · show (if s.stallS3 i then _ else s.valS2 && !s.stallS2 i) = true
    simp [hst, hst3, hv]
  · show (if s.stallS3 i then _ else _) = _
    rw [hst3, if_neg Bool.false_ne_true]
  · show (if s.stallS3 i then _ else _) = _
    rw [hst3, if_neg Bool.false_ne_true]

/-- A stall of S2 keeps S3. -/
theorem s3_of_stallS2 (hst : s.stallS2 i = true) :
    (s.step i).valS3 = s.valS3 ∧ (s.step i).s3 = s.s3 ∧ (s.step i).s3Result = s.s3Result := by
  have hst3 : s.stallS3 i = true := by
    rw [State.stallS2_eq, Bool.and_eq_true] at hst
    exact hst.2
  refine ⟨?_, ?_, ?_⟩
  · show (if s.stallS3 i then _ else _) = _
    rw [hst3, if_pos rfl]
  · show (if s.stallS3 i then _ else _) = _
    rw [hst3, if_pos rfl]
  · show (if s.stallS3 i then _ else _) = _
    rw [hst3, if_pos rfl]

/-- The replacement bits of a set change only by an instruction of the set in S3. -/
theorem lru_step {k : SetIndex} (hno : s.lruWrite.valid = true → s.lruWrite.index ≠ k) :
    (s.step i).lruarray.regfile k = s.lruarray.regfile k := by
  show (if s.lruWrite.valid then Function.update s.lruarray.regfile s.lruWrite.index _
    else s.lruarray.regfile) k = _
  cases hv : s.lruWrite.valid with
  | false => rfl
  | true => rw [if_pos rfl, Function.update_of_ne (Ne.symm (hno hv))]

theorem Stages.step_fillFollows (hs : Stages y.1) (h : Inv y)
    (hv2 : (y.1.step i).valS2 = true) (hf : (y.1.step i).s2.fills = true) :
    (y.1.step i).valS3 = true ∧ (y.1.step i).s3.evicts = true ∧
      (y.1.step i).s3.address = (y.1.step i).s2.address ∧
      (y.1.step i).s3Result.lruWay = (y.1.step i).lruWayS2 := by
  rcases State.s2_cases hv2 with ⟨hst, hv, hs2⟩ | ⟨-, hi, hs2⟩
  · rw [hs2] at hf ⊢
    obtain ⟨hv3, hs3, hres⟩ := s3_of_stallS2 hst
    obtain ⟨hvalid, hevicts, haddr, hway⟩ := hs.fillFollows hv hf
    rw [hv3, hs3, hres, hway]
    refine ⟨hvalid, hevicts, haddr, ?_⟩
    have hno : y.1.lruWrite.valid = false := by
      unfold State.lruWrite
      simp [of_decide_eq_true hevicts]
    show lruWayOf (y.1.lruarray.regfile y.1.lruarray.readIndexF) =
      lruWayOf ((y.1.step i).lruarray.regfile (if y.1.s1Issues i then _ else _))
    rw [State.s1Issues_of_stallS2 hst, if_neg Bool.false_ne_true, lru_step fun hw => by
      rw [hno] at hw
      exact absurd hw Bool.false_ne_true]
  · rw [hs2] at hf
    obtain ⟨hfs, hsource⟩ := h.fetchState_of_fills hi hf
    obtain ⟨hv, hevicts, haddr⟩ := hs.fillWaits hfs
    obtain ⟨hv3, hs3, hres⟩ := s3_of_moves (State.stallS2_of_issues hi) hv
    have hindex : y.1.indexS1 = y.1.indexS2 := by
      unfold State.indexS1 State.indexS2
      rw [State.predecode_noc2 hsource, haddr]
    rw [hs2, hs3, hres]
    refine ⟨hv3, hevicts, ?_, ?_⟩
    · rw [haddr]
      show _ = y.1.predecode.address
      rw [State.predecode_noc2 hsource]
    · show lruWayOf (y.1.lruarray.regfile y.1.lruarray.readIndexF) =
        lruWayOf ((y.1.step i).lruarray.regfile (if y.1.s1Issues i then y.1.indexS1 else _))
      have hapart := hs.apart hv
      rw [hi, if_pos rfl, hindex, hs.lruRead hv, lru_step fun hw heq => ?_]
      have hvalid : y.1.valS3 = true := by
        unfold State.lruWrite at hw
        simp only [Bool.and_eq_true] at hw
        exact hw.2
      exact hapart hvalid ((h.decodesS2 hv).evictionRow (of_decide_eq_true hevicts)).waits heq.symm

theorem Stages.step_flushWaits (hs : Stages y.1) (h : Inv y)
    (hfs : (y.1.step i).fetchState = .pcxWritebackDone)
    (hrt : (y.1.step i).predecodePcx.reqtype = .lineFlush) :
    (y.1.step i).valS2 = true ∧ (y.1.step i).s2.reqtype = .lineFlush ∧
      (y.1.step i).s2.flushes = false ∧ (y.1.step i).s2.address = (y.1.step i).pcx.address := by
  obtain ⟨hpcxs, -, hpcx⟩ := h.predecodePcx_kept hfs
  have hpre : y.1.predecodePcx.reqtype = .lineFlush := by rw [← hpcxs, hrt]
  rw [hpcx]
  rcases fetchState_pcx hfs with ⟨hwait, hi⟩ | ⟨hi, hn, hnext⟩
  · have hst := stallS2_of_flushPass hwait hpre hi
    have hs2 : (y.1.step i).s2 = y.1.s2 := by
      show (if y.1.stallS2 i then _ else _) = _
      rw [hst, if_pos rfl]
    have hv : (y.1.step i).valS2 = y.1.valS2 := by
      show (if y.1.stallS2 i then _ else _) = _
      rw [hst, if_pos rfl]
    rw [hs2, hv]
    exact hs.flushWaits hwait hpre
  · have hst := State.stallS2_of_issues hi
    have hsource := h.source_of_firstPass hi hnext
    have hs2 : (y.1.step i).s2 = y.1.s1Instr := by
      show (if y.1.stallS2 i then _ else _) = _
      rw [hst, if_neg Bool.false_ne_true]
    have hv : (y.1.step i).valS2 = true := by
      show (if y.1.stallS2 i then _ else _) = _
      rw [hst, if_neg Bool.false_ne_true, hi]
    rw [hs2]
    refine ⟨hv, ?_, ?_, ?_⟩
    · show y.1.predecode.reqtype = _
      rw [State.predecode_pcx hsource, hpre]
    · have hop : y.1.decode.mesiWriteOp = .none := by
        rw [decode_pcx hsource, hpre]
        exact flushPasses.2.1.1 hn
      show decide (y.1.decode.mesiWriteOp = .invalidateFlushWayIfMes) = false
      rw [hop]
      rfl
    · show y.1.predecode.address = _
      rw [State.predecode_pcx hsource]
      rfl

theorem Stages.step_flushFollows (hs : Stages y.1) (h : Inv y)
    (hv2 : (y.1.step i).valS2 = true) (hf : (y.1.step i).s2.flushes = true) :
    (y.1.step i).valS3 = true ∧ (y.1.step i).s3.reqtype = .lineFlush ∧
      (y.1.step i).s3.flushes = false ∧ (y.1.step i).s3.address = (y.1.step i).s2.address := by
  rcases State.s2_cases hv2 with ⟨hst, hv, hs2⟩ | ⟨-, hi, hs2⟩
  · rw [hs2] at hf ⊢
    obtain ⟨hv3, hs3, -⟩ := s3_of_stallS2 hst
    rw [hv3, hs3]
    exact hs.flushFollows hv hf
  · rw [hs2] at hf
    obtain ⟨hfs, hrt⟩ := h.fetchState_of_flushes hi hf
    obtain ⟨hv, hrt2, hno, haddr⟩ := hs.flushWaits hfs hrt
    obtain ⟨hv3, hs3, -⟩ := s3_of_moves (State.stallS2_of_issues hi) hv
    rw [hs2, hs3]
    refine ⟨hv3, hrt2, hno, ?_⟩
    rw [haddr]
    show _ = y.1.predecode.address
    rw [State.predecode_pcx (State.source_pcxWritebackDone hfs)]
    rfl

theorem Stages.step_lruRead (hs : Stages s) (hv2 : (s.step i).valS2 = true) :
    (s.step i).lruarray.readIndexF = (s.step i).indexS2 := by
  show (if s.s1Issues i then s.indexS1 else s.lruarray.readIndexF) = cacheIndex (s.step i).s2.address
  rcases State.s2_cases hv2 with ⟨hst, hv, hs2⟩ | ⟨-, hi, hs2⟩
  · rw [hs2, State.s1Issues_of_stallS2 hst, if_neg Bool.false_ne_true]
    exact hs.lruRead hv
  · rw [hs2, hi, if_pos rfl]
    rfl

theorem Stages.step_stateRead (hs : Stages y.1) (h : Inv y) (hv2 : (y.1.step i).valS2 = true)
    (hr : (y.1.step i).s2.ops.mesiReadOp = .read ∨ (y.1.step i).s2.fills = true) :
    (y.1.step i).mesi.readIndexF = (y.1.step i).indexS2 := by
  show (if y.1.mesiReadVal i then y.1.indexS1 else y.1.mesi.readIndexF) =
    cacheIndex (y.1.step i).s2.address
  unfold State.mesiReadVal
  rcases State.s2_cases hv2 with ⟨hst, hv, hs2⟩ | ⟨-, hi, hs2⟩
  · rw [hs2] at hr ⊢
    rw [State.s1Issues_of_stallS2 hst, Bool.and_false, if_neg Bool.false_ne_true]
    exact hs.stateRead hv hr
  · rw [hs2] at hr ⊢
    rw [hi, Bool.and_true]
    by_cases hread : y.1.decode.mesiReadOp = .read
    · rw [decide_eq_true hread, if_pos rfl]
      rfl
    · have hf := hr.resolve_left hread
      obtain ⟨hfs, hsource⟩ := h.fetchState_of_fills hi hf
      obtain ⟨hv, hevicts, haddr⟩ := hs.fillWaits hfs
      have hrow := (h.decodesS2 hv).evictionRow (of_decide_eq_true hevicts)
      rw [decide_eq_false hread, if_neg Bool.false_ne_true, hs.stateRead hv (.inl hrow.stateRead)]
      unfold State.indexS2
      rw [haddr]
      show _ = cacheIndex y.1.predecode.address
      rw [State.predecode_noc2 hsource]

theorem step_stateWrite (hw : (s.step i).mesi.writeValidF = true) :
    (s.step i).valS3 = true ∧ (s.step i).mesi.writeIndexF = (s.step i).indexS3 := by
  change (s.mesiWrite i).valid = true at hw
  have hw' := hw
  change (s.mesiWriteControl.1 && s.valS2 && !s.stallS2 i) = true at hw'
  simp only [Bool.and_eq_true, Bool.not_eq_true'] at hw'
  obtain ⟨⟨hctl, hv⟩, hst⟩ := hw'
  have hst3 : s.stallS3 i = false := by
    rwa [State.stallS2_eq, hv, Bool.true_and] at hst
  have hop : s.s2.ops.mesiWriteOp ≠ .none := by
    intro hn
    unfold State.mesiWriteControl at hctl
    rw [hn] at hctl
    exact absurd hctl Bool.false_ne_true
  constructor
  · show (if s.stallS3 i then _ else s.valS2 && !s.stallS2 i) = true
    simp [hst, hst3, hv]
  · show (if (s.mesiWrite i).valid then (s.mesiWrite i).index else _) =
      cacheIndex (if s.stallS3 i then s.s3 else s.s2).address
    rw [hw, if_pos rfl, hst3, if_neg Bool.false_ne_true]
    show (if s.s2.ops.mesiWriteOp = .none then 0 else s.indexS2) = _
    rw [if_neg hop]
    rfl

theorem Stages.step (hs : Stages y.1) (h : Inv y) (hok : InputOk y i) : Stages (y.1.step i) where
  apart := hs.step_apart
  fillWaits := hs.step_fillWaits h hok
  fillFollows := hs.step_fillFollows h
  flushWaits := hs.step_flushWaits h
  flushFollows := hs.step_flushFollows h
  lruRead := hs.step_lruRead
  stateRead := hs.step_stateRead h
  stateWrite := step_stateWrite

/-! ### Tags and states -/

namespace State

variable (s : State) (i : Inputs)

/-- No victim tag moves back into a set. -/
def NoSwap : Prop := (s.dtagMove i).vce = true → (s.dtagMove i).cmst ≠ .MH

instance : Decidable (s.NoSwap i) := inferInstanceAs (Decidable (_ → _))

/-- The second pass of a fill writes the tag of way `w` of set `k`. -/
def tagWritten (k : SetIndex) (w : Way) : Bool :=
  s.s1Issues i && s.s1Instr.fills && s.indexS1 = k && s.lruWayS2 = w

end State

theorem ptags_step (hno : s.NoSwap i) (k : SetIndex) (w : Way) :
    (s.step i).utag.ptags k w =
      if s.tagWritten i k w then (cacheTag s.predecode.address).setWidth 33
      else s.utag.ptags k w := by
  have hmove : ((s.dtagMove i).vce && (s.dtagMove i).cmst = .MH) = false := by
    cases hv : (s.dtagMove i).vce with
    | false => rfl
    | true => simp [hno hv]
  show (if (s.dtagMove i).vce && (s.dtagMove i).cmst = .MH then _
    else s.utag.writePtags (s.dtagPort i)) k w = _
  rw [hmove, if_neg Bool.false_ne_true]
  unfold Utag.writePtags State.dtagPort State.tagWritten Instr.fills
  show (if (decide (s.decode.dtagOperation ≠ .none) && s.s1Issues i) &&
    !decide (s.decode.dtagOperation = .read) then _ else _ : SetIndex → Way → RawTag) k w =
      if s.s1Issues i && decide (s.decode.dtagOperation = .write) && _ && _ then _ else _
  cases hi : s.s1Issues i with
  | false => simp
  | true =>
    cases hop : s.decode.dtagOperation with
    | none => simp
    | read => simp
    | write =>
      by_cases hk : s.indexS1 = k
      · by_cases hw : s.lruWayS2 = w
        · simp only [hk, hw]
          simpa using maskedWrite_allOnes (s.utag.ptags k w) _
        · simp [hk, hw, Ne.symm hw]
      · simp [hk, Function.update_of_ne (Ne.symm hk)]

/-- The tags that a tag check compares are those of its set. -/
def TagsRead (s : State) : Prop :=
  s.valS2 = true → s.s2.ops.dtagOperation = .read → s.utag.doutF = s.utag.ptags s.indexS2

/-- A tag is written only behind the first pass of the fill. -/
theorem Stages.of_tagWritten (hs : Stages y.1) (h : Inv y) {k : SetIndex} {w : Way}
    (ht : y.1.tagWritten i k w = true) :
    y.1.valS2 = true ∧ y.1.s2.evicts = true ∧ y.1.s2.address = y.1.predecode.address ∧
      y.1.indexS2 = k ∧ y.1.lruWayS2 = w := by
  unfold State.tagWritten at ht
  simp only [Bool.and_eq_true, decide_eq_true_eq] at ht
  obtain ⟨⟨⟨hi, hf⟩, hk⟩, hw⟩ := ht
  obtain ⟨hfs, hsource⟩ := h.fetchState_of_fills hi hf
  obtain ⟨hv, hevicts, haddr⟩ := hs.fillWaits hfs
  rw [← State.predecode_noc2 hsource] at haddr
  refine ⟨hv, hevicts, haddr, ?_, hw⟩
  rw [← hk]
  unfold State.indexS2 State.indexS1
  rw [haddr]

theorem TagsRead.step (ht : TagsRead s) (hno : s.NoSwap i) : TagsRead (s.step i) := by
  intro hv2 hop
  have hdout : (s.step i).utag.doutF =
      if (s.dtagPort i).ce && (s.dtagPort i).rdwen then s.utag.ptags (s.dtagPort i).a
      else s.utag.doutF := rfl
  rcases State.s2_cases hv2 with ⟨hst, hv, hs2⟩ | ⟨-, hi, hs2⟩
  · have hidle := State.s1Issues_of_stallS2 hst
    rw [hs2] at hop
    have hce : (s.dtagPort i).ce = false := by
      unfold State.dtagPort
      simp [hidle]
    funext w
    rw [hdout, hce, Bool.false_and, if_neg Bool.false_ne_true, ptags_step hno]
    unfold State.tagWritten State.indexS2
    rw [hidle, hs2, ht hv hop]
    rfl
  · rw [hs2] at hop
    change s.decode.dtagOperation = .read at hop
    have hport : (s.dtagPort i).ce = true ∧ (s.dtagPort i).rdwen = true ∧
        (s.dtagPort i).a = s.indexS1 := by
      unfold State.dtagPort
      simp [hi, hop]
    funext w
    rw [hdout, hport.1, hport.2.1, hport.2.2, ptags_step hno]
    unfold State.tagWritten Instr.fills State.indexS2
    rw [hs2]
    show s.utag.ptags s.indexS1 w =
      if _ && decide (s.decode.dtagOperation = .write) && _ && _ then _ else _
    rw [hop]
    simp [State.s1Instr, State.indexS1]

theorem tagsRead_of_isReset (hs : s.IsReset) : TagsRead s := fun hv => by
  rw [hs.valS2] at hv
  exact absurd hv Bool.false_ne_true

/-- The registered write of the states. -/
def RfMesi.writes (r : RfMesi) (k : SetIndex) (w : Way) : Bool :=
  r.writeValidF && r.writeIndexF = k && r.writeWayF = w

theorem regfile_step (s : State) (i : Inputs) (k : SetIndex) (w : Way) :
    (s.step i).mesi.regfile k w =
      if s.mesi.writes k w then s.mesi.writeStateF else s.mesi.regfile k w := by
  show s.mesi.written k w = _
  unfold RfMesi.written RfMesi.writes
  cases s.mesi.writeValidF with
  | false => rfl
  | true =>
    by_cases hk : s.mesi.writeIndexF = k
    · subst hk
      by_cases hw : s.mesi.writeWayF = w
      · simp [hw]
      · simp [hw, Function.update_of_ne (Ne.symm hw)]
    · simp [hk, Function.update_of_ne (Ne.symm hk)]

/-- The states write that S2 requests is registered. -/
theorem writes_step (s : State) (i : Inputs) {k : SetIndex} {w : Way}
    (h : (s.step i).mesi.writes k w = true) :
    (s.mesiWrite i).valid = true ∧ s.valS2 = true ∧ s.stallS2 i = false ∧
      s.s2.ops.mesiWriteOp ≠ .none ∧ s.mesiWriteControl.1 = true ∧ s.indexS2 = k ∧
      s.mesiWriteControl.2.1 = w ∧ (s.step i).mesi.writeStateF = s.mesiWriteControl.2.2 := by
  unfold RfMesi.writes at h
  simp only [Bool.and_eq_true, decide_eq_true_eq] at h
  obtain ⟨⟨hv, hk⟩, hw⟩ := h
  change (s.mesiWrite i).valid = true at hv
  change (if (s.mesiWrite i).valid then (s.mesiWrite i).index else _) = k at hk
  change (if (s.mesiWrite i).valid then (s.mesiWrite i).way else _) = w at hw
  rw [hv, if_pos rfl] at hk hw
  have hv' := hv
  change (s.mesiWriteControl.1 && s.valS2 && !s.stallS2 i) = true at hv'
  simp only [Bool.and_eq_true, Bool.not_eq_true'] at hv'
  obtain ⟨⟨hctl, hval⟩, hst⟩ := hv'
  have hop : s.s2.ops.mesiWriteOp ≠ .none := by
    intro hn
    unfold State.mesiWriteControl at hctl
    rw [hn] at hctl
    exact absurd hctl Bool.false_ne_true
  refine ⟨hv, hval, hst, hop, hctl, ?_, hw, ?_⟩
  · change (if s.s2.ops.mesiWriteOp = .none then 0 else s.indexS2) = k at hk
    rwa [if_neg hop] at hk
  · show (if (s.mesiWrite i).valid then (s.mesiWrite i).state else _) = _
    rw [hv, if_pos rfl]
    rfl

/-- A tag check that hits finds the line of the instruction in S2. -/
theorem Stages.of_tagcheck (hs : Stages s) (ht : TagsRead s) (hv : s.valS2 = true)
    (htag : s.s2.ops.dtagOperation = .read) (hstate : s.s2.ops.mesiReadOp = .read)
    (hme : s.tagcheckStateS2 ≠ .I) :
    (s.utag.ptags s.indexS2 s.tagcheckWayS2).setWidth 29 = cacheTag s.s2.address ∧
      s.mesi.regfile s.indexS2 s.tagcheckWayS2 = s.tagcheckStateS2 := by
  unfold State.tagcheckStateS2 State.tagcheckWayS2 at *
  cases hc : s.tagcheck with
  | none =>
    rw [hc] at hme
    exact absurd rfl hme
  | some w =>
    have hhit := (firstWay_spec hc).1
    unfold State.tagcheckHit State.tagcheckEquals at hhit
    simp only [Bool.and_eq_true, decide_eq_true_eq] at hhit
    rw [← ht hv htag, ← hs.stateRead hv (.inl hstate)]
    exact ⟨hhit.1.symm, rfl⟩

end Piton.L15
