import Piton.L15.DataArray
import Piton.L15.Stages

/-! The way of a fill: the first pass chooses it from the replacement bits, and both passes use it in
every array, whichever stage holds them. -/

namespace Piton.L15

open Hw

namespace State

variable (s : State) (i : Inputs)

/-- The first pass of a fill leaves S2. -/
def evictionLeaves : Bool := s.valS2 && !s.stallS2 i && s.s2.evicts

/-- The second pass of a fill leaves S2. -/
def fillLeaves : Bool := s.valS2 && !s.stallS2 i && s.s2.fills

/-- The access that a pass of a fill makes to the data array is not turned into a move that leaves
something else behind. -/
def FillServed : Prop :=
  s.s2.evicts = true ∨ s.s2.fills = true → s.dcacheVal i = true →
    s.udata.MoveSuffices (s.dcachePort i)

end State

/-- The way that the first pass of a fill has chosen from the replacement bits of its set. -/
def chosenNext (w : Way) (s : State) (i : Inputs) : Way :=
  if s.evictionLeaves i then lruWayOf (s.lruarray.regfile s.indexS2) else w

/-- The L1.5 in its surroundings with the way that the last fill has chosen. -/
def fillSystem : Machine ((State × Traffic) × Way) Inputs :=
  system.withHistory 0 fun w y i => chosenNext w y.1 i

/-- A conforming cycle without a flit between the passes of an instruction cache invalidation that moves no
victim back. -/
def FillOk (z : (State × Traffic) × Way) (i : Inputs) : Prop :=
  (Conforms z.1 i ∧ IcacheUndisturbed z.1 i) ∧ z.1.1.NoSwap i

instance (z : (State × Traffic) × Way) (i : Inputs) : Decidable (FillOk z i) :=
  inferInstanceAs (Decidable (_ ∧ _))

/-- A cycle applies the passes of a fill to the way chosen. -/
structure FillOnWay (w : Way) (s : State) (i : Inputs) : Prop where
  /-- The second pass is right behind the first one. -/
  adjacent : s.valS2 = true → s.s2.fills = true →
    s.valS3 = true ∧ s.s3.evicts = true ∧ s.s3.address = s.s2.address
  /-- The tag and the state that S3 gets are those of the old line. -/
  oldTag : s.evictionLeaves i = true →
    (s.step i).s3Result.lruWayTag =
        (s.utag.ptags s.indexS2 (chosenNext w s i)).setWidth 29 ∧
      (s.step i).s3Result.lruState = s.mesi.written s.indexS2 (chosenNext w s i)
  /-- The line that S3 gets is the old line. -/
  oldLine : s.evictionLeaves i = true → s.mesi.written s.indexS2 (chosenNext w s i) = .M →
    (s.step i).udata.doutF = s.udata.pdata (lineSlot s.indexS2 (chosenNext w s i))
  /-- What S3 gets stays while the first pass is stalled there. -/
  held : s.stallS3 i = true → s.s3.evicts = true →
    (s.step i).s3Result = s.s3Result ∧ (s.step i).udata.doutF = s.udata.doutF
  /-- The L1 copy of the old line is the one invalidated. -/
  invalidated : s.valS3 = true → s.s3.evicts = true → s.wmtCompareWay = w
  /-- The old line is written back. -/
  writtenBack : s.valS3 = true → s.s3.evicts = true →
    (s.noc3Req.1 = true ↔ s.s3Result.lruState = .M) ∧
      s.noc3Req.2 = (.writeback, true, s.wayAddressS3 s.s3Result.lruWayTag)
  tag : s.s1Issues i = true → s.s1Instr.fills = true →
    (s.step i).utag.ptags s.indexS1 =
      Function.update (s.utag.ptags s.indexS1) (chosenNext w s i)
        ((cacheTag s.predecode.address).setWidth 33)
  line : s.fillLeaves i = true →
    (s.step i).udata.pdata (lineSlot s.indexS2 w) = s.dcacheWriteData
  state : s.fillLeaves i = true →
    (s.step i).mesi.written s.indexS2 =
      Function.update (s.mesi.written s.indexS2) w s.s2.noc2AckState
  used : s.valS3 = true → s.s3.fills = true →
    ((s.step i).lruarray.regfile s.indexS3).getLsbD w.val = true
  /-- The L1 way of a loaded line is mapped to it. -/
  mapped : s.valS3 = true → s.s3.fills = true → s.s3.reqtype = .ackdtLd →
    s.wmtWrite.valid = true ∧ s.wmtWrite.index = s.indexS3 ∧
      s.wmtWrite.mask s.s3.l1ReplacementWay = true ∧
      s.wmtWrite.data s.s3.l1ReplacementWay = ⟨true, w⟩

/-! ### Rows -/

variable {y : State × Traffic} {s : State} {i : Inputs} {w : Way} {rt : Reqtype} {d : Decoded}

/-- What the first pass of a fill does with the old line. -/
structure OldLineRow (d : Decoded) : Prop where
  dcache : d.dcacheOperation = .readLruWayIfM
  compare : d.wmtCompareOp = .lru
  noc3 : d.noc3Operation = .genWritebackIfLruMFromDcache
  noTagWrite : d.dtagOperation ≠ .write

theorem Decodes.oldLineRow (h : Decodes rt d) (he : d.lruarrayWriteOp = .eviction) :
    OldLineRow d := by
  have hrow := h.of_rows (P := fun _ d => d.lruarrayWriteOp = .eviction →
    d.dcacheOperation = .readLruWayIfM ∧ d.wmtCompareOp = .lru ∧
      d.noc3Operation = .genWritebackIfLruMFromDcache ∧ d.dtagOperation ≠ .write)
    (by decide +kernel) he
  obtain ⟨hd, hc, hn, ht⟩ := hrow
  exact ⟨hd, hc, hn, ht⟩

/-- What the second pass of a fill does with the new line. -/
structure NewLineRow (rt : Reqtype) (d : Decoded) : Prop where
  dcache : d.dcacheOperation = .writeLruWayFromNoc2 ∨
    d.dcacheOperation = .writeLruWayFromNoc2AndMshr
  lru : d.lruarrayWriteOp = .replacement
  wmt : rt = .ackdtLd → d.wmtWriteOp = .updateLruWayAndDedupEntry

theorem Decodes.newLineRow (h : Decodes rt d) (hf : d.dtagOperation = .write) :
    NewLineRow rt d := by
  have hrow := h.of_rows (P := fun rt d => d.dtagOperation = .write →
    (d.dcacheOperation = .writeLruWayFromNoc2 ∨ d.dcacheOperation = .writeLruWayFromNoc2AndMshr) ∧
      d.lruarrayWriteOp = .replacement ∧
        (rt = .ackdtLd → d.wmtWriteOp = .updateLruWayAndDedupEntry)) (by decide +kernel) hf
  obtain ⟨hd, hl, hw⟩ := hrow
  exact ⟨hd, hl, hw⟩

theorem Instr.evicts_iff {x : Instr} : x.evicts = true ↔ x.ops.lruarrayWriteOp = .eviction :=
  decide_eq_true_iff

theorem Instr.fills_iff {x : Instr} : x.fills = true ↔ x.ops.dtagOperation = .write :=
  decide_eq_true_iff

theorem State.evictionLeaves_iff :
    s.evictionLeaves i = true ↔
      s.valS2 = true ∧ s.stallS2 i = false ∧ s.s2.evicts = true := by
  unfold State.evictionLeaves
  rw [Bool.and_eq_true, Bool.and_eq_true, Bool.not_eq_true', and_assoc]

theorem State.fillLeaves_iff :
    s.fillLeaves i = true ↔ s.valS2 = true ∧ s.stallS2 i = false ∧ s.s2.fills = true := by
  unfold State.fillLeaves
  rw [Bool.and_eq_true, Bool.and_eq_true, Bool.not_eq_true', and_assoc]

/-! ### The way is recorded -/

/-- S3 has the chosen way in both passes. -/
def WayRecorded (w : Way) (s : State) : Prop :=
  s.valS3 = true → s.s3.evicts = true ∨ s.s3.fills = true → s.s3Result.lruWay = w

theorem Inv.not_evicts_of_fills (h : Inv y) (hv : y.1.valS2 = true) (hf : y.1.s2.fills = true) :
    y.1.s2.evicts = false := by
  by_contra he
  have hop := Instr.evicts_iff.1 (Bool.not_eq_false _ ▸ he)
  exact ((h.decodesS2 hv).oldLineRow hop).noTagWrite (Instr.fills_iff.1 hf)

theorem Stages.lruWayS2_eq (hs : Stages s) (hv : s.valS2 = true) :
    s.lruWayS2 = lruWayOf (s.lruarray.regfile s.indexS2) := by
  rw [← hs.lruRead hv]
  rfl

theorem chosenNext_of_evictionLeaves (hs : Stages s) (he : s.evictionLeaves i = true) :
    chosenNext w s i = s.lruWayS2 := by
  rw [hs.lruWayS2_eq (State.evictionLeaves_iff.1 he).1]
  exact if_pos he

theorem chosenNext_of_not (he : s.evictionLeaves i = false) : chosenNext w s i = w := by
  rw [chosenNext, he, if_neg Bool.false_ne_true]

theorem WayRecorded.step (hw : WayRecorded w y.1) (h : Inv y) (hs : Stages y.1) :
    WayRecorded (chosenNext w y.1 i) (y.1.step i) := by
  intro hv3 hpass
  rcases State.s3_cases hv3 with ⟨hst3, hvalid, hs3, hres⟩ | ⟨hst3, hv2, hs3, hres⟩
  · rw [hs3] at hpass
    have hno : y.1.evictionLeaves i = false := by
      unfold State.evictionLeaves
      rw [State.stallS2_eq, hst3]
      cases y.1.valS2 <;> rfl
    rw [hres, chosenNext_of_not hno]
    exact hw hvalid hpass
  · rw [hs3] at hpass
    have hst : y.1.stallS2 i = false := by
      rw [State.stallS2_eq, hst3, Bool.and_false]
    rw [hres]
    change y.1.lruWayS2 = chosenNext w y.1 i
    rcases hpass with he | hf
    · exact (chosenNext_of_evictionLeaves hs (State.evictionLeaves_iff.2 ⟨hv2, hst, he⟩)).symm
    · obtain ⟨hvalid, hevicts, -, hway⟩ := hs.fillFollows hv2 hf
      have hno : y.1.evictionLeaves i = false := by
        unfold State.evictionLeaves
        rw [h.not_evicts_of_fills hv2 hf, Bool.and_false]
      rw [← hway, chosenNext_of_not hno]
      exact hw hvalid (.inl hevicts)

/-- The invariant of runs that move no victim back. -/
theorem reachable_wayRecorded {z : (State × Traffic) × Way} (hz : fillSystem.Reachable FillOk z) :
    Inv z.1 ∧ Stages z.1.1 ∧ TagsRead z.1.1 ∧ WayRecorded z.2 z.1.1 := by
  induction hz with
  | init hinit =>
    refine ⟨init_inv hinit.1, stages_of_isReset hinit.1.1, tagsRead_of_isReset hinit.1.1, ?_⟩
    intro hv
    rw [hinit.1.1.valS3] at hv
    exact absurd hv Bool.false_ne_true
  | step _ hok ih =>
    obtain ⟨h, hs, ht, hw⟩ := ih
    exact ⟨h.step hok.1, hs.step h hok.1, ht.step hok.2, hw.step h hs⟩

/-! ### The first pass -/

/-- No write to the states of a set that waits in S2 is pending. -/
theorem Stages.written_eq (hs : Stages s) (hv : s.valS2 = true) (hw : s.s2.waitsForSet = true) :
    s.mesi.written s.indexS2 = s.mesi.regfile s.indexS2 := by
  unfold RfMesi.written
  cases hp : s.mesi.writeValidF with
  | false => rfl
  | true =>
    obtain ⟨hv3, hindex⟩ := hs.stateWrite hp
    rw [if_pos rfl, hindex]
    exact Function.update_of_ne (hs.apart hv hv3 hw) _ _

theorem Stages.oldTag (hs : Stages y.1) (h : Inv y) (ht : TagsRead y.1)
    (he : y.1.evictionLeaves i = true) :
    (y.1.step i).s3Result.lruWayTag =
        (y.1.utag.ptags y.1.indexS2 (chosenNext w y.1 i)).setWidth 29 ∧
      (y.1.step i).s3Result.lruState = y.1.mesi.written y.1.indexS2 (chosenNext w y.1 i) := by
  obtain ⟨hv, hst, hevicts⟩ := State.evictionLeaves_iff.1 he
  obtain ⟨-, -, hres⟩ := s3_of_moves hst hv
  have hrow := (h.decodesS2 hv).evictionRow (Instr.evicts_iff.1 hevicts)
  rw [hres, chosenNext_of_evictionLeaves hs he, hs.written_eq hv hrow.waits]
  constructor
  · change (y.1.utag.doutF y.1.lruWayS2).setWidth 29 = _
    rw [ht hv hrow.tagRead]
  · change y.1.mesi.regfile y.1.mesi.readIndexF y.1.lruWayS2 = _
    rw [hs.stateRead hv (.inl hrow.stateRead)]

/-- The access of the first pass to the data array. -/
theorem Stages.evictionPort (hs : Stages y.1) (h : Inv y) (he : y.1.evictionLeaves i = true) :
    ((y.1.dcachePort i).ce = true ↔ y.1.mesi.written y.1.indexS2 (chosenNext w y.1 i) = .M) ∧
      (y.1.dcachePort i).rdwen = true ∧
      (y.1.dcachePort i).a = lineSlot y.1.indexS2 (chosenNext w y.1 i) := by
  obtain ⟨hv, hst, hevicts⟩ := State.evictionLeaves_iff.1 he
  have hdec := h.decodesS2 hv
  have hrow := hdec.evictionRow (Instr.evicts_iff.1 hevicts)
  have hop := (hdec.oldLineRow (Instr.evicts_iff.1 hevicts)).dcache
  have hctl : y.1.dcacheControl = (decide (y.1.lruStateS2 = .M), true, y.1.lruWayS2, .none) := by
    unfold State.dcacheControl
    rw [hop]
  have hindex : y.1.dcacheIndex = y.1.indexS2 := by
    unfold State.dcacheIndex
    rw [hop, if_neg DcacheOp.noConfusion]
  have hstate : y.1.lruStateS2 = y.1.mesi.written y.1.indexS2 y.1.lruWayS2 := by
    rw [hs.written_eq hv hrow.waits, ← hs.stateRead hv (.inl hrow.stateRead)]
    rfl
  rw [chosenNext_of_evictionLeaves hs he, ← hstate]
  refine ⟨?_, ?_, ?_⟩
  · change (y.1.dcacheControl.1 && y.1.valS2 && !y.1.stallS2 i) = true ↔ _
    rw [hctl, hv, hst, Bool.and_true, Bool.not_false, Bool.and_true, decide_eq_true_iff]
  · change y.1.dcacheControl.2.1 = true
    rw [hctl]
  · change lineSlot y.1.dcacheIndex y.1.dcacheControl.2.2.1 = _
    rw [hctl, hindex]

theorem invalidated_of_recorded (hw : WayRecorded w s) (hd : Decodes s.s3.reqtype s.s3.ops)
    (hv : s.valS3 = true) (he : s.s3.evicts = true) : s.wmtCompareWay = w := by
  unfold State.wmtCompareWay
  rw [(hd.oldLineRow (Instr.evicts_iff.1 he)).compare]
  exact hw hv (.inl he)

theorem writtenBack_of_evicts (hd : Decodes s.s3.reqtype s.s3.ops) (he : s.s3.evicts = true) :
    (s.noc3Req.1 = true ↔ s.s3Result.lruState = .M) ∧
      s.noc3Req.2 = (.writeback, true, s.wayAddressS3 s.s3Result.lruWayTag) := by
  unfold State.noc3Req
  rw [(hd.oldLineRow (Instr.evicts_iff.1 he)).noc3]
  exact ⟨decide_eq_true_iff, rfl⟩

/-- S2 accesses no array while S3 is stalled. -/
theorem held_of_stallS3 (hst : s.stallS3 i = true) :
    (s.step i).s3Result = s.s3Result ∧ (s.step i).udata.doutF = s.udata.doutF := by
  have hval : s.dcacheVal i = false := by
    unfold State.dcacheVal
    rw [State.stallS2_eq, hst, Bool.and_true, Bool.and_assoc, Bool.and_not_self, Bool.and_false]
  constructor
  · change (if s.stallS3 i then s.s3Result else s.s2Result) = _
    rw [hst, if_pos rfl]
  · change (s.udata.tick (s.dcachePort i)).doutF = _
    unfold Udata.tick
    rw [show (s.dcachePort i).ce = false from hval, if_neg Bool.false_ne_true]

/-! ### The second pass -/

/-- The second pass issues while the first one leaves S2. -/
theorem Stages.evictionLeaves_of_fills (hs : Stages y.1) (h : Inv y)
    (hi : y.1.s1Issues i = true) (hf : y.1.s1Instr.fills = true) :
    y.1.evictionLeaves i = true ∧ y.1.indexS1 = y.1.indexS2 := by
  obtain ⟨hfs, hsource⟩ := h.fetchState_of_fills hi hf
  obtain ⟨hv, hevicts, haddr⟩ := hs.fillWaits hfs
  refine ⟨State.evictionLeaves_iff.2 ⟨hv, State.stallS2_of_issues hi, hevicts⟩, ?_⟩
  unfold State.indexS1 State.indexS2
  rw [State.predecode_noc2 hsource, haddr]

theorem Stages.tag_step (hs : Stages y.1) (h : Inv y) (hno : y.1.NoSwap i)
    (hi : y.1.s1Issues i = true) (hf : y.1.s1Instr.fills = true) :
    (y.1.step i).utag.ptags y.1.indexS1 =
      Function.update (y.1.utag.ptags y.1.indexS1) (chosenNext w y.1 i)
        ((cacheTag y.1.predecode.address).setWidth 33) := by
  have hleaves := (hs.evictionLeaves_of_fills h hi hf).1
  funext v
  rw [chosenNext_of_evictionLeaves hs hleaves, ptags_step hno]
  unfold State.tagWritten
  rw [hi, hf]
  by_cases hv : y.1.lruWayS2 = v
  · subst hv
    rw [Function.update_self]
    simp
  · rw [Function.update_of_ne (Ne.symm hv)]
    simp [hv]

/-- The access of the second pass to the data array. -/
theorem Stages.fillPort (hs : Stages y.1) (h : Inv y) (hw : WayRecorded w y.1)
    (he : y.1.fillLeaves i = true) :
    (y.1.dcachePort i).ce = true ∧ (y.1.dcachePort i).rdwen = false ∧
      (y.1.dcachePort i).a = lineSlot y.1.indexS2 w ∧
      (y.1.dcachePort i).bw = BitVec.allOnes 128 := by
  obtain ⟨hv, hst, hf⟩ := State.fillLeaves_iff.1 he
  have hop := ((h.decodesS2 hv).newLineRow (Instr.fills_iff.1 hf)).dcache
  obtain ⟨hv3, hevicts, -, -⟩ := hs.fillFollows hv hf
  have hway : y.1.s3Result.lruWay = w := hw hv3 (.inl hevicts)
  have hctl : y.1.dcacheControl.1 = true ∧ y.1.dcacheControl.2.1 = false ∧
      y.1.dcacheControl.2.2.1 = w ∧
      (y.1.dcacheControl.2.2.2 = .noc2 ∨ y.1.dcacheControl.2.2.2 = .noc2AndMshr) := by
    unfold State.dcacheControl
    rcases hop with hop | hop
    · rw [hop]
      exact ⟨rfl, rfl, hway, .inl rfl⟩
    · rw [hop]
      exact ⟨rfl, rfl, hway, .inr rfl⟩
  have hindex : y.1.dcacheIndex = y.1.indexS2 := by
    unfold State.dcacheIndex
    rcases hop with hop | hop <;> rw [hop, if_neg DcacheOp.noConfusion]
  obtain ⟨hval, hrd, hcw, hsrc⟩ := hctl
  refine ⟨?_, hrd, ?_, ?_⟩
  · change (y.1.dcacheControl.1 && y.1.valS2 && !y.1.stallS2 i) = true
    rw [hval, hv, hst]
    rfl
  · change lineSlot y.1.dcacheIndex y.1.dcacheControl.2.2.1 = _
    rw [hindex, hcw]
  · change y.1.dcacheWriteMask = _
    unfold State.dcacheWriteMask
    rcases hsrc with hsrc | hsrc <;> rw [hsrc]

theorem Stages.state_step (hs : Stages y.1) (h : Inv y) (hw : WayRecorded w y.1)
    (he : y.1.fillLeaves i = true) :
    (y.1.step i).mesi.written y.1.indexS2 =
      Function.update (y.1.mesi.written y.1.indexS2) w y.1.s2.noc2AckState := by
  obtain ⟨hv, hst, hf⟩ := State.fillLeaves_iff.1 he
  have hop := ((h.decodesS2 hv).fillRow (Instr.fills_iff.1 hf)).stateWrite
  obtain ⟨hv3, hevicts, -, hlru⟩ := hs.fillFollows hv hf
  have hway : y.1.lruWayS2 = w := hlru ▸ hw hv3 (.inl hevicts)
  have hwrite : y.1.mesiWrite i =
      { valid := true, index := y.1.indexS2, way := w, state := y.1.s2.noc2AckState } := by
    unfold State.mesiWrite State.mesiWriteControl
    rw [hop, hv, hst, hway, if_neg S3MesiOp.noConfusion]
    rfl
  change (y.1.mesi.tick (y.1.mesiReadVal i) y.1.indexS1 (y.1.mesiWrite i)).written y.1.indexS2 = _
  rw [hwrite]
  exact Function.update_self y.1.indexS2 _ _

theorem used_step (hw : WayRecorded w s) (hd : Decodes s.s3.reqtype s.s3.ops)
    (hv : s.valS3 = true) (hf : s.s3.fills = true) :
    ((s.step i).lruarray.regfile s.indexS3).getLsbD w.val = true := by
  have hway := hw hv (.inr hf)
  have hwrite : s.lruWrite =
      { valid := true, index := s.indexS3, mask := BitVec.allOnes 6,
        data := (s.lruDataS3.extractLsb' 4 2 + 1) ++
          (s.lruDataS3.extractLsb' 0 4 ||| wayMask w) } := by
    unfold State.lruWrite
    rw [(hd.newLineRow (Instr.fills_iff.1 hf)).lru, hv, hway]
    rfl
  have hmask : ∀ v : Way, (wayMask v).getLsbD v.val = true := by decide
  change ((s.lruarray.tick (s.s1Issues i) s.indexS1 s.lruWrite).regfile s.indexS3).getLsbD w.val = _
  rw [hwrite]
  change (Function.update s.lruarray.regfile s.indexS3 _ s.indexS3).getLsbD w.val = true
  rw [Function.update_self, maskedWrite_allOnes, BitVec.getLsbD_append, if_pos w.isLt,
    BitVec.getLsbD_or, hmask w, Bool.or_true]

theorem mapped_of_fills (hw : WayRecorded w s) (hd : Decodes s.s3.reqtype s.s3.ops)
    (hv : s.valS3 = true) (hf : s.s3.fills = true) (hrt : s.s3.reqtype = .ackdtLd) :
    s.wmtWrite.valid = true ∧ s.wmtWrite.index = s.indexS3 ∧
      s.wmtWrite.mask s.s3.l1ReplacementWay = true ∧
      s.wmtWrite.data s.s3.l1ReplacementWay = ⟨true, w⟩ := by
  have hop := (hd.newLineRow (Instr.fills_iff.1 hf)).wmt hrt
  have hctl : s.wmtWriteControl = (true, true, w) := by
    unfold State.wmtWriteControl
    rw [hop, hw hv (.inr hf)]
  unfold State.wmtWrite
  rw [hctl, hv]
  simp

/-! ### Every cycle -/

theorem Stages.oldLine_iff (hs : Stages y.1) (h : Inv y) (he : y.1.evictionLeaves i = true) :
    (y.1.mesi.written y.1.indexS2 (chosenNext w y.1 i) = .M →
        (y.1.step i).udata.doutF =
          y.1.udata.pdata (lineSlot y.1.indexS2 (chosenNext w y.1 i))) ↔
      ((y.1.dcachePort i).ce = true → y.1.udata.MoveSuffices (y.1.dcachePort i)) := by
  obtain ⟨hce, hrd, ha⟩ := hs.evictionPort (w := w) h he
  rw [← hce, ← ha]
  refine imp_congr_right fun hval => ?_
  rw [← y.1.udata.serves_iff _ hval, Udata.Serves, hrd, if_pos rfl]
  exact Iff.rfl

theorem Stages.line_iff (hs : Stages y.1) (h : Inv y) (hw : WayRecorded w y.1)
    (he : y.1.fillLeaves i = true) :
    (y.1.step i).udata.pdata (lineSlot y.1.indexS2 w) = y.1.dcacheWriteData ↔
      ((y.1.dcachePort i).ce = true → y.1.udata.MoveSuffices (y.1.dcachePort i)) := by
  obtain ⟨hce, hrd, ha, hbw⟩ := hs.fillPort h hw he
  rw [← y.1.udata.serves_iff _ hce, Udata.Serves, hrd, if_neg Bool.false_ne_true, hbw,
    maskedWrite_allOnes, ← ha]
  exact ⟨fun hline _ => hline, fun hserves => hserves hce⟩

/-- In every run that moves no victim back, both passes of a fill use the way chosen in every array, and
they do so for the lines exactly when the data array makes the accesses it is asked for. -/
theorem fillOnWay_iff {z : (State × Traffic) × Way} (hz : fillSystem.Reachable FillOk z)
    (hok : FillOk z i) : FillOnWay z.2 z.1.1 i ↔ z.1.1.FillServed i := by
  obtain ⟨h, hs, ht, hw⟩ := reachable_wayRecorded hz
  constructor
  · rintro hfill hpass hval
    have hleaves : z.1.1.valS2 = true ∧ z.1.1.stallS2 i = false := by
      unfold State.dcacheVal at hval
      simp only [Bool.and_eq_true, Bool.not_eq_true'] at hval
      exact ⟨hval.1.2, hval.2⟩
    rcases hpass with he | hf
    · have he' := State.evictionLeaves_iff.2 ⟨hleaves.1, hleaves.2, he⟩
      exact (hs.oldLine_iff h he').1 (hfill.oldLine he') hval
    · have hf' := State.fillLeaves_iff.2 ⟨hleaves.1, hleaves.2, hf⟩
      exact (hs.line_iff h hw hf').1 (hfill.line hf') hval
  · intro hserved
    exact
      { adjacent := fun hv hf =>
          ⟨(hs.fillFollows hv hf).1, (hs.fillFollows hv hf).2.1, (hs.fillFollows hv hf).2.2.1⟩
        oldTag := hs.oldTag h ht
        oldLine := fun he =>
          (hs.oldLine_iff h he).2 (hserved (.inl (State.evictionLeaves_iff.1 he).2.2))
        held := fun hst _ => held_of_stallS3 hst
        invalidated := fun hv he => invalidated_of_recorded hw (h.decodesS3 hv) hv he
        writtenBack := fun hv he => writtenBack_of_evicts (h.decodesS3 hv) he
        tag := hs.tag_step h hok.2
        line := fun hf =>
          (hs.line_iff h hw hf).2 (hserved (.inr (State.fillLeaves_iff.1 hf).2.2))
        state := hs.state_step h hw
        used := fun hv hf => used_step hw (h.decodesS3 hv) hv hf
        mapped := fun hv hf hrt => mapped_of_fills hw (h.decodesS3 hv) hv hf hrt }

theorem fillSystem_init : fillSystem.init ((State.reset, Traffic.empty), 0) := ⟨system_init, rfl⟩

/-- Two lines of zeros are filled into a set in state M; after the last cycle the passes of the second
fill are in S3 and in S2. -/
def twoFillsRun : List Inputs :=
  let fill (a : Paddr) (n : Nat) := [Inputs.load 0 a] ++ List.replicate 4 Inputs.quiet ++
    [Inputs.dataAck .ld 0 .M 0] ++ List.replicate n Inputs.quiet
  fill 0x20000000 4 ++ fill 0x30000000 2

/-- The state after the run, with the way that its fill chose. -/
def twoFills : (State × Traffic) × Way :=
  fillSystem.run ((State.reset, Traffic.empty), 0) twoFillsRun

theorem twoFills_reachable : fillSystem.Reachable FillOk twoFills :=
  .run (.init fillSystem_init) (by decide +kernel)

theorem twoFills_ok : FillOk twoFills Inputs.quiet := by
  decide +kernel

theorem twoFills_fills :
    twoFills.1.1.fillLeaves Inputs.quiet = true ∧ twoFills.2 = 1 := by
  decide +kernel

/-- Where the line is what the way has already, its dropped write does no harm. -/
theorem twoFills_served :
    twoFills.1.1.udata.MoveSuffices (twoFills.1.1.dcachePort Inputs.quiet) := by
  refine (Udata.serves_iff _ _ (by decide +kernel)).1 ?_
  unfold Udata.Serves
  decide +kernel

theorem fillOnWay_twoFills :
    twoFills.1.1.fillLeaves Inputs.quiet = true ∧ twoFills.2 = 1 ∧
      FillOnWay twoFills.2 twoFills.1.1 Inputs.quiet :=
  ⟨twoFills_fills.1, twoFills_fills.2,
    (fillOnWay_iff twoFills_reachable twoFills_ok).2 fun _ _ => twoFills_served⟩

/-- The line 5 does not get into the way chosen for it. -/
theorem not_fillOnWay :
    ¬ ∀ z, fillSystem.Reachable FillOk z → ∀ i, FillOk z i → FillOnWay z.2 z.1.1 i := by
  intro hall
  have hrun : fillSystem.RunOk FillOk ((State.reset, Traffic.empty), 0) fillRun := by
    decide +kernel
  have hok : FillOk (fillSystem.run ((State.reset, Traffic.empty), 0) fillRun)
      Inputs.quiet := by
    decide +kernel
  have hfill := hall _ (.run (.init fillSystem_init) hrun) Inputs.quiet hok
  have hline := hfill.line (by decide +kernel)
  exact absurd hline (by decide +kernel)

end Piton.L15
