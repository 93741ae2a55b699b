import Piton.L15.Lifecycle

/-! Store buffering: a store to a line that a store entry is acquiring is merged into the entry and
acknowledged at once. The stores put into an entry are recorded from its allocation on, and the line
that its completion writes is compared with them. -/

namespace Piton.L15

open Hw

/-! ### The stores of an entry -/

/-- A bit of the line that stores, the latest first, leave behind; `none` where no store writes. -/
def storedBit : List (Line × ByteMask) → Nat → Option Bool
  | [], _ => none
  | (d, m) :: l, k => if (bitMask m).getLsbD k then some (d.getLsbD k) else storedBit l k

/-- The write of data and mask `w` writes what the stores leave behind. -/
def WritesStores (l : List (Line × ByteMask)) (w : Line × Line) : Prop :=
  ∀ k b, storedBit l k = some b → w.2.getLsbD k = true ∧ w.1.getLsbD k = b

/-- The stores put into each store entry since its allocation, and the data write of the last pass
that read the entry. -/
structure Stores where
  log : ThreadId → List (Line × ByteMask)
  write : ThreadId → Option (Line × Line)

/-- Nothing was stored. -/
def Stores.empty : Stores := ⟨fun _ => [], fun _ => none⟩

namespace State

variable (s : State) (i : Inputs)

/-- The line and the bytes of the store in S1. -/
def storeS1 : Line × ByteMask := (s.pcx.data ++ s.pcx.data, s.writeMask)

/-- The pass in S2 reads the store entry of thread `t` and moves on. -/
def readsEntry (t : ThreadId) : Bool :=
  s.valS2 && !s.stallS2 i && s.s2.ops.s2MshrOperation = .readWriteCache && s.s2.threadid = t

/-- The data and the mask of the write that S2 requests from the data array. -/
def dataWrite : Option (Line × Line) :=
  if (s.dcachePort i).ce && !(s.dcachePort i).rdwen then
    some ((s.dcachePort i).din, (s.dcachePort i).bw)
  else none

end State

/-- An allocation starts the list of its entry, a merge adds to it, and the completion is recorded
as it is written. -/
def storesNext (g : Stores) (y : State × Traffic) (i : Inputs) : Stores where
  log t :=
    if (y.1.mshrS1Write i).allocates .st t then [y.1.storeS1]
    else if (y.1.mshrS1Write i).merges t then y.1.storeS1 :: g.log t
    else g.log t
  write t := if y.1.readsEntry i t then y.1.dataWrite i else g.write t

/-- The L1.5, its traffic and the stores of its entries. -/
def storeSystem : Machine ((State × Traffic) × Stores) Inputs :=
  system.withHistory Stores.empty storesNext

/-! ### The property -/

/-- A store merges only into an entry that acquires its line for writing and is not being freed, and
an entry with merged stores is freed only after a pass that wrote all of them. -/
structure StoresBuffered (z : (State × Traffic) × Stores) (i : Inputs) (t : ThreadId) : Prop where
  merged : (z.1.1.mshrS1Write i).merges t = true →
    z.1.1.mshr.stVal t = true ∧
      lineAddress z.1.1.pcx.address = lineAddress (z.1.1.mshr.stAddress t) ∧
      (z.1.1.mshr.stState t = .IM ∨ z.1.1.mshr.stState t = .SM) ∧
      z.1.1.mshrS3Write.deallocates .st t = false
  /-- `w` is the write requested from the data array when the entry's line comes; whether the array makes
  it is another matter. -/
  written : z.1.1.mshr.stVal t = true → z.1.1.mshrS3Write.deallocates .st t = true →
    1 < (z.2.log t).length → ∃ w, z.2.write t = some w ∧ WritesStores (z.2.log t) w

/-- No cacheable store issues while a write-through to its line waits. -/
def State.NoAliasedStore (s : State) (i : Inputs) : Prop :=
  s.s1Issues i = true → s.predecode.reqtype = .store → s.hitStbuf = true →
    (s.mshr.stControl s.hitStbufThreadid).nc = false

instance (s : State) (i : Inputs) : Decidable (s.NoAliasedStore i) :=
  inferInstanceAs (Decidable (_ → _ → _ → _))

/-- A conforming cycle without a flit between the passes of an instruction cache invalidation, in which no
store meets a write-through. -/
def StoreOk (z : (State × Traffic) × Stores) (i : Inputs) : Prop :=
  (Conforms z.1 i ∧ IcacheUndisturbed z.1 i) ∧ z.1.1.NoAliasedStore i

instance (z : (State × Traffic) × Stores) (i : Inputs) : Decidable (StoreOk z i) :=
  inferInstanceAs (Decidable (_ ∧ _))

/-! ### Merges -/

variable {y : State × Traffic} {g : Stores} {s : State} {i : Inputs} {t : ThreadId}

/-- A merge is a store of the decoder's hit row. -/
theorem Decodes.mergeRow {rt : Reqtype} {d : Decoded} (h : Decodes rt d)
    (hop : d.s1MshrOperation = .updateWritecache) :
    rt = .store ∧ d.stallOnMatchedBypassedIndex = true :=
  h.of_rows (P := fun rt d => d.s1MshrOperation = .updateWritecache →
    rt = .store ∧ d.stallOnMatchedBypassedIndex = true) (by decide +kernel) hop

theorem hitStbuf_of_merges
    (hop : s.decode.s1MshrOperation = .updateWritecache) : s.hitStbuf = true := by
  have hrow : ∀ rt fs a c e, (decoder rt fs a false c e).s1MshrOperation ≠ .updateWritecache := by
    decide +kernel
  by_contra hno
  unfold State.decode at hop
  rw [Bool.not_eq_true] at hno
  rw [hno] at hop
  exact hrow _ _ _ _ _ hop

theorem tagcheckMatched_hitStbuf (h : s.hitStbuf = true) :
    s.tagcheckMatchedSt s.hitStbufThreadid = true := by
  unfold State.hitStbufThreadid
  unfold State.hitStbuf at h
  cases h1 : s.tagcheckMatchedSt 1 with
  | true => simpa using h1
  | false =>
    rw [h1, Bool.or_false] at h
    simpa using h

/-- A store merges into the entry of thread `t`, which holds its line; no instruction of its set is in
S2 or S3. -/
structure MergeInto (s : State) (i : Inputs) (t : ThreadId) : Prop where
  issues : s.s1Issues i = true
  source : s.predecodeSource = .pcx
  reqtype : s.predecode.reqtype = .store
  hit : s.hitStbuf = true
  threadid : s.hitStbufThreadid = t
  alone : s.stallIndexBypassMatch = false

theorem Inv.mergeInto (h : Inv y) (hm : (y.1.mshrS1Write i).merges t = true) :
    MergeInto y.1 i t := by
  have hop : y.1.decode.s1MshrOperation = .updateWritecache := by
    unfold MshrS1Write.merges State.mshrS1Write at hm
    cases hop : y.1.decode.s1MshrOperation <;> simp [hop] at hm ⊢
  have hwrite : y.1.s1Issues i = true ∧ y.1.hitStbufThreadid = t := by
    unfold MshrS1Write.merges State.mshrS1Write at hm
    simpa [hop] using hm
  obtain ⟨hi, ht⟩ := hwrite
  obtain ⟨hrt, hstall⟩ := y.1.decodes_s1.mergeRow hop
  have hs : y.1.predecodeSource = .pcx := by
    rcases source_cases hi with ⟨hs, -⟩ | ⟨hs, -⟩
    · rw [(h.noc2_signals hs).1] at hop
      cases hop
    · exact hs
  have hconflict := (State.issues_iff.1 hi).2.2.1
  unfold State.stallIndexConflict at hconflict
  rw [show y.1.decode.stallOnMatchedBypassedIndex = true from hstall, Bool.true_and] at hconflict
  exact ⟨hi, hs, hrt, hitStbuf_of_merges hop, ht, hconflict⟩

/-- The set of an address is part of its line address. -/
theorem cacheIndex_of_lineAddress {a b : Paddr} (h : lineAddress a = lineAddress b) :
    cacheIndex a = cacheIndex b := by
  have hpart : ∀ a : Paddr, cacheIndex a = (lineAddress a).extractLsb' 0 7 := by
    intro a
    unfold cacheIndex lineAddress
    ext k hk
    simp only [BitVec.getElem_extractLsb', BitVec.getLsbD_extractLsb']
    simp
    omega
  rw [hpart, hpart, h]

namespace MergeInto

variable (m : MergeInto s i t)

include m

theorem matched : s.tagcheckMatchedSt t = true := by
  have h := tagcheckMatched_hitStbuf m.hit
  rwa [m.threadid] at h

theorem stVal : s.mshr.stVal t = true := by
  have h := m.matched
  unfold State.tagcheckMatchedSt at h
  rw [Bool.and_eq_true] at h
  exact h.1

theorem lineAddress : lineAddress s.pcx.address = lineAddress (s.mshr.stAddress t) := by
  have h := m.matched
  unfold State.tagcheckMatchedSt at h
  rw [Bool.and_eq_true, decide_eq_true_eq] at h
  exact h.2

theorem index : s.indexS1 = cacheIndex (s.mshr.stAddress t) := by
  unfold State.indexS1
  rw [State.predecode_pcx m.source]
  exact cacheIndex_of_lineAddress m.lineAddress

/-- No instruction with the address of the entry is in S2. -/
theorem address_s2 (hv : s.valS2 = true) : s.s2.address ≠ s.mshr.stAddress t := by
  intro ha
  have h := m.alone
  unfold State.stallIndexBypassMatch State.indexS2 at h
  simp [hv, m.index, ha] at h

/-- No instruction with the address of the entry is in S3. -/
theorem address_s3 (hv : s.valS3 = true) : s.s3.address ≠ s.mshr.stAddress t := by
  intro ha
  have h := m.alone
  unfold State.stallIndexBypassMatch State.indexS3 at h
  simp [hv, m.index, ha] at h

end MergeInto

/-- A merge finds an entry whose request has left the pipeline. -/
theorem Inv.settled_of_merge (h : Inv y) (m : MergeInto y.1 i t) : y.1.stSettled t := by
  refine ⟨m.stVal, ?_, ?_⟩
  · by_contra hr
    rw [Bool.not_eq_false] at hr
    unfold State.reqS2 Instr.requests at hr
    simp only [Bool.and_eq_true, decide_eq_true_eq] at hr
    obtain ⟨hv, ⟨he, hid⟩, ht⟩ := hr
    have hfits := (h.requestS2 hv he).2 (by rw [hid]; decide)
    rw [hid, ht] at hfits
    exact m.address_s2 hv hfits.2.2
  · by_contra hr
    rw [Bool.not_eq_false] at hr
    unfold State.reqS3 Instr.requests at hr
    simp only [Bool.and_eq_true, decide_eq_true_eq] at hr
    obtain ⟨hv, ⟨he, hid⟩, ht⟩ := hr
    have hfits := (h.requestS3 hv he).2 (by rw [hid]; decide)
    rw [hid, ht] at hfits
    exact m.address_s3 hv hfits.2.2

/-! ### The buffered bytes -/

/-- The entry of thread `t` holds what the stores leave behind. -/
def Mshr.HoldsStores (m : Mshr) (t : ThreadId) (l : List (Line × ByteMask)) : Prop :=
  ∀ k b, storedBit l k = some b →
    (bitMask (m.stWriteBufferByteMask t)).getLsbD k = true ∧ (m.stWriteBuffer t).getLsbD k = b

theorem storedBit_cons (w : Line × ByteMask) (l : List (Line × ByteMask)) (k : Nat) :
    storedBit (w :: l) k =
      if (bitMask w.2).getLsbD k then some (w.1.getLsbD k) else storedBit l k := rfl

theorem Mshr.holdsStores_allocated (m : Mshr) {s1 : MshrS1Write} (s3 : MshrS3Write)
    (ha : s1.allocates .st t = true) :
    (m.tick s1 s3).HoldsStores t [(s1.data, s1.byteMask)] := by
  intro k b hb
  rw [storedBit_cons] at hb
  show (bitMask (if s1.allocates .st t then _ else _)).getLsbD k = true ∧
    (if s1.allocates .st t then _ else _ : Line).getLsbD k = b
  rw [ha, if_pos rfl, if_pos rfl]
  cases hm : (bitMask s1.byteMask).getLsbD k with
  | false =>
    rw [hm] at hb
    cases hb
  | true =>
    rw [hm, if_pos rfl] at hb
    refine ⟨rfl, ?_⟩
    rw [BitVec.getLsbD_and, hm, Bool.and_true]
    exact Option.some.inj hb

theorem Mshr.HoldsStores.merged {m : Mshr} {l : List (Line × ByteMask)} (h : m.HoldsStores t l)
    {s1 : MshrS1Write} (s3 : MshrS3Write) (hno : s1.allocates .st t = false)
    (hm : s1.merges t = true) :
    (m.tick s1 s3).HoldsStores t ((s1.data, s1.byteMask) :: l) := by
  intro k b hb
  rw [storedBit_cons] at hb
  show (bitMask (if s1.allocates .st t then _ else if s1.merges t then _ else _)).getLsbD k = true ∧
    (if s1.allocates .st t then _ else if s1.merges t then _ else _ : Line).getLsbD k = b
  rw [hno, if_neg Bool.false_ne_true, if_neg Bool.false_ne_true, hm, if_pos rfl, if_pos rfl,
    maskedWrite_getLsbD, bitMask_getLsbD, BitVec.getLsbD_or, ← bitMask_getLsbD s1.byteMask,
    ← bitMask_getLsbD]
  cases hk : (bitMask s1.byteMask).getLsbD k with
  | true =>
    rw [hk, if_pos rfl] at hb
    exact ⟨Bool.or_true _, Option.some.inj hb⟩
  | false =>
    rw [hk, if_neg Bool.false_ne_true] at hb
    rw [Bool.or_false]
    exact h k b hb

theorem Mshr.HoldsStores.kept {m : Mshr} {l : List (Line × ByteMask)} (h : m.HoldsStores t l)
    {s1 : MshrS1Write} (s3 : MshrS3Write) (hno : s1.allocates .st t = false)
    (hm : s1.merges t = false) : (m.tick s1 s3).HoldsStores t l := by
  intro k b hb
  show (bitMask (if s1.allocates .st t then _ else if s1.merges t then _ else _)).getLsbD k = true ∧
    (if s1.allocates .st t then _ else if s1.merges t then _ else _ : Line).getLsbD k = b
  rw [hno, hm]
  exact h k b hb

/-! ### The pass that writes the line -/

/-- A store and the completions of a store read the entry and write its stores. -/
theorem Decodes.storeRow {rt : Reqtype} {d : Decoded} (h : Decodes rt d)
    (hrt : rt = .ackdtStIm ∧ d.s3MshrOperation = .deallocation ∨ rt = .ackdtStSm) :
    d.s2MshrOperation = .readWriteCache ∧
      (d.dcacheOperation = .writeLruWayFromNoc2AndMshr ∨
        d.dcacheOperation = .writeMshrWayFromMshr) :=
  h.of_rows (P := fun rt d => (rt = .ackdtStIm ∧ d.s3MshrOperation = .deallocation ∨
      rt = .ackdtStSm) → d.s2MshrOperation = .readWriteCache ∧
      (d.dcacheOperation = .writeLruWayFromNoc2AndMshr ∨
        d.dcacheOperation = .writeMshrWayFromMshr)) (by decide +kernel) hrt

theorem Decodes.hitRow {rt : Reqtype} {d : Decoded} (h : Decodes rt d)
    (hop : d.noc1Operation = .genDataStUpgradeIfTagcheckSElseStFillIfTagcheckI) :
    d.s2MshrOperation = .readWriteCache ∧ d.dcacheOperation = .writeTagcheckWayIfMeFromMshr :=
  h.of_rows (P := fun _ d => d.noc1Operation = .genDataStUpgradeIfTagcheckSElseStFillIfTagcheckI →
    d.s2MshrOperation = .readWriteCache ∧ d.dcacheOperation = .writeTagcheckWayIfMeFromMshr)
    (by decide +kernel) hop

/-- An enabled write of an entry's stores writes what they leave behind. -/
theorem writesStores_dataWrite {l : List (Line × ByteMask)}
    (hstores : s.mshr.HoldsStores s.s2.threadid l)
    (hop : s.s2.ops.s2MshrOperation = .readWriteCache)
    (hd : s.s2.ops.dcacheOperation = .writeTagcheckWayIfMeFromMshr ∧
        s.tagcheckStateS2.me = true ∨
      s.s2.ops.dcacheOperation = .writeLruWayFromNoc2AndMshr ∨
        s.s2.ops.dcacheOperation = .writeMshrWayFromMshr)
    (hv : s.valS2 = true) (hst : s.stallS2 i = false) :
    ∃ w, s.dataWrite i = some w ∧ WritesStores l w := by
  refine ⟨(s.dcacheWriteData, s.dcacheWriteMask), ?_, ?_⟩
  · unfold State.dataWrite State.dcachePort State.dcacheVal State.dcacheControl
    rcases hd with ⟨hd, hme⟩ | hd | hd <;> simp [*]
  · intro k b hb
    obtain ⟨hm, hbit⟩ := hstores k b hb
    have hk : k < 128 := by
      by_contra hge
      rw [BitVec.getLsbD_of_ge _ _ (by omega)] at hm
      exact absurd hm Bool.false_ne_true
    have hmask : s.writeBufferMaskS2.getLsbD k = true := by
      unfold State.writeBufferMaskS2
      rw [if_pos hop]
      exact hm
    have hdata : s.writeBufferS2.getLsbD k = b := by
      unfold State.writeBufferS2
      rw [if_pos hop]
      exact hbit
    show s.dcacheWriteMask.getLsbD k = true ∧ s.dcacheWriteData.getLsbD k = b
    unfold State.dcacheWriteMask State.dcacheWriteData State.dcacheControl
    rcases hd with ⟨hd, -⟩ | hd | hd
    · simp only [hd]
      exact ⟨hmask, hdata⟩
    · simp only [hd]
      refine ⟨by rw [BitVec.getLsbD_allOnes]; exact decide_eq_true hk, ?_⟩
      unfold State.writeMergeMshrNoc2
      simp [hmask, hdata]
    · simp only [hd]
      exact ⟨hmask, hdata⟩

/-! ### The invariant of the store entries -/

/-- What the entries and the passes that read them have in common with the recorded stores. -/
structure StoreInv (z : (State × Traffic) × Stores) : Prop where
  buffer : ∀ t, z.1.1.mshr.stVal t = true → z.1.1.mshr.HoldsStores t (z.2.log t)
  cacheable : ∀ t, z.1.1.mshr.stVal t = true → 1 < (z.2.log t).length →
    (z.1.1.mshr.stControl t).nc = false
  completion : ∀ t, z.1.1.ackS2 .st t = true →
    z.1.1.s2.address = z.1.1.mshr.stAddress t ∧
      ((z.1.1.mshr.stControl t).nc = false → z.1.1.s2.ops.s2MshrOperation = .readWriteCache ∧
        (z.1.1.s2.ops.dcacheOperation = .writeLruWayFromNoc2AndMshr ∨
          z.1.1.s2.ops.dcacheOperation = .writeMshrWayFromMshr))
  freed : ∀ t, z.1.1.mshrS3Write.deallocates .st t = true → z.1.1.mshr.stVal t = true →
    z.1.1.s3.address = z.1.1.mshr.stAddress t ∧
      ((z.1.1.mshr.stControl t).nc = false →
        ∃ w, z.2.write t = some w ∧ WritesStores (z.2.log t) w)

theorem storeInv_init {z : (State × Traffic) × Stores} (h : storeSystem.init z) :
    StoreInv z := by
  obtain ⟨⟨hs, -⟩, -⟩ := h
  have hval : ∀ t, z.1.1.mshr.stVal t = false := hs.mshrVal .st
  refine ⟨fun t hv => ?_, fun t hv => ?_, fun t ha => ?_, fun t _ hv => ?_⟩
  · rw [hval t] at hv
    exact absurd hv Bool.false_ne_true
  · rw [hval t] at hv
    exact absurd hv Bool.false_ne_true
  · unfold State.ackS2 at ha
    rw [hs.valS2] at ha
    exact absurd ha Bool.false_ne_true
  · rw [hval t] at hv
    exact absurd hv Bool.false_ne_true

theorem Inv.val_of_ackS2 (h : Inv y) {id : MshrId} (ha : y.1.ackS2 id t = true) :
    y.1.mshr.val id t = true := by
  refine h.val_of_tokens ?_
  have htrue : true.toNat = 1 := rfl
  unfold State.tokens
  rw [ha]
  omega

/-- A store entry in use keeps its contents. -/
theorem Inv.stEntry_kept (h : Inv y) (i : Inputs) (hv : y.1.mshr.val .st t = true) :
    (y.1.step i).mshr.stControl t = y.1.mshr.stControl t ∧
      (y.1.step i).mshr.stAddress t = y.1.mshr.stAddress t :=
  h.mshr_kept i hv

/-- An entry that is valid after a cycle was allocated in it or was valid before. -/
theorem stVal_cases (hv : (y.1.step i).mshr.stVal t = true) :
    (y.1.mshrS1Write i).allocates .st t = true ∨
      ((y.1.mshrS1Write i).allocates .st t = false ∧ y.1.mshr.stVal t = true ∧
        y.1.mshrS3Write.deallocates .st t = false) := by
  change mshrValNext (y.1.mshr.stVal t) (y.1.mshrS3Write.deallocates .st t)
    ((y.1.mshrS1Write i).allocates .st t) = true at hv
  unfold mshrValNext at hv
  cases ha : (y.1.mshrS1Write i).allocates .st t with
  | true => exact .inl rfl
  | false =>
    rw [ha, Bool.or_false, Bool.and_eq_true, Bool.not_eq_true'] at hv
    exact .inr ⟨rfl, hv⟩

/-- What a merge or an allocation puts into the entry is the store of S1. -/
theorem storeS1_eq (s : State) (i : Inputs) :
    ((s.mshrS1Write i).data, (s.mshrS1Write i).byteMask) = s.storeS1 := by
  unfold State.mshrS1Write State.storeS1
  cases s.decode.s1MshrOperation <;> rfl

theorem log_of_allocates (ha : (y.1.mshrS1Write i).allocates .st t = true) :
    (storesNext g y i).log t = [y.1.storeS1] := by
  show (if (y.1.mshrS1Write i).allocates .st t then _ else _) = _
  rw [ha, if_pos rfl]

theorem log_of_merges (hno : (y.1.mshrS1Write i).allocates .st t = false)
    (hm : (y.1.mshrS1Write i).merges t = true) :
    (storesNext g y i).log t = y.1.storeS1 :: g.log t := by
  show (if (y.1.mshrS1Write i).allocates .st t then _ else if (y.1.mshrS1Write i).merges t then _
    else _) = _
  rw [hno, if_neg Bool.false_ne_true, hm, if_pos rfl]

theorem log_kept (hno : (y.1.mshrS1Write i).allocates .st t = false)
    (hm : (y.1.mshrS1Write i).merges t = false) : (storesNext g y i).log t = g.log t := by
  show (if (y.1.mshrS1Write i).allocates .st t then _ else if (y.1.mshrS1Write i).merges t then _
    else _) = _
  rw [hno, if_neg Bool.false_ne_true, hm, if_neg Bool.false_ne_true]

theorem StoreInv.step_buffer (hs : StoreInv (y, g))
    (hv : (y.1.step i).mshr.stVal t = true) :
    (y.1.step i).mshr.HoldsStores t ((storesNext g y i).log t) := by
  show (y.1.mshr.tick (y.1.mshrS1Write i) y.1.mshrS3Write).HoldsStores t _
  rcases stVal_cases hv with ha | ⟨hno, hval, -⟩
  · rw [log_of_allocates ha, ← storeS1_eq y.1 i]
    exact y.1.mshr.holdsStores_allocated _ ha
  · cases hm : (y.1.mshrS1Write i).merges t with
    | true =>
      rw [log_of_merges hno hm, ← storeS1_eq y.1 i]
      exact (hs.buffer t hval).merged _ hno hm
    | false =>
      rw [log_kept hno hm]
      exact (hs.buffer t hval).kept _ hno hm

theorem StoreInv.step_cacheable (hs : StoreInv (y, g)) (h : Inv y) (hok : StoreOk (y, g) i)
    (hv : (y.1.step i).mshr.stVal t = true) (hlen : 1 < ((storesNext g y i).log t).length) :
    ((y.1.step i).mshr.stControl t).nc = false := by
  rcases stVal_cases hv with ha | ⟨hno, hval, -⟩
  · rw [log_of_allocates ha] at hlen
    exact absurd hlen (by simp)
  · have hst : y.1.mshr.val .st t = true := hval
    have hkept : (y.1.step i).mshr.stControl t = y.1.mshr.stControl t := (h.mshr_kept i hst).1
    rw [hkept]
    cases hm : (y.1.mshrS1Write i).merges t with
    | true =>
      have m := h.mergeInto hm
      rw [← m.threadid]
      exact hok.2 m.issues m.reqtype m.hit
    | false =>
      rw [log_kept hno hm] at hlen
      exact hs.cacheable t hval hlen

/-- The answer to a store entry is decoded with the entry's address. -/
theorem answer_address (hsource : s.predecodeSource = .noc2)
    (hwait : s.answerWaits .st t = true) : s.predecode.address = s.mshr.stAddress t := by
  obtain ⟨-, hid, ht, hk⟩ := answerWaits_message hwait
  rw [State.predecode_noc2 hsource]
  show noc2Address s.noc2 _ _ _ = _
  unfold noc2Address
  rcases hk with ⟨hk, hm⟩ | ⟨hk, -⟩ <;> simp [*]

/-- A completion in S2 was there before or is the pass that takes up a waiting answer. -/
theorem Inv.ackS2_cases (h : Inv y) {id : MshrId} (ha : (y.1.step i).ackS2 id t = true) :
    (y.1.ackS2 id t = true ∧ (y.1.step i).s2 = y.1.s2) ∨
      (y.1.s1Issues i = true ∧ y.1.decode.s3MshrOperation = .deallocation ∧
        y.1.predecodeSource = .noc2 ∧ y.1.answerWaits id t = true ∧
          (y.1.step i).s2 = y.1.s1Instr) := by
  unfold State.ackS2 at ha
  rw [Bool.and_eq_true] at ha
  obtain ⟨hv2, hc⟩ := ha
  rcases State.s2_cases hv2 with ⟨-, hv, hs2⟩ | ⟨-, hi, hs2⟩
  · rw [hs2] at hc
    refine .inl ⟨?_, hs2⟩
    unfold State.ackS2
    rw [hv, hc, Bool.and_self]
  · rw [hs2] at hc
    have hop := hc
    unfold Instr.completes at hop
    simp only [Bool.and_eq_true, decide_eq_true_eq] at hop
    exact .inr ⟨hi, hop.1.1, source_of_completes hi hop.1.1, (h.answerWaits_of_completes hi hc).1,
      hs2⟩

/-- The entry that a completion names is the one whose address the completion has. -/
theorem Inv.completion_address (h : Inv y)
    (hold : y.1.ackS2 .st t = true → y.1.s2.address = y.1.mshr.stAddress t)
    (ha : (y.1.step i).ackS2 .st t = true) :
    (y.1.step i).s2.address = (y.1.step i).mshr.stAddress t := by
  rcases h.ackS2_cases ha with ⟨hack, hs2⟩ | ⟨-, -, hsource, hwait, hs2⟩
  · rw [hs2, (h.stEntry_kept i (h.val_of_ackS2 hack)).2]
    exact hold hack
  · rw [hs2, (h.stEntry_kept i (h.of_answerWaits hwait).1).2]
    exact answer_address hsource hwait

/-- A completion enters S2 with the address of its entry and, for a cacheable store, the write of
its stores. -/
theorem StoreInv.step_completion (hs : StoreInv (y, g)) (h : Inv y)
    (ha : (y.1.step i).ackS2 .st t = true) :
    (y.1.step i).s2.address = (y.1.step i).mshr.stAddress t ∧
      (((y.1.step i).mshr.stControl t).nc = false →
        (y.1.step i).s2.ops.s2MshrOperation = .readWriteCache ∧
          ((y.1.step i).s2.ops.dcacheOperation = .writeLruWayFromNoc2AndMshr ∨
            (y.1.step i).s2.ops.dcacheOperation = .writeMshrWayFromMshr)) := by
  refine ⟨h.completion_address (fun hack => (hs.completion t hack).1) ha, ?_⟩
  rcases h.ackS2_cases ha with ⟨hack, hs2⟩ | ⟨-, hop, hsource, hwait, hs2⟩
  · rw [hs2, (h.stEntry_kept i (h.val_of_ackS2 hack)).1]
    exact (hs.completion t hack).2
  · rw [hs2, (h.stEntry_kept i (h.of_answerWaits hwait).1).1]
    intro hnc
    refine y.1.decodes_s1.storeRow ?_
    show y.1.predecode.reqtype = .ackdtStIm ∧ _ ∨ y.1.predecode.reqtype = .ackdtStSm
    rw [State.predecode_noc2 hsource, h.answer_reqtype hwait]
    unfold answerReqtype
    by_cases hstate : y.1.mshr.stState t = .IM
    · exact .inl ⟨by simp [hnc, hstate], hop⟩
    · exact .inr (by simp [hnc, hstate])

/-- What frees a store entry in the next cycle is in S2: a completion, or a store that hits. -/
theorem Inv.freed_next (h : Inv y) (h' : Inv (system.step y i))
    (hd : (y.1.step i).mshrS3Write.deallocates .st t = true)
    (hv : (y.1.step i).mshr.stVal t = true) :
    y.1.valS2 = true ∧ y.1.stallS3 i = false ∧
      (y.1.ackS2 .st t = true ∨ y.1.reqS2 .st t = true ∧
        y.1.s2.ops.noc1Operation = .genDataStUpgradeIfTagcheckSElseStFillIfTagcheckI ∧
          y.1.tagcheckStateS2.me = true) := by
  rw [deallocates_eq] at hd
  rcases h'.freed_cases hd with ⟨hv3, hc⟩ | hx
  · rcases State.s3_cases hv3 with ⟨hst, hv3', hs3, -⟩ | ⟨hst, hv2, hs3, -⟩
    · exfalso
      have hc' := hc
      change (y.1.step i).s3.completes .st t = true at hc'
      rw [hs3] at hc'
      have hop : y.1.s3.ops.s3MshrOperation = .deallocation := by
        unfold Instr.completes at hc'
        simp only [Bool.and_eq_true, decide_eq_true_eq] at hc'
        exact hc'.1.1
      have hcpx := h.stallS3_of_completion hv3' hop hst
      have hfree := h'.cpxFreed (stallForCpx_eq_true (i := i) hcpx).2.2 .st t hc
      change (y.1.step i).mshr.stVal t = false at hfree
      rw [hv] at hfree
      exact absurd hfree.symm Bool.false_ne_true
    · refine ⟨hv2, hst, .inl ?_⟩
      change (y.1.step i).s3.completes .st t = true at hc
      rw [hs3] at hc
      unfold State.ackS2
      rw [hv2, hc, Bool.and_self]
  · rw [Bool.and_eq_true] at hx
    obtain ⟨hr3, hhit⟩ := hx
    have hr3' := hr3
    unfold State.reqS3 at hr3'
    rw [Bool.and_eq_true] at hr3'
    obtain ⟨hv3, hr⟩ := hr3'
    change (y.1.step i).s3.requests .st t = true at hr
    have hreq := hr
    unfold Instr.requests at hreq
    simp only [Bool.and_eq_true, decide_eq_true_eq] at hreq
    obtain ⟨⟨he, hid⟩, -⟩ := hreq
    rcases State.s3_cases hv3 with ⟨hst, hv3', hs3, -⟩ | ⟨hst, hv2, hs3, hres⟩
    · rw [hs3] at he
      rw [h.stallS3_of_expects hv3' he] at hst
      exact absurd hst Bool.false_ne_true
    · have hrow := (h'.decodesS3 hv3).s3MshrRow
      have hmshr := (h'.requestS3 hv3 he).1
      change (y.1.step i).hitS3 = true at hhit
      unfold State.hitS3 at hhit
      change (y.1.step i).s3.mshrid = (y.1.step i).s3.ops.noc1Operation.mshrId at hmshr
      change ((y.1.step i).s3.ops.s3MshrOperation = _ ↔
        (y.1.step i).s3.ops.noc1Operation = _) ∧ ((y.1.step i).s3.ops.s3MshrOperation = _ ↔
        (y.1.step i).s3.ops.noc1Operation = _) ∧ _ at hrow
      rw [hs3, hres] at hhit
      rw [hs3] at hmshr hrow hid hr
      refine ⟨hv2, hst, .inr ⟨?_, ?_⟩⟩
      · unfold State.reqS2
        rw [hv2, hr, Bool.and_self]
      · cases hop : y.1.s2.ops.s3MshrOperation with
        | deallocationIfTagcheckMes =>
          rw [hrow.1.1 hop, hid] at hmshr
          cases hmshr
        | deallocationIfTagcheckMEElseUpdateStateStmshr =>
          rw [hop] at hhit
          exact ⟨hrow.2.1.1 hop, hhit⟩
        | none | deallocation | updateStMshrImIfIndexTagcheckWayMatches
        | updateStMshrImIfIndexLruWayMatches | updateStMshrWaitAck =>
          rw [hop] at hhit
          exact absurd hhit Bool.false_ne_true

/-- What frees an entry has read it in S2, and the stores have not changed since. -/
theorem StoreInv.step_freed (hs : StoreInv (y, g)) (h : Inv y) (h' : Inv (system.step y i))
    (hd : (y.1.step i).mshrS3Write.deallocates .st t = true)
    (hv : (y.1.step i).mshr.stVal t = true) :
    (y.1.step i).s3.address = (y.1.step i).mshr.stAddress t ∧
      (((y.1.step i).mshr.stControl t).nc = false →
        ∃ w, (storesNext g y i).write t = some w ∧
          WritesStores ((storesNext g y i).log t) w) := by
  obtain ⟨hv2, hst, hread⟩ := h.freed_next h' hd hv
  have hst2 : y.1.stallS2 i = false := by rw [State.stallS2_eq, hst, Bool.and_false]
  have hs3 : (y.1.step i).s3 = y.1.s2 := by
    show (if y.1.stallS3 i then y.1.s3 else y.1.s2) = _
    rw [hst, if_neg Bool.false_ne_true]
  have hval : y.1.mshr.val .st t = true := hread.elim h.val_of_ackS2 fun hr => h.val_of_reqS2 hr.1
  obtain ⟨hctl, haddr⟩ := h.stEntry_kept i hval
  rw [hs3, hctl, haddr]
  have ht : y.1.s2.threadid = t := by
    rcases hread with ha | ⟨hr, -⟩
    · unfold State.ackS2 Instr.completes at ha
      simp only [Bool.and_eq_true, decide_eq_true_eq] at ha
      exact ha.2.2
    · unfold State.reqS2 Instr.requests at hr
      simp only [Bool.and_eq_true, decide_eq_true_eq] at hr
      exact hr.2.2
  have hsame : y.1.s2.address = y.1.mshr.stAddress t := by
    rcases hread with ha | ⟨hr, -⟩
    · exact (hs.completion t ha).1
    · unfold State.reqS2 Instr.requests at hr
      simp only [Bool.and_eq_true, decide_eq_true_eq] at hr
      obtain ⟨-, ⟨he, hid⟩, -⟩ := hr
      have hfits := ((h.requestS2 hv2 he).2 (by rw [hid]; decide)).2.2
      rw [hid, ht] at hfits
      exact hfits
  refine ⟨hsame, fun hnc => ?_⟩
  have hno : (y.1.mshrS1Write i).allocates .st t = false := by
    rw [h.allocates_eq]
    by_contra hne
    rw [Bool.not_eq_false, Bool.and_eq_true] at hne
    rw [h.val_of_issues hne.1 hne.2] at hval
    exact absurd hval Bool.false_ne_true
  have hm : (y.1.mshrS1Write i).merges t = false := by
    by_contra hne
    exact (h.mergeInto (by simpa using hne)).address_s2 hv2 hsame
  have hrow : y.1.s2.ops.s2MshrOperation = .readWriteCache ∧
      (y.1.s2.ops.dcacheOperation = .writeTagcheckWayIfMeFromMshr ∧
          y.1.tagcheckStateS2.me = true ∨
        y.1.s2.ops.dcacheOperation = .writeLruWayFromNoc2AndMshr ∨
          y.1.s2.ops.dcacheOperation = .writeMshrWayFromMshr) := by
    rcases hread with ha | ⟨-, hop, hme⟩
    · exact ((hs.completion t ha).2 hnc).imp_right .inr
    · obtain ⟨hop2, hdc⟩ := (h.decodesS2 hv2).hitRow hop
      exact ⟨hop2, .inl ⟨hdc, hme⟩⟩
  have hreads : y.1.readsEntry i t = true := by
    unfold State.readsEntry
    simp [hv2, hst2, hrow.1, ht]
  have hwrite : (storesNext g y i).write t = y.1.dataWrite i := by
    show (if y.1.readsEntry i t then _ else _) = _
    rw [hreads, if_pos rfl]
  rw [hwrite, log_kept hno hm]
  have hbuf := hs.buffer t hval
  rw [← ht] at hbuf
  have hw := writesStores_dataWrite hbuf hrow.1 hrow.2 hv2 hst2
  rwa [ht] at hw

theorem StoreInv.step (hs : StoreInv (y, g)) (h : Inv y) (hok : StoreOk (y, g) i) :
    StoreInv (storeSystem.step (y, g) i) where
  buffer _ hv := hs.step_buffer hv
  cacheable _ hv hlen := hs.step_cacheable h hok hv hlen
  completion _ ha := hs.step_completion h ha
  freed _ hd hv := hs.step_freed h (h.step hok.1) hd hv

theorem reachable_storeInv {z : (State × Traffic) × Stores} (hz : storeSystem.Reachable StoreOk z) :
    Inv z.1 ∧ StoreInv z := by
  induction hz with
  | init hinit => exact ⟨init_inv hinit.1, storeInv_init hinit⟩
  | step _ hok ih => exact ⟨ih.1.step hok.1, ih.2.step ih.1 hok⟩

/-! ### Every cycle -/

/-- In every cycle of a run in which no store meets a write-through, no merged store is lost. -/
theorem storesBuffered {z : (State × Traffic) × Stores} (hz : storeSystem.Reachable StoreOk z)
    (i : Inputs) (hok : StoreOk z i) (t : ThreadId) : StoresBuffered z i t := by
  obtain ⟨h, hs⟩ := reachable_storeInv hz
  refine ⟨fun hm => ?_, fun hv hd hlen => ?_⟩
  · have m := h.mergeInto hm
    have hnc := hok.2 m.issues m.reqtype m.hit
    rw [m.threadid] at hnc
    refine ⟨m.stVal, m.lineAddress, (h.settled t (h.settled_of_merge m)).2 hnc, ?_⟩
    by_contra hd
    rw [Bool.not_eq_false] at hd
    have hd' := hd
    rw [deallocates_eq] at hd'
    simp only [Bool.and_eq_true] at hd'
    exact m.address_s3 hd'.1.1.1 (hs.freed t hd m.stVal).1
  · exact (hs.freed t hd hv).2 (hs.cacheable t hv hlen)

/-! ### Runs -/

theorem storeSystem_init : storeSystem.init ((State.reset, Traffic.empty), Stores.empty) :=
  ⟨⟨State.reset_isReset, rfl⟩, rfl⟩

/-- A store allocates an entry, a store of the other thread to the same line merges into it, and the
fill of the line completes. -/
def mergeRun : List Inputs :=
  let wait (n : Nat) := List.replicate n Inputs.quiet
  [Inputs.store 0 0x12345000 false 5] ++ wait 4 ++ [Inputs.store 1 0x12345008 false 6] ++ wait 5 ++
    [Inputs.dataAck .st 0 .M 7] ++ wait 3

/-- The completion of the fill is in S3. -/
def mergeState : (State × Traffic) × Stores :=
  storeSystem.run ((State.reset, Traffic.empty), Stores.empty) mergeRun

set_option maxRecDepth 20000 in
theorem storesBuffered_mergeState :
    mergeState.1.1.mshrS3Write.deallocates .st 0 = true ∧ (mergeState.2.log 0).length = 2 ∧
      StoresBuffered mergeState Inputs.quiet 0 :=
  ⟨by decide +kernel, by decide +kernel,
    storesBuffered (Machine.Reachable.run (.init storeSystem_init) (by decide +kernel)) _
      (by decide +kernel) _⟩

/-- A write-through waits for its acknowledgement when a store of the other thread to the same line
arrives. -/
def aliasedStoreRun : List Inputs :=
  [Inputs.store 0 0x12345000 true 5] ++ List.replicate 8 Inputs.quiet ++
    [Inputs.store 1 0x12345008 false 6]

/-- The store is in S1. -/
def aliasedStore : (State × Traffic) × Stores :=
  storeSystem.run ((State.reset, Traffic.empty), Stores.empty) aliasedStoreRun

set_option maxRecDepth 20000 in
theorem aliasedStore_reachable :
    storeSystem.Reachable (fun z i => InputOk z.1 i) aliasedStore :=
  Machine.Reachable.run (.init storeSystem_init) (by decide +kernel)

theorem aliasedStore_merges :
    InputOk aliasedStore.1 Inputs.quiet ∧
      (aliasedStore.1.1.mshrS1Write Inputs.quiet).merges 0 = true ∧
      aliasedStore.1.1.mshr.stState 0 = .waitAck := by
  decide +kernel

/-- The store merges into the entry of the write-through. -/
theorem not_storesBuffered :
    ¬ ∀ z, storeSystem.Reachable (fun z i => Conforms z.1 i ∧ IcacheUndisturbed z.1 i) z →
      ∀ i, Conforms z.1 i ∧ IcacheUndisturbed z.1 i → ∀ t, StoresBuffered z i t := by
  intro h
  obtain ⟨hok, hm, hstate⟩ := aliasedStore_merges
  have hacquires := ((h _ aliasedStore_reachable _ hok 0).merged hm).2.2.1
  rw [hstate] at hacquires
  exact absurd hacquires (by decide)

end Piton.L15
