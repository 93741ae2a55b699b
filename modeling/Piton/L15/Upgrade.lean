import Piton.L15.LockStep
import Piton.L15.DataArray
import Piton.L15.Stages
import Piton.L15.StoreBuffer

/-! Upgrades: a store that finds its line in S asks for the right to write it, and its entry names the
way of the S copy until the acknowledgement, which has no data, makes that way M.

Until its request leaves S3 the state register of an entry is that of the entry before, so only
settled entries count. -/

namespace Piton.L15

open Hw

/-! ### Properties -/

/-- Line `a` is in way `w` of its set, in state S. -/
structure HoldsCopy (s : State) (a : Paddr) (w : Way) : Prop where
  tag : (s.utag.ptags (cacheIndex a) w).setWidth 29 = cacheTag a
  state : s.mesi.regfile (cacheIndex a) w = .S

instance (s : State) (a : Paddr) (w : Way) : Decidable (HoldsCopy s a w) :=
  decidable_of_iff ((s.utag.ptags (cacheIndex a) w).setWidth 29 = cacheTag a ∧
    s.mesi.regfile (cacheIndex a) w = .S) ⟨fun h => ⟨h.1, h.2⟩, fun h => ⟨h.tag, h.state⟩⟩

namespace State

variable (s : State) (i : Inputs)

instance (t : ThreadId) : Decidable (s.stSettled t) :=
  inferInstanceAs (Decidable (_ ∧ _ ∧ _))

/-- The store entry of thread `t` waits for an upgrade. -/
def upgrading (t : ThreadId) : Prop := s.stSettled t ∧ s.mshr.stState t = .SM

instance (t : ThreadId) : Decidable (s.upgrading t) := inferInstanceAs (Decidable (_ ∧ _))

/-- The store entry of thread `t` waits for an upgrade of way `w` of set `k`. -/
def upgrades (t : ThreadId) (k : SetIndex) (w : Way) : Prop :=
  s.upgrading t ∧ cacheIndex (s.mshr.stAddress t) = k ∧ s.mshr.stWay t = w

instance (t : ThreadId) (k : SetIndex) (w : Way) : Decidable (s.upgrades t k w) :=
  inferInstanceAs (Decidable (_ ∧ _ ∧ _))

end State

/-- An upgrade names a way that holds its line in S, and losing the copy demotes the entry to IM. -/
structure CopyNamed (s : State) (i : Inputs) (t : ThreadId) : Prop where
  holds : s.upgrading t → HoldsCopy s (s.mshr.stAddress t) (s.mshr.stWay t)
  demoted : s.upgrading t → (s.step i).mshr.stVal t = true →
    ¬ HoldsCopy (s.step i) (s.mshr.stAddress t) (s.mshr.stWay t) →
      (s.step i).mshr.stState t = .IM

/-- Nothing but an invalidation takes the copies that upgrades wait for: no fill and no line flush
chooses their ways, no other upgrade is put there, and no victim moves back. -/
structure CopiesKept (s : State) (i : Inputs) : Prop where
  fill : s.s1Issues i = true → s.s1Instr.fills = true →
    ∀ t, ¬ s.upgrades t s.indexS1 s.lruWayS2
  flush : s.valS2 = true → s.s2.flushes = true → ∀ t, ¬ s.upgrades t s.indexS2 s.flushWayS2
  upgrade : s.valS2 = true → s.s2.reqtype = .ackdtStSm →
    ∀ t, t ≠ s.s2.threadid → ¬ s.upgrades t s.indexS2 s.wayMshrStS2
  swap : s.NoSwap i

instance (s : State) (i : Inputs) : Decidable (CopiesKept s i) :=
  decidable_of_iff
    ((s.s1Issues i = true → s.s1Instr.fills = true → ∀ t, ¬ s.upgrades t s.indexS1 s.lruWayS2) ∧
      (s.valS2 = true → s.s2.flushes = true → ∀ t, ¬ s.upgrades t s.indexS2 s.flushWayS2) ∧
      (s.valS2 = true → s.s2.reqtype = .ackdtStSm →
        ∀ t, t ≠ s.s2.threadid → ¬ s.upgrades t s.indexS2 s.wayMshrStS2) ∧ s.NoSwap i)
    ⟨fun h => ⟨h.1, h.2.1, h.2.2.1, h.2.2.2⟩, fun h => ⟨h.fill, h.flush, h.upgrade, h.swap⟩⟩

/-- A conforming cycle without a flit between the passes of an instruction cache invalidation that keeps the
copies. -/
def UpgradeOk (y : State × Traffic) (i : Inputs) : Prop :=
  (Conforms y i ∧ IcacheUndisturbed y i) ∧ CopiesKept y.1 i

instance (y : State × Traffic) (i : Inputs) : Decidable (UpgradeOk y i) :=
  inferInstanceAs (Decidable (_ ∧ _))

/-! ### Rows -/

variable {y : State × Traffic} {s : State} {i : Inputs} {t : ThreadId}

/-- What a cacheable store does that does not merge. -/
structure StoreRow (rt : Reqtype) (d : Decoded) : Prop where
  reqtype : rt = .store
  waits : d.stallOnMatchedBypassedIndex = true
  tagRead : d.dtagOperation = .read
  stateRead : d.mesiReadOp = .read
  stateWrite : d.mesiWriteOp = .writeTagcheckWayMIfE
  noEviction : d.lruarrayWriteOp ≠ .eviction

theorem Decodes.upgradeRequestRow {rt : Reqtype} {d : Decoded} (h : Decodes rt d)
    (hop : d.s3MshrOperation = .deallocationIfTagcheckMEElseUpdateStateStmshr) :
    StoreRow rt d := by
  have hrow := h.of_rows (P := fun rt d =>
    d.s3MshrOperation = .deallocationIfTagcheckMEElseUpdateStateStmshr →
      rt = .store ∧ d.stallOnMatchedBypassedIndex = true ∧ d.dtagOperation = .read ∧
        d.mesiReadOp = .read ∧ d.mesiWriteOp = .writeTagcheckWayMIfE ∧
        d.lruarrayWriteOp ≠ .eviction) (by decide +kernel) hop
  obtain ⟨hrt, hw, ht, hs, hm, hl⟩ := hrow
  exact ⟨hrt, hw, ht, hs, hm, hl⟩

/-- What an upgrade acknowledgement does. -/
structure UpgradeRow (d : Decoded) : Prop where
  waits : d.stallOnMatchedBypassedIndex = true
  stateWrite : d.mesiWriteOp = .writeMshrWayAckState
  dcache : d.dcacheOperation = .writeMshrWayFromMshr
  completes : d.s3MshrOperation = .deallocation
  wmtCompare : d.wmtCompareOp = .stbuf
  noWmtWrite : d.wmtWriteOp = .none
  noLruWrite : d.lruarrayWriteOp = .none

theorem Decodes.upgradeRow {d : Decoded} (h : Decodes .ackdtStSm d) : UpgradeRow d := by
  have hrow := h.of_rows (P := fun rt d => rt = .ackdtStSm →
    d.stallOnMatchedBypassedIndex = true ∧ d.mesiWriteOp = .writeMshrWayAckState ∧
      d.dcacheOperation = .writeMshrWayFromMshr ∧ d.s3MshrOperation = .deallocation ∧
      d.wmtCompareOp = .stbuf ∧ d.wmtWriteOp = .none ∧ d.lruarrayWriteOp = .none)
    (by decide +kernel) rfl
  obtain ⟨hw, hs, hd, hc, hm, hn, hl⟩ := hrow
  exact ⟨hw, hs, hd, hc, hm, hn, hl⟩

/-- The rows that write the states. -/
theorem Decodes.stateWriteRow {rt : Reqtype} {d : Decoded} (h : Decodes rt d) :
    (d.mesiWriteOp = .writeMshrWayAckState → rt = .ackdtStSm) ∧
    (d.mesiWriteOp = .writeLruWayAckState → d.dtagOperation = .write) ∧
    (d.mesiWriteOp = .invalidateTagcheckWayIfMes ∨ d.mesiWriteOp = .writeTagcheckWaySIfMe ∨
        d.mesiWriteOp = .writeTagcheckWayMIfE →
      d.stallOnMatchedBypassedIndex = true ∧ d.dtagOperation = .read ∧ d.mesiReadOp = .read) ∧
    (d.mesiWriteOp = .invalidateTagcheckWayIfMes → rt ≠ .invalidation →
      d.stallOnMatchedMshr = true ∧ rt.fromPcx = true ∧ d.noc1Operation.expects = false) :=
  h.of_rows (P := fun rt d =>
    (d.mesiWriteOp = .writeMshrWayAckState → rt = .ackdtStSm) ∧
    (d.mesiWriteOp = .writeLruWayAckState → d.dtagOperation = .write) ∧
    (d.mesiWriteOp = .invalidateTagcheckWayIfMes ∨ d.mesiWriteOp = .writeTagcheckWaySIfMe ∨
        d.mesiWriteOp = .writeTagcheckWayMIfE →
      d.stallOnMatchedBypassedIndex = true ∧ d.dtagOperation = .read ∧ d.mesiReadOp = .read) ∧
    (d.mesiWriteOp = .invalidateTagcheckWayIfMes → rt ≠ .invalidation →
      d.stallOnMatchedMshr = true ∧ rt.fromPcx = true ∧ d.noc1Operation.expects = false)) (by decide +kernel)

theorem Decodes.invalidationRow {d : Decoded} (h : Decodes .invalidation d) :
    d.s3MshrOperation = .updateStMshrImIfIndexTagcheckWayMatches ∧
      d.stallOnMatchedBypassedIndex = true :=
  h.of_rows (P := fun rt d => rt = .invalidation →
    d.s3MshrOperation = .updateStMshrImIfIndexTagcheckWayMatches ∧
      d.stallOnMatchedBypassedIndex = true) (by decide +kernel) rfl

/-- Only the pass of a cacheable store that finds no entry allocates one for it. -/
theorem storeAllocation {rt : Reqtype} {fs : FetchState} {a b c e : Bool}
    (hop : (decoder rt fs a b c e).s1MshrOperation = .allocate)
    (hc : (decoder rt fs a b c e).noc1Operation.cacheable = true)
    (hid : (decoder rt fs a b c e).noc1Operation.mshrId = .st) : b = false := by
  revert hop hc hid
  revert rt fs a b c e
  decide +kernel

/-! ### Lines and addresses -/

/-- A line address is a tag and a set. -/
theorem lineAddress_eq {a b : Paddr} (ht : cacheTag a = cacheTag b)
    (hi : cacheIndex a = cacheIndex b) : lineAddress a = lineAddress b := by
  unfold lineAddress
  ext k hk
  rw [BitVec.getElem_extractLsb', BitVec.getElem_extractLsb']
  by_cases h7 : k < 7
  · have hbit := congrArg (fun v => v.getLsbD k) hi
    unfold cacheIndex at hbit
    simpa [BitVec.getLsbD_extractLsb', h7] using hbit
  · have hbit := congrArg (fun v => v.getLsbD (k - 7)) ht
    unfold cacheTag at hbit
    simp only [BitVec.getLsbD_extractLsb', show k - 7 < 29 by omega, decide_true,
      Bool.true_and, show 11 + (k - 7) = 4 + k by omega] at hbit
    exact hbit

/-! ### Upgrading entries -/

theorem Inv.nc_of_upgrading (h : Inv y) (hu : y.1.upgrading t) :
    (y.1.mshr.stControl t).nc = false := by
  by_contra hnc
  rw [Bool.not_eq_false] at hnc
  have hwait := (h.settled t hu.1).1 hnc
  rw [hu.2] at hwait
  cases hwait

/-- The cacheable request of a store entry in S3 is that of a store. -/
theorem Inv.storeOp_of_reqS3 (h : Inv y) (hr3 : y.1.reqS3 .st t = true)
    (hnc : (y.1.mshr.stControl t).nc = false) :
    y.1.valS3 = true ∧
      y.1.s3.ops.s3MshrOperation = .deallocationIfTagcheckMEElseUpdateStateStmshr ∧
      y.1.s3.address = y.1.mshr.stAddress t := by
  unfold State.reqS3 Instr.requests at hr3
  simp only [Bool.and_eq_true, decide_eq_true_eq] at hr3
  obtain ⟨hv, ⟨he, hid⟩, ht⟩ := hr3
  obtain ⟨hmshr, hfits⟩ := h.requestS3 hv he
  obtain ⟨-, hcacheable, haddr⟩ := hfits (by rw [hid]; decide)
  rw [hid] at hmshr
  rw [hid, ht] at hcacheable haddr
  change y.1.s3.ops.noc1Operation.cacheable = !(y.1.mshr.stControl t).nc at hcacheable
  rw [hnc] at hcacheable
  refine ⟨hv, ((h.decodesS3 hv).s3MshrRow).2.1.2 ?_, haddr⟩
  cases hop : y.1.s3.ops.noc1Operation <;> rw [hop] at hmshr hcacheable <;>
    first
    | rfl
    | exact absurd hmshr MshrId.noConfusion
    | exact absurd hcacheable Bool.false_ne_true

/-- An entry that waits for an upgrade after a cycle waited before, or its request finds the copy in
S3. -/
structure UpgradingBefore (s s' : State) (t : ThreadId) : Prop where
  stVal : s.mshr.stVal t = true
  address : s'.mshr.stAddress t = s.mshr.stAddress t
  kept : s.mshrS3Write.deallocates .st t = false
  cases : (s.upgrading t ∧ s'.mshr.stWay t = s.mshr.stWay t) ∨
    (s.valS3 = true ∧
      s.s3.ops.s3MshrOperation = .deallocationIfTagcheckMEElseUpdateStateStmshr ∧
      s.s3.threadid = t ∧ s.s3.address = s.mshr.stAddress t ∧ s.s3Result.tagcheckState = .S ∧
      s'.mshr.stWay t = s.s3Result.tagcheckWay)

theorem Inv.upgradingBefore (h : Inv y) (hu : (y.1.step i).upgrading t) :
    UpgradingBefore y.1 (y.1.step i) t := by
  obtain ⟨hsettled, hstate⟩ := hu
  obtain ⟨hval, hr2, hnf, -⟩ := h.stSettled_cases hsettled
  refine ⟨hval, (h.stEntry_kept i hval).2, by rw [deallocates_eq]; exact hnf, ?_⟩
  cases hr3 : y.1.reqS3 .st t with
  | false =>
    rcases h.stState_step i hr3 with ⟨hs, hw⟩ | ⟨-, him⟩
    · exact .inl ⟨⟨⟨hval, hr2, hr3⟩, by rw [← hs, hstate]⟩, hw⟩
    · rw [hstate] at him
      cases him
  | true =>
    rcases h.stState_of_reqS3 i hr3 hnf with ⟨-, hwait⟩ | ⟨hnc, hme, hs, hw⟩
    · rw [hstate] at hwait
      cases hwait
    · obtain ⟨hv, hop, haddr⟩ := h.storeOp_of_reqS3 hr3 hnc
      have ht : y.1.s3.threadid = t := by
        unfold State.reqS3 Instr.requests at hr3
        simp only [Bool.and_eq_true, decide_eq_true_eq] at hr3
        exact hr3.2.2
      refine .inr ⟨hv, hop, ht, haddr, ?_, hw⟩
      rw [hstate] at hs
      cases hr : y.1.s3Result.tagcheckState <;> rw [hr] at hme hs <;>
        first
        | rfl
        | exact absurd hme.symm Bool.false_ne_true
        | exact absurd hs TransState.noConfusion

/-! ### The invariant -/

/-- The states write that S3 has requested leaves the copy of the entry alone, or S3 invalidates the
line or completes the upgrade. -/
def State.copyQuiet (s : State) (t : ThreadId) : Prop :=
  s.mesi.writes (cacheIndex (s.mshr.stAddress t)) (s.mshr.stWay t) = true →
    (s.valS3 = true ∧ s.s3.reqtype = .invalidation ∧
        lineAddress (s.mshr.stAddress t) = lineAddress s.s3.address) ∨
      s.ackS3 .st t = true

/-- The invariant of upgrades. -/
structure UpgradeInv (s : State) : Prop where
  tags : TagsRead s
  copy : ∀ t, s.upgrading t →
    HoldsCopy s (s.mshr.stAddress t) (s.mshr.stWay t) ∧ s.copyQuiet t
  found : s.valS3 = true →
    s.s3.ops.s3MshrOperation = .deallocationIfTagcheckMEElseUpdateStateStmshr →
      s.s3Result.tagcheckState = .S →
        HoldsCopy s s.s3.address s.s3Result.tagcheckWay ∧ s.mesi.writeValidF = false
  apart : s.valS2 = true → s.s2.ops.mesiWriteOp = .invalidateTagcheckWayIfMes →
    s.s2.reqtype ≠ .invalidation →
      ∀ t, s.mshr.stVal t = true → lineAddress (s.mshr.stAddress t) ≠ lineAddress s.s2.address
  fillApart : s.valS2 = true → s.s2.fills = true → ∀ t, ¬ s.upgrades t s.indexS2 s.lruWayS2
  completion : s.valS2 = true → s.s2.reqtype = .ackdtStSm →
    s.upgrading s.s2.threadid ∧ s.s2.address = s.mshr.stAddress s.s2.threadid ∧
      s.s2.mshrid = .st ∧ s.s2.noc2AckState = .M
  passApart : s.fetchState = .pcxWritebackDone → s.predecodePcx.reqtype = .writethrough →
    ∀ t, s.tagcheckMatchedSt t = false
  distinct : ∀ t u, t ≠ u → s.mshr.stVal t = true → s.mshr.stVal u = true →
    (s.mshr.stControl t).nc = false →
      lineAddress (s.mshr.stAddress t) ≠ lineAddress (s.mshr.stAddress u)

theorem upgradeInv_of_isReset (hs : s.IsReset) : UpgradeInv s := by
  have hval : ∀ t, s.mshr.stVal t = true → False := fun t hv => by
    rw [show s.mshr.stVal t = false from hs.mshrVal .st t] at hv
    exact absurd hv Bool.false_ne_true
  have h2 : s.valS2 = true → False := fun hv => by
    rw [hs.valS2] at hv
    exact absurd hv Bool.false_ne_true
  have h3 : s.valS3 = true → False := fun hv => by
    rw [hs.valS3] at hv
    exact absurd hv Bool.false_ne_true
  exact ⟨tagsRead_of_isReset hs, fun t hu => (hval t hu.1.1).elim, fun hv => (h3 hv).elim,
    fun hv => (h2 hv).elim, fun hv => (h2 hv).elim, fun hv => (h2 hv).elim,
    fun hf => by rw [hs.fetchState] at hf; exact absurd hf FetchState.noConfusion,
    fun t u _ hv => (hval t hv).elim⟩

/-! ### Steps -/

/-- The second pass of a fill does not issue for the set of a request in S3. -/
theorem Stages.tagWritten_apart (hs : Stages y.1) (h : Inv y) (hv3 : y.1.valS3 = true)
    (w : Way) : y.1.tagWritten i y.1.indexS3 w = false := by
  by_contra ht
  obtain ⟨hv, hevicts, -, hk, -⟩ := hs.of_tagWritten h (by simpa using ht)
  have hrow := (h.decodesS2 hv).evictionRow (of_decide_eq_true hevicts)
  exact hs.apart hv hv3 hrow.waits hk

/-- Behind a store in S3, no instruction of its set is in S2 that writes the states. -/
theorem Stages.stateWrite_apart (hs : Stages y.1) (h : Inv y) (hv2 : y.1.valS2 = true)
    (hv3 : y.1.valS3 = true)
    (hop : y.1.s3.ops.s3MshrOperation = .deallocationIfTagcheckMEElseUpdateStateStmshr)
    (hw : y.1.s2.ops.mesiWriteOp ≠ .none) : y.1.indexS2 ≠ y.1.indexS3 := by
  have hrow := (h.decodesS3 hv3).upgradeRequestRow hop
  cases hwait : y.1.s2.waitsForSet with
  | true => exact hs.apart hv2 hv3 hwait
  | false =>
    rcases (h.decodesS2 hv2).apartRow hwait with ⟨-, hn, -⟩ | hf | hf
    · exact absurd hn hw
    · have hevicts := (hs.fillFollows hv2 (decide_eq_true hf)).2.1
      exact absurd (of_decide_eq_true hevicts) hrow.noEviction
    · have hrt := (hs.flushFollows hv2 (decide_eq_true hf)).2.1
      rw [hrow.reqtype] at hrt
      cases hrt

/-- Copies survive what S1 and S3 do in a cycle. -/
theorem holdsCopy_step {a : Paddr} {w : Way} (hc : HoldsCopy s a w) (hno : s.NoSwap i)
    (ht : s.tagWritten i (cacheIndex a) w = false)
    (hw : s.mesi.writes (cacheIndex a) w = false) : HoldsCopy (s.step i) a w := by
  refine ⟨?_, ?_⟩
  · rw [ptags_step hno, ht]
    exact hc.tag
  · rw [regfile_step, hw]
    exact hc.state

/-- An entry whose line S3 invalidates is demoted. -/
theorem UpgradeInv.demoted (hu : UpgradeInv y.1) (h : Inv y) (hup : y.1.upgrading t)
    (hv : y.1.valS3 = true) (hrt : y.1.s3.reqtype = .invalidation)
    (ha : lineAddress (y.1.mshr.stAddress t) = lineAddress y.1.s3.address) :
    (y.1.step i).mshr.stState t = .IM := by
  have hdec := h.decodesS3 hv
  rw [hrt] at hdec
  have hop := hdec.invalidationRow.1
  have hmatch : y.1.stbufCompareMatch t = true := by
    unfold State.stbufCompareMatch
    simp [hup.1.1, hup.2, ha]
  have honly : y.1.stbufCompareThreadid = t := by
    by_contra hne
    have hval : y.1.stbufCompareMatchVal = true := by
      unfold State.stbufCompareMatchVal
      rcases (by decide : ∀ t : ThreadId, t = 0 ∨ t = 1) t with rfl | rfl <;> simp [hmatch]
    have hother := stbufCompareMatch_threadid hval
    unfold State.stbufCompareMatch at hother
    simp only [Bool.and_eq_true, decide_eq_true_eq] at hother
    exact hu.distinct t _ (Ne.symm hne) hup.1.1 hother.1.1 (h.nc_of_upgrading hup)
      (ha.trans hother.2.symm)
  have hwrite : y.1.mshrS3Write.updates t = true ∧ y.1.mshrS3Write.updateState = .IM := by
    have hval : y.1.stbufCompareMatchVal = true := by
      unfold State.stbufCompareMatchVal
      rcases (by decide : ∀ t : ThreadId, t = 0 ∨ t = 1) t with rfl | rfl <;> simp [hmatch]
    unfold MshrS3Write.updates State.mshrS3Write
    simp [hop, hv, hval, honly]
  show (if y.1.mshrS3Write.updates t then y.1.mshrS3Write.updateState else _) = _
  rw [hwrite.1, if_pos rfl, hwrite.2]

/-- The copy of an entry that waits after a cycle. -/
theorem UpgradeInv.step_holds (hu : UpgradeInv y.1) (h : Inv y) (hs : Stages y.1)
    (hok : CopiesKept y.1 i) (hup : (y.1.step i).upgrading t) :
    HoldsCopy (y.1.step i) ((y.1.step i).mshr.stAddress t) ((y.1.step i).mshr.stWay t) := by
  have hb := h.upgradingBefore hup
  rw [hb.address]
  rcases hb.cases with ⟨hold, hway⟩ | ⟨hv, hop, ht, haddr, hstate, hway⟩
  · obtain ⟨hcopy, hquiet⟩ := hu.copy t hold
    rw [hway]
    refine holdsCopy_step hcopy hok.swap ?_ ?_
    · by_contra hwritten
      rw [Bool.not_eq_false] at hwritten
      unfold State.tagWritten at hwritten
      simp only [Bool.and_eq_true, decide_eq_true_eq] at hwritten
      obtain ⟨⟨⟨hi, hf⟩, hk⟩, hw⟩ := hwritten
      exact hok.fill hi hf t ⟨hold, hk.symm, hw.symm⟩
    · by_contra hwrites
      rcases hquiet (by simpa using hwrites) with ⟨hv, hrt, ha⟩ | hack
      · have him := hu.demoted (i := i) h hold hv hrt ha
        rw [hup.2] at him
        cases him
      · have hd := hb.kept
        rw [deallocates_eq] at hd
        unfold State.ackS3 Instr.completes at hack
        simp only [Bool.and_eq_true, decide_eq_true_eq] at hack
        obtain ⟨⟨hv, ⟨hop, hid⟩, ht⟩, -⟩ := hack
        simp [hv, hop, hid, ht] at hd
  · obtain ⟨hcopy, hquiet⟩ := hu.found hv hop hstate
    rw [hway, ← haddr]
    refine holdsCopy_step hcopy hok.swap (hs.tagWritten_apart h hv _) ?_
    unfold RfMesi.writes
    rw [hquiet]
    rfl

/-- The encoder is in its first cycle for an instruction that enters S3. -/
theorem cpxencoder_of_moves (hst : s.stallS3 i = false) : (s.step i).cpxencoder = .normal := by
  cases hc : (s.step i).cpxencoder with
  | normal => rfl
  | secondhalf =>
    have hv := (s3_of_secondhalf hc).1
    unfold State.stallS3 at hst
    rw [hv, stallForCpx_of_secondhalf hc] at hst
    cases hst

/-- What S2 writes to the copy of an entry that waits. -/
theorem UpgradeInv.stateWrite (hu : UpgradeInv y.1) (h : Inv y) (hs : Stages y.1)
    (hok : CopiesKept y.1 i) (hup : y.1.upgrading t) (hv : y.1.valS2 = true)
    (hctl : y.1.mesiWriteControl.1 = true)
    (hk : y.1.indexS2 = cacheIndex (y.1.mshr.stAddress t))
    (hw : y.1.mesiWriteControl.2.1 = y.1.mshr.stWay t) :
    (y.1.s2.reqtype = .invalidation ∧
        lineAddress (y.1.mshr.stAddress t) = lineAddress y.1.s2.address) ∨
      (y.1.s2.reqtype = .ackdtStSm ∧ y.1.s2.threadid = t) := by
  have hdec := h.decodesS2 hv
  obtain ⟨hsm, hfill, hcheck, hpcx⟩ := hdec.stateWriteRow
  have hcopy := (hu.copy t hup).1
  -- a tag check that finds the way of the copy finds its line, in S
  have hfound : y.1.s2.ops.dtagOperation = .read → y.1.s2.ops.mesiReadOp = .read →
      y.1.tagcheckStateS2 ≠ .I → y.1.tagcheckWayS2 = y.1.mshr.stWay t →
        lineAddress (y.1.mshr.stAddress t) = lineAddress y.1.s2.address ∧
          y.1.tagcheckStateS2 = .S := by
    intro htag hstate hne hway
    obtain ⟨hcache, hreg⟩ := hs.of_tagcheck hu.tags hv htag hstate hne
    rw [hk, hway] at hcache hreg
    exact ⟨lineAddress_eq (hcopy.tag.symm.trans hcache) hk.symm, hreg.symm.trans hcopy.state⟩
  unfold State.mesiWriteControl at hctl hw
  cases hop : y.1.s2.ops.mesiWriteOp with
  | none =>
    rw [hop] at hctl
    exact absurd hctl Bool.false_ne_true
  | writeTagcheckWaySIfMe =>
    rw [hop] at hctl hw
    obtain ⟨-, htag, hstate⟩ := hcheck (.inr (.inl hop))
    have hne : y.1.tagcheckStateS2 ≠ .I := by
      intro hi
      rw [hi] at hctl
      exact absurd hctl Bool.false_ne_true
    rw [(hfound htag hstate hne hw).2] at hctl
    exact absurd hctl Bool.false_ne_true
  | writeTagcheckWayMIfE =>
    rw [hop] at hctl hw
    obtain ⟨-, htag, hstate⟩ := hcheck (.inr (.inr hop))
    have he : y.1.tagcheckStateS2 = .E := of_decide_eq_true hctl
    have hs := (hfound htag hstate (by rw [he]; decide) hw).2
    rw [he] at hs
    cases hs
  | invalidateTagcheckWayIfMes =>
    rw [hop] at hctl hw
    obtain ⟨-, htag, hstate⟩ := hcheck (.inl hop)
    have hne : y.1.tagcheckStateS2 ≠ .I := by
      intro hi
      rw [hi] at hctl
      exact absurd hctl Bool.false_ne_true
    have hline := (hfound htag hstate hne hw).1
    by_cases hrt : y.1.s2.reqtype = .invalidation
    · exact .inl ⟨hrt, hline⟩
    · exact absurd hline (hu.apart hv hop hrt t hup.1.1)
  | writeLruWayAckState =>
    rw [hop] at hw
    exact absurd ⟨hup, hk.symm, hw.symm⟩
      (hu.fillApart hv (decide_eq_true (hfill hop)) t)
  | writeMshrWayAckState =>
    rw [hop] at hw
    by_cases ht : y.1.s2.threadid = t
    · exact .inr ⟨hsm hop, ht⟩
    · exact absurd ⟨hup, hk.symm, hw.symm⟩ (hok.upgrade hv (hsm hop) t (Ne.symm ht))
  | invalidateFlushWayIfMes =>
    rw [hop] at hw
    exact absurd ⟨hup, hk.symm, hw.symm⟩ (hok.flush hv (decide_eq_true hop) t)

theorem UpgradeInv.step_quiet (hu : UpgradeInv y.1) (h : Inv y) (hs : Stages y.1)
    (hok : CopiesKept y.1 i) (hup : (y.1.step i).upgrading t) : (y.1.step i).copyQuiet t := by
  intro hw
  have hb := h.upgradingBefore hup
  rw [hb.address] at hw ⊢
  obtain ⟨-, hv, hst, hop, hctl, hk, hway, -⟩ := writes_step y.1 i hw
  obtain ⟨hv3, hs3, -⟩ := s3_of_moves hst hv
  rw [hs3]
  rcases hb.cases with ⟨hold, hkept⟩ | ⟨hv3', hop3, -, haddr, -⟩
  · rw [hkept] at hway
    rcases hu.stateWrite h hs hok hold hv hctl hk hway with hinval | ⟨hrt, ht⟩
    · exact .inl ⟨hv3, hinval⟩
    · right
      obtain ⟨-, -, hid, -⟩ := hu.completion hv hrt
      have hdec := h.decodesS2 hv
      rw [hrt] at hdec
      have hnormal : (y.1.step i).cpxencoder = .normal := by
        refine cpxencoder_of_moves ?_
        rwa [State.stallS2_eq, hv, Bool.true_and] at hst
      unfold State.ackS3 Instr.completes
      rw [hs3, hv3, hnormal]
      simp [hdec.upgradeRow.completes, hid, ht]
  · refine absurd ?_ (hs.stateWrite_apart h hv hv3' hop3 hop)
    rw [hk]
    unfold State.indexS3
    rw [haddr]

theorem UpgradeInv.step_found (hu : UpgradeInv y.1) (h : Inv y) (hs : Stages y.1)
    (hok : CopiesKept y.1 i) (hv3 : (y.1.step i).valS3 = true)
    (hop : (y.1.step i).s3.ops.s3MshrOperation = .deallocationIfTagcheckMEElseUpdateStateStmshr)
    (hstate : (y.1.step i).s3Result.tagcheckState = .S) :
    HoldsCopy (y.1.step i) (y.1.step i).s3.address (y.1.step i).s3Result.tagcheckWay ∧
      (y.1.step i).mesi.writeValidF = false := by
  rcases State.s3_cases hv3 with ⟨hst, hv, hs3, -⟩ | ⟨-, hv, hs3, hres⟩
  · rw [hs3] at hop
    have he : y.1.s3.ops.noc1Operation.expects = true := by
      rw [(h.decodesS3 hv).s3MshrRow.2.1.1 hop]
      rfl
    rw [h.stallS3_of_expects hv he] at hst
    exact absurd hst Bool.false_ne_true
  · rw [hs3] at hop ⊢
    rw [hres] at hstate ⊢
    change y.1.tagcheckStateS2 = .S at hstate
    have hrow := (h.decodesS2 hv).upgradeRequestRow hop
    obtain ⟨htag, hreg⟩ := hs.of_tagcheck hu.tags hv hrow.tagRead hrow.stateRead
      (by rw [hstate]; decide)
    constructor
    · refine holdsCopy_step ⟨htag, hreg.trans hstate⟩ hok.swap ?_ ?_
      · by_contra ht
        obtain ⟨-, hevicts, -⟩ := hs.of_tagWritten (i := i) h (by simpa using ht)
        exact hrow.noEviction (of_decide_eq_true hevicts)
      · by_contra hw
        rw [Bool.not_eq_false] at hw
        unfold RfMesi.writes at hw
        simp only [Bool.and_eq_true, decide_eq_true_eq] at hw
        obtain ⟨hv3', hindex⟩ := hs.stateWrite hw.1.1
        exact hs.apart hv hv3' hrow.waits (hw.1.2.symm.trans hindex)
    · show (y.1.mesiWriteControl.1 && y.1.valS2 && !y.1.stallS2 i) = false
      unfold State.mesiWriteControl
      simp [hrow.stateWrite, hstate]

theorem Inv.stVal_of_notIssues (h : Inv y) (hi : y.1.s1Issues i = false)
    (hv : (y.1.step i).mshr.stVal t = true) :
    y.1.mshr.stVal t = true ∧ (y.1.step i).mshr.stAddress t = y.1.mshr.stAddress t := by
  rcases stVal_cases hv with ha | ⟨-, hval, -⟩
  · rw [h.allocates_eq, hi] at ha
    exact absurd ha Bool.false_ne_true
  · exact ⟨hval, (h.stEntry_kept i hval).2⟩

/-- S1 issues a request that waits for matching entries: there is none for its line. -/
theorem tagcheckMatchedSt_of_issues (hi : s.s1Issues i = true)
    (hw : s.decode.stallOnMatchedMshr = true) (t : ThreadId) : s.tagcheckMatchedSt t = false := by
  have hmatch := (State.issues_iff.1 hi).2.1
  unfold State.stallTagMatch at hmatch
  rw [hw, Bool.and_true] at hmatch
  unfold State.tagcheckMatched at hmatch
  simp only [Bool.or_eq_false_iff] at hmatch
  rcases (by decide : ∀ t : ThreadId, t = 0 ∨ t = 1) t with rfl | rfl
  · exact hmatch.1.2
  · exact hmatch.2

theorem lineAddress_ne_of_not_matched (hno : s.tagcheckMatchedSt t = false)
    (hv : s.mshr.stVal t = true) :
    lineAddress (s.mshr.stAddress t) ≠ lineAddress s.pcx.address := by
  intro ha
  unfold State.tagcheckMatchedSt at hno
  simp [hv, ha] at hno

theorem UpgradeInv.step_apart (hu : UpgradeInv y.1) (h : Inv y)
    (hv2 : (y.1.step i).valS2 = true)
    (hop : (y.1.step i).s2.ops.mesiWriteOp = .invalidateTagcheckWayIfMes)
    (hrt : (y.1.step i).s2.reqtype ≠ .invalidation)
    (hval : (y.1.step i).mshr.stVal t = true) :
    lineAddress ((y.1.step i).mshr.stAddress t) ≠ lineAddress (y.1.step i).s2.address := by
  rcases State.s2_cases hv2 with ⟨hst, hv, hs2⟩ | ⟨-, hi, hs2⟩
  · rw [hs2] at hop hrt ⊢
    obtain ⟨hval', haddr⟩ := h.stVal_of_notIssues (State.s1Issues_of_stallS2 hst) hval
    rw [haddr]
    exact hu.apart hv hop hrt t hval'
  · rw [hs2] at hop hrt ⊢
    obtain ⟨hwait, hpcx, hno⟩ := y.1.decodes_s1.stateWriteRow.2.2.2 hop hrt
    have hsource : y.1.predecodeSource = .pcx := by
      rcases source_cases hi with ⟨hsource, -⟩ | ⟨hsource, -⟩
      · have hfrom := h.noc2_fromPcx hsource
        change y.1.predecode.reqtype.fromPcx = true at hpcx
        rw [hfrom] at hpcx
        exact absurd hpcx Bool.false_ne_true
      · exact hsource
    have hpre : y.1.s1Instr.address = y.1.pcx.address := by
      show y.1.predecode.address = _
      rw [State.predecode_pcx hsource]
      rfl
    rw [hpre]
    rcases stVal_cases hval with ha | ⟨-, hold, -⟩
    · rw [h.allocates_eq] at ha
      unfold Instr.requests at ha
      rw [hno] at ha
      simp at ha
    · rw [(h.stEntry_kept i hold).2]
      exact lineAddress_ne_of_not_matched (tagcheckMatchedSt_of_issues hi hwait t) hold

theorem UpgradeInv.step_fillApart (hu : UpgradeInv y.1) (h : Inv y) (hs : Stages y.1)
    (hok : CopiesKept y.1 i) (hs' : Stages (y.1.step i)) (hv2 : (y.1.step i).valS2 = true)
    (hf : (y.1.step i).s2.fills = true) (t : ThreadId) :
    ¬ (y.1.step i).upgrades t (y.1.step i).indexS2 (y.1.step i).lruWayS2 := by
  rintro ⟨hup, hk, hw⟩
  have hb := h.upgradingBefore hup
  have hlru := (hs'.fillFollows hv2 hf).2.2.2
  rw [hb.address] at hk
  rcases State.s2_cases hv2 with ⟨hst, hv, hs2⟩ | ⟨-, hi, hs2⟩
  · rw [hs2] at hf
    obtain ⟨hv3, hevicts, -, hway⟩ := hs.fillFollows hv hf
    rcases hb.cases with ⟨hold, hkept⟩ | ⟨-, hop, -⟩
    · have hindex : (y.1.step i).indexS2 = y.1.indexS2 := by
        unfold State.indexS2
        rw [hs2]
      rw [hindex] at hk
      rw [(s3_of_stallS2 hst).2.2] at hlru
      exact hu.fillApart hv hf t ⟨hold, hk, by rw [← hkept, hw, ← hlru, hway]⟩
    · exact absurd (of_decide_eq_true hevicts)
        ((h.decodesS3 hv3).upgradeRequestRow hop).noEviction
  · rw [hs2] at hf
    obtain ⟨hfs, hsource⟩ := h.fetchState_of_fills hi hf
    obtain ⟨hv, hevicts, haddr⟩ := hs.fillWaits hfs
    obtain ⟨-, -, hres⟩ := s3_of_moves (State.stallS2_of_issues hi) hv
    rw [hres] at hlru
    have hindex : (y.1.step i).indexS2 = y.1.indexS1 := by
      unfold State.indexS2
      rw [hs2]
      rfl
    rw [hindex] at hk
    rcases hb.cases with ⟨hold, hkept⟩ | ⟨hv3, -, -, ha, -⟩
    · exact hok.fill hi hf t ⟨hold, hk, by rw [← hkept, hw, ← hlru]; rfl⟩
    · have hrow := (h.decodesS2 hv).evictionRow (of_decide_eq_true hevicts)
      refine hs.apart hv hv3 hrow.waits ?_
      unfold State.indexS3
      rw [ha, hk]
      unfold State.indexS2 State.indexS1
      rw [haddr, State.predecode_noc2 hsource]

/-- An upgrade stays one while S3 is in another set. -/
theorem Inv.stState_kept (h : Inv y) (hup : y.1.upgrading t)
    (hne : y.1.valS3 = true → y.1.indexS3 ≠ cacheIndex (y.1.mshr.stAddress t)) :
    (y.1.step i).mshr.stState t = .SM := by
  have hno : y.1.mshrS3Write.updates t = false := by
    by_contra hupd
    obtain ⟨hv, ⟨hop, -, ht, -⟩ | ⟨hop, ht, -⟩ | ⟨-, -, hmatch⟩⟩ :=
      updates_cases (by simpa using hupd)
    · have hr3 := h.reqS3_of_op hv (.inl hop) ht
      rw [hup.1.2.2] at hr3
      exact absurd hr3 Bool.false_ne_true
    · have hr3 := h.reqS3_of_op hv (.inr hop) ht
      rw [hup.1.2.2] at hr3
      exact absurd hr3 Bool.false_ne_true
    · unfold State.stbufCompareMatch at hmatch
      simp only [Bool.and_eq_true, decide_eq_true_eq] at hmatch
      exact hne hv (cacheIndex_of_lineAddress hmatch.2).symm
  show (if y.1.mshrS3Write.updates t then _ else _) = _
  rw [hno]
  exact hup.2

/-- An entry whose completion is in S2 is settled. -/
theorem Inv.stSettled_of_ackS2 (h : Inv y) (ha : y.1.ackS2 .st t = true) : y.1.stSettled t := by
  have htok := h.tokens .st t
  have hle := Bool.toNat_le (y.1.mshr.val .st t)
  unfold State.tokens at htok
  rw [ha, Bool.toNat_true] at htok
  exact ⟨h.val_of_ackS2 ha, Bool.toNat_eq_zero.1 (by omega), Bool.toNat_eq_zero.1 (by omega)⟩

/-- What is answered as an upgrade is a cacheable store that is not in IM. -/
theorem answerReqtype_upgrade {m : Mshr} {id : MshrId} (h : answerReqtype m id t = .ackdtStSm) :
    id = .st ∧ (m.stControl t).nc = false ∧ m.stState t ≠ .IM := by
  cases id with
  | none | ifill => cases h
  | ld =>
    unfold answerReqtype at h
    revert h
    cases (m.ldControl t).nc <;> cases (m.ldControl t).load <;> exact Reqtype.noConfusion
  | st =>
    unfold answerReqtype at h
    cases hnc : (m.stControl t).nc with
    | true =>
      rw [hnc, if_pos rfl] at h
      cases h
    | false =>
      refine ⟨rfl, rfl, fun him => ?_⟩
      simp [hnc, him] at h

/-- An answer that is decoded as the completion of an upgrade waits for an upgrading entry, and
grants M. -/
theorem Inv.upgrading_of_answer (h : Inv y) (hwait : y.1.answerWaits .st t = true)
    (hanswer : answerReqtype y.1.mshr .st t = .ackdtStSm) :
    y.1.upgrading t ∧ y.1.noc2.ackState = .M := by
  obtain ⟨-, hnc, hnim⟩ := answerReqtype_upgrade hanswer
  obtain ⟨hval, hr2, hr3, -⟩ := h.of_answerWaits hwait
  obtain ⟨-, -, -, hk⟩ := answerWaits_message hwait
  obtain ⟨hkind, hgrant⟩ := h.answer _ hwait
  have hsettled : y.1.stSettled t := ⟨hval, hr2, hr3⟩
  refine ⟨⟨hsettled, ((h.settled _ hsettled).2 hnc).resolve_left hnim⟩, hgrant ?_⟩
  rcases hk with ⟨hk, -⟩ | ⟨hk, -⟩
  · exact hk
  · rw [hkind.1 hk] at hnc
    cases hnc

theorem UpgradeInv.step_completion (hu : UpgradeInv y.1) (h : Inv y) (hs : Stages y.1)
    (h' : Inv (system.step y i)) (hv2 : (y.1.step i).valS2 = true)
    (hrt : (y.1.step i).s2.reqtype = .ackdtStSm) :
    (y.1.step i).upgrading (y.1.step i).s2.threadid ∧
      (y.1.step i).s2.address = (y.1.step i).mshr.stAddress (y.1.step i).s2.threadid ∧
      (y.1.step i).s2.mshrid = .st ∧ (y.1.step i).s2.noc2AckState = .M := by
  have hdec := h'.decodesS2 hv2
  change Decodes (y.1.step i).s2.reqtype (y.1.step i).s2.ops at hdec
  rw [hrt] at hdec
  have hrow := hdec.upgradeRow
  have hack : (y.1.step i).s2.mshrid = .st →
      (y.1.step i).ackS2 .st (y.1.step i).s2.threadid = true := by
    intro hid
    unfold State.ackS2 Instr.completes
    simp [hv2, hrow.completes, hid]
  rcases State.s2_cases hv2 with ⟨hst, hv, hs2⟩ | ⟨-, hi, hs2⟩
  · rw [hs2] at hrt hrow hack ⊢
    obtain ⟨hup, haddr, hid, hstate⟩ := hu.completion hv hrt
    refine ⟨⟨h'.stSettled_of_ackS2 (hack hid), h.stState_kept hup fun hv3 => ?_⟩,
      ?_, hid, hstate⟩
    · rw [← haddr]
      exact Ne.symm (hs.apart hv hv3 hrow.waits)
    · rw [(h.stEntry_kept i hup.1.1).2, haddr]
  · rw [hs2] at hrt hrow hack ⊢
    have hc : y.1.s1Instr.completes y.1.s1Instr.mshrid y.1.s1Instr.threadid = true := by
      unfold Instr.completes
      simp [hrow.completes]
    have hwait := (h.answerWaits_of_completes hi hc).1
    have hsource := source_of_completes hi hrow.completes
    have hanswer : answerReqtype y.1.mshr y.1.s1Instr.mshrid y.1.s1Instr.threadid = .ackdtStSm := by
      rw [← h.answer_reqtype hwait, ← State.predecode_noc2 hsource]
      exact hrt
    obtain ⟨hst, -, -⟩ := answerReqtype_upgrade hanswer
    rw [hst] at hanswer hwait
    obtain ⟨hup, hgrant⟩ := h.upgrading_of_answer hwait hanswer
    have haddr : y.1.s1Instr.address = y.1.mshr.stAddress y.1.s1Instr.threadid :=
      answer_address hsource hwait
    refine ⟨⟨h'.stSettled_of_ackS2 (hack hst), h.stState_kept hup fun hv3 => ?_⟩,
      ?_, hst, hgrant⟩
    · rw [← haddr]
      exact Ne.symm ((index_of_issues hi hrow.waits).2 hv3)
    · rw [(h.stEntry_kept i hup.1.1).2, haddr]

/-- The first pass of a write-through waits for matching entries and allocates none; the second one
allocates. -/
theorem writethroughPasses {fs : FetchState} {b c e : Bool} :
    ((decoder .writethrough .normal false b c e).stallOnMatchedMshr = true ∧
      (decoder .writethrough .normal false b c e).noc1Operation.expects = false) ∧
    (∀ a, (decoder .writethrough fs a b c e).s1MshrOperation = .allocate → fs ≠ .normal) := by
  revert fs b c e
  decide +kernel

theorem UpgradeInv.step_passApart (hu : UpgradeInv y.1) (h : Inv y)
    (hfs : (y.1.step i).fetchState = .pcxWritebackDone)
    (hrt : (y.1.step i).predecodePcx.reqtype = .writethrough) (t : ThreadId) :
    (y.1.step i).tagcheckMatchedSt t = false := by
  obtain ⟨hpre, -, hpcx⟩ := h.predecodePcx_kept hfs
  rw [hpre] at hrt
  by_contra hmatch
  rw [Bool.not_eq_false] at hmatch
  unfold State.tagcheckMatchedSt at hmatch
  simp only [Bool.and_eq_true, decide_eq_true_eq] at hmatch
  obtain ⟨hval, ha⟩ := hmatch
  rw [hpcx] at ha
  have hno : y.1.tagcheckMatchedSt t = false ∧ (y.1.mshrS1Write i).allocates .st t = false := by
    rcases fetchState_pcx hfs with ⟨hwait, hi⟩ | ⟨hi, hn, hnext⟩
    · refine ⟨hu.passApart hwait hrt t, ?_⟩
      rw [h.allocates_eq, hi, Bool.false_and]
    · have hsource := h.source_of_firstPass hi hnext
      have hrt' : y.1.predecode.reqtype = .writethrough := by
        rw [State.predecode_pcx hsource, hrt]
      have hint : y.1.intVecDis = false := by
        rw [hrt'] at hnext
        unfold fetchStateNext at hnext
        cases hint : y.1.intVecDis with
        | false => rfl
        | true =>
          rw [hint] at hnext
          cases hnext
      have hd := decode_pcx hsource
      rw [hrt, hn, hint] at hd
      have hrow := (@writethroughPasses .normal y.1.hitStbuf y.1.predecodePcx.isLastInval
        y.1.predecodePcx.interruptBroadcast).1
      rw [← hd] at hrow
      refine ⟨tagcheckMatchedSt_of_issues hi hrow.1 t, ?_⟩
      rw [h.allocates_eq]
      unfold Instr.requests
      rw [show y.1.s1Instr.ops.noc1Operation.expects = false from hrow.2]
      simp
  rcases stVal_cases hval with halloc | ⟨-, hold, -⟩
  · rw [hno.2] at halloc
    exact absurd halloc Bool.false_ne_true
  · rw [(h.stEntry_kept i hold).2] at ha
    exact lineAddress_ne_of_not_matched hno.1 hold ha.symm

/-- No valid store entry has the line for which an entry is allocated. -/
theorem UpgradeInv.matched_of_allocates (hu : UpgradeInv y.1) (h : Inv y) {u : ThreadId}
    (ha : (y.1.mshrS1Write i).allocates .st u = true) (t : ThreadId) :
    y.1.tagcheckMatchedSt t = false := by
  rw [h.allocates_eq, Bool.and_eq_true] at ha
  obtain ⟨hi, hr⟩ := ha
  have hreq := h.issued_request hi hr
  have hop := hreq.allocate
  rw [decode_pcx hreq.source] at hop
  have hrt : y.1.s1Instr.reqtype = y.1.predecodePcx.reqtype := by
    show y.1.predecode.reqtype = _
    rw [State.predecode_pcx hreq.source]
  rcases (y.1.decodes_s1.dataRequestRow hreq.expects).st hreq.mshrId with ⟨hc, -⟩ | ⟨-, hwt⟩
  · have hmiss : y.1.hitStbuf = false := by
      have hid := hreq.mshrId
      change y.1.decode.noc1Operation.cacheable = true at hc
      rw [decode_pcx hreq.source] at hc hid
      exact storeAllocation hop hc hid
    unfold State.hitStbuf at hmiss
    rw [Bool.or_eq_false_iff] at hmiss
    rcases (by decide : ∀ t : ThreadId, t = 0 ∨ t = 1) t with rfl | rfl
    · exact hmiss.1
    · exact hmiss.2
  · rw [hrt] at hwt
    rw [hwt] at hop
    have hne := (@writethroughPasses y.1.fetchState y.1.hitStbuf y.1.predecodePcx.isLastInval
      y.1.predecodePcx.interruptBroadcast).2 _ hop
    have hfs : y.1.fetchState = .pcxWritebackDone := by
      rcases source_cases hi with ⟨hs, -⟩ | ⟨-, hfs⟩
      · rw [hreq.source] at hs
        cases hs
      · exact hfs.resolve_left hne
    exact hu.passApart hfs hwt t

theorem UpgradeInv.step_distinct (hu : UpgradeInv y.1) (h : Inv y) {u : ThreadId} (hne : t ≠ u)
    (hvt : (y.1.step i).mshr.stVal t = true) (hvu : (y.1.step i).mshr.stVal u = true)
    (hnc : ((y.1.step i).mshr.stControl t).nc = false) :
    lineAddress ((y.1.step i).mshr.stAddress t) ≠ lineAddress ((y.1.step i).mshr.stAddress u) := by
  -- an allocation finds the other entry with another line
  have halloc : ∀ t u, t ≠ u → (y.1.mshrS1Write i).allocates .st t = true →
      (y.1.step i).mshr.stVal u = true →
        lineAddress ((y.1.step i).mshr.stAddress u) ≠ lineAddress ((y.1.step i).mshr.stAddress t) := by
    intro t u hne ha hvu
    have ha' := ha
    rw [h.allocates_eq, Bool.and_eq_true] at ha'
    have hnew : (y.1.step i).mshr.stAddress t = y.1.pcx.address :=
      (h.mshr_allocated ha'.1 ha'.2).2 (by decide)
    rw [hnew]
    rcases stVal_cases hvu with hau | ⟨-, hold, -⟩
    · unfold MshrS1Write.allocates at ha hau
      simp only [Bool.and_eq_true, decide_eq_true_eq] at ha hau
      exact absurd (ha.2.symm.trans hau.2) hne
    · rw [(h.stEntry_kept i hold).2]
      exact lineAddress_ne_of_not_matched (hu.matched_of_allocates h ha u) hold
  rcases stVal_cases hvt with hat | ⟨-, holdt, -⟩
  · exact Ne.symm (halloc t u hne hat hvu)
  · rcases stVal_cases hvu with hau | ⟨-, holdu, -⟩
    · exact halloc u t (Ne.symm hne) hau hvt
    · obtain ⟨hct, hat⟩ := h.stEntry_kept i holdt
      rw [hct] at hnc
      rw [hat, (h.stEntry_kept i holdu).2]
      exact hu.distinct t u hne holdt holdu hnc

theorem UpgradeInv.step (hu : UpgradeInv y.1) (h : Inv y) (hs : Stages y.1)
    (hok : UpgradeOk y i) : UpgradeInv (y.1.step i) where
  tags := hu.tags.step hok.2.swap
  copy _ hup := ⟨hu.step_holds h hs hok.2 hup, hu.step_quiet h hs hok.2 hup⟩
  found := hu.step_found h hs hok.2
  apart hv2 hop hrt _ hval := hu.step_apart h hv2 hop hrt hval
  fillApart hv2 hf := hu.step_fillApart h hs hok.2 (hs.step h hok.1) hv2 hf
  completion := hu.step_completion h hs (h.step hok.1)
  passApart := hu.step_passApart h
  distinct _ _ hne hvt hvu hnc := hu.step_distinct h hne hvt hvu hnc

theorem reachable_upgradeInv (hy : system.Reachable UpgradeOk y) :
    Inv y ∧ Stages y.1 ∧ UpgradeInv y.1 := by
  induction hy with
  | init hinit =>
    exact ⟨init_inv hinit, stages_of_isReset hinit.1, upgradeInv_of_isReset hinit.1⟩
  | step _ hok ih => exact ⟨ih.1.step hok.1, ih.2.1.step ih.1 hok.1, ih.2.2.step ih.1 ih.2.1 hok⟩

/-! ### Every cycle -/

/-- In every run that keeps the copies, an upgrade names a copy of its line, and an invalidation of
the line demotes it. -/
theorem copiesNamed (hy : system.Reachable UpgradeOk y) (hok : UpgradeOk y i) (t : ThreadId) :
    CopyNamed y.1 i t := by
  obtain ⟨h, hs, hu⟩ := reachable_upgradeInv hy
  refine ⟨fun hup => (hu.copy t hup).1, fun hup hval hlost => ?_⟩
  have hu' : UpgradeInv (y.1.step i) := hu.step h hs hok
  have h' : Inv (system.step y i) := h.step hok.1
  obtain ⟨hctl, haddr⟩ := h.stEntry_kept i hup.1.1
  have hsettled : (y.1.step i).stSettled t := by
    have hreqs := h.reqs_step i .st t
    have hno : (y.1.s1Issues i && y.1.s1Instr.requests .st t) = false := by
      by_contra hne
      rw [Bool.not_eq_false, Bool.and_eq_true] at hne
      have hval' := hup.1.1
      rw [show y.1.mshr.stVal t = false from h.val_of_issues hne.1 hne.2] at hval'
      exact absurd hval' Bool.false_ne_true
    rw [hup.1.2.1, hno, Bool.toNat_false] at hreqs
    exact ⟨hval, Bool.toNat_eq_zero.1 (by omega), Bool.toNat_eq_zero.1 (by omega)⟩
  have hnc : ((y.1.step i).mshr.stControl t).nc = false := by
    rw [hctl]
    exact h.nc_of_upgrading hup
  refine ((h'.settled t hsettled).2 hnc).resolve_right fun hsm => hlost ?_
  have hcopy := (hu'.copy t ⟨hsettled, hsm⟩).1
  have hway : (y.1.step i).mshr.stWay t = y.1.mshr.stWay t := by
    rcases h.stState_step i hup.1.2.2 with ⟨-, hw⟩ | ⟨-, him⟩
    · exact hw
    · change (y.1.step i).mshr.stState t = .SM at hsm
      rw [hsm] at him
      cases him
  rwa [haddr, hway] at hcopy

/-! ### The way of an upgrade -/

/-- The set and the way that the last cacheable store of each thread found in S2. -/
abbrev FoundWays := ThreadId → SetIndex × Way

/-- A cacheable store of thread `t` leaves S2. -/
def State.checksStore (s : State) (i : Inputs) (t : ThreadId) : Bool :=
  s.valS2 && !s.stallS2 i &&
    s.s2.ops.s3MshrOperation = .deallocationIfTagcheckMEElseUpdateStateStmshr && s.s2.threadid = t

/-- A cacheable store that leaves S2 records the set and the way of its tag check. -/
def foundNext (g : FoundWays) (y : State × Traffic) (i : Inputs) : FoundWays :=
  fun t => if y.1.checksStore i t then (y.1.indexS2, y.1.tagcheckWayS2) else g t

/-- The L1.5, its traffic and the ways that stores found. -/
def foundSystem : Machine ((State × Traffic) × FoundWays) Inputs :=
  system.withHistory (fun _ => (0, 0)) foundNext

/-- The completion of an upgrade in S2 requests a write of the data of way `w` of set `k`, which the
data array performs, and of that way's state; the way still holds the line in S. It compares the
way-map table with that way and writes neither the table nor the replacement bits. -/
structure UpgradeOnPlace (s : State) (i : Inputs) (k : SetIndex) (w : Way) : Prop where
  data : (s.dcachePort i).ce = true ∧ (s.dcachePort i).rdwen = false ∧
    (s.dcachePort i).a = lineSlot k w
  written : s.udata.Serves (s.dcachePort i)
  state : s.mesiWrite i = { valid := true, index := k, way := w, state := .M }
  copy : cacheIndex s.s2.address = k ∧ HoldsCopy s s.s2.address w
  wmtCompare : (s.step i).wmtCompareWay = w
  noWmtWrite : (s.step i).wmtWrite.valid = false
  noLruWrite : (s.step i).lruWrite.valid = false

variable {g : FoundWays}

/-- What the stores found is what the entries name. -/
structure FoundInv (z : (State × Traffic) × FoundWays) : Prop where
  named : ∀ t, z.1.1.upgrading t →
    z.2 t = (cacheIndex (z.1.1.mshr.stAddress t), z.1.1.mshr.stWay t)
  inS3 : z.1.1.valS3 = true →
    z.1.1.s3.ops.s3MshrOperation = .deallocationIfTagcheckMEElseUpdateStateStmshr →
      z.2 z.1.1.s3.threadid = (z.1.1.indexS3, z.1.1.s3Result.tagcheckWay)

theorem Inv.reqS2_of_checksStore (h : Inv y) (hc : y.1.checksStore i t = true) :
    y.1.reqS2 .st t = true := by
  unfold State.checksStore at hc
  simp only [Bool.and_eq_true, decide_eq_true_eq] at hc
  obtain ⟨⟨⟨hv, -⟩, hop⟩, ht⟩ := hc
  have hn := (h.decodesS2 hv).s3MshrRow.2.1.1 hop
  have he : y.1.s2.ops.noc1Operation.expects = true := by
    rw [hn]
    rfl
  have hid := (h.requestS2 hv he).1
  rw [hn] at hid
  unfold State.reqS2 Instr.requests
  simp [hv, he, ht, hid, Noc1Op.mshrId]

theorem FoundInv.step (hf : FoundInv (y, g)) (h : Inv y) : FoundInv (foundSystem.step (y, g) i) where
  named t hup := by
    have hb := h.upgradingBefore hup
    show (if y.1.checksStore i t then _ else g t) = (cacheIndex ((y.1.step i).mshr.stAddress t), _)
    have hno : y.1.checksStore i t = false := by
      by_contra hc
      have hr2 := h.reqS2_of_checksStore (by simpa using hc)
      have hsettled := hup.1
      rw [(h.stSettled_cases hsettled).2.1] at hr2
      exact absurd hr2 Bool.false_ne_true
    rw [hno, if_neg Bool.false_ne_true, hb.address]
    rcases hb.cases with ⟨hold, hway⟩ | ⟨hv, hop, ht, haddr, -, hway⟩
    · show g t = (_, (y.1.step i).mshr.stWay t)
      rw [hway]
      exact hf.named t hold
    · have hs3 := hf.inS3 hv hop
      change g y.1.s3.threadid = (cacheIndex y.1.s3.address, _) at hs3
      rw [ht, haddr] at hs3
      show g t = (_, (y.1.step i).mshr.stWay t)
      rw [hway, hs3]
  inS3 hv3 hop := by
    change (y.1.step i).valS3 = true at hv3
    change (y.1.step i).s3.ops.s3MshrOperation = _ at hop
    show foundNext g y i (y.1.step i).s3.threadid =
      (cacheIndex (y.1.step i).s3.address, (y.1.step i).s3Result.tagcheckWay)
    rcases State.s3_cases hv3 with ⟨hst, hv, hs3, -⟩ | ⟨hst, hv, hs3, hres⟩
    · rw [hs3] at hop
      have he : y.1.s3.ops.noc1Operation.expects = true := by
        rw [(h.decodesS3 hv).s3MshrRow.2.1.1 hop]
        rfl
      rw [h.stallS3_of_expects hv he] at hst
      exact absurd hst Bool.false_ne_true
    · rw [hs3] at hop ⊢
      rw [hres]
      have hc : y.1.checksStore i y.1.s2.threadid = true := by
        unfold State.checksStore
        simp [hv, State.stallS2_eq, hst, hop]
      unfold foundNext
      rw [hc, if_pos rfl]
      rfl

/-- The runs of the L1.5 in which the copies are kept. -/
theorem reachable_foundInv {z : (State × Traffic) × FoundWays}
    (hz : foundSystem.Reachable (fun z i => UpgradeOk z.1 i) z) :
    Inv z.1 ∧ Stages z.1.1 ∧ UpgradeInv z.1.1 ∧ FoundInv z := by
  induction hz with
  | @init z hinit =>
    have hr := hinit.1.1
    have hi := init_inv hinit.1
    refine ⟨hi, stages_of_isReset hr, upgradeInv_of_isReset hr, fun t hup => ?_, fun hv => ?_⟩
    · have hval := hup.1.1
      rw [show z.1.1.mshr.stVal t = false from hr.mshrVal .st t] at hval
      exact absurd hval Bool.false_ne_true
    · rw [hr.valS3] at hv
      exact absurd hv Bool.false_ne_true
  | step _ hok ih =>
    obtain ⟨h, hs, hu, hf⟩ := ih
    exact ⟨h.step hok.1, hs.step h hok.1, hu.step h hs hok, hf.step h⟩

theorem mshrStWay_val (s : State) (t : ThreadId) :
    (s.mshrStWay t).val = (s.mshr.stWay t).val % 2 := by
  unfold State.mshrStWay
  show (s.mshr.stWay t).val % 2 % 4 = _
  omega

/-- The entry whose line the completing upgrade in S3 compares is its own. -/
theorem UpgradeInv.stbufWay_step (h : Inv y) (hs : Stages y.1) (hu : UpgradeInv y.1)
    (hu' : UpgradeInv (y.1.step i)) (h' : Inv (system.step y i)) (hv : y.1.valS2 = true)
    (hst : y.1.stallS2 i = false) (hrt : y.1.s2.reqtype = .ackdtStSm) :
    (y.1.step i).stbufWay = y.1.mshrStWay y.1.s2.threadid := by
  obtain ⟨hup, haddr, hid, -⟩ := hu.completion hv hrt
  have hdec := h.decodesS2 hv
  rw [hrt] at hdec
  have hrow := hdec.upgradeRow
  obtain ⟨hv3, hs3, -⟩ := s3_of_moves hst hv
  have hst3 : y.1.stallS3 i = false := by
    rwa [State.stallS2_eq, hv, Bool.true_and] at hst
  have hack : (y.1.step i).ackS3 .st y.1.s2.threadid = true := by
    unfold State.ackS3 Instr.completes
    rw [hs3, hv3, cpxencoder_of_moves hst3]
    simp [hrow.completes, hid]
  have hval : (y.1.step i).mshr.stVal y.1.s2.threadid = true := h'.val_of_ackS3 hack
  have hstate : (y.1.step i).mshr.stState y.1.s2.threadid = .SM := by
    refine h.stState_kept hup fun hv3 => ?_
    rw [← haddr]
    exact Ne.symm (hs.apart hv hv3 hrow.waits)
  obtain ⟨hctl, hkept⟩ := h.stEntry_kept i hup.1.1
  have hline : lineAddress ((y.1.step i).mshr.stAddress y.1.s2.threadid) =
      lineAddress (y.1.step i).s3.address := by
    rw [hkept, hs3, haddr]
  have hway : (y.1.step i).mshr.stWay y.1.s2.threadid = y.1.mshr.stWay y.1.s2.threadid := by
    rcases h.stState_step i hup.1.2.2 with ⟨-, hw⟩ | ⟨-, him⟩
    · exact hw
    · rw [hstate] at him
      cases him
  have hmatch : (y.1.step i).stbufCompareMatch y.1.s2.threadid = true := by
    unfold State.stbufCompareMatch
    simp [hval, hstate, hline]
  have hcompare : (y.1.step i).stbufCompareThreadid = y.1.s2.threadid := by
    by_contra hne
    have hany : (y.1.step i).stbufCompareMatchVal = true := by
      unfold State.stbufCompareMatchVal
      rcases (by decide : ∀ t : ThreadId, t = 0 ∨ t = 1) y.1.s2.threadid with ht | ht <;>
        rw [ht] at hmatch <;> simp [hmatch]
    have hother := stbufCompareMatch_threadid hany
    unfold State.stbufCompareMatch at hother
    simp only [Bool.and_eq_true, decide_eq_true_eq] at hother
    refine hu'.distinct _ _ (Ne.symm hne) hval hother.1.1 ?_ (hline.trans hother.2.symm)
    rw [hctl]
    exact h.nc_of_upgrading hup
  unfold State.stbufWay
  rw [hcompare]
  unfold State.mshrStWay
  rw [hway]

/-- In every run that keeps the copies, the completion of an upgrade is on the place that the store
found exactly if one bit can name the way and the tag check hits, or what the array moves in place of
the write leaves the same. -/
theorem upgradeOnPlace_iff (hz : foundSystem.Reachable (fun z i => UpgradeOk z.1 i) (y, g))
    (hok : UpgradeOk y i) (hv : y.1.valS2 = true) (hst : y.1.stallS2 i = false)
    (hrt : y.1.s2.reqtype = .ackdtStSm) :
    UpgradeOnPlace y.1 i (g y.1.s2.threadid).1 (g y.1.s2.threadid).2 ↔
      (g y.1.s2.threadid).2 < 2 ∧ y.1.udata.MoveSuffices (y.1.dcachePort i) := by
  obtain ⟨h, hs, hu, hf⟩ : Inv y ∧ Stages y.1 ∧ UpgradeInv y.1 ∧ FoundInv (y, g) :=
    reachable_foundInv hz
  have hu' : UpgradeInv (y.1.step i) := hu.step h hs hok
  obtain ⟨hup, haddr, -, hstate⟩ := hu.completion hv hrt
  have hnamed : g y.1.s2.threadid = (y.1.indexS2, y.1.mshr.stWay y.1.s2.threadid) := by
    have hn := hf.named _ hup
    change g y.1.s2.threadid = (cacheIndex (y.1.mshr.stAddress y.1.s2.threadid), _) at hn
    rw [hn, ← haddr]
    rfl
  have hdec := h.decodesS2 hv
  rw [hrt] at hdec
  have hrow := hdec.upgradeRow
  rw [hnamed]
  have hway := mshrStWay_val y.1 y.1.s2.threadid
  have hslot : (y.1.dcachePort i).a = lineSlot y.1.indexS2 (y.1.mshrStWay y.1.s2.threadid) := by
    show lineSlot y.1.dcacheIndex y.1.dcacheControl.2.2.1 = _
    unfold State.dcacheIndex State.dcacheControl
    rw [hrow.dcache, if_neg (by decide)]
    rfl
  have hce : (y.1.dcachePort i).ce = true := by
    show (y.1.dcacheControl.1 && y.1.valS2 && !y.1.stallS2 i) = true
    unfold State.dcacheControl
    simp [hrow.dcache, hv, hst]
  constructor
  · intro hplace
    have hsame := (lineSlot_inj.1 (hslot.symm.trans hplace.data.2.2)).2
    refine ⟨?_, (y.1.udata.serves_iff _ hce).1 hplace.written⟩
    show (y.1.mshr.stWay y.1.s2.threadid).val < 2
    rw [hsame] at hway
    change (y.1.mshr.stWay y.1.s2.threadid).val = _ at hway
    omega
  · rintro ⟨hlt, hmove⟩
    have hsame : y.1.mshrStWay y.1.s2.threadid = y.1.mshr.stWay y.1.s2.threadid := by
      apply Fin.ext
      rw [hway]
      change (y.1.mshr.stWay y.1.s2.threadid).val < 2 at hlt
      omega
    obtain ⟨-, hs3, -⟩ := s3_of_moves hst hv
    refine ⟨⟨hce, ?_, ?_⟩, (y.1.udata.serves_iff _ hce).2 hmove, ?_, ⟨rfl, ?_⟩, ?_, ?_, ?_⟩
    · show y.1.dcacheControl.2.1 = false
      unfold State.dcacheControl
      rw [hrow.dcache]
    · rw [hslot, hsame]
    · unfold State.mesiWrite State.mesiWriteControl
      simp [hrow.stateWrite, hv, hst, State.wayMshrStS2, hsame, hstate]
    · rw [haddr]
      exact (hu.copy _ hup).1
    · unfold State.wmtCompareWay
      rw [hs3, hrow.wmtCompare]
      show (y.1.step i).stbufWay = _
      rw [UpgradeInv.stbufWay_step h hs hu hu' (h.step hok.1) hv hst hrt, hsame]
    · unfold State.wmtWrite State.wmtWriteControl
      simp [hs3, hrow.noWmtWrite]
    · unfold State.lruWrite
      simp [hs3, hrow.noLruWrite]

/-! ### Runs -/

/-- A quiet time. -/
def Inputs.wait (n : Nat) : List Inputs := List.replicate n Inputs.quiet

/-- A load of a line and the whole of its fill in state S. -/
def filledLine (a : Paddr) : List Inputs :=
  [Inputs.load 0 a] ++ Inputs.wait 6 ++ [Inputs.dataAck .ld 0 .S 5] ++ Inputs.wait 8

/-- An invalidation of all sub-lines of a 64-byte line. -/
def Inputs.invFwd (a : Paddr) : Inputs :=
  Inputs.ofNoc2 { Noc2Message.zero with
    reqtype := .invFwd, fwdSubcachelineVector := 15, address := a }

/-- A store waits for an upgrade when an invalidation takes the copy. -/
def invalidatedCopyRun : List Inputs :=
  filledLine 0x12345000 ++ [Inputs.store 0 0x12345000 false 9] ++ Inputs.wait 5 ++
    [Inputs.invFwd 0x12345000] ++ Inputs.wait 2

/-- The pass of the invalidation that takes the copy is in S3. -/
def invalidatedCopy : State × Traffic := system.run (State.reset, Traffic.empty) invalidatedCopyRun

set_option maxRecDepth 20000 in
theorem copiesNamed_invalidatedCopy :
    invalidatedCopy.1.upgrading 0 ∧ invalidatedCopy.1.valS3 = true ∧
      invalidatedCopy.1.s3.reqtype = .invalidation ∧ CopyNamed invalidatedCopy.1 Inputs.quiet 0 :=
  ⟨by decide +kernel, by decide +kernel, by decide +kernel,
    copiesNamed (Machine.Reachable.run (.init system_init) (by decide +kernel)) (by decide +kernel) _⟩

/-- A store waits for an upgrade when a line flush takes the copy. -/
def flushedCopyRun : List Inputs :=
  filledLine 0x12345000 ++ [Inputs.store 0 0x12345000 false 9] ++ Inputs.wait 5 ++
    [Inputs.lineFlush 0 0] ++ Inputs.wait 5

/-- The state after the flush. -/
def flushedCopy : State × Traffic := system.run (State.reset, Traffic.empty) flushedCopyRun

set_option maxRecDepth 20000 in
theorem flushedCopy_reachable : system.Reachable InputOk flushedCopy :=
  Machine.Reachable.run (.init system_init) (by decide +kernel)

theorem flushedCopy_lost :
    flushedCopy.1.upgrading 0 ∧
      ¬ HoldsCopy flushedCopy.1 (flushedCopy.1.mshr.stAddress 0) (flushedCopy.1.mshr.stWay 0) := by
  decide +kernel

/-- The flush leaves the entry in SM. -/
theorem not_copiesNamed :
    ¬ ∀ y, system.Reachable InputOk y → ∀ i, InputOk y i → ∀ t, CopyNamed y.1 i t := by
  intro h
  obtain ⟨hup, hlost⟩ := flushedCopy_lost
  have hok : InputOk flushedCopy Inputs.quiet := by decide +kernel
  exact hlost ((h _ flushedCopy_reachable _ hok 0).holds hup)

theorem foundSystem_init :
    foundSystem.init ((State.reset, Traffic.empty), fun _ => (0, 0)) := ⟨system_init, rfl⟩

/-- An upgrade of a line in way 0 completes. -/
def upgradedRun : List Inputs :=
  filledLine 0x12345000 ++ [Inputs.store 0 0x12345000 false 9] ++ Inputs.wait 5 ++
    [Inputs.dataAck .st 0 .M 0] ++ Inputs.wait 1

/-- The completion of the upgrade is in S2. -/
def upgraded : (State × Traffic) × FoundWays :=
  foundSystem.run ((State.reset, Traffic.empty), fun _ => (0, 0)) upgradedRun

set_option maxRecDepth 20000 in
theorem upgraded_reachable :
    foundSystem.Reachable (fun z i => UpgradeOk z.1 i) upgraded :=
  Machine.Reachable.run (.init foundSystem_init) (by decide +kernel)

set_option maxRecDepth 20000 in
theorem upgraded_completes :
    UpgradeOk upgraded.1 Inputs.quiet ∧ upgraded.1.1.valS2 = true ∧
      upgraded.1.1.stallS2 Inputs.quiet = false ∧ upgraded.1.1.s2.reqtype = .ackdtStSm ∧
      (upgraded.2 upgraded.1.1.s2.threadid).2 < 2 ∧
      (upgraded.1.1.dcachePort Inputs.quiet).cmst = .HX := by
  decide +kernel

theorem upgradeOnPlace_upgraded :
    upgraded.1.1.s2.reqtype = .ackdtStSm ∧
      UpgradeOnPlace upgraded.1.1 Inputs.quiet (upgraded.2 upgraded.1.1.s2.threadid).1
        (upgraded.2 upgraded.1.1.s2.threadid).2 := by
  obtain ⟨hok, hv, hst, hrt, hway, hhit⟩ := upgraded_completes
  have hz : foundSystem.Reachable (fun z i => UpgradeOk z.1 i) (upgraded.1, upgraded.2) := by
    rw [Prod.mk.eta]
    exact upgraded_reachable
  exact ⟨hrt, (upgradeOnPlace_iff hz hok hv hst hrt).2 ⟨hway, Udata.moveSuffices_of_hit hhit⟩⟩

/-- The line is flushed between the store and its acknowledgement, which has no data. -/
def misplacedRun : List Inputs :=
  flushedCopyRun ++ [Inputs.dataAck .st 0 .M 0] ++ Inputs.wait 1

/-- The completion of the upgrade is in S2. -/
def misplaced : (State × Traffic) × FoundWays :=
  foundSystem.run ((State.reset, Traffic.empty), fun _ => (0, 0)) misplacedRun

set_option maxRecDepth 20000 in
theorem misplaced_reachable : foundSystem.Reachable (fun z i => InputOk z.1 i) misplaced :=
  Machine.Reachable.run (.init foundSystem_init) (by decide +kernel)

theorem misplaced_completes :
    InputOk misplaced.1 Inputs.quiet ∧ misplaced.1.1.valS2 = true ∧
      misplaced.1.1.stallS2 Inputs.quiet = false ∧ misplaced.1.1.s2.reqtype = .ackdtStSm ∧
      misplaced.2 misplaced.1.1.s2.threadid = (0, 0) ∧
      ¬ HoldsCopy misplaced.1.1 misplaced.1.1.s2.address 0 := by
  decide +kernel

/-- The acknowledgement makes a way M that the flush has taken the line from. -/
theorem not_upgradeOnPlace :
    ¬ ∀ z, foundSystem.Reachable (fun z i => InputOk z.1 i) z → ∀ i, InputOk z.1 i →
      z.1.1.valS2 = true → z.1.1.stallS2 i = false → z.1.1.s2.reqtype = .ackdtStSm →
        UpgradeOnPlace z.1.1 i (z.2 z.1.1.s2.threadid).1 (z.2 z.1.1.s2.threadid).2 := by
  intro h
  obtain ⟨hok, hv, hst, hrt, hfound, hlost⟩ := misplaced_completes
  have hcopy := (h _ misplaced_reachable _ hok hv hst hrt).copy.2
  rw [hfound] at hcopy
  exact hlost hcopy

end Piton.L15
