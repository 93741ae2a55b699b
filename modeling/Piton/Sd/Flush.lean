import Piton.Sd.Tags

/-! The flush scan: from the last used entry on, every entry is examined and the dirty ones are
written back, and the scan ends unless the entry is 0 and the last entry clean. -/

namespace Piton.Sd

open Hw CacheManager

variable {w m t : Nat} {f : BitVec 24}

/-! ### What a scan is to do -/

namespace CacheManager

/-- The scan is at entry `e`. -/
def Examines (s : CacheManager w m t) (e : BitVec (w + m)) : Prop :=
  s.state = .flushScan ∧ s.cacheEntryScan = e

/-- The transaction of a write-back to the card succeeds. -/
def Succeeds (s : CacheManager w m t) (i : CacheInput m t) : Prop :=
  s.state = .flushWait ∧ i.tmCacheVal = true ∧ i.tmCacheOk = true

/-- An entry's block is written back. -/
def WritesBack (s : CacheManager w m t) (i : CacheInput m t) (e : BitVec (w + m))
    (block : BitVec (t + m)) : Prop :=
  s.Succeeds i ∧ s.cacheEntryQuery = e ∧ s.cacheAddrQuery = block

/-- Entry `e` must be written back. -/
def entryDirty (s : CacheManager w m t) (e : BitVec (w + m)) : Bool :=
  (s.index (indexBits e)).dirtyQuery (upperBits e)

/-- The block that entry `e` holds. -/
def entryBlock (s : CacheManager w m t) (e : BitVec (w + m)) : BitVec (t + m) :=
  (s.index (indexBits e)).addrQuery (upperBits e) ++ indexBits e

/-- The scan starts at the last used entry; when that is entry 0 the last entry is dirty, unless the
entries are so many that the stop condition is not widened. -/
def ScanFits (s : CacheManager w m t) : Prop :=
  s.cacheEntryScan = s.cacheEntryLkp ∧
    (s.cacheEntryLkp ≠ 0 ∨ s.entryDirty (s.cacheEntryLkp - 1) = true ∨ 32 ≤ w + m)

end CacheManager

/-- The scan that the run begins with is back in the idle state after `n` cycles, has examined every
entry exactly once and has written back those that were dirty. -/
structure ScanComplete (r : Nat → CacheManager w m t) (i : Nat → CacheInput m t) (n : Nat) :
    Prop where
  idle : (r n).state = .idle
  first : ∀ j, j < n → (r j).state ≠ .idle
  examined : ∀ e, ∃! j, j < n ∧ (r j).Examines e
  written : ∀ e, (r 0).entryDirty e = true →
    ∃ j, j < n ∧ (r j).WritesBack (i j) e ((r 0).entryBlock e)

/-- Write-backs eventually succeed. -/
def WritesSucceed (r : Nat → CacheManager w m t) (i : Nat → CacheInput m t) : Prop :=
  ∀ n, (r n).state = .flushIssue → ∃ j, n ≤ j ∧ (r j).Succeeds (i j)

/-! ### The pointer -/

section Pointer

variable {n : Nat} {a e l : BitVec n} {k q : Nat}

theorem toNat_one_of_pos (hn : 0 < n) : (1 : BitVec n).toNat = 1 := by
  have h1 : 1 < 2 ^ n := Nat.one_lt_two_pow (by omega)
  exact Nat.mod_eq_of_lt h1

/-- A comparison with the entry before `l` that is widened fails when there is none. -/
theorem setWidth_eq_sub_one_iff {v : Nat} (hv : n ≤ v) :
    e.setWidth v = l.setWidth v - 1 ↔ e = l - 1 ∧ (l ≠ 0 ∨ v = n) := by
  by_cases hvn : v = n
  · subst hvn
    simp
  have hlt : 2 ^ (n + 1) ≤ 2 ^ v := Nat.pow_le_pow_right (by omega) (by omega)
  rw [Nat.pow_succ] at hlt
  have hpos := Nat.two_pow_pos n
  have he : (e.setWidth v).toNat = e.toNat := by
    rw [BitVec.toNat_setWidth]
    exact Nat.mod_eq_of_lt (by omega)
  have hl : (l.setWidth v).toNat = l.toNat := by
    rw [BitVec.toNat_setWidth]
    exact Nat.mod_eq_of_lt (by omega)
  have hone : (1 : BitVec v).toNat = 1 := toNat_one_of_pos (by omega)
  by_cases h0 : l = 0
  · have hl0 : l.toNat = 0 := by simp [h0]
    have hne : e.setWidth v ≠ l.setWidth v - 1 := by
      intro h
      have := congrArg BitVec.toNat h
      rw [he, BitVec.toNat_sub, hl, hone, hl0, Nat.add_zero, Nat.mod_eq_of_lt (by omega)] at this
      omega
    exact ⟨fun h => absurd h hne, fun h => absurd h.2 (not_or.2 ⟨not_not_intro h0, hvn⟩)⟩
  · have hlpos : 0 < l.toNat := by
      rw [Nat.pos_iff_ne_zero]
      exact fun h => h0 (BitVec.eq_of_toNat_eq (by simp [h]))
    have hn : 0 < n := by
      rw [Nat.pos_iff_ne_zero]
      rintro rfl
      omega
    have hn1 : (1 : BitVec n).toNat = 1 := toNat_one_of_pos hn
    have hle : (1 : BitVec v).toNat ≤ (l.setWidth v).toNat := by
      rw [hone, hl]
      exact hlpos
    have hle' : (1 : BitVec n).toNat ≤ l.toNat := by
      rw [hn1]
      exact hlpos
    rw [← BitVec.toNat_inj, ← BitVec.toNat_inj, he, BitVec.toNat_sub_of_le hle,
      BitVec.toNat_sub_of_le hle', hl, hone, hn1]
    exact ⟨fun h => ⟨h, .inl h0⟩, fun h => h.1⟩

theorem scanEnds_iff {s : CacheManager w m t} : s.scanEnds = true ↔
    s.cacheEntryScan = s.cacheEntryLkp - 1 ∧ (s.cacheEntryLkp ≠ 0 ∨ 32 ≤ w + m) := by
  have hmax : max 32 (w + m) = w + m ↔ 32 ≤ w + m := by omega
  rw [scanEnds, decide_eq_true_iff, setWidth_eq_sub_one_iff (Nat.le_max_right 32 (w + m)), hmax]

theorem add_ofNat_injective (hk : k < 2 ^ n) (hq : q < 2 ^ n)
    (h : a + BitVec.ofNat n k = a + BitVec.ofNat n q) : k = q := by
  have h' := congrArg BitVec.toNat ((BitVec.add_right_inj a).1 h)
  rwa [BitVec.toNat_ofNat, BitVec.toNat_ofNat, Nat.mod_eq_of_lt hk, Nat.mod_eq_of_lt hq] at h'

/-- Every entry is some steps after `a`. -/
theorem exists_add_ofNat (a e : BitVec n) : ∃ k, k < 2 ^ n ∧ a + BitVec.ofNat n k = e := by
  refine ⟨(e - a).toNat, (e - a).isLt, ?_⟩
  rw [BitVec.ofNat_toNat, BitVec.setWidth_eq, BitVec.add_comm, BitVec.sub_add_cancel]

theorem add_ofNat_succ : a + BitVec.ofNat n (k + 1) = a + BitVec.ofNat n k + 1 := by
  rw [BitVec.ofNat_add, BitVec.add_assoc]
  rfl

theorem add_ofNat_two_pow : a + BitVec.ofNat n (2 ^ n) = a := by
  have h0 : BitVec.ofNat n (2 ^ n) = 0#n := BitVec.eq_of_toNat_eq (by
    rw [BitVec.toNat_ofNat, Nat.mod_self, BitVec.toNat_ofNat, Nat.zero_mod])
  rw [h0, BitVec.add_zero]

end Pointer

/-! ### The looked-up entry stays -/

/-- What a flush leaves as it is. -/
structure Settled (s₀ s : CacheManager w m t) : Prop where
  valid : ∀ k, (s.index k).cacheValid = (s₀.index k).cacheValid
  tags : ∀ k, (s.index k).cachedAddr = (s₀.index k).cachedAddr
  addr : s.coreCacheAddr = s₀.coreCacheAddr
  entry : s.cacheEntryLkp = s₀.cacheEntryLkp
  here : s.entryLkpIndexed s.indexLkp = (s.index s.indexLkp).entryLkp s.tagLkp

theorem exists_tagInv {ok : CacheManager w m t → CacheInput m t → Prop} {s : CacheManager w m t}
    (h : (manager w m t f).Reachable ok s) : ∃ g, TagInv (s, g) := by
  obtain ⟨g, hg⟩ := h.exists_history (fun _ => []) Writes.update
  exact ⟨g, TagInv.of_reachable hg⟩

section Settled

variable {s₀ s : CacheManager w m t} {i : CacheInput m t} {g : Writes w m}

theorem Settled.step (h : Settled s₀ s) (hinv : TagInv (s, g))
    (hs : s.state = .flushScan ∨ s.flushing = true) (hl : i.lockAcquire = false) :
    Settled s₀ (s.next i f) := by
  have hu : s.state ≠ .update := by
    intro hu
    simp [hu, flushing] at hs
  have hlock : s.lockReq i = false := by simp [lockReq, hl]
  have haddr : (s.next i f).coreCacheAddr = s.coreCacheAddr := by simp [next, hlock]
  have hentry : (s.next i f).cacheEntryLkp = s.cacheEntryLkp := by
    rw [cacheEntryLkp, cacheEntryLkp, h.here]
    simp only [indexLkp, haddr]
    rfl
  refine ⟨fun k => ?_, fun k => ?_, haddr.trans h.addr, hentry.trans h.entry, ?_⟩
  · exact (hinv.nextIndex_eq hu).1.trans (h.valid k)
  · exact (hinv.nextIndex_eq hu).2.trans (h.tags k)
  · have hkeep : (s.nextIndex s.indexLkp).entryLkp s.tagLkp =
        (s.index s.indexLkp).entryLkp s.tagLkp := by
      obtain hnone | hlkp | hacc | hhit := hinv.hit
      · -- nothing is flushed while nothing is valid
        have hwe : s.cacheWe = false := by
          obtain hs | hs := hs
          · simp [cacheWe, hs]
          · have hv := hinv.query_valid hs
            rw [hnone] at hv
            cases hv
        have hidx : (s.next i f).index = s.index := index_next hwe
        exact congrArg (fun index => (index s.indexLkp).entryLkp s.tagLkp) hidx
      · simp only at hlkp
        simp [hlkp, flushing] at hs
      · simp only at hacc
        cases hst : s.state <;> simp [hst, flushing, accessing] at hs hacc
      · exact CacheTag.entryLkp_congr (hinv.nextIndex_eq hu).1 (hinv.nextIndex_eq hu).2 hhit
    simp only [indexLkp, tagLkp, haddr] at hkeep ⊢
    exact hkeep.symm

end Settled

/-! ### One write-back -/

/-- An entry is being written back, with the registers of `s₀`. -/
structure WritingBack (s₀ s : CacheManager w m t) : Prop where
  state : s.state = .flushIssue ∨ s.state = .flushWait
  entry : s.cacheEntryQuery = s₀.cacheEntryQuery
  block : s.cacheAddrQuery = s₀.cacheAddrQuery
  scan : s.cacheEntryScan = s₀.cacheEntryScan
  index : s.index = s₀.index

section WritingBack

variable {s₀ s : CacheManager w m t} {i : CacheInput m t}

theorem WritingBack.keep (h : WritingBack s₀ s) :
    (s.next i f).cacheEntryQuery = s₀.cacheEntryQuery ∧
      (s.next i f).cacheAddrQuery = s₀.cacheAddrQuery ∧
      (s.next i f).cacheEntryScan = s₀.cacheEntryScan ∧
      (s.next i f).index = s₀.index := by
  have hwe : s.cacheWe = false := by
    obtain hs | hs := h.state <;> simp [cacheWe, hs]
  have hidx : (s.next i f).index = s.index := index_next hwe
  refine ⟨?_, ?_, ?_, hidx.trans h.index⟩
  · obtain hs | hs := h.state <;> simp [next, hs, h.entry]
  · obtain hs | hs := h.state <;> simp [next, hs, h.block]
  · obtain hs | hs := h.state <;> simp [next, hs, h.scan]

theorem WritingBack.step (h : WritingBack s₀ s) (hfail : ¬ Succeeds s i) :
    WritingBack s₀ (s.next i f) := by
  obtain ⟨hentry, hblock, hscan, hidx⟩ := h.keep (i := i) (f := f)
  refine ⟨?_, hentry, hblock, hscan, hidx⟩
  obtain hs | hs := h.state
  · simp only [next, stateNext, hs]
    split
    · exact .inr rfl
    · exact .inl rfl
  · simp only [next, stateNext, hs]
    split
    next hgo =>
      simp only [tmCacheGo, Bool.and_eq_true] at hgo
      rw [if_neg fun hok => hfail ⟨hs, hgo.2, hok⟩]
      exact .inl rfl
    next => exact .inr rfl

end WritingBack

/-! ### One entry of the scan -/

/-- The scan is over once it has passed this entry. -/
def CacheManager.StopsAt (s : CacheManager w m t) (e : BitVec (w + m)) : Prop :=
  if s.entryDirty e then e + 1 = s.cacheEntryLkp
  else e = s.cacheEntryLkp - 1 ∧ (s.cacheEntryLkp ≠ 0 ∨ 32 ≤ w + m)

section Run

variable {r : Nat → CacheManager w m t} {i : Nat → CacheInput m t} {n : Nat}

/-- Between cycles `n` and `n'` the scan passes one entry. -/
structure Visit (r : Nat → CacheManager w m t) (i : Nat → CacheInput m t) (n n' : Nat) : Prop where
  lt : n < n'
  between : ∀ j, n < j → j < n' → (r j).flushing = true
  scan : (r n').cacheEntryScan = (r n).cacheEntryScan + 1
  stop : (r n).StopsAt (r n).cacheEntryScan → (r n').state = .idle
  goOn : ¬ (r n).StopsAt (r n).cacheEntryScan → (r n').state = .flushScan
  dirty : ∀ e, e ≠ (r n).cacheEntryScan → (r n').entryDirty e = (r n).entryDirty e
  written : (r n).entryDirty (r n).cacheEntryScan = true → ∃ j, j < n' ∧
    (r j).WritesBack (i j) (r n).cacheEntryScan ((r n).entryBlock (r n).cacheEntryScan)

/-- A write-back that was issued succeeds, and nothing changes before. -/
theorem exists_succeeds (hr : (manager w m t f).IsRun r i) (hw : WritesSucceed r i)
    (hs : (r n).state = .flushIssue) : ∃ j, n ≤ j ∧ (r j).Succeeds (i j) ∧
      ∀ l, n ≤ l → l ≤ j → WritingBack (r n) (r l) := by
  classical
  have hex : ∃ d, (r (n + d)).Succeeds (i (n + d)) := by
    obtain ⟨j, hj, hsucc⟩ := hw n hs
    refine ⟨j - n, ?_⟩
    rwa [Nat.add_sub_cancel' hj]
  refine ⟨n + Nat.find hex, Nat.le_add_right _ _, Nat.find_spec hex, ?_⟩
  intro l hnl hl
  obtain ⟨d, rfl⟩ := Nat.exists_eq_add_of_le hnl
  -- induction up to the first success
  induction d with
  | zero => exact ⟨.inl hs, rfl, rfl, rfl, rfl⟩
  | succ d ih =>
    have hd : d < Nat.find hex := by omega
    have h := ih (by omega) (by omega)
    rw [← Nat.add_assoc, hr (n + d)]
    exact h.step (Nat.find_min hex hd)

/-- A clean entry takes one cycle. -/
theorem visit_clean (hr : (manager w m t f).IsRun r i)
    (hs : (r n).state = .flushScan) (hl : (i n).lockAcquire = false)
    (hd : (r n).entryDirty (r n).cacheEntryScan = false) : Visit r i n (n + 1) where
  lt := Nat.lt_succ_self n
  between j h h' := by omega
  scan := by
    rw [hr n]
    simp [manager, next, hs]
  stop h := by
    have hends : (r n).scanEnds = true := by
      rw [StopsAt, if_neg (by simp [hd])] at h
      exact scanEnds_iff.2 h
    have hdq : (r n).cacheDirtyQuery = false := hd
    rw [hr n]
    simp [manager, next, stateNext, hs, lockReq, hl, hdq, hends]
  goOn h := by
    have hends : (r n).scanEnds = false := by
      rw [StopsAt, if_neg (by simp [hd])] at h
      exact Bool.eq_false_iff.2 fun he => h (scanEnds_iff.1 he)
    have hdq : (r n).cacheDirtyQuery = false := hd
    rw [hr n]
    simp [manager, next, stateNext, hs, lockReq, hl, hdq, hends]
  dirty e _ := by
    have hidx : ((r n).next (i n) f).index = (r n).index :=
      index_next (by simp [cacheWe, hs])
    rw [hr n, entryDirty, entryDirty]
    exact congrArg (fun index : BitVec m → CacheTag w t =>
      (index (indexBits e)).dirtyQuery (upperBits e)) hidx
  written h := by
    rw [hd] at h
    cases h

/-- A flush update changes nothing about the other entries. -/
theorem entryDirty_flushUpdate {s : CacheManager w m t} {j : CacheInput m t} {e : BitVec (w + m)}
    (hs : s.state = .flushUpdate) (he : e ≠ s.cacheEntryQuery) :
    (s.next j f).entryDirty e = s.entryDirty e := by
  have hentry : s.updateEntry = s.cacheEntryQuery := by simp [updateEntry, cacheUpdateSel, hs]
  change (s.nextIndex (indexBits e)).dirtyQuery (upperBits e) = _
  rw [nextIndex, entryDirty]
  split
  next hk =>
    simp only [indexWe, hentry, Bool.and_eq_true, decide_eq_true_iff] at hk
    have hne : upperBits e ≠ upperBits s.cacheEntryQuery := by
      intro hu
      apply he
      rw [← append_slices e, ← append_slices s.cacheEntryQuery, hu, hk.2]
    simp [CacheTag.dirtyQuery, CacheTag.write, hentry, hne]
  next => rfl

theorem Settled.run {s₀ : CacheManager w m t} {n' : Nat}
    (hr : (manager w m t f).IsRun r i) (hinv : ∀ n, ∃ g, TagInv (r n, g))
    (hl : ∀ n, (i n).lockAcquire = false) (h : Settled s₀ (r n)) (hn : n ≤ n')
    (hs : ∀ l, n ≤ l → l < n' → (r l).state = .flushScan ∨ (r l).flushing = true) :
    Settled s₀ (r n') := by
  induction n', hn using Nat.le_induction with
  | base => exact h
  | succ n' hn ih =>
    obtain ⟨g, hg⟩ := hinv n'
    rw [hr n']
    exact (ih fun l hl hl' => hs l hl (by omega)).step hg (hs n' hn (Nat.lt_succ_self n')) (hl n')

/-- A dirty entry is written back. -/
theorem exists_visit_dirty {s₀ : CacheManager w m t}
    (hr : (manager w m t f).IsRun r i) (hinv : ∀ n, ∃ g, TagInv (r n, g))
    (hl : ∀ n, (i n).lockAcquire = false) (hw : WritesSucceed r i)
    (h : Settled s₀ (r n)) (hs : (r n).state = .flushScan)
    (hd : (r n).entryDirty (r n).cacheEntryScan = true) : ∃ n', Visit r i n n' := by
  have hdq : (r n).cacheDirtyQuery = true := hd
  -- the entry goes to the query registers
  have hissue : (r (n + 1)).state = .flushIssue := by
    rw [hr n]
    simp [manager, next, stateNext, hs, lockReq, hl n, hdq]
  have hentry : (r (n + 1)).cacheEntryQuery = (r n).cacheEntryScan := by
    rw [hr n]
    simp [manager, next, hs]
  have hblock : (r (n + 1)).cacheAddrQuery = (r n).entryBlock (r n).cacheEntryScan := by
    rw [hr n]
    simp only [manager, next, if_pos hs]
    rfl
  have hscan : (r (n + 1)).cacheEntryScan = (r n).cacheEntryScan + 1 := by
    rw [hr n]
    simp [manager, next, hs]
  have hindex : (r (n + 1)).index = (r n).index := by
    rw [hr n]
    exact index_next (by simp [cacheWe, hs])
  -- and is written back
  obtain ⟨j, hj, hsucc, hwriting⟩ := exists_succeeds hr hw hissue
  have hwj := hwriting j hj (Nat.le_refl j)
  obtain ⟨huentry, -, huscan, huindex⟩ := hwj.keep (i := i j) (f := f)
  have hupdate : (r (j + 1)).state = .flushUpdate := by
    rw [hr j]
    simp [manager, next, stateNext, hsucc.1, tmCacheGo, cacheTmRdy, hsucc.2.1, hsucc.2.2]
  have hphase : ∀ l, n < l → l < j + 2 → (r l).flushing = true := by
    intro l hnl hl'
    by_cases hlj : l ≤ j
    · obtain hst | hst := (hwriting l (by omega) hlj).state <;> simp [flushing, hst]
    · obtain rfl : l = j + 1 := by omega
      simp [flushing, hupdate]
  have hset : Settled s₀ (r (j + 1)) := by
    refine h.run hr hinv hl (by omega) fun l hnl hl' => ?_
    by_cases hln : l = n
    · exact .inl (hln ▸ hs)
    · exact .inr (hphase l (by omega) (by omega))
  have hlkp : (r (j + 1)).cacheEntryLkp = (r n).cacheEntryLkp := hset.entry.trans h.entry.symm
  have hscan' : (r (j + 1)).cacheEntryScan = (r n).cacheEntryScan + 1 := by
    rw [hr j]
    exact huscan.trans hscan
  have hnext : (r (j + 2)).state = if (r n).cacheEntryScan + 1 = (r n).cacheEntryLkp
      then .idle else .flushScan := by
    rw [hr (j + 1)]
    simp only [manager, next, stateNext, hupdate, hscan', hlkp]
  refine ⟨j + 2, by omega, fun l hnl hl' => hphase l hnl hl', ?_, ?_, ?_, ?_, ?_⟩
  · rw [hr (j + 1)]
    simpa only [manager, next, hupdate, reduceCtorEq, if_false] using hscan'
  · intro hstop
    rw [StopsAt, if_pos hd] at hstop
    exact hnext.trans (if_pos hstop)
  · intro hstop
    rw [StopsAt, if_pos hd] at hstop
    exact hnext.trans (if_neg hstop)
  · intro e he
    have hq : (r (j + 1)).cacheEntryQuery = (r n).cacheEntryScan := by
      rw [hr j]
      exact huentry.trans hentry
    have hidx : (r (j + 1)).index = (r n).index := by
      rw [hr j]
      exact huindex.trans hindex
    rw [hr (j + 1)]
    refine (entryDirty_flushUpdate hupdate (hq ▸ he)).trans ?_
    rw [entryDirty, entryDirty, hidx]
  · intro _
    exact ⟨j, by omega, hsucc, hwj.entry.trans hentry, hwj.block.trans hblock⟩

/-- The scan passes an entry, and the looked-up entry stays. -/
theorem exists_visit {s₀ : CacheManager w m t}
    (hr : (manager w m t f).IsRun r i) (hinv : ∀ n, ∃ g, TagInv (r n, g))
    (hl : ∀ n, (i n).lockAcquire = false) (hw : WritesSucceed r i)
    (h : Settled s₀ (r n)) (hs : (r n).state = .flushScan) :
    ∃ n', Visit r i n n' ∧ Settled s₀ (r n') := by
  have hex : ∃ n', Visit r i n n' := by
    cases hd : (r n).entryDirty (r n).cacheEntryScan with
    | false => exact ⟨n + 1, visit_clean hr hs (hl n) hd⟩
    | true => exact exists_visit_dirty hr hinv hl hw h hs hd
  obtain ⟨n', hv⟩ := hex
  refine ⟨n', hv, h.run hr hinv hl (Nat.le_of_lt hv.lt) fun l hnl hl' => ?_⟩
  by_cases hln : l = n
  · exact .inl (hln ▸ hs)
  · exact .inr (hv.between l (by omega) hl')

/-! ### The whole scan -/

/-- The first `k` entries from the last used one on are done in cycle `n`. -/
structure Visited (r : Nat → CacheManager w m t) (i : Nat → CacheInput m t) (k n : Nat) : Prop where
  settled : Settled (r 0) (r n)
  scan : (r n).cacheEntryScan = (r 0).cacheEntryScan + BitVec.ofNat (w + m) k
  busy : ∀ j, j < n → (r j).state ≠ .idle
  earlier : ∀ j, j < n → (r j).state = .flushScan →
    ∃ q, q < k ∧ (r j).cacheEntryScan = (r 0).cacheEntryScan + BitVec.ofNat (w + m) q
  examined : ∀ q, q < k → ∃ j, j < n ∧
    (r j).Examines ((r 0).cacheEntryScan + BitVec.ofNat (w + m) q)
  once : ∀ j j', j < n → j' < n → (r j).state = .flushScan → (r j').state = .flushScan →
    (r j).cacheEntryScan = (r j').cacheEntryScan → j = j'
  dirty : ∀ q, k ≤ q → q < 2 ^ (w + m) →
    (r n).entryDirty ((r 0).cacheEntryScan + BitVec.ofNat (w + m) q) =
      (r 0).entryDirty ((r 0).cacheEntryScan + BitVec.ofNat (w + m) q)
  written : ∀ q, q < k → (r 0).entryDirty ((r 0).cacheEntryScan + BitVec.ofNat (w + m) q) = true →
    ∃ j, j < n ∧ (r j).WritesBack (i j) ((r 0).cacheEntryScan + BitVec.ofNat (w + m) q)
      ((r 0).entryBlock ((r 0).cacheEntryScan + BitVec.ofNat (w + m) q))

theorem entryBlock_settled {s₀ s : CacheManager w m t} (h : Settled s₀ s) (e : BitVec (w + m)) :
    s.entryBlock e = s₀.entryBlock e := by
  simp only [entryBlock, CacheTag.addrQuery, h.tags]

theorem Visited.zero (h : Settled (r 0) (r 0)) : Visited r i 0 0 where
  settled := h
  scan := by simp
  busy j hj := by omega
  earlier j hj := by omega
  examined q hq := by omega
  once j j' hj := by omega
  dirty q _ _ := rfl
  written q hq := by omega

/-- The scan goes on with the next entry. -/
theorem Visited.succ {k n' : Nat} (h : Visited r i k n) (hk : k < 2 ^ (w + m))
    (hs : (r n).state = .flushScan) (hv : Visit r i n n') (hset : Settled (r 0) (r n')) :
    Visited r i (k + 1) n' := by
  -- the only cycle that examines an entry since is the first
  have hlast : ∀ j, j < n' → (r j).state = .flushScan → j < n ∨ j = n := by
    intro j hj hst
    by_cases hjn : n < j
    · have := hv.between j hjn hj
      simp [flushing, hst] at this
    · omega
  have hnew : ∀ j, j < n → (r j).state = .flushScan →
      (r j).cacheEntryScan ≠ (r n).cacheEntryScan := by
    intro j hj hst heq
    obtain ⟨q, hq, hscan⟩ := h.earlier j hj hst
    have := add_ofNat_injective (Nat.lt_trans hq hk) hk (hscan.symm.trans (heq.trans h.scan))
    omega
  exact
    { settled := hset
      scan := by rw [hv.scan, h.scan, add_ofNat_succ]
      busy := fun j hj => by
        obtain hjn | hjn | hjn := Nat.lt_trichotomy j n
        · exact h.busy j hjn
        · rw [hjn, hs]
          exact CacheState.noConfusion
        · intro hidle
          have := hv.between j hjn hj
          simp [flushing, hidle] at this
      earlier := fun j hj hst => by
        obtain hjn | rfl := hlast j hj hst
        · obtain ⟨q, hq, hscan⟩ := h.earlier j hjn hst
          exact ⟨q, by omega, hscan⟩
        · exact ⟨k, Nat.lt_succ_self k, h.scan⟩
      examined := fun q hq => by
        by_cases hqk : q < k
        · obtain ⟨j, hj, hex⟩ := h.examined q hqk
          exact ⟨j, Nat.lt_trans hj hv.lt, hex⟩
        · obtain rfl : q = k := by omega
          exact ⟨n, hv.lt, hs, h.scan⟩
      once := fun j j' hj hj' hst hst' heq => by
        obtain hjn | rfl := hlast j hj hst
        · obtain hjn' | rfl := hlast j' hj' hst'
          · exact h.once j j' hjn hjn' hst hst' heq
          · exact absurd heq (hnew j hjn hst)
        · obtain hjn' | rfl := hlast j' hj' hst'
          · exact absurd heq.symm (hnew j' hjn' hst')
          · rfl
      dirty := fun q hq hqn => by
        rw [hv.dirty, h.dirty q (by omega) hqn]
        intro heq
        have := add_ofNat_injective hqn hk (heq.trans h.scan)
        omega
      written := fun q hq hd => by
        by_cases hqk : q < k
        · obtain ⟨j, hj, hwr⟩ := h.written q hqk hd
          exact ⟨j, Nat.lt_trans hj hv.lt, hwr⟩
        · obtain rfl : q = k := by omega
          have hd' : (r n).entryDirty (r n).cacheEntryScan = true := by
            rw [h.scan, h.dirty q (Nat.le_refl q) hk, hd]
          obtain ⟨j, hj, hwr⟩ := hv.written hd'
          rw [entryBlock_settled h.settled, h.scan] at hwr
          exact ⟨j, hj, hwr⟩ }

/-- Whether the scan stops is known when it begins. -/
theorem Visited.stopsAt_iff {k : Nat} (h : Visited r i k n) (hk : k < 2 ^ (w + m)) :
    (r n).StopsAt (r n).cacheEntryScan ↔
      (r 0).StopsAt ((r 0).cacheEntryScan + BitVec.ofNat (w + m) k) := by
  rw [StopsAt, StopsAt, h.scan, h.dirty k (Nat.le_refl k) hk, h.settled.entry]

/-- The scan goes on as long as it does not stop. -/
theorem exists_visited {k : Nat} (hr : (manager w m t f).IsRun r i)
    (hinv : ∀ n, ∃ g, TagInv (r n, g)) (hl : ∀ n, (i n).lockAcquire = false)
    (hw : WritesSucceed r i) (h0 : Settled (r 0) (r 0)) (hs : (r 0).state = .flushScan)
    (hk : k ≤ 2 ^ (w + m))
    (hstop : ∀ q, q < k → ¬ (r 0).StopsAt ((r 0).cacheEntryScan + BitVec.ofNat (w + m) q)) :
    ∃ n, Visited r i k n ∧ (r n).state = .flushScan := by
  induction k with
  | zero => exact ⟨0, .zero h0, hs⟩
  | succ k ih =>
    obtain ⟨n, hvis, hn⟩ := ih (by omega) fun q hq => hstop q (by omega)
    obtain ⟨n', hv, hset⟩ := exists_visit hr hinv hl hw hvis.settled hn
    refine ⟨n', hvis.succ hk hn hv hset, hv.goOn ?_⟩
    rw [hvis.stopsAt_iff hk]
    exact hstop k (Nat.lt_succ_self k)

theorem exists_visited_idle {k : Nat} (hr : (manager w m t f).IsRun r i)
    (hinv : ∀ n, ∃ g, TagInv (r n, g)) (hl : ∀ n, (i n).lockAcquire = false)
    (hw : WritesSucceed r i) (h0 : Settled (r 0) (r 0)) (hs : (r 0).state = .flushScan)
    (hk : k < 2 ^ (w + m))
    (hgo : ∀ q, q < k → ¬ (r 0).StopsAt ((r 0).cacheEntryScan + BitVec.ofNat (w + m) q))
    (hstop : (r 0).StopsAt ((r 0).cacheEntryScan + BitVec.ofNat (w + m) k)) :
    ∃ n, Visited r i (k + 1) n ∧ (r n).state = .idle := by
  obtain ⟨n, hvis, hn⟩ := exists_visited hr hinv hl hw h0 hs (Nat.le_of_lt hk) hgo
  obtain ⟨n', hv, hset⟩ := exists_visit hr hinv hl hw hvis.settled hn
  exact ⟨n', hvis.succ hk hn hv hset, hv.stop ((hvis.stopsAt_iff hk).2 hstop)⟩

theorem Visited.complete (h : Visited r i (2 ^ (w + m)) n) (hn : (r n).state = .idle) :
    ScanComplete r i n where
  idle := hn
  first := h.busy
  examined e := by
    obtain ⟨q, hq, rfl⟩ := exists_add_ofNat (r 0).cacheEntryScan e
    obtain ⟨j, hj, hex⟩ := h.examined q hq
    refine ⟨j, ⟨hj, hex⟩, ?_⟩
    rintro j' ⟨hj', hex'⟩
    exact h.once j' j hj' hj hex'.1 hex.1 (hex'.2.trans hex.2.symm)
  written e hd := by
    obtain ⟨q, hq, rfl⟩ := exists_add_ofNat (r 0).cacheEntryScan e
    exact h.written q hq hd

/-- A scan that stops after `k` entries and was complete has passed all of them. -/
theorem ScanComplete.all_visited {k T : Nat} (hc : ScanComplete r i T) (h : Visited r i k n)
    (hn : (r n).state = .idle) (hk : k ≤ 2 ^ (w + m)) : k = 2 ^ (w + m) := by
  obtain rfl : T = n := by
    by_contra hne
    obtain hlt | hlt := Nat.lt_or_gt_of_ne hne
    · exact h.busy T hlt hc.idle
    · exact hc.first n hlt hn
  by_contra hne
  obtain ⟨j, ⟨hj, hst, hscan⟩, -⟩ :=
    hc.examined ((r 0).cacheEntryScan + BitVec.ofNat (w + m) k)
  obtain ⟨q, hq, hscan'⟩ := h.earlier j hj hst
  have := add_ofNat_injective (by omega) (by omega) (hscan'.symm.trans hscan)
  omega

/-- A scan that does not stop at any entry comes back to the first one. -/
theorem ScanComplete.not_around {T : Nat} (hc : ScanComplete r i T)
    (h : Visited r i (2 ^ (w + m)) n) (hn : (r n).state = .flushScan) : False := by
  have hnT : n < T := by
    by_contra hle
    obtain hlt | rfl := Nat.lt_or_eq_of_le (Nat.le_of_not_lt hle)
    · exact h.busy T hlt hc.idle
    · rw [hc.idle] at hn
      cases hn
  obtain ⟨j, hj, hst, hscan⟩ := h.examined 0 (Nat.two_pow_pos (w + m))
  have hback : (r n).Examines (r 0).cacheEntryScan := ⟨hn, h.scan.trans add_ofNat_two_pow⟩
  have hstart : (r j).Examines (r 0).cacheEntryScan := ⟨hst, by simpa using hscan⟩
  have := (hc.examined (r 0).cacheEntryScan).unique ⟨hnT, hback⟩ ⟨Nat.lt_trans hj hnT, hstart⟩
  omega

end Run

section Fits

variable {s : CacheManager w m t} {q : Nat}

theorem add_ofNat_last (a : BitVec (w + m)) :
    a + BitVec.ofNat (w + m) (2 ^ (w + m) - 1) = a - 1 := by
  have hpos := Nat.two_pow_pos (w + m)
  have h : a + BitVec.ofNat (w + m) (2 ^ (w + m) - 1) + 1 = a := by
    rw [← add_ofNat_succ, Nat.sub_add_cancel hpos, add_ofNat_two_pow]
  calc a + BitVec.ofNat (w + m) (2 ^ (w + m) - 1)
      = a + BitVec.ofNat (w + m) (2 ^ (w + m) - 1) + 1 - 1 := (BitVec.add_sub_cancel _ _).symm
    _ = a - 1 := by rw [h]

/-- A scan that stops does so before the last used entry. -/
theorem eq_of_stopsAt {e : BitVec (w + m)} (h : s.StopsAt e) : e + 1 = s.cacheEntryLkp := by
  rw [StopsAt] at h
  split at h
  next => exact h
  next =>
    rw [h.1]
    exact BitVec.sub_add_cancel _ _

theorem scanFits_of_stopsAt
    (h : s.StopsAt (s.cacheEntryScan + BitVec.ofNat (w + m) (2 ^ (w + m) - 1))) : s.ScanFits := by
  have heq := eq_of_stopsAt h
  rw [add_ofNat_last] at heq h
  have hscan : s.cacheEntryScan = s.cacheEntryLkp := by
    rw [← heq]
    exact (BitVec.sub_add_cancel _ _).symm
  refine ⟨hscan, ?_⟩
  rw [StopsAt, hscan] at h
  split at h
  next hd => exact .inr (.inl hd)
  next =>
    obtain hne | hwide := h.2
    · exact .inl hne
    · exact .inr (.inr hwide)

theorem stopsAt_of_scanFits (h : s.ScanFits) :
    s.StopsAt (s.cacheEntryScan + BitVec.ofNat (w + m) (2 ^ (w + m) - 1)) := by
  rw [add_ofNat_last, StopsAt, h.1]
  split
  next => exact BitVec.sub_add_cancel _ _
  next hd =>
    obtain hne | hd' | hwide := h.2
    · exact ⟨rfl, .inl hne⟩
    · exact absurd hd' hd
    · exact ⟨rfl, .inr hwide⟩

theorem not_stopsAt_of_scanFits (h : s.ScanFits) (hq : q < 2 ^ (w + m) - 1) :
    ¬ s.StopsAt (s.cacheEntryScan + BitVec.ofNat (w + m) q) := by
  intro hstop
  have heq := (eq_of_stopsAt hstop).trans h.1.symm
  have hz : s.cacheEntryScan + BitVec.ofNat (w + m) (q + 1) =
      s.cacheEntryScan + BitVec.ofNat (w + m) 0 := by
    rw [add_ofNat_succ, heq]
    simp
  have := add_ofNat_injective (by omega) (Nat.two_pow_pos (w + m)) hz
  omega

end Fits

/-! ### Scans are complete when they fit -/

section Complete

variable {s : CacheManager w m t} {i₀ : CacheInput m t} {r : Nat → CacheManager w m t}
  {i : Nat → CacheInput m t}

/-- The idle state leads to a scan without a lock, and the lookup registers have settled. -/
theorem settled_of_enter (hidle : s.state = .idle)
    (henter : (s.next i₀ f).state = .flushScan) :
    Settled (s.next i₀ f) (s.next i₀ f) := by
  have hlock : s.lockReq i₀ = false := by
    by_contra hl
    rw [Bool.not_eq_false] at hl
    simp [next, stateNext, hidle, hl] at henter
  have haddr : (s.next i₀ f).coreCacheAddr = s.coreCacheAddr := by simp [next, hlock]
  have hidx : (s.next i₀ f).index = s.index := index_next (by simp [cacheWe, hidle])
  refine ⟨fun _ => rfl, fun _ => rfl, rfl, rfl, ?_⟩
  rw [hidx]
  simp only [indexLkp, tagLkp, haddr]
  rfl

/-- A scan that ends after every entry was examined once fits. -/
theorem scanFits_of_complete {T : Nat} (hr : (manager w m t f).IsRun r i)
    (hinv : ∀ n, ∃ g, TagInv (r n, g)) (hl : ∀ n, (i n).lockAcquire = false)
    (hw : WritesSucceed r i) (h0 : Settled (r 0) (r 0)) (hs : (r 0).state = .flushScan)
    (hc : ScanComplete r i T) : (r 0).ScanFits := by
  classical
  by_cases hex : ∃ q, q < 2 ^ (w + m) ∧
      (r 0).StopsAt ((r 0).cacheEntryScan + BitVec.ofNat (w + m) q)
  · obtain ⟨hk, hstop⟩ := Nat.find_spec hex
    have hgo : ∀ q, q < Nat.find hex →
        ¬ (r 0).StopsAt ((r 0).cacheEntryScan + BitVec.ofNat (w + m) q) := fun q hq h =>
      Nat.find_min hex hq ⟨Nat.lt_trans hq hk, h⟩
    obtain ⟨n, hvis, hn⟩ := exists_visited_idle hr hinv hl hw h0 hs hk hgo hstop
    have hall := hc.all_visited hvis hn hk
    rw [show Nat.find hex = 2 ^ (w + m) - 1 by omega] at hstop
    exact scanFits_of_stopsAt hstop
  · obtain ⟨n, hvis, hn⟩ := exists_visited hr hinv hl hw h0 hs (Nat.le_refl _)
      fun q hq h => hex ⟨q, hq, h⟩
    exact (hc.not_around hvis hn).elim

theorem exists_scanComplete (hr : (manager w m t f).IsRun r i)
    (hinv : ∀ n, ∃ g, TagInv (r n, g)) (hl : ∀ n, (i n).lockAcquire = false)
    (hw : WritesSucceed r i) (h0 : Settled (r 0) (r 0)) (hs : (r 0).state = .flushScan)
    (hfit : (r 0).ScanFits) : ∃ n, ScanComplete r i n := by
  have hpos := Nat.two_pow_pos (w + m)
  obtain ⟨n, hvis, hn⟩ := exists_visited_idle hr hinv hl hw h0 hs (by omega)
    (fun q hq => not_stopsAt_of_scanFits hfit hq) (stopsAt_of_scanFits hfit)
  rw [Nat.sub_add_cancel hpos] at hvis
  exact ⟨n, hvis.complete hn⟩

/-- A scan that begins when the idle time is over and is not disturbed ends after it has passed every
entry exactly when it fits. -/
theorem scan_complete_iff
    (hs : (manager w m t f).Reachable (fun _ _ => True) s) (hidle : s.state = .idle)
    (h0 : r 0 = s.next i₀ f) (henter : (r 0).state = .flushScan)
    (hr : (manager w m t f).IsRun r i) (hl : ∀ n, (i n).lockAcquire = false)
    (hw : WritesSucceed r i) : (∃ n, ScanComplete r i n) ↔ (r 0).ScanFits := by
  have hreach : (manager w m t f).Reachable (fun _ _ => True) (r 0) := by
    rw [h0]
    exact .step hs trivial
  have hinv : ∀ n, ∃ g, TagInv (r n, g) := fun n =>
    exists_tagInv (hr.reachable hreach (fun _ => trivial) n)
  have hset : Settled (r 0) (r 0) := by
    rw [h0] at henter ⊢
    exact settled_of_enter hidle henter
  exact ⟨fun ⟨_, hc⟩ => scanFits_of_complete hr hinv hl hw hset henter hc,
    exists_scanComplete hr hinv hl hw hset henter⟩

end Complete

/-! ### Runs without locks -/

/-- No lock is asked for and transactions succeed at once. -/
def quiet : CacheInput m t := ⟨false, false, false, 0, true, true, true⟩

theorem writesSucceed_quiet {r : Nat → CacheManager w m t}
    (hr : (manager w m t f).IsRun r fun _ => quiet) :
    WritesSucceed r fun _ => quiet := by
  intro n hs
  refine ⟨n + 1, Nat.le_succ n, ?_, rfl, rfl⟩
  rw [hr n]
  simp [manager, next, stateNext, hs, quiet, cacheTmGo, cacheTmVal]

/-- While idle only the timer moves. -/
theorem next_quiet {s : CacheManager w m t} (hs : s.state = .idle) (hl : s.lockStatus = false)
    (haddr : ∀ k, s.addrLkpIndexed k = (s.index k).addrLkp s.tagLkp)
    (hentry : ∀ k, s.entryLkpIndexed k = (s.index k).entryLkp s.tagLkp)
    (ht : s.flushTimer ≠ f) :
    s.next quiet f = { s with flushTimer := s.flushTimer + 1 } := by
  have hidx : s.nextIndex = s.index := by
    funext k
    simp [nextIndex, indexWe, cacheWe, hs]
  have haddr' : (fun k => (s.index k).addrLkp s.tagLkp) = s.addrLkpIndexed := by
    funext k
    exact (haddr k).symm
  have hentry' : (fun k => (s.index k).entryLkp s.tagLkp) = s.entryLkpIndexed := by
    funext k
    exact (hentry k).symm
  rw [next, hidx, haddr', hentry']
  simp [stateNext, hs, hl, lockReq, quiet, accepting, ht]

/-- The idle time passes. -/
theorem reachable_idle {s : CacheManager w m t} {x : Nat}
    (hreach : (manager w m t f).Reachable (fun _ _ => True) s)
    (hs : s.state = .idle) (hl : s.lockStatus = false)
    (haddr : ∀ k, s.addrLkpIndexed k = (s.index k).addrLkp s.tagLkp)
    (hentry : ∀ k, s.entryLkpIndexed k = (s.index k).entryLkp s.tagLkp)
    (h0 : s.flushTimer = 0) (hx : x ≤ f.toNat) :
    (manager w m t f).Reachable (fun _ _ => True)
      { s with flushTimer := BitVec.ofNat 24 x } := by
  induction x with
  | zero =>
    have hsame : { s with flushTimer := BitVec.ofNat 24 0 } = s := by
      cases s
      simp only at h0
      subst h0
      rfl
    rw [hsame]
    exact hreach
  | succ x ih =>
    have hne : BitVec.ofNat 24 x ≠ f := by
      intro heq
      have := congrArg BitVec.toNat heq
      have hlt := f.isLt
      rw [BitVec.toNat_ofNat, Nat.mod_eq_of_lt (by omega)] at this
      omega
    have hstep := Machine.Reachable.step (i := quiet) (ih (by omega)) trivial
    have hnext : (manager w m t f).step { s with flushTimer := BitVec.ofNat 24 x } quiet =
        { s with flushTimer := BitVec.ofNat 24 x + 1 } := next_quiet hs hl haddr hentry hne
    rw [hnext] at hstep
    rw [BitVec.ofNat_add]
    exact hstep

/-! A scan that is complete. -/

namespace TwoBlocks

/-- Two blocks were accessed, and the idle time has passed. -/
def waited : CacheManager 1 1 2 :=
  (manager 1 1 2 7).run start.1 (inputs ++ List.replicate 7 quiet)

theorem reachable_waited : (manager 1 1 2 7).Reachable (fun _ _ => True) waited :=
  Machine.Reachable.run (.init (manager_init _ _))
    (Machine.runOk_of_mem (p := fun _ => True) (fun _ _ => trivial) _)

end TwoBlocks

open TwoBlocks in
theorem scan_complete_waited : ∃ n, ScanComplete
    ((manager 1 1 2 7).trace (waited.next quiet 7) fun _ => quiet) (fun _ => quiet) n :=
  (scan_complete_iff reachable_waited (by decide +kernel) rfl (by decide +kernel)
    (Machine.isRun_trace _ _) (fun _ => rfl) (writesSucceed_quiet (Machine.isRun_trace _ _))).2
    ⟨by decide +kernel, .inl (by decide +kernel)⟩

/-! A scan that does not end. -/

namespace FourBlocks

/-- The cycles of one access to a clean entry. -/
def access (addr : BitVec 31) : List (CacheInput 1 30) :=
  let wait : CacheInput 1 30 := ⟨true, false, false, addr, true, true, true⟩
  let release : CacheInput 1 30 := ⟨false, true, false, addr, true, true, true⟩
  [wait, wait, wait, wait, wait, release]

/-- Four blocks of index 0 are loaded; the last one goes to entry 0. -/
def loaded : CacheManager 2 1 30 :=
  (manager 2 1 30 0xffffff).run (.init (fun _ => 0) (fun _ => 0))
    (access 2 ++ access 4 ++ access 6 ++ access 8)

/-- That state with the flush timer run out. -/
def waited : CacheManager 2 1 30 := { loaded with flushTimer := BitVec.ofNat 24 0xffffff }

theorem reachable_loaded : (manager 2 1 30 0xffffff).Reachable (fun _ _ => True) loaded :=
  Machine.Reachable.run (.init (manager_init _ _))
    (Machine.runOk_of_mem (p := fun _ => True) (fun _ _ => trivial) _)

theorem reachable_waited : (manager 2 1 30 0xffffff).Reachable (fun _ _ => True) waited :=
  reachable_idle reachable_loaded (by decide +kernel) (by decide +kernel) (by decide +kernel)
    (by decide +kernel) (by decide +kernel) (by decide +kernel)

theorem not_scanFits : ¬ (waited.next quiet 0xffffff).ScanFits := by
  rintro ⟨-, h | h | h⟩
  · exact h (by decide +kernel)
  · revert h
    decide +kernel
  · omega

end FourBlocks

open FourBlocks in

/-- With the shipped sizes and idle time, scans do not always end. -/
theorem not_scan_complete : ¬ ∀ (s : CacheManager 2 1 30) (i₀ : CacheInput 1 30)
    (r : Nat → CacheManager 2 1 30) (i : Nat → CacheInput 1 30),
    (manager 2 1 30 0xffffff).Reachable (fun _ _ => True) s → s.state = .idle →
    r 0 = s.next i₀ 0xffffff → (r 0).state = .flushScan → (manager 2 1 30 0xffffff).IsRun r i →
    (∀ n, (i n).lockAcquire = false) → WritesSucceed r i → ∃ n, ScanComplete r i n := by
  intro h
  have hr := Machine.isRun_trace (M := manager 2 1 30 0xffffff) (waited.next quiet 0xffffff)
    fun _ => quiet
  have hidle : waited.state = .idle := by decide +kernel
  have henter : (waited.next quiet 0xffffff).state = .flushScan := by decide +kernel
  obtain ⟨n, hc⟩ := h waited quiet _ _ reachable_waited hidle rfl henter hr (fun _ => rfl)
    (writesSucceed_quiet hr)
  have hreach := Machine.Reachable.step (i := quiet) reachable_waited trivial
  exact not_scanFits (scanFits_of_complete hr
    (fun n => exists_tagInv (hr.reachable hreach (fun _ => trivial) n)) (fun _ => rfl)
    (writesSucceed_quiet hr) (settled_of_enter hidle henter) henter hc)

end Piton.Sd
