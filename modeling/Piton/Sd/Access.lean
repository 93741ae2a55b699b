import Piton.Sd.Flush
import Piton.Sd.Lock

/-! The entry of an access and that of a flush: what the tags say of them in each state of the
manager. -/

namespace Piton.Sd

open Hw

variable {w m t : Nat} {f : BitVec 24}

namespace CacheManager

section Entries

variable (s : CacheManager w m t)

/-- The entry holds a block. -/
def entryValid (e : BitVec (w + m)) : Bool := (s.index (indexBits e)).cacheValid (upperBits e)

/-- The entry that the look-up gives. -/
def lkp : BitVec (w + m) := (s.index s.indexLkp).entryLkp s.tagLkp ++ s.indexLkp

/-- A block is fetched into the looked-up entry. -/
def refilling : Bool :=
  match s.state with
  | .fillIssue | .fillWait => true
  | .update => !s.cacheHitLkp
  | _ => false

/-- The entry holds the block and no other is fetched into it. -/
def Holds (e : BitVec (w + m)) (b : BitVec (t + m)) : Prop :=
  s.entryValid e = true ∧ s.entryBlock e = b ∧ ¬ (s.refilling = true ∧ e = s.cacheEntryLkp)

end Entries

section Tags

variable {s : CacheManager w m t} {g : Writes w m} {e e' : BitVec (w + m)}

theorem append_inj {n k : Nat} {x x' : BitVec n} {y y' : BitVec k} (h : x ++ y = x' ++ y') :
    x = x' ∧ y = y' := by
  have hu := congrArg upperBits h
  have hl := congrArg indexBits h
  simp only [upperBits_append, indexBits_append] at hu hl
  exact ⟨hu, hl⟩

/-- No block is held twice. -/
theorem eq_of_entryBlock (h : TagInv (s, g)) (hv : s.entryValid e = true)
    (hv' : s.entryValid e' = true) (hb : s.entryBlock e = s.entryBlock e') : e = e' := by
  obtain ⟨haddr, hidx⟩ := append_inj hb
  unfold entryValid at hv hv'
  rw [← hidx] at hv' haddr
  have hup : upperBits e = upperBits e' := (h.ok (indexBits e)).distinct _ _ hv hv' haddr
  rw [← append_slices e, ← append_slices e', hup, hidx]

theorem Holds.unique {b : BitVec (t + m)} (h : TagInv (s, g)) (he : s.Holds e b)
    (he' : s.Holds e' b) : e = e' :=
  eq_of_entryBlock h he.1 he'.1 (he.2.1.trans he'.2.1.symm)

theorem coreCacheAddr_eq : s.tagLkp ++ s.indexLkp = s.coreCacheAddr := append_slices s.coreCacheAddr

theorem lkp_of_hit (h : s.cacheHitLkp = true) :
    s.entryValid s.lkp = true ∧ s.entryBlock s.lkp = s.coreCacheAddr := by
  obtain ⟨hv, ha⟩ := CacheTag.entryLkp_of_hit h
  rw [entryValid, entryBlock, lkp, indexBits_append, upperBits_append, ← coreCacheAddr_eq]
  exact ⟨hv, congrArg (· ++ s.indexLkp) ha⟩

theorem not_held_of_miss (h : s.cacheHitLkp = false) (hv : s.entryValid e = true) :
    s.entryBlock e ≠ s.coreCacheAddr := by
  intro hb
  rw [← coreCacheAddr_eq] at hb
  obtain ⟨haddr, hidx⟩ := append_inj hb
  have hhit : s.cacheHitLkp = true := by
    rw [cacheHitLkp, CacheTag.hitLkp_iff, ← hidx]
    exact ⟨upperBits e, hv, haddr⟩
  rw [h] at hhit
  cases hhit

theorem cacheDirtyLkp_eq : s.cacheDirtyLkp = s.entryDirty s.lkp := by
  rw [cacheDirtyLkp, entryDirty, lkp, indexBits_append, upperBits_append, CacheTag.dirtyLkp,
    CacheTag.dirtyQuery, Bool.and_comm]

theorem valid_of_dirty (h : s.entryDirty e = true) : s.entryValid e = true := by
  rw [entryDirty, CacheTag.dirtyQuery, Bool.and_eq_true] at h
  exact h.1

/-- During an access the register holds the looked-up entry. -/
theorem cacheEntryLkp_eq (h : TagInv (s, g)) (ha : s.accessing = true) :
    s.cacheEntryLkp = s.lkp := by
  rw [cacheEntryLkp, lkp, show s.entryLkpIndexed s.indexLkp = _ from h.lkp ha _]

end Tags

/-! ### The registers of an access and of a flush -/

/-- What holds of the entry of an access, that of a flush, and the entry of a lock. -/
structure AccessOk (s : CacheManager w m t) : Prop where
  addr : s.accessing = true → s.cacheAddrLkp = s.entryBlock s.cacheEntryLkp
  miss : s.accessing = true → s.state ≠ .update → s.cacheHitLkp = false
  victim : s.state = .writebackIssue ∨ s.state = .writebackWait →
    s.entryDirty s.cacheEntryLkp = true
  query : s.state = .flushIssue ∨ s.state = .flushWait → s.entryDirty s.cacheEntryQuery = true
  held : s.state = .lock → s.entryValid s.cacheEntryLkp = true ∧
    s.entryBlock s.cacheEntryLkp = s.coreCacheAddr ∧
    (s.coreCacheWe = true → s.entryDirty s.cacheEntryLkp = true)

section Step

variable {s : CacheManager w m t} {i : CacheInput m t} {g : Writes w m}

/-- Steps that write no tags and take no lock. -/
theorem next_quiet_lkp (hwe : s.cacheWe = false) (hacc : s.accepting = false) :
    (s.next i f).index = s.index ∧ (s.next i f).coreCacheAddr = s.coreCacheAddr ∧
      (s.next i f).cacheEntryLkp = s.lkp ∧ (s.next i f).lkp = s.lkp ∧
      (s.next i f).cacheHitLkp = s.cacheHitLkp ∧ (s.next i f).cacheAddrLkp = s.entryBlock s.lkp := by
  have hidx : (s.next i f).index = s.index := index_next hwe
  have haddr : (s.next i f).coreCacheAddr = s.coreCacheAddr := coreCacheAddr_next hacc
  have hentry : (s.next i f).cacheEntryLkp = s.lkp := by
    rw [cacheEntryLkp, lkp]
    simp only [indexLkp, haddr]
    rfl
  refine ⟨hidx, haddr, hentry, ?_, ?_, ?_⟩
  · simp only [lkp, indexLkp, tagLkp, hidx, haddr]
  · simp only [cacheHitLkp, indexLkp, tagLkp, hidx, haddr]
  · rw [cacheAddrLkp, entryBlock, lkp, indexBits_append, upperBits_append]
    simp only [indexLkp, haddr]
    rfl

theorem eq_iff_slices {e e' : BitVec (w + m)} :
    e = e' ↔ indexBits e' = indexBits e ∧ upperBits e = upperBits e' := by
  constructor
  · rintro rfl
    exact ⟨rfl, rfl⟩
  · rintro ⟨hidx, hup⟩
    rw [← append_slices e, ← append_slices e', hup, hidx]

/-- A write changes the tag of its entry. -/
theorem write_next (hwe : s.cacheWe = true) (e : BitVec (w + m)) :
    (s.next i f).entryValid e = (if e = s.updateEntry then true else s.entryValid e) ∧
      (s.next i f).entryDirty e = (if e = s.updateEntry then s.updateDirty else s.entryDirty e) ∧
      (s.next i f).entryBlock e =
        if e = s.updateEntry then s.updateAddr ++ indexBits e else s.entryBlock e := by
  have hnext : (s.next i f).index = s.nextIndex := rfl
  simp only [entryValid, entryDirty, entryBlock, hnext, nextIndex, indexWe, hwe, Bool.true_and,
    decide_eq_true_iff, CacheTag.dirtyQuery, CacheTag.addrQuery]
  by_cases hk : indexBits s.updateEntry = indexBits e
  · simp only [if_pos hk, CacheTag.write]
    by_cases hu : upperBits e = upperBits s.updateEntry
    · simp [if_pos hu, if_pos (eq_iff_slices.2 ⟨hk, hu⟩)]
    · simp [if_neg hu, if_neg fun he => hu (eq_iff_slices.1 he).2]
  · simp [if_neg hk, if_neg fun he => hk (eq_iff_slices.1 he).1]

/-- An update gives the looked-up entry the block of the access. -/
theorem update_next (hs : s.state = .update) (e : BitVec (w + m)) :
    (s.next i f).entryValid e = (if e = s.cacheEntryLkp then true else s.entryValid e) ∧
      (s.next i f).entryDirty e =
        (if e = s.cacheEntryLkp then s.coreCacheWe else s.entryDirty e) ∧
      (s.next i f).entryBlock e =
        if e = s.cacheEntryLkp then s.coreCacheAddr else s.entryBlock e := by
  have hsel : s.cacheUpdateSel = false := by simp [cacheUpdateSel, hs]
  obtain ⟨hv, hd, hb⟩ := write_next (i := i) (f := f) (show s.cacheWe = true by simp [cacheWe, hs]) e
  simp only [updateEntry, updateDirty, updateAddr, hsel, Bool.false_eq_true, if_false] at hv hd hb
  refine ⟨hv, hd, hb.trans ?_⟩
  split
  next he =>
    rw [← coreCacheAddr_eq, he, cacheEntryLkp, indexBits_append]
  next => rfl

/-- A flush leaves its entry clean. -/
theorem flushUpdate_next (h : TagInv (s, g)) (hs : s.state = .flushUpdate) (e : BitVec (w + m)) :
    (s.next i f).entryValid e = s.entryValid e ∧
      (s.next i f).entryDirty e = (if e = s.cacheEntryQuery then false else s.entryDirty e) ∧
      (s.next i f).entryBlock e = s.entryBlock e := by
  have hsel : s.cacheUpdateSel = true := by simp [cacheUpdateSel, hs]
  have hfl : s.flushing = true := by simp [flushing, hs]
  have hvalid : s.entryValid s.cacheEntryQuery = true := h.query_valid hfl
  have haddr : s.cacheAddrQuery = s.entryBlock s.cacheEntryQuery := h.query_addr hfl
  obtain ⟨hv, hd, hb⟩ := write_next (i := i) (f := f) (show s.cacheWe = true by simp [cacheWe, hs]) e
  simp only [updateEntry, updateDirty, updateAddr, hsel, if_true] at hv hd hb
  refine ⟨hv.trans ?_, hd, hb.trans ?_⟩
  · split
    next he => rw [he, hvalid]
    next => rfl
  · split
    next he => rw [haddr, he, entryBlock, upperBits_append]
    next => rfl

/-- A flush goes on with the entry that was queried. -/
theorem query_next (h : AccessOk s)
    (hs : (s.next i f).state = .flushIssue ∨ (s.next i f).state = .flushWait) :
    (s.next i f).index = s.index ∧ s.entryDirty (s.next i f).cacheEntryQuery = true := by
  obtain ⟨hst, hd⟩ | ⟨hfl, hne⟩ := flushing_of_next (s := s) (i := i) (f := f) (by
    obtain hs | hs := hs <;> simp [flushing, hs])
  · refine ⟨index_next (by simp [cacheWe, hst]), ?_⟩
    have hq : (s.next i f).cacheEntryQuery = s.cacheEntryScan := by simp [next, hst]
    rw [hq]
    exact hd
  · have hcases : s.state = .flushIssue ∨ s.state = .flushWait := by
      cases hst : s.state <;> simp [flushing, hst] at hfl hne ⊢
    have hq : (s.next i f).cacheEntryQuery = s.cacheEntryQuery := by
      obtain hst | hst := hcases <;> simp [next, hst]
    rw [hq]
    refine ⟨index_next ?_, h.query hcases⟩
    obtain hst | hst := hcases <;> simp [cacheWe, hst]

/-- An update follows a hit or a fetch. -/
theorem before_update (hu : (s.next i f).state = .update) :
    (s.state = .lookup ∧ s.cacheHitLkp = true) ∨
      (s.state = .fillWait ∧ s.tmCacheGo i = true ∧ i.tmCacheOk = true) := by
  have hst : s.stateNext i f = .update := hu
  cases hs : s.state <;> simp only [stateNext, hs] at hst
  case lookup => cases hh : s.cacheHitLkp <;> cases hd : s.cacheDirtyLkp <;> simp_all
  case fillWait => cases hg : s.tmCacheGo i <;> cases ho : i.tmCacheOk <;> simp_all
  all_goals first | cases hst | split_ifs at hst

theorem before_flushUpdate (hu : (s.next i f).state = .flushUpdate) :
    s.state = .flushWait ∧ s.tmCacheGo i = true ∧ i.tmCacheOk = true := by
  have hst : s.stateNext i f = .flushUpdate := hu
  cases hs : s.state <;> simp only [stateNext, hs] at hst
  case flushWait => cases hg : s.tmCacheGo i <;> cases ho : i.tmCacheOk <;> simp_all
  all_goals first | cases hst | split_ifs at hst

theorem AccessOk.step (h : AccessOk s) (htag : TagInv (s, g)) (hentry : s.EntryOk) :
    AccessOk (s.next i f) where
  addr ha := by
    obtain ⟨hwe, hacc⟩ := accessing_of_next ha
    obtain ⟨hidx, -, he, -, -, haddr⟩ := next_quiet_lkp (i := i) (f := f) hwe hacc
    rw [haddr, he, entryBlock, entryBlock, hidx]
  miss ha hs := by
    obtain ⟨hwe, hacc⟩ := accessing_of_next ha
    obtain ⟨-, -, -, -, hhit, -⟩ := next_quiet_lkp (i := i) (f := f) hwe hacc
    rw [hhit]
    simp only [accessing, next, stateNext] at ha hs
    cases hst : s.state with
    | lookup =>
      simp only [hst] at hs
      cases hh : s.cacheHitLkp with
      | false => rfl
      | true => simp [hh] at hs
    | writebackIssue | writebackWait | fillIssue | fillWait =>
      exact h.miss (by simp [accessing, hst]) (by simp [hst])
    | update => simp [cacheWe, hst] at hwe
    | _ =>
      simp only [hst] at ha
      split_ifs at ha
  victim hs := by
    have ha : (s.next i f).accessing = true := by obtain hs | hs := hs <;> simp [accessing, hs]
    obtain ⟨hwe, hacc⟩ := accessing_of_next ha
    obtain ⟨hidx, -, he, -, -, -⟩ := next_quiet_lkp (i := i) (f := f) hwe hacc
    have hd : s.entryDirty s.lkp = true := by
      simp only [next, stateNext] at hs
      cases hst : s.state with
      | lookup =>
        simp only [hst] at hs
        rw [← cacheDirtyLkp_eq]
        split_ifs at hs <;> simp_all
      | writebackIssue | writebackWait =>
        rw [← cacheEntryLkp_eq htag (by simp [accessing, hst])]
        exact h.victim (by simp [hst])
      | update => simp [hst] at hs
      | _ =>
        simp only [hst] at hs
        split_ifs at hs <;> simp at hs
    rw [he, entryDirty, hidx]
    exact hd
  query hs := by
    obtain ⟨hidx, hd⟩ := query_next h hs
    rw [entryDirty, hidx]
    exact hd
  held hs := by
    have hphase : s.lockPhase = .update ∨ s.lockPhase = .lock := by
      simp only [next, stateNext] at hs
      cases hst : s.state with
      | update => exact .inl (by simp [lockPhase, hst, CacheState.phase])
      | lock => exact .inr (by simp [lockPhase, hst, CacheState.phase])
      | _ =>
        simp only [hst] at hs
        split_ifs at hs
    have he := cacheEntryLkp_next (i := i) (f := f) htag hentry hphase
    have haddr := coreCacheAddr_of_phase (i := i) (f := f) hphase
    obtain hp | hp := hphase
    · have hst := state_of_update hp
      obtain ⟨hv, hd, hb⟩ := update_next (i := i) (f := f) hst s.cacheEntryLkp
      have hwe : (s.next i f).coreCacheWe = s.coreCacheWe := by simp [next, accepting, hst]
      rw [he, hv, hd, hb, haddr, hwe]
      simp
    · have hst := state_of_lock hp
      have hidx : (s.next i f).index = s.index := index_next (by simp [cacheWe, hst])
      have hwe : (s.next i f).coreCacheWe = s.coreCacheWe := by simp [next, accepting, hst]
      rw [he, haddr, hwe, entryValid, entryBlock, entryDirty, hidx]
      exact h.held hst

theorem AccessOk.init (addrLkp : BitVec m → BitVec t) (entryLkp : BitVec m → BitVec w) :
    AccessOk (CacheManager.init addrLkp entryLkp) where
  addr h := by cases h
  miss h := by cases h
  victim h := by obtain h | h := h <;> cases h
  query h := by obtain h | h := h <;> cases h
  held h := by cases h

end Step

end CacheManager

end Piton.Sd
