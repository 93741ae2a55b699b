import Piton.Sd.Bridge

/-! The lock of the cache: the looked-up entry stays while it is held, and the controller takes it once
for each access and gives it back. -/

namespace Piton.Sd

open Hw

variable {w m t : Nat} {f : BitVec 24}

/-! ### The entry of an access -/

namespace CacheManager

/-- While the lock is held after the update the looked-up entry is the one in the register. -/
def EntryOk (s : CacheManager w m t) : Prop :=
  s.lockPhase = .lock → s.entryLkpIndexed s.indexLkp = (s.index s.indexLkp).entryLkp s.tagLkp

section Entry

variable {s : CacheManager w m t} {i : CacheInput m t} {g : Writes w m}

theorem coreCacheAddr_of_phase (h : s.lockPhase = .update ∨ s.lockPhase = .lock) :
    (s.next i f).coreCacheAddr = s.coreCacheAddr := by
  apply coreCacheAddr_next
  obtain h | h := h
  · simp [accepting, state_of_update h]
  · simp [accepting, state_of_lock h]

theorem cacheEntryLkp_next (hinv : TagInv (s, g)) (hok : s.EntryOk)
    (h : s.lockPhase = .update ∨ s.lockPhase = .lock) :
    (s.next i f).cacheEntryLkp = s.cacheEntryLkp := by
  have haddr := coreCacheAddr_of_phase (i := i) (f := f) h
  have hhere : s.entryLkpIndexed s.indexLkp = (s.index s.indexLkp).entryLkp s.tagLkp := by
    obtain h | h := h
    · exact hinv.lkp (by simp [accessing, state_of_update h]) _
    · exact hok h
  rw [cacheEntryLkp, cacheEntryLkp, hhere]
  simp only [indexLkp, haddr]
  rfl

theorem EntryOk.step (hinv : TagInv (s, g)) : (s.next i f).EntryOk := by
  intro hp
  have hcases : s.lockPhase = .update ∨ s.lockPhase = .lock := by
    cases h : s.lockPhase with
    | free =>
      rw [lockPhase_of_free h] at hp
      split_ifs at hp
    | pending =>
      obtain hn | hn := lockPhase_of_pending (i := i) (f := f) h
      · exact absurd (hn.symm.trans hp) (by decide)
      · exact absurd (hn.symm.trans hp) (by decide)
    | update => exact .inl rfl
    | lock => exact .inr rfl
  have haddr := coreCacheAddr_of_phase (i := i) (f := f) hcases
  have hnext : (s.next i f).entryLkpIndexed s.indexLkp =
      (s.index s.indexLkp).entryLkp s.tagLkp := rfl
  rw [show (s.next i f).indexLkp = s.indexLkp from congrArg indexBits haddr,
    show (s.next i f).tagLkp = s.tagLkp from congrArg upperBits haddr, hnext]
  obtain h | h := hcases
  · -- the update writes the looked-up entry
    have hst := state_of_update h
    have hlkp := hinv.lkp (by simp [accessing, hst]) s.indexLkp
    have hwrite : ((s.next i f).index s.indexLkp) =
        (s.index s.indexLkp).write s.tagLkp (s.entryLkpIndexed s.indexLkp) s.coreCacheWe := by
      simp [next, nextIndex, indexWe, cacheWe, hst, updateEntry, updateAddr, updateDirty,
        cacheUpdateSel, cacheEntryLkp]
    have hok' := (hinv.step (i := i) (f := f)).ok s.indexLkp
    rw [← hlkp]
    refine hok'.eq_entryLkp ?_ ?_
    · change ((s.next i f).index s.indexLkp).cacheValid _ = true
      simp [hwrite, CacheTag.write]
    · change ((s.next i f).index s.indexLkp).cachedAddr _ = s.tagLkp
      simp [hwrite, CacheTag.write]
  · have hidx : (s.next i f).index = s.index :=
      index_next (by simp [cacheWe, state_of_lock h])
    rw [hidx]

end Entry

end CacheManager

/-! ### The account of the lock -/

/-- The lock is asked for and held by `busy`, then given back. -/
structure Account (busy : CbState) (cb : CbState) (phase : LockPhase) (x : Exchange) : Prop where
  stage : cb = busy ∨ (cb = .unlock ∧ (phase = .lock ∨ phase = .free)) ∨
    (cb = .idle ∧ phase = .free)
  locks : x.locks = if cb = busy ∧ phase = .free then 0 else 1
  releases : x.releases = if cb ≠ busy ∧ phase = .free then 1 else 0

/-- Past the transfer the lock is being given back, or has been. -/
theorem Account.over {busy cb : CbState} {phase : LockPhase} {x : Exchange}
    (h : Account busy cb phase x) (hcb : cb ≠ busy) : cb = .unlock ∨ cb = .idle := by
  obtain hst | ⟨hst, -⟩ | ⟨hst, -⟩ := h.stage
  · exact absurd hst hcb
  · exact .inl hst
  · exact .inr hst

/-- Past the transfer the cache buffer is left alone. -/
theorem Account.bufferCe_eq {busy : CbState} {phase : LockPhase} {x : Exchange} {c : CoreCtrl}
    {n : Nat} (h : Account busy c.cbState phase x) (hcb : c.cbState ≠ busy) (e : CoreInput n) :
    c.bufferCe e = false := by
  obtain hc | hc := h.over hcb <;> simp [CoreCtrl.bufferCe, hc]

section Controller

variable {n : Nat} {c : CoreCtrl} {e : CoreInput n}

theorem transfer_next (hc : c.cbState = .buffer2Cache ∨ c.cbState = .cache2Buffer) :
    c.cbStateNext e = c.cbState ∨ (c.cbStateNext e = .unlock ∧ CoreCtrl.locked e = true) := by
  obtain hc | hc := hc <;> simp only [CoreCtrl.cbStateNext, CoreCtrl.bufferCe, hc] <;> split <;>
    simp_all

theorem transfer_lock (hc : c.cbState = .buffer2Cache ∨ c.cbState = .cache2Buffer) :
    c.lockAcquire e = !e.lockStatus ∧ c.lockRelease = false := by
  obtain hc | hc := hc <;> simp [CoreCtrl.lockAcquire, CoreCtrl.lockRelease, hc]

end Controller

section Account

variable {s : Bridge w m t} {i : BridgeInput} {x x' : Exchange} {busy : CbState}

theorem grants_eq (hb : s.cache.lockPhase ≠ .free) : s.grants i = false := by
  rw [Bridge.grants, Bool.and_eq_false_iff]
  left
  cases ha : s.cache.accepting with
  | false => rfl
  | true => exact absurd (CacheManager.free_of_accepting ha) hb

theorem releases_eq (hb : s.cache.lockPhase ≠ .lock) : s.releases i = false := by
  rw [Bridge.releases, Bool.and_eq_false_iff]
  left
  rw [decide_eq_false_iff_not]
  intro hl
  exact hb (by simp [CacheManager.lockPhase, hl, CacheState.phase])

/-- The grant and the release of this cycle are counted. -/
structure Counted (s : Bridge w m t) (i : BridgeInput) (x x' : Exchange) : Prop where
  locks : x'.locks = if s.grants i then x.locks + 1 else x.locks
  releases : x'.releases = if s.releases i then x.releases + 1 else x.releases

theorem Counted.same (h : Counted s i x x') (hg : s.grants i = false) (hr : s.releases i = false) :
    x'.locks = x.locks ∧ x'.releases = x.releases := by
  refine ⟨?_, ?_⟩
  · rw [h.locks, hg, if_neg Bool.false_ne_true]
  · rw [h.releases, hr, if_neg Bool.false_ne_true]

/-- While data moves the lock is held. -/
theorem lock_of_locked (hok : s.cache.LockOk)
    (hc : s.core.cbState = .buffer2Cache ∨ s.core.cbState = .cache2Buffer)
    (hl : CoreCtrl.locked (s.coreIn i) = true) :
    (s.next i f).cache.lockPhase = .lock := by
  have hrel : (s.cacheIn i).lockRelease = false := (transfer_lock (e := s.coreIn i) hc).2
  obtain hp | hp := (Bridge.locked_iff hok).1 hl
  · exact CacheManager.lockPhase_of_update hp
  · exact (CacheManager.lockPhase_of_lock hok hp).trans (by rw [hrel]; rfl)

/-- The lock is asked for until it is granted, and then held while data moves. -/
theorem account_transfer (hok : s.cache.LockOk)
    (hc : s.core.cbState = .buffer2Cache ∨ s.core.cbState = .cache2Buffer)
    (h : Account s.core.cbState s.core.cbState s.cache.lockPhase x) (hx : Counted s i x x') :
    Account s.core.cbState (s.next i f).core.cbState
      (s.next i f).cache.lockPhase x' := by
  have hcb : (s.next i f).core.cbState = s.core.cbStateNext (s.coreIn i) := rfl
  have hcache : (s.next i f).cache = s.cache.next (s.cacheIn i) f := rfl
  obtain ⟨hacq, hrel⟩ := transfer_lock (e := s.coreIn i) hc
  have hlocked := Bridge.locked_iff (i := i) hok
  have hnext := transfer_next (e := s.coreIn i) hc
  have hne : CbState.unlock ≠ s.core.cbState := by obtain hc | hc := hc <;> simp [hc]
  have hxl := h.locks
  have hxr := h.releases
  have hr : s.releases i = false := by
    rw [Bridge.releases, CacheManager.unlockReq]
    simp [Bridge.cacheIn, hrel]
  rw [hcb, hcache]
  by_cases hfree : s.cache.lockPhase = .free
  · have hstay : s.core.cbStateNext (s.coreIn i) = s.core.cbState := by
      obtain hstay | ⟨-, hl⟩ := hnext
      · exact hstay
      · rw [hlocked, hfree] at hl
        simp at hl
    have hg : s.grants i = (s.cache.accepting && s.cache.lockReq (s.cacheIn i)) := rfl
    have hlocks := hx.locks
    have hreleases := hx.releases
    rw [hfree] at hxl hxr
    rw [hg, hxl] at hlocks
    rw [hr, hxr] at hreleases
    rw [hstay, CacheManager.lockPhase_of_free hfree]
    split
    next hgr =>
      rw [if_pos hgr] at hlocks
      exact ⟨.inl rfl, by simpa using hlocks, by simpa using hreleases⟩
    next hgr =>
      rw [if_neg hgr] at hlocks
      exact ⟨.inl rfl, by simpa using hlocks, by simpa using hreleases⟩
  · -- the lock is held, and stays held
    obtain ⟨hlocks, hreleases⟩ := hx.same (grants_eq hfree) hr
    rw [hxl, if_neg (fun hc' => hfree hc'.2)] at hlocks
    rw [hxr, if_neg (fun hc' => hfree hc'.2)] at hreleases
    have hheld : (s.cache.next (s.cacheIn i) f).lockPhase ≠ .free := by
      cases hp : s.cache.lockPhase with
      | free => exact absurd hp hfree
      | pending =>
        obtain hn | hn := CacheManager.lockPhase_of_pending (i := s.cacheIn i)
          (f := f) hp <;> simp [hn]
      | update => simp [CacheManager.lockPhase_of_update hp]
      | lock =>
        have hrel' : (s.cacheIn i).lockRelease = false := hrel
        simp [CacheManager.lockPhase_of_lock hok hp, hrel']
    refine ⟨?_, ?_, ?_⟩
    · obtain hstay | ⟨hun, hl⟩ := hnext
      · exact .inl hstay
      · exact .inr (.inl ⟨hun, .inl (lock_of_locked hok hc hl)⟩)
    · rw [hlocks, if_neg fun hc' => hheld hc'.2]
    · rw [hreleases, if_neg fun hc' => hheld hc'.2]

/-- The lock is given back and the controller goes to idle. -/
theorem account_unlock (hok : s.cache.LockOk) (hbusy : busy = .buffer2Cache ∨ busy = .cache2Buffer)
    (hc : s.core.cbState = .unlock ∨ s.core.cbState = .idle) (hs : s.core.state ≠ .inHeader1)
    (h : Account busy s.core.cbState s.cache.lockPhase x) (hx : Counted s i x x') :
    Account busy (s.next i f).core.cbState (s.next i f).cache.lockPhase x' ∧
      (s.next i f).core.cbState ≠ busy ∧
      (s.next i f).cache.lockPhase = .free := by
  have hcb : (s.next i f).core.cbState = s.core.cbStateNext (s.coreIn i) := rfl
  have hcache : (s.next i f).cache = s.cache.next (s.cacheIn i) f := rfl
  have hacq : (s.cacheIn i).lockAcquire = false := by
    obtain hc | hc := hc <;> simp [Bridge.cacheIn, CoreCtrl.lockAcquire, hc, hs]
  have hg : s.grants i = false := by simp [Bridge.grants, CacheManager.lockReq, hacq]
  have hu : CbState.unlock ≠ busy := by obtain rfl | rfl := hbusy <;> simp
  have hi : CbState.idle ≠ busy := by obtain rfl | rfl := hbusy <;> simp
  have hcne : s.core.cbState ≠ busy := by obtain hc | hc := hc <;> rw [hc] <;> assumption
  have hlocks := hx.locks
  have hreleases := hx.releases
  rw [hg, if_neg Bool.false_ne_true, h.locks, if_neg (fun hc' => hcne hc'.1)] at hlocks
  rw [h.releases] at hreleases
  have hphase : s.cache.lockPhase = .free ∨ (s.core.cbState = .unlock ∧ s.cache.lockPhase = .lock) := by
    obtain hst | ⟨hst, hp | hp⟩ | ⟨-, hp⟩ := h.stage
    · exact absurd hst hcne
    · exact .inr ⟨hst, hp⟩
    · exact .inl hp
    · exact .inl hp
  rw [hcb, hcache]
  obtain hp | ⟨hst, hp⟩ := hphase
  · have hls : s.cache.lockStatus = false := hok.lockStatus_of_free hp
    have hr : s.releases i = false := releases_eq (by simp [hp])
    have hnext : s.core.cbStateNext (s.coreIn i) = .idle := by
      obtain hc | hc := hc <;>
        simp [CoreCtrl.cbStateNext, hc, CoreCtrl.lockRelease, CoreCtrl.lockAcquire, hs, Bridge.coreIn,
          hls]
    have hfree : (s.cache.next (s.cacheIn i) f).lockPhase = .free := by
      rw [CacheManager.lockPhase_of_free hp]
      simp [CacheManager.lockReq, hacq]
    rw [hr, if_neg Bool.false_ne_true, if_pos ⟨hcne, hp⟩] at hreleases
    rw [hnext, hfree]
    exact ⟨⟨.inr (.inr ⟨rfl, rfl⟩), by simpa [hi] using hlocks, by simpa [hi] using hreleases⟩,
      hi, rfl⟩
  · have hls : s.cache.lockStatus = true := hok.2 (by simp [hp])
    have hrel : (s.cacheIn i).lockRelease = true := by
      simp [Bridge.cacheIn, CoreCtrl.lockRelease, hst]
    have hr : s.releases i = true := by
      simp [Bridge.releases, CacheManager.state_of_lock hp, CacheManager.unlockReq, hrel, hls]
    have hnext : s.core.cbStateNext (s.coreIn i) = .unlock := by
      simp [CoreCtrl.cbStateNext, hst, Bridge.coreIn, hls]
    have hfree : (s.cache.next (s.cacheIn i) f).lockPhase = .free := by
      rw [CacheManager.lockPhase_of_lock hok hp, hrel, if_pos rfl]
    have hheld : ¬ (s.core.cbState ≠ busy ∧ s.cache.lockPhase = .free) := by simp [hp]
    rw [hr, if_pos rfl, if_neg hheld] at hreleases
    rw [hnext, hfree]
    exact ⟨⟨.inr (.inl ⟨rfl, .inr rfl⟩), by simpa [hu] using hlocks, by simpa [hu] using hreleases⟩,
      hu, rfl⟩

end Account

end Piton.Sd
