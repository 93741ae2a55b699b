import Piton.Sd.Requests

/-! Runs whose loads may be late: a load whose third flit comes after the lock was given back waits for
ever, and nothing else happens. -/

namespace Piton.Sd

open Hw

variable {w m t : Nat} {f : BitVec 24}

/-- A load that has given the lock back before its third flit came. -/
structure Late (s : Bridge w m t) (x : Exchange) : Prop where
  state : s.core.state = .inHeader2 ∨ s.core.state = .waiting
  cb : s.core.cbState = .unlock ∨ s.core.cbState = .idle
  free : s.cache.lockPhase = .free
  type : s.core.type = x.header.type
  rd : s.core.rd = true
  length : 2 ≤ x.flits.length

/-- What holds in every run of well-formed messages. -/
structure Sound (y : Bridge w m t × Log) : Prop where
  lock : y.1.cache.LockOk
  tags : ∃ k, TagInv (y.1.cache, k)
  entry : y.1.cache.EntryOk
  phase : PhaseOk y.1 y.2.cur ∨ Late y.1 y.2.cur
  served : ∀ x ∈ y.2.served, Served (w + m) x

section Late

variable {s : Bridge w m t} {i : BridgeInput} {g : Log} {x : Exchange}

namespace Late

theorem not_idle (h : Late s x) : s.core.state ≠ .idle ∧ s.core.state ≠ .inHeader1 := by
  obtain hs | hs := h.state <;> simp [hs]

theorem not_busy (h : Late s x) :
    s.core.cbState ≠ .buffer2Cache ∧ s.core.cbState ≠ .cache2Buffer := by
  obtain hc | hc := h.cb <;> simp [hc]

theorem lockAcquire_eq (h : Late s x) : s.core.lockAcquire (s.coreIn i) = false := by
  obtain hc | hc := h.cb <;> simp [CoreCtrl.lockAcquire, hc, h.not_idle.2]

theorem bufferCe_eq (h : Late s x) : s.core.bufferCe (s.coreIn i) = false := by
  obtain hc | hc := h.cb <;> simp [CoreCtrl.bufferCe, hc]

/-- The state of a late load. -/
theorem state_next (h : Late s x) (hok : s.cache.LockOk) :
    (s.next i f).core.state = .inHeader2 ∨ (s.next i f).core.state = .waiting := by
  have hl : CoreCtrl.locked (s.coreIn i) = false := by
    rw [← Bool.not_eq_true, Bridge.locked_iff hok, h.free]
    simp
  have hw : s.core.wr = false := not_isWr_of_isRd h.rd
  change s.core.stateNext (s.coreIn i) = _ ∨ s.core.stateNext (s.coreIn i) = _
  obtain hs | hs := h.state
  · simp only [CoreCtrl.stateNext, hs, hw, hl]
    split_ifs <;> simp_all
  · simp [CoreCtrl.stateNext, hs, hl]

theorem not_ends (h : Late s x) (hok : s.cache.LockOk) : Log.ends s i = false := by
  have hst : s.core.stateNext (s.coreIn i) = .inHeader2 ∨
      s.core.stateNext (s.coreIn i) = .waiting := h.state_next (f := 0) (i := i) hok
  obtain hst | hst := hst <;> simp [Log.ends, hst]

theorem step (h : Late s g.cur) (hok : s.cache.LockOk) : Late (s.next i f) (g.nextCur s i) := by
  have hls : s.cache.lockStatus = false := hok.lockStatus_of_free h.free
  obtain ⟨htype, -⟩ := type_next (i := i) (f := f) h.not_idle.1
  refine ⟨h.state_next hok, ?_, ?_, ?_, ?_, ?_⟩
  · right
    change s.core.cbStateNext (s.coreIn i) = .idle
    have hacq := h.lockAcquire_eq (i := i)
    obtain hc | hc := h.cb
    · simp [CoreCtrl.cbStateNext, hc, CoreCtrl.lockRelease, hls]
    · simp only [CoreCtrl.cbStateNext, hc, hacq, Bool.false_eq_true, if_false]
  · refine (CacheManager.lockPhase_of_free h.free).trans (if_neg ?_)
    simp [CacheManager.lockReq, Bridge.cacheIn, h.lockAcquire_eq]
  · rw [htype, h.type]
    exact congrArg Flit.type (flits_getD h.not_idle.1 fun _ => by have := h.length; omega).symm
  · rw [CoreCtrl.rd, htype]
    exact h.rd
  · rw [flits_next h.not_idle.1]
    have := h.length
    split
    · rw [List.length_append]
      omega
    · exact h.length

end Late

/-- A load becomes late when its lock is given back and the third flit does not come. -/
theorem late_of_not_timely (hp : PhaseOk s g.cur) (hok : s.cache.LockOk) (ht : ¬ Timely s i) :
    Late (s.next i f) (g.nextCur s i) ∧ Log.ends s i = false := by
  simp only [Timely, Classical.not_imp, Bool.not_eq_true] at ht
  obtain ⟨hs, hr, hc, hv⟩ := ht
  rw [PhaseOk, hs] at hp
  have hne : s.core.state ≠ .idle := by simp [hs]
  have hw : s.core.wr = false := not_isWr_of_isRd hr
  have hphase : s.cache.lockPhase = .lock := by
    obtain ⟨hwr, -⟩ | ⟨-, -, hcb | ⟨-, hphase⟩⟩ := hp.access
    · rw [hw] at hwr
      cases hwr
    · rw [hc] at hcb
      cases hcb
    · exact hphase
  have hls : s.cache.lockStatus = true := hok.2 (by simp [hphase])
  have hgo : s.core.splitterGo (s.coreIn i) = false := by simp [CoreCtrl.splitterGo, hv]
  have hst : s.core.stateNext (s.coreIn i) = .inHeader2 := by
    simp [CoreCtrl.stateNext, hs, hgo]
  obtain ⟨htype, -⟩ := type_next (i := i) (f := f) hne
  refine ⟨⟨.inl hst, .inl ?_, ?_, ?_, ?_, ?_⟩, by simp [Log.ends, hst]⟩
  · change s.core.cbStateNext (s.coreIn i) = .unlock
    simp [CoreCtrl.cbStateNext, hc, hls]
  · refine (CacheManager.lockPhase_of_lock hok hphase).trans (if_pos ?_)
    simp [Bridge.cacheIn, CoreCtrl.lockRelease, hc]
  · rw [htype, hp.head.type]
    exact congrArg Flit.type (flits_getD hne fun hgo' => by rw [hgo] at hgo'; cases hgo').symm
  · rw [CoreCtrl.rd, htype]
    exact hr
  · rw [flits_next hne, hgo, if_neg Bool.false_ne_true, hp.length]

end Late

/-! ### Runs -/

section Runs

variable {y : Bridge w m t × Log} {i : BridgeInput}

theorem Sound.bridgeInv (h : Sound y) (hp : PhaseOk y.1 y.2.cur) : BridgeInv y :=
  ⟨h.lock, h.tags, h.entry, hp, h.served⟩

theorem Sound.step (h : Sound y) (hsane : Sane y.1 i) : Sound ((logged w m t f).step y i) := by
  obtain ⟨k, hk⟩ := h.tags
  have hserved : Log.ends y.1 i = false →
      ∀ x ∈ ((logged w m t f).step y i).2.served, Served (w + m) x := fun he x hx => by
    change x ∈ (Log.update y.2 y.1 i).served at hx
    rw [Log.update, he, if_neg Bool.false_ne_true] at hx
    exact h.served x hx
  have hlate : Late (y.1.next i f) (y.2.nextCur y.1 i) → Log.ends y.1 i = false →
      Sound ((logged w m t f).step y i) := fun hl he =>
    ⟨h.lock.step, ⟨_, hk.step⟩, CacheManager.EntryOk.step hk, .inr hl, hserved he⟩
  obtain hp | hl := h.phase
  · by_cases ht : Timely y.1 i
    · have hnext := (h.bridgeInv hp).step (f := f) hsane ht
      exact ⟨hnext.lock, hnext.tags, hnext.entry, .inl hnext.phase, hnext.served⟩
    · obtain ⟨hl, he⟩ := late_of_not_timely (f := f) hp h.lock ht
      exact hlate hl he
  · exact hlate (hl.step h.lock) (hl.not_ends h.lock)

theorem Sound.init (h : (logged w m t f).init y) : Sound y :=
  have hinv := BridgeInv.init h
  ⟨hinv.lock, hinv.tags, hinv.entry, .inl hinv.phase, hinv.served⟩

end Runs

end Piton.Sd
