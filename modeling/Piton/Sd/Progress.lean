import Piton.Sd.Requests

/-! The bridge does not get stuck: from every state of a run whose loads are timely both state machines
go back to idle once the other sides do their part. -/

namespace Piton.Sd

open Hw

variable {w m t : Nat} {f : BitVec 24}

/-- Both state machines are idle. -/
def Bridge.AtRest (s : Bridge w m t) : Prop := s.core.state = .idle ∧ s.core.cbState = .idle

instance (s : Bridge w m t) : Decidable s.AtRest := inferInstanceAs (Decidable (_ ∧ _))

/-- The message in progress can be brought to its end. -/
def CanFinish (f : BitVec 24) (s : Bridge w m t) : Prop :=
  ∃ is, (bridge w m t f).RunOk Sane s is ∧
    ((bridge w m t f).run s is).AtRest

/-! ### A measure -/

/-- How far the cache manager is from an entry that is ready. -/
def CacheState.rank : CacheState → Nat
  | .flushIssue => 10
  | .flushWait => 9
  | .flushUpdate => 8
  | .idle | .flushScan => 7
  | .lookup => 6
  | .writebackIssue => 5
  | .writebackWait => 4
  | .fillIssue => 3
  | .fillWait => 2
  | .update | .lock => 1

/-- How far a message is from its end. -/
def NocState.rank (counter : Nat) : NocState → Nat
  | .idle => 0
  | .rst => 1
  | .outData => 257 - counter
  | .throwing => 257 - counter
  | .outHeader => 300
  | .waiting => 301
  | .inData => 600 - counter
  | .inHeader2 => 601
  | .inHeader1 => 602

namespace Bridge

variable (s : Bridge w m t)

/-- A bound on the steps of the machine towards the cache, which waits for the lock, moves its
words and unlocks. -/
def cbRank : Nat :=
  match s.core.cbState with
  | .idle => 0
  | .unlock => if s.cache.lockPhase = .lock then 3 else 2
  | .buffer2Cache | .cache2Buffer =>
    if s.cache.lockPhase = .update ∨ s.cache.lockPhase = .lock then 12 - s.core.offset.toNat
    else 20 + s.cache.state.rank

/-- A bound on the steps of the machine towards the network. -/
def nocRank : Nat := s.core.state.rank s.core.counter.toNat

/-- A bound on the steps of both, those towards the network counting more. -/
def rank : Nat := 40 * s.nocRank + s.cbRank

/-- The other sides do their part at once, and no new message comes. -/
def help : BridgeInput where
  splitterVal := s.core.state ≠ .idle
  splitterData := 0
  splitterRdy := true
  bufferData := 0
  tmCacheRdy := true
  tmCacheOk := true
  tmCacheVal := true

end Bridge

section Measure

variable {s : Bridge w m t} {i : BridgeInput} {x : Exchange}

theorem cbRank_le : s.cbRank ≤ 30 := by
  have hm : s.cache.state.rank ≤ 10 := by cases s.cache.state <;> simp [CacheState.rank]
  cases hc : s.core.cbState with
  | idle => simp [Bridge.cbRank, hc]
  | _ =>
    simp only [Bridge.cbRank, hc]
    split <;> omega

theorem sane_help : Sane s s.help := by
  intro hs hv
  simp [Bridge.help, hs] at hv

theorem timely_help : Timely s s.help := by
  intro hs _ _
  simp [Bridge.help, hs]

/-- The manager comes closer to an entry that is ready while the lock is asked for. -/
theorem rank_next {c : CacheManager w m t} {j : CacheInput m t} (hok : c.LockOk)
    (hp : c.lockPhase ≠ .update) (hp' : c.lockPhase ≠ .lock) (hacq : j.lockAcquire = !c.lockStatus)
    (hrdy : j.tmCacheRdy = true) (hval : j.tmCacheVal = true) (hto : j.tmCacheOk = true) :
    (c.next j f).state.rank < c.state.rank := by
  have hst : (c.next j f).state = c.stateNext j f := rfl
  have hreq : c.lockPhase = .free → c.lockReq j = true := by
    intro hf
    rw [CacheManager.lockReq, hacq, hok.lockStatus_of_free hf]
    rfl
  cases hs : c.state with
  | update => exact absurd (by simp [CacheManager.lockPhase, hs, CacheState.phase]) hp
  | lock => exact absurd (by simp [CacheManager.lockPhase, hs, CacheState.phase]) hp'
  | idle | flushScan =>
    have hr := hreq (by simp [CacheManager.lockPhase, hs, CacheState.phase])
    simp only [hst, CacheManager.stateNext, hs, hr, if_true, CacheState.rank]
    decide
  | lookup =>
    simp only [hst, CacheManager.stateNext, hs]
    split_ifs <;> decide
  | flushUpdate =>
    simp only [hst, CacheManager.stateNext, hs]
    split_ifs <;> decide
  | writebackIssue | fillIssue | flushIssue =>
    simp only [hst, CacheManager.stateNext, hs, CacheManager.cacheTmGo, CacheManager.cacheTmVal, hrdy,
      Bool.and_self, if_true]
    decide
  | writebackWait | fillWait | flushWait =>
    simp only [hst, CacheManager.stateNext, hs, CacheManager.tmCacheGo, CacheManager.cacheTmRdy, hval,
      hto, Bool.and_self, if_true]
    decide

theorem cbRank_transfer (hc : s.core.cbState = .buffer2Cache ∨ s.core.cbState = .cache2Buffer) :
    s.cbRank = if s.cache.lockPhase = .update ∨ s.cache.lockPhase = .lock
      then 12 - s.core.offset.toNat else 20 + s.cache.state.rank := by
  obtain hc | hc := hc <;> simp only [Bridge.cbRank, hc]

theorem cbRank_unlock (hc : s.core.cbState = .unlock) :
    s.cbRank = if s.cache.lockPhase = .lock then 3 else 2 := by
  simp only [Bridge.cbRank, hc]

/-- The cache side comes closer to its end, when its next data flit has come. -/
theorem cbRank_next (hok : s.cache.LockOk) (hc : s.core.cbState ≠ .idle)
    (hstage : s.core.cbState = .unlock → s.cache.lockPhase = .lock ∨ s.cache.lockPhase = .free)
    (hce : CoreCtrl.locked (s.coreIn s.help) = true →
      s.core.cbState = .buffer2Cache ∨ s.core.cbState = .cache2Buffer →
      s.core.bufferCe (s.coreIn s.help) = true)
    (hlast : s.core.offset.toNat = 7 → s.core.cbState = .buffer2Cache ∨ s.core.cbState = .cache2Buffer →
      s.core.bufferCe (s.coreIn s.help) = true → s.core.cbStateNext (s.coreIn s.help) = .unlock) :
    (s.next s.help f).cbRank < s.cbRank := by
  have hcb : (s.next s.help f).core.cbState = s.core.cbStateNext (s.coreIn s.help) := rfl
  have hcache : (s.next s.help f).cache = s.cache.next (s.cacheIn s.help) f :=
    rfl
  have hlocked := Bridge.locked_iff (i := s.help) hok
  have hsmall := s.core.offset.isLt
  by_cases htr : s.core.cbState = .buffer2Cache ∨ s.core.cbState = .cache2Buffer
  · have hnext := transfer_next (e := s.coreIn s.help) htr
    rw [cbRank_transfer htr]
    cases hl : CoreCtrl.locked (s.coreIn s.help) with
    | true =>
      -- a word moves
      have hphase := lock_of_locked (f := f) hok htr hl
      rw [if_pos (hlocked.1 hl)]
      obtain hstay | ⟨hun, -⟩ := hnext
      · have hseven : s.core.offset.toNat ≠ 7 := by
          intro h7
          have hun := hlast h7 htr (hce hl htr)
          rw [hstay] at hun
          rw [hun] at htr
          simp at htr
        have hoff : (s.next s.help f).core.offset = s.core.offset + 1 := by
          simp [Bridge.next, CoreCtrl.next, hc, CoreCtrl.offsetEn, hce hl htr]
        have hadd : (s.core.offset + 1).toNat = s.core.offset.toNat + 1 := by
          rw [BitVec.toNat_add]
          exact Nat.mod_eq_of_lt (by simp; omega)
        rw [cbRank_transfer (by rw [hcb, hstay]; exact htr), if_pos (.inr hphase), hoff, hadd]
        omega
      · rw [cbRank_unlock (hcb.trans hun), if_pos hphase]
        omega
    | false =>
      -- the lock is on its way
      have hnot : ¬ (s.cache.lockPhase = .update ∨ s.cache.lockPhase = .lock) := by
        intro hp
        rw [hlocked.2 hp] at hl
        cases hl
      have hstay : s.core.cbStateNext (s.coreIn s.help) = s.core.cbState := by
        obtain hstay | ⟨-, hl'⟩ := hnext
        · exact hstay
        · rw [hl] at hl'
          cases hl'
      have hacq : (s.cacheIn s.help).lockAcquire = !s.cache.lockStatus :=
        (transfer_lock (e := s.coreIn s.help) htr).1
      have hrank := rank_next (f := f) hok (fun hp => hnot (.inl hp))
        (fun hp => hnot (.inr hp)) hacq rfl rfl rfl
      rw [if_neg hnot, cbRank_transfer (by rw [hcb, hstay]; exact htr), hcache]
      split <;> omega
  · have hun : s.core.cbState = .unlock := by
      cases h : s.core.cbState with
      | unlock => rfl
      | idle => exact absurd h hc
      | buffer2Cache => exact absurd (.inl h) htr
      | cache2Buffer => exact absurd (.inr h) htr
    have hacq : (s.cacheIn s.help).lockAcquire = false := by
      simp [Bridge.cacheIn, CoreCtrl.lockAcquire, hun]
    have hrel : (s.cacheIn s.help).lockRelease = true := by
      simp [Bridge.cacheIn, CoreCtrl.lockRelease, hun]
    rw [cbRank_unlock hun]
    obtain hp | hp := hstage hun
    · have hls : s.cache.lockStatus = true := hok.2 (by simp [hp])
      have hun' : (s.next s.help f).core.cbState = .unlock := by
        rw [hcb]
        simp [CoreCtrl.cbStateNext, hun, hls]
      have hfree : (s.next s.help f).cache.lockPhase = .free := by
        rw [hcache, CacheManager.lockPhase_of_lock hok hp, hrel, if_pos rfl]
      rw [cbRank_unlock hun', hfree, if_pos hp]
      decide
    · have hls : s.cache.lockStatus = false := hok.lockStatus_of_free hp
      have hidle : (s.next s.help f).core.cbState = .idle := by
        rw [hcb]
        simp [CoreCtrl.cbStateNext, hun, hls, CoreCtrl.lockRelease]
      rw [hp, if_neg (by decide), Bridge.cbRank, hidle]
      exact Nat.zero_lt_two

end Measure

/-! ### One cycle of help -/

section Help

variable {y : Bridge w m t × Log}

theorem splitterGo_help {s : Bridge w m t} (hs : s.core.state ≠ .idle) (h : s.core.bridgeRdy = true) :
    s.core.splitterGo (s.coreIn s.help) = true := by
  simp [CoreCtrl.splitterGo, h, Bridge.help, hs]

theorem bridgeGo_help {s : Bridge w m t} : s.core.bridgeGo (s.coreIn s.help) = s.core.bridgeVal := by
  simp [CoreCtrl.bridgeGo, Bridge.help]

theorem rank_lt_of_nocRank {s s' : Bridge w m t} (h : s'.nocRank < s.nocRank) : s'.rank < s.rank := by
  have := cbRank_le (s := s')
  rw [Bridge.rank, Bridge.rank]
  omega

theorem rank_lt_of_cbRank {s s' : Bridge w m t} (h : s'.nocRank ≤ s.nocRank)
    (h' : s'.cbRank < s.cbRank) : s'.rank < s.rank := by
  rw [Bridge.rank, Bridge.rank]
  omega

/-- The side towards the cache gets on while a load is read. -/
theorem cbRank_reading {s : Bridge w m t} {x : Exchange} (h : Reading s x) (hok : s.cache.LockOk)
    (hc : s.core.cbState ≠ .idle) : (s.next s.help f).cbRank < s.cbRank := by
  have hstage : s.core.cbState = .cache2Buffer ∨ (s.core.cbState = .unlock ∧
      (s.cache.lockPhase = .lock ∨ s.cache.lockPhase = .free)) := by
    obtain hst | hst | ⟨hst, -⟩ := h.account.stage
    · exact .inl hst
    · exact .inr hst
    · exact absurd hst hc
  refine cbRank_next hok hc (fun hun => ?_) (fun hl htr => ?_) fun h7 htr hce => ?_
  · obtain hst | ⟨-, hst⟩ := hstage
    · rw [hun] at hst
      cases hst
    · exact hst
  · obtain hst | ⟨hst, -⟩ := hstage
    · simp [CoreCtrl.bufferCe, hst, hl]
    · rw [hst] at htr
      simp at htr
  · obtain hst | ⟨hst, -⟩ := hstage
    · obtain ⟨hoff, hle, -⟩ := h.offset hst
      have hmask : s.core.offset = s.core.respMask := by
        have hlt := x.mask.isLt
        rw [h.mask, ← BitVec.toNat_inj]
        omega
      simp [CoreCtrl.cbStateNext, hst, hmask, hce]
    · rw [hst] at htr
      simp at htr

/-- The side towards the cache gets on while a store whose data has come is written. -/
theorem cbRank_writing {s : Bridge w m t} {x : Exchange} (h : Writing s x) (hok : s.cache.LockOk)
    (hc : s.core.cbState = .buffer2Cache) (hdata : s.core.payload.toNat ≤ x.dataCount + 2) :
    (s.next s.help f).cbRank < s.cbRank := by
  have hoff := h.offset hc
  refine cbRank_next hok (by rw [hc]; decide) (fun hun => ?_) (fun hl _ => ?_) fun h7 _ hce => ?_
  · rw [hc] at hun
    cases hun
  · exact (bufferCe_iff h hc).2 ⟨hl, by omega⟩
  · have hmost := h.most
    rw [writing_next h hc, if_pos ⟨by omega, hce⟩]

/-- A counter of flits that does not wrap around. -/
theorem toNat_counter_succ {v : BitVec 8} (h : v.toNat < 255) : (v + 1).toNat = v.toNat + 1 := by
  rw [BitVec.toNat_add]
  exact Nat.mod_eq_of_lt (by simp; omega)

/-- A header, and the one of the response, take one step. -/
theorem nocRank_header {s : Bridge w m t}
    (hs : s.core.state = .rst ∨ s.core.state = .inHeader1 ∨ s.core.state = .inHeader2 ∨
      s.core.state = .outHeader) : (s.next s.help f).nocRank < s.nocRank := by
  have hst : (s.next s.help f).core.state = s.core.stateNext (s.coreIn s.help) := rfl
  obtain hs | hs | hs | hs := hs
  · rw [Bridge.nocRank, hst, Bridge.nocRank, hs]
    simp [CoreCtrl.stateNext, hs, NocState.rank]
  · rw [Bridge.nocRank, hst, Bridge.nocRank, hs]
    cases hreq : s.core.rd || s.core.wr with
    | true =>
      have hgo := splitterGo_help (s := s) (by simp [hs]) (by simp [CoreCtrl.bridgeRdy, hs, hreq])
      simp only [CoreCtrl.stateNext, hs, hreq, hgo, if_true, NocState.rank]
      omega
    | false =>
      simp only [CoreCtrl.stateNext, hs, hreq, Bool.false_eq_true, if_false]
      split <;> simp only [NocState.rank] <;> omega
  · have hgo := splitterGo_help (s := s) (by simp [hs]) (by simp [CoreCtrl.bridgeRdy, hs])
    rw [Bridge.nocRank, hst, Bridge.nocRank, hs]
    simp only [CoreCtrl.stateNext, hs, hgo, if_true]
    split
    · simp only [NocState.rank]
      omega
    · split <;> simp only [NocState.rank] <;> omega
  · have hgo : s.core.bridgeGo (s.coreIn s.help) = true := by
      rw [bridgeGo_help]
      simp [CoreCtrl.bridgeVal, hs]
    rw [Bridge.nocRank, hst, Bridge.nocRank, hs]
    simp only [CoreCtrl.stateNext, hs, hgo, if_true]
    split <;> simp only [NocState.rank] <;> omega

/-- A flit of a store's data, or of a message that is dropped, is counted. -/
theorem nocRank_flit {s : Bridge w m t}
    (hs : s.core.state = .inData ∨ s.core.state = .throwing)
    (hlt : s.core.counter.toNat < 255) (hin : s.core.state = .inData → s.core.counter.toNat < 8) :
    (s.next s.help f).nocRank < s.nocRank := by
  have hst : (s.next s.help f).core.state = s.core.stateNext (s.coreIn s.help) := rfl
  have hcnt : (s.next s.help f).core.counter = s.core.counterNext (s.coreIn s.help) := rfl
  have hgo := splitterGo_help (s := s) (by obtain hs | hs := hs <;> simp [hs])
    (by obtain hs | hs := hs <;> simp [CoreCtrl.bridgeRdy, hs])
  have hadd : (s.next s.help f).core.counter.toNat = s.core.counter.toNat + 1 := by
    rw [hcnt, ← toNat_counter_succ hlt]
    obtain hs | hs := hs <;> simp only [CoreCtrl.counterNext, hs, hgo, if_true]
  rw [Bridge.nocRank, hst, hadd, Bridge.nocRank]
  obtain hs | hs := hs
  · have hlt := hin hs
    simp only [CoreCtrl.stateNext, hs, hgo, Bool.true_and]
    split <;> simp only [NocState.rank] <;> omega
  · simp only [CoreCtrl.stateNext, hs, hgo, Bool.true_and]
    split <;> simp only [NocState.rank] <;> omega

/-- Once the controller is idle again all words of a load have come. -/
theorem val_of_idle {s : Bridge w m t} {x : Exchange} (h : OutData s x)
    (hc : s.core.cbState = .idle) : s.core.msgDataVal s.core.outIndex = true := by
  have hreading := h.reading
  have hfree : s.cache.lockPhase = .free := by
    obtain hst | ⟨hst, -⟩ | ⟨-, hp⟩ := hreading.account.stage
    · rw [hc] at hst
      cases hst
    · rw [hc] at hst
      cases hst
    · exact hp
  have hfull := hreading.full (by rw [hc]; decide)
  have hpend := hreading.pending
  rw [hreading.re_of_free hfree, hfull] at hpend
  have hand : s.core.counter.toNat &&& x.mask.toNat ≤ x.mask.toNat := Nat.and_le_right
  rw [hreading.val, decide_eq_true_iff, toNat_outIndex hreading.mask h.counter]
  simp only [Bool.toNat_false, Nat.add_zero] at hpend
  omega

/-- A word of the response leaves, or the machine towards the cache takes a step. -/
theorem rank_outData {s : Bridge w m t} {x : Exchange} (h : OutData s x) (hok : s.cache.LockOk)
    (hs : s.core.state = .outData) : (s.next s.help f).rank < s.rank := by
  have hst : (s.next s.help f).core.state = s.core.stateNext (s.coreIn s.help) := rfl
  have hcnt : (s.next s.help f).core.counter = s.core.counterNext (s.coreIn s.help) := rfl
  have hcounter := h.counter
  have hgo : s.core.bridgeGo (s.coreIn s.help) = s.core.msgDataVal s.core.outIndex := by
    rw [bridgeGo_help]
    simp [CoreCtrl.bridgeVal, hs]
  cases hval : s.core.msgDataVal s.core.outIndex with
  | true =>
    apply rank_lt_of_nocRank
    have hadd : (s.next s.help f).core.counter.toNat = s.core.counter.toNat + 1 := by
      rw [hcnt, ← toNat_counter_succ (by omega)]
      simp only [CoreCtrl.counterNext, hs, hgo, hval, if_true]
    rw [Bridge.nocRank, hst, hadd, Bridge.nocRank, hs]
    simp only [CoreCtrl.stateNext, hs, hgo, hval, Bool.true_and]
    split <;> simp only [NocState.rank] <;> omega
  | false =>
    have hle : (s.next s.help f).nocRank ≤ s.nocRank := by
      rw [Bridge.nocRank, hst, hcnt, Bridge.nocRank, hs]
      simp [CoreCtrl.stateNext, CoreCtrl.counterNext, hs, hgo, hval]
    refine rank_lt_of_cbRank hle (cbRank_reading h.reading hok fun hidle => ?_)
    rw [val_of_idle h hidle] at hval
    cases hval

/-- With all flits of a request there, the machine towards the cache takes a step. -/
theorem rank_waiting {s : Bridge w m t} {x : Exchange} (h : Waiting s x) (hok : s.cache.LockOk)
    (hs : s.core.state = .waiting) : (s.next s.help f).rank < s.rank := by
  have hst : (s.next s.help f).core.state = s.core.stateNext (s.coreIn s.help) := rfl
  have hle : (s.next s.help f).nocRank ≤ s.nocRank := by
    rw [Bridge.nocRank, hst, Bridge.nocRank, hs]
    simp only [CoreCtrl.stateNext, hs]
    split <;> simp only [NocState.rank] <;> omega
  refine rank_lt_of_cbRank hle ?_
  obtain ⟨-, hwriting, hc⟩ | ⟨-, hreading, hc⟩ := h.access
  · have hlen := h.length
    refine cbRank_writing hwriting hok hc ?_
    rw [Exchange.dataCount]
    omega
  · exact cbRank_reading hreading hok (by rw [hc]; decide)

/-- Between messages the lock is being given back. -/
theorem rank_idle {s : Bridge w m t} (h : Quiet s) (hok : s.cache.LockOk)
    (hs : s.core.state = .idle) (hne : ¬ s.AtRest) : (s.next s.help f).rank < s.rank := by
  have hst : (s.next s.help f).core.state = s.core.stateNext (s.coreIn s.help) := rfl
  have hc : s.core.cbState = .unlock := by
    obtain hc | hc := h.cb
    · exact absurd ⟨hs, hc⟩ hne
    · exact hc
  refine rank_lt_of_cbRank ?_ (cbRank_next hok (by simp [hc]) (fun _ => .inr h.free)
    (fun _ htr => by simp [hc] at htr) fun _ htr => by simp [hc] at htr)
  rw [Bridge.nocRank, hst]
  simp [CoreCtrl.stateNext, hs, CoreCtrl.splitterGo, Bridge.help, NocState.rank]

/-- With help every cycle brings the message closer to its end. -/
theorem rank_help (h : BridgeInv y) (hne : ¬ y.1.AtRest) :
    (y.1.next y.1.help f).rank < y.1.rank := by
  have hphase := h.phase
  cases hs : y.1.core.state with
  | rst => exact rank_lt_of_nocRank (nocRank_header (.inl hs))
  | idle =>
    rw [PhaseOk, hs] at hphase
    exact rank_idle hphase h.lock hs hne
  | inHeader1 => exact rank_lt_of_nocRank (nocRank_header (.inr (.inl hs)))
  | inHeader2 => exact rank_lt_of_nocRank (nocRank_header (.inr (.inr (.inl hs))))
  | inData =>
    rw [PhaseOk, hs] at hphase
    have hbound := hphase.bound
    have hcounter := hphase.counter
    have hmost := hphase.writing.most
    exact rank_lt_of_nocRank (nocRank_flit (.inl hs) (by omega) fun _ => by omega)
  | waiting =>
    rw [PhaseOk, hs] at hphase
    exact rank_waiting hphase h.lock hs
  | throwing =>
    rw [PhaseOk, hs] at hphase
    have hbound := hphase.bound
    have hpay := y.1.core.payload.isLt
    exact rank_lt_of_nocRank (nocRank_flit (.inr hs) (by omega) fun hin => by simp [hs] at hin)
  | outHeader => exact rank_lt_of_nocRank (nocRank_header (.inr (.inr (.inr hs))))
  | outData =>
    rw [PhaseOk, hs] at hphase
    exact rank_outData hphase h.lock hs

end Help

/-! ### Every message can be brought to its end -/

theorem canFinish_of_inv {y : Bridge w m t × Log} (h : BridgeInv y) :
    CanFinish f y.1 := by
  induction hn : y.1.rank using Nat.strong_induction_on generalizing y with
  | _ n ih =>
    by_cases hrest : y.1.AtRest
    · exact ⟨[], trivial, hrest⟩
    have hlt := rank_help (f := f) h hrest
    obtain ⟨is, hok, hfin⟩ := ih _ (hn ▸ hlt)
      (h.step (f := f) sane_help timely_help) rfl
    exact ⟨y.1.help :: is, ⟨sane_help, hok⟩, hfin⟩

/-- Each message that is over got what it should, between messages the lock is free, and the message in
progress can be brought to its end. -/
structure Works (f : BitVec 24) (y : Bridge w m t × Log) : Prop where
  served : ∀ x ∈ y.2.served, Served (w + m) x
  free : y.1.core.state = .idle → y.1.cache.lockStatus = false
  finish : CanFinish f y.1

/-- In runs of well-formed messages whose loads are timely the bridge works. -/
theorem works_of_timely {y : Bridge w m t × Log}
    (h : (logged w m t f).Reachable (fun y i => Sane y.1 i ∧ Timely y.1 i) y) :
    Works f y := by
  have hinv := BridgeInv.of_reachable h
  refine ⟨hinv.served, fun hs => ?_, canFinish_of_inv hinv⟩
  have hphase := hinv.phase
  rw [PhaseOk, hs] at hphase
  exact hinv.lock.lockStatus_of_free hphase.free

/-! A store, a message of another type, and a load whose third flit comes at once. -/

namespace Messages

/-- A cycle with a flit, in which the other sides answer. -/
def flit (f : Flit) : BridgeInput := ⟨true, f, true, 7, true, true, true⟩

/-- A cycle without a flit, in which the other sides answer. -/
def pause : BridgeInput := ⟨false, 0, true, 7, true, true, true⟩

/-- A header with the fields that are read. -/
def header (type length mshr : Flit) : Flit := length <<< 22 ||| type <<< 14 ||| mshr <<< 6

/-- Eight bytes at this address. -/
def address (a : Flit) : Flit := a <<< 16 ||| 4#64 <<< 8

/-- A store of one word, and the cycles that it needs. -/
def store : List BridgeInput :=
  [flit (header 20 3 1), flit (address 0x1008), flit 0, flit 42] ++ List.replicate 10 pause

/-- A message that is no request. -/
def other : List BridgeInput := [flit (header 1 2 3), pause, flit 1, flit 2, pause]

/-- A load of one word, and the cycles that it needs. -/
def load : List BridgeInput :=
  [flit (header 19 2 5), flit (address 0x1008), flit 0] ++ List.replicate 20 pause

/-- The third flit comes after the lock was given back. -/
def lateLoad : List BridgeInput :=
  [flit (header 19 2 5), flit (address 0x1008)] ++ List.replicate 8 pause ++ [flit 0]

/-- The bridge after `reset`, for the runs below. -/
def start : Bridge 2 1 30 × Log :=
  (⟨.init, .init (fun _ => 0) (fun _ => 0)⟩, ⟨.empty, []⟩)

theorem init_start : (logged 2 1 30 0xffffff).init start := ⟨⟨rfl, manager_init _ _⟩, rfl⟩

/-- The state after these cycles. -/
def after (is : List BridgeInput) : Bridge 2 1 30 × Log :=
  (logged 2 1 30 0xffffff).run start (pause :: is)

theorem run_ok : (logged 2 1 30 0xffffff).RunOk (fun y i => Sane y.1 i ∧ Timely y.1 i) start
    (pause :: (store ++ other ++ load)) := by
  decide +kernel

end Messages

open Messages in
theorem works_of_timely_messages : Works 0xffffff (after (store ++ other ++ load)) ∧
    ((after (store ++ other ++ load)).2.served.map fun x => (x.locks, x.sent.length)) =
      [(1, 1), (0, 0), (1, 9)] :=
  ⟨works_of_timely (Machine.Reachable.run (.init init_start) run_ok), by decide +kernel⟩

/-! The load that comes late. -/

/-- The load waits for a lock that is not asked for. -/
structure Stuck (s : Bridge w m t) : Prop where
  state : s.core.state = .waiting
  cb : s.core.cbState = .idle
  lock : s.cache.LockOk
  free : s.cache.lockPhase = .free

theorem Stuck.step {s : Bridge w m t} {i : BridgeInput} (h : Stuck s) :
    Stuck (s.next i f) := by
  have hacq : s.core.lockAcquire (s.coreIn i) = false := by
    simp [CoreCtrl.lockAcquire, h.cb, h.state]
  have hl : CoreCtrl.locked (s.coreIn i) = false := by
    rw [← Bool.not_eq_true, Bridge.locked_iff h.lock, h.free]
    simp
  refine ⟨?_, ?_, h.lock.step, ?_⟩
  · change s.core.stateNext (s.coreIn i) = _
    simp [CoreCtrl.stateNext, h.state, hl]
  · change s.core.cbStateNext (s.coreIn i) = _
    simp only [CoreCtrl.cbStateNext, h.cb, hacq, Bool.false_eq_true, if_false]
  · refine (CacheManager.lockPhase_of_free h.free).trans (if_neg ?_)
    simp [CacheManager.lockReq, Bridge.cacheIn, hacq]

theorem Stuck.not_canFinish {s : Bridge w m t} (h : Stuck s) : ¬ CanFinish f s := by
  rintro ⟨is, -, hrest⟩
  induction is generalizing s with
  | nil =>
    have hidle : s.core.state = .idle := hrest.1
    rw [h.state] at hidle
    cases hidle
  | cons i is ih => exact ih h.step hrest

namespace Messages

theorem late_ok : (logged 2 1 30 0xffffff).RunOk (fun y i => Sane y.1 i) start
    (pause :: lateLoad) := by
  decide +kernel

theorem late_stuck : Stuck (after lateLoad).1 where
  state := by decide +kernel
  cb := by decide +kernel
  lock := by
    unfold CacheManager.LockOk
    decide +kernel
  free := by decide +kernel

end Messages

open Messages in

/-- With gaps in a load the bridge can get stuck. -/
theorem not_works : ¬ ∀ y, (logged 2 1 30 0xffffff).Reachable (fun y i => Sane y.1 i) y →
    Works 0xffffff y := fun h =>
  late_stuck.not_canFinish (h _ (Machine.Reachable.run (.init init_start) late_ok)).finish

end Piton.Sd
