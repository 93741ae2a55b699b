import Piton.Sd.Transfer

/-! Messages through the bridge: in runs whose loads send their third flit while they hold the lock,
every load and store takes the lock once and gets its response. -/

namespace Piton.Sd

open Hw

variable {w m t : Nat} {f : BitVec 24}

/-! ### The states of the controller -/

/-- Loads have no data flits, stores one to eight. -/
def WellFormed (h : Flit) : Prop :=
  (isRd h.type = true → h.length = 2) ∧
    (isWr h.type = true → 3 ≤ h.length.toNat ∧ h.length.toNat ≤ 10)

instance (h : Flit) : Decidable (WellFormed h) := inferInstanceAs (Decidable (_ ∧ _))

/-- The registers of the header. -/
structure Head (c : CoreCtrl) (x : Exchange) : Prop where
  type : c.type = x.header.type
  payload : c.payload = x.header.length
  mshr : c.mshr = x.header.mshrid
  wellFormed : WellFormed x.header

/-- The registers of the address and source flits. -/
structure Source (c : CoreCtrl) (x : Exchange) : Prop where
  addr : c.addr = x.addrFlit.addrRemapped
  dataSz : c.dataSz = x.addrFlit.dataSize
  chipid : c.chipid = x.srcFlit.srcChipid
  srcx : c.srcx = x.srcFlit.srcX
  srcy : c.srcy = x.srcFlit.srcY

/-- Nothing was done for the message. -/
structure Untouched (x : Exchange) : Prop where
  locks : x.locks = 0
  releases : x.releases = 0
  reads : x.reads = []
  words : x.words = []
  sent : x.sent = []

/-- The lock is free and nothing moves. -/
structure Quiet (s : Bridge w m t) : Prop where
  cb : s.core.cbState = .idle ∨ s.core.cbState = .unlock
  free : s.cache.lockPhase = .free
  re : s.core.cacheRe = false

/-- The header has come in. -/
structure Header1 (s : Bridge w m t) (x : Exchange) : Prop where
  head : Head s.core x
  quiet : Quiet s
  cb : s.core.cbState = .idle
  val : ∀ k, s.core.msgDataVal k = false
  counter : s.core.counter = 0
  length : x.flits.length = 1
  untouched : Untouched x

/-- The address flit has come in too, and the access has begun. -/
structure Header2 (s : Bridge w m t) (x : Exchange) : Prop where
  head : Head s.core x
  addr : s.core.addr = x.addrFlit.addrRemapped
  dataSz : s.core.dataSz = x.addrFlit.dataSize
  counter : s.core.counter = 0
  length : x.flits.length = 2
  sent : x.sent = []
  access : (s.core.wr = true ∧ Writing s x ∧ s.core.cbState = .buffer2Cache) ∨
    (s.core.rd = true ∧ Reading s x ∧ (s.core.cbState = .cache2Buffer ∨
      (s.core.cbState = .unlock ∧ s.cache.lockPhase = .lock)))

/-- The words of a store come in. -/
structure InData (s : Bridge w m t) (x : Exchange) : Prop where
  head : Head s.core x
  source : Source s.core x
  wr : s.core.wr = true
  writing : Writing s x
  cb : s.core.cbState = .buffer2Cache
  counter : s.core.counter.toNat = x.dataCount
  bound : x.dataCount + 3 ≤ s.core.payload.toNat
  length : x.flits.length = x.dataCount + 3
  sent : x.sent = []

/-- All flits have come in, and the access is not over. -/
structure Waiting (s : Bridge w m t) (x : Exchange) : Prop where
  head : Head s.core x
  source : Source s.core x
  length : x.flits.length = s.core.payload.toNat + 1
  sent : x.sent = []
  access : (s.core.wr = true ∧ Writing s x ∧ s.core.cbState = .buffer2Cache) ∨
    (s.core.rd = true ∧ Reading s x ∧ s.core.cbState = .cache2Buffer)

/-- The flits of a message that is no request are dropped. -/
structure Throwing (s : Bridge w m t) (x : Exchange) : Prop where
  head : Head s.core x
  quiet : Quiet s
  wr : s.core.wr = false
  rd : s.core.rd = false
  length : x.flits.length = s.core.counter.toNat + 1
  bound : s.core.counter.toNat < s.core.payload.toNat
  untouched : Untouched x

/-- The header of the response is offered. -/
structure OutHeader (s : Bridge w m t) (x : Exchange) : Prop where
  head : Head s.core x
  source : Source s.core x
  length : x.flits.length = s.core.payload.toNat + 1
  sent : x.sent = []
  access : (s.core.wr = true ∧ Writing s x ∧ s.core.cbState ≠ .buffer2Cache) ∨
    (s.core.rd = true ∧ Reading s x ∧
      (s.core.cbState = .cache2Buffer → s.cache.lockPhase = .lock))

/-- The words of a load's response are offered. -/
structure OutData (s : Bridge w m t) (x : Exchange) : Prop where
  head : Head s.core x
  source : Source s.core x
  rd : s.core.rd = true
  reading : Reading s x
  lock : s.core.cbState = .cache2Buffer → s.cache.lockPhase = .lock
  length : x.flits.length = s.core.payload.toNat + 1
  counter : s.core.counter.toNat ≤ 7
  come : ∀ j, j < s.core.counter.toNat → j &&& x.mask.toNat < x.words.length
  sent : x.sent = x.respHeader :: (List.range s.core.counter.toNat).map fun j =>
    x.words.getD (j &&& x.mask.toNat) 0

/-- What holds of the message in progress, by the state of the controller. -/
def PhaseOk (s : Bridge w m t) (x : Exchange) : Prop :=
  match s.core.state with
  | .rst | .idle => Quiet s
  | .inHeader1 => Header1 s x
  | .inHeader2 => Header2 s x
  | .inData => InData s x
  | .waiting => Waiting s x
  | .throwing => Throwing s x
  | .outHeader => OutHeader s x
  | .outData => OutData s x

section PhaseOk

variable {s : Bridge w m t} {x : Exchange}

theorem phaseOk_idle (hs : s.core.state = .idle) (h : Quiet s) : PhaseOk s x := by
  rwa [PhaseOk, hs]

theorem phaseOk_inHeader1 (hs : s.core.state = .inHeader1) (h : Header1 s x) : PhaseOk s x := by
  rwa [PhaseOk, hs]

theorem phaseOk_inHeader2 (hs : s.core.state = .inHeader2) (h : Header2 s x) : PhaseOk s x := by
  rwa [PhaseOk, hs]

theorem phaseOk_inData (hs : s.core.state = .inData) (h : InData s x) : PhaseOk s x := by
  rwa [PhaseOk, hs]

theorem phaseOk_waiting (hs : s.core.state = .waiting) (h : Waiting s x) : PhaseOk s x := by
  rwa [PhaseOk, hs]

theorem phaseOk_throwing (hs : s.core.state = .throwing) (h : Throwing s x) : PhaseOk s x := by
  rwa [PhaseOk, hs]

theorem phaseOk_outHeader (hs : s.core.state = .outHeader) (h : OutHeader s x) : PhaseOk s x := by
  rwa [PhaseOk, hs]

theorem phaseOk_outData (hs : s.core.state = .outData) (h : OutData s x) : PhaseOk s x := by
  rwa [PhaseOk, hs]

/-- A message that goes on has not ended. -/
theorem goesOn {st : NocState} {n : Nat} (hs : s.core.state = st) (hne : st ≠ .idle) :
    s.core.state = .idle → Served n x := fun h => absurd (hs.symm.trans h) hne

end PhaseOk

/-! ### The log of one cycle -/

section LogStep

variable {s : Bridge w m t} {i : BridgeInput} {g : Log}

theorem getD_append_of_lt {l : List Flit} {a : Flit} {k : Nat} (hk : k < l.length) :
    (l ++ [a]).getD k 0 = l.getD k 0 := by
  rw [List.getD_eq_getElem?_getD, List.getD_eq_getElem?_getD, List.getElem?_append_left hk]

theorem base_eq (hs : s.core.state ≠ .idle) : g.base s i = g.cur := by
  simp [Log.base, hs]

theorem counted (hs : s.core.state ≠ .idle) : Counted s i g.cur (g.nextCur s i) := by
  constructor <;> simp only [Log.nextCur, base_eq hs]

theorem flits_getD (hs : s.core.state ≠ .idle) {k : Nat}
    (hk : s.core.splitterGo (s.coreIn i) = true → k < g.cur.flits.length) :
    (g.nextCur s i).flits.getD k 0 = g.cur.flits.getD k 0 := by
  simp only [Log.nextCur, base_eq hs]
  split
  next hgo => exact getD_append_of_lt (hk hgo)
  next => rfl

/-- After the address flit only the lists grow. -/
theorem gains (hs : s.core.state ≠ .idle)
    (hlen : s.core.splitterGo (s.coreIn i) = true → 2 ≤ g.cur.flits.length) :
    Gains s i g.cur (g.nextCur s i) where
  counted := counted hs
  header := flits_getD hs fun hgo => by have := hlen hgo; omega
  addrFlit := flits_getD hs hlen
  reads := by simp only [Log.nextCur, base_eq hs]
  words := by simp only [Log.nextCur, base_eq hs]

theorem splitterGo_of_rdy (h : s.core.bridgeRdy = true) :
    s.core.splitterGo (s.coreIn i) = i.splitterVal := by
  simp [CoreCtrl.splitterGo, h, Bridge.coreIn]

theorem not_splitterGo (h : s.core.bridgeRdy = false) : s.core.splitterGo (s.coreIn i) = false := by
  simp [CoreCtrl.splitterGo, h]

theorem not_bridgeGo (h : s.core.bridgeVal = false) : s.core.bridgeGo (s.coreIn i) = false := by
  simp [CoreCtrl.bridgeGo, h]

theorem flits_next (hs : s.core.state ≠ .idle) : (g.nextCur s i).flits =
    if s.core.splitterGo (s.coreIn i) then g.cur.flits ++ [i.splitterData] else g.cur.flits := by
  simp only [Log.nextCur, base_eq hs]

theorem sent_go (hs : s.core.state ≠ .idle) : (g.nextCur s i).sent =
    if s.core.bridgeGo (s.coreIn i) then g.cur.sent ++ [s.core.bridgeData] else g.cur.sent := by
  simp only [Log.nextCur, base_eq hs]

theorem sent_next (hs : s.core.state ≠ .idle) (h : s.core.bridgeVal = false) :
    (g.nextCur s i).sent = g.cur.sent := by
  rw [sent_go hs, not_bridgeGo h, if_neg Bool.false_ne_true]

end LogStep

/-! ### Steps without the cache -/

section QuietSteps

variable {s : Bridge w m t} {i : BridgeInput} {g : Log}

theorem quiet_acquire (h : Quiet s) (hs : s.core.state ≠ .inHeader1) :
    s.core.lockAcquire (s.coreIn i) = false := by
  obtain hc | hc := h.cb <;> simp [CoreCtrl.lockAcquire, hc, hs]

theorem quiet_grants (h : s.core.lockAcquire (s.coreIn i) = false) : s.grants i = false := by
  simp [Bridge.grants, CacheManager.lockReq, Bridge.cacheIn, h]

theorem Quiet.next (h : Quiet s) (hok : s.cache.LockOk)
    (hacq : s.core.lockAcquire (s.coreIn i) = false) :
    Quiet (s.next i f) ∧ (s.next i f).core.cbState = .idle := by
  have hls : s.cache.lockStatus = false := hok.lockStatus_of_free h.free
  have hcb : (s.next i f).core.cbState = .idle := by
    change s.core.cbStateNext (s.coreIn i) = .idle
    obtain hc | hc := h.cb
    · simp only [CoreCtrl.cbStateNext, hc, hacq, Bool.false_eq_true, if_false]
    · simp [CoreCtrl.cbStateNext, hc, CoreCtrl.lockRelease, Bridge.coreIn, hls]
  have hfree : (s.next i f).cache.lockPhase = .free := by
    refine (CacheManager.lockPhase_of_free h.free).trans (if_neg ?_)
    simp [CacheManager.lockReq, Bridge.cacheIn, hacq]
  have hce : s.core.bufferCe (s.coreIn i) = false := by
    obtain hc | hc := h.cb <;> simp [CoreCtrl.bufferCe, hc]
  refine ⟨⟨.inl hcb, hfree, ?_⟩, hcb⟩
  simp [Bridge.next, CoreCtrl.next, hce]

/-- Nothing is done for a message while the lock is free. -/
theorem Untouched.next (h : Untouched g.cur) (hq : Quiet s) (hs : s.core.state ≠ .idle)
    (hacq : s.core.lockAcquire (s.coreIn i) = false) (hval : s.core.bridgeVal = false) :
    Untouched (g.nextCur s i) := by
  have hg := quiet_grants hacq
  have hr : s.releases i = false := releases_eq (by simp [hq.free])
  have hce : s.core.bufferCe (s.coreIn i) = false := by
    obtain hc | hc := hq.cb <;> simp [CoreCtrl.bufferCe, hc]
  obtain ⟨hlocks, hreleases⟩ := (counted hs).same hg hr
  refine ⟨hlocks.trans h.locks, hreleases.trans h.releases, ?_, ?_, (sent_next hs hval).trans h.sent⟩
  · simp [Log.nextCur, base_eq hs, hce, h.reads]
  · simp [Log.nextCur, base_eq hs, hq.re, h.words]

/-- A cycle in the idle state may take a header. -/
theorem step_idle (h : Quiet s) (hok : s.cache.LockOk) (hs : s.core.state = .idle)
    (hwf : i.splitterVal = true → WellFormed i.splitterData) :
    PhaseOk (s.next i f) (g.nextCur s i) := by
  have hacq : s.core.lockAcquire (s.coreIn i) = false := quiet_acquire h (by simp [hs])
  obtain ⟨hq, hcb⟩ := h.next (f := f) hok hacq
  have hgo : s.core.splitterGo (s.coreIn i) = i.splitterVal :=
    splitterGo_of_rdy (by simp [CoreCtrl.bridgeRdy, hs])
  have hst : (s.next i f).core.state = if i.splitterVal then .inHeader1 else .idle := by
    change s.core.stateNext (s.coreIn i) = _
    simp only [CoreCtrl.stateNext, hs, hgo]
  cases hv : i.splitterVal with
  | false =>
    rw [hv] at hst
    exact phaseOk_idle hst hq
  | true =>
    rw [hv] at hgo hst
    have hbase : g.base s i = .empty := by simp [Log.base, hs, hgo]
    have hflits : (g.nextCur s i).flits = [i.splitterData] := by
      simp [Log.nextCur, hbase, hgo, Exchange.empty]
    have hheader : (g.nextCur s i).header = i.splitterData := by
      rw [Exchange.header, hflits]
      rfl
    have hce : s.core.bufferCe (s.coreIn i) = false := by
      obtain hc | hc := h.cb <;> simp [CoreCtrl.bufferCe, hc]
    refine phaseOk_inHeader1 hst ⟨⟨?_, ?_, ?_, by rw [hheader]; exact hwf hv⟩, hq, hcb, fun k => ?_,
      ?_, by rw [hflits]; rfl, ⟨?_, ?_, ?_, ?_, ?_⟩⟩
    · rw [hheader]
      simp [Bridge.next, CoreCtrl.next, hs, hgo]
    · rw [hheader]
      simp [Bridge.next, CoreCtrl.next, hs, hgo]
    · rw [hheader]
      simp [Bridge.next, CoreCtrl.next, hs, hgo]
    · simp [Bridge.next, CoreCtrl.next, CoreCtrl.msgDataValNext, hs, h.re]
    · simp [Bridge.next, CoreCtrl.next, CoreCtrl.counterNext, hs]
    · simp [Log.nextCur, hbase, quiet_grants hacq, Exchange.empty]
    · simp [Log.nextCur, hbase, releases_eq (i := i) (show s.cache.lockPhase ≠ .lock by simp [h.free]),
        Exchange.empty]
    · simp [Log.nextCur, hbase, hce, Exchange.empty]
    · simp [Log.nextCur, hbase, h.re, Exchange.empty]
    · have hval : s.core.bridgeGo (s.coreIn i) = false :=
        not_bridgeGo (by simp [CoreCtrl.bridgeVal, hs])
      simp [Log.nextCur, hbase, hval, Exchange.empty]

theorem step_rst (h : Quiet s) (hok : s.cache.LockOk) (hs : s.core.state = .rst) {x : Exchange} :
    PhaseOk (s.next i f) x := by
  have hst : (s.next i f).core.state = .idle := by
    change s.core.stateNext (s.coreIn i) = _
    simp only [CoreCtrl.stateNext, hs]
  exact phaseOk_idle hst (h.next hok (quiet_acquire h (by simp [hs]))).1

/-- A message that is no request gets nothing. -/
theorem served_untouched {n : Nat} {x : Exchange} (h : Untouched x) (hrd : isRd x.header.type = false)
    (hwr : isWr x.header.type = false) (hlen : x.flits.length = x.header.length.toNat + 1) :
    Served n x := by
  have hreq : x.isRequest = false := by simp [Exchange.isRequest, hrd, hwr]
  exact
    { whole := hlen
      locks := by simp [hreq, h.locks]
      releases := by simp [hreq, h.releases]
      sent := by simp [hreq, h.sent]
      reads := fun hr => by simp [hrd] at hr
      words := fun hr => by simp [hrd] at hr }

theorem head_next {x x' : Exchange} (h : Head s.core x) (hx : x'.header = x.header)
    (hs : s.core.state ≠ .idle) : Head (s.next i f).core x' := by
  refine ⟨?_, ?_, ?_, hx ▸ h.wellFormed⟩
  · rw [hx, ← h.type]
    simp [Bridge.next, CoreCtrl.next, hs]
  · rw [hx, ← h.payload]
    simp [Bridge.next, CoreCtrl.next, hs]
  · rw [hx, ← h.mshr]
    simp [Bridge.next, CoreCtrl.next, hs]

theorem type_next (hs : s.core.state ≠ .idle) :
    (s.next i f).core.type = s.core.type ∧
      (s.next i f).core.payload = s.core.payload := by
  simp [Bridge.next, CoreCtrl.next, hs]

/-- A message of another type is thrown away. -/
theorem step_throwing (h : Throwing s g.cur) (hok : s.cache.LockOk) (hs : s.core.state = .throwing) :
    PhaseOk (s.next i f) (g.nextCur s i) ∧
      ((s.next i f).core.state = .idle → Served (w + m) (g.nextCur s i)) := by
  have hne : s.core.state ≠ .idle := by simp [hs]
  have hacq : s.core.lockAcquire (s.coreIn i) = false := quiet_acquire h.quiet (by simp [hs])
  obtain ⟨hq, -⟩ := h.quiet.next (f := f) hok hacq
  have hgo : s.core.splitterGo (s.coreIn i) = i.splitterVal :=
    splitterGo_of_rdy (by simp [CoreCtrl.bridgeRdy, hs])
  have hun : Untouched (g.nextCur s i) :=
    h.untouched.next h.quiet hne hacq (by simp [CoreCtrl.bridgeVal, hs])
  have hlen := h.length
  have hbound := h.bound
  have hpay := s.core.payload.isLt
  have hheader : (g.nextCur s i).header = g.cur.header := flits_getD hne fun _ => by omega
  have hcount : s.core.counter.setWidth 32 = s.core.payload.setWidth 32 - 1 ↔
      s.core.counter.toNat + 1 = s.core.payload.toNat := by
    have hone : (1 : BitVec 32).toNat ≤ (s.core.payload.setWidth 32).toNat := by
      rw [BitVec.toNat_setWidth, Nat.mod_eq_of_lt (by omega)]
      exact Nat.lt_of_le_of_lt (Nat.zero_le _) hbound
    rw [← BitVec.toNat_inj, BitVec.toNat_sub_of_le hone, BitVec.toNat_setWidth,
      BitVec.toNat_setWidth, Nat.mod_eq_of_lt (by omega), Nat.mod_eq_of_lt (by omega)]
    change _ = s.core.payload.toNat - 1 ↔ _
    omega
  have hst : (s.next i f).core.state =
      if i.splitterVal = true ∧ s.core.counter.toNat + 1 = s.core.payload.toNat
      then .idle else .throwing := by
    change s.core.stateNext (s.coreIn i) = _
    simp only [CoreCtrl.stateNext, hs, hgo, Bool.and_eq_true, decide_eq_true_iff, hcount]
  have hflits := flits_next (g := g) (i := i) hne
  rw [hgo] at hflits
  by_cases hend : i.splitterVal = true ∧ s.core.counter.toNat + 1 = s.core.payload.toNat
  · rw [if_pos hend] at hst
    rw [if_pos hend.1] at hflits
    refine ⟨phaseOk_idle hst hq, fun _ => served_untouched hun ?_ ?_ ?_⟩
    · rw [hheader, ← h.head.type]
      exact h.rd
    · rw [hheader, ← h.head.type]
      exact h.wr
    · rw [hflits, hheader, ← h.head.payload, List.length_append, hlen, ← hend.2]
      rfl
  · rw [if_neg hend] at hst
    refine ⟨?_, goesOn hst (by decide)⟩
    obtain ⟨htype, hpayload⟩ := type_next (i := i) (f := f) hne
    have hcnt : (s.next i f).core.counter =
        if i.splitterVal then s.core.counter + 1 else s.core.counter := by
      change s.core.counterNext (s.coreIn i) = _
      simp only [CoreCtrl.counterNext, hs, hgo]
    have hadd : (s.core.counter + 1).toNat = s.core.counter.toNat + 1 := by
      rw [BitVec.toNat_add]
      exact Nat.mod_eq_of_lt (by simp; omega)
    have hcnt' : (s.next i f).core.counter.toNat =
        if i.splitterVal then s.core.counter.toNat + 1 else s.core.counter.toNat := by
      rw [hcnt]
      split
      · exact hadd
      · rfl
    refine phaseOk_throwing hst ⟨head_next h.head hheader hne, hq, ?_, ?_, ?_, ?_, hun⟩
    · rw [CoreCtrl.wr, htype]
      exact h.wr
    · rw [CoreCtrl.rd, htype]
      exact h.rd
    · rw [hflits, hcnt']
      split
      · rw [List.length_append, hlen]
        rfl
      · exact hlen
    · rw [hcnt', hpayload]
      split
      next hv =>
        have : s.core.counter.toNat + 1 ≠ s.core.payload.toNat := fun he => hend ⟨hv, he⟩
        omega
      next => exact hbound

end QuietSteps

/-! ### The address flit -/

section AddressFlit

variable {s : Bridge w m t} {i : BridgeInput} {g : Log}

theorem not_isWr_of_isRd {type : BitVec 8} (h : isRd type = true) : isWr type = false := by
  simp only [isRd, isLoad, isNcLoad, Bool.or_eq_true, decide_eq_true_iff] at h
  obtain (rfl | rfl) | rfl := h <;> decide

/-- The lock is asked for with the address flit. -/
theorem account_start (h : Header1 s g.cur) (hs : s.core.state = .inHeader1)
    (hgo : s.core.splitterGo (s.coreIn i) = true) :
    Account (if s.core.wr then .buffer2Cache else .cache2Buffer)
        (s.next i f).core.cbState (s.next i f).cache.lockPhase
        (g.nextCur s i) ∧
      (s.next i f).core.cbState =
        if s.core.wr then .buffer2Cache else .cache2Buffer := by
  have hne : s.core.state ≠ .idle := by simp [hs]
  have hacq : s.core.lockAcquire (s.coreIn i) = true := by
    simp [CoreCtrl.lockAcquire, h.cb, hs, hgo]
  have hcb : (s.next i f).core.cbState =
      if s.core.wr then .buffer2Cache else .cache2Buffer := by
    change s.core.cbStateNext (s.coreIn i) = _
    simp only [CoreCtrl.cbStateNext, h.cb, hacq, if_true]
  have hphase : (s.next i f).cache.lockPhase = if s.grants i then .pending else .free :=
    CacheManager.lockPhase_of_free h.quiet.free
  have hr : s.releases i = false := releases_eq (by simp [h.quiet.free])
  have hx := counted (g := g) (i := i) hne
  have hlocks := hx.locks
  have hreleases := hx.releases
  rw [h.untouched.locks] at hlocks
  rw [hr, h.untouched.releases] at hreleases
  refine ⟨⟨.inl hcb, ?_, ?_⟩, hcb⟩
  · rw [hlocks, hcb, hphase]
    cases s.grants i <;> simp
  · rw [hreleases, hcb]
    simp

/-- The message buffer is empty when an access starts. -/
theorem msgData_start (h : Header1 s g.cur) (hs : s.core.state = .inHeader1) (k : BitVec 3) :
    (s.next i f).core.msgDataVal k = false := by
  simp [Bridge.next, CoreCtrl.next, CoreCtrl.msgDataValNext, hs, h.quiet.re, h.val k]

/-- The address flit starts the access. -/
theorem step_address (h : Header1 s g.cur) (hs : s.core.state = .inHeader1)
    (hreq : (s.core.rd || s.core.wr) = true) (hv : i.splitterVal = true) :
    (s.next i f).core.state = .inHeader2 ∧
      Header2 (s.next i f) (g.nextCur s i) := by
  have hne : s.core.state ≠ .idle := by simp [hs]
  have hgo : s.core.splitterGo (s.coreIn i) = true :=
    (splitterGo_of_rdy (by simp [CoreCtrl.bridgeRdy, hs, hreq])).trans hv
  have hst : (s.next i f).core.state = .inHeader2 := by
    change s.core.stateNext (s.coreIn i) = _
    simp only [CoreCtrl.stateNext, hs, hreq, hgo, if_true]
  have hflits : (g.nextCur s i).flits = g.cur.flits ++ [i.splitterData] := by
    rw [flits_next hne, if_pos hgo]
  have hlen : (g.nextCur s i).flits.length = 2 := by
    rw [hflits, List.length_append, h.length]
    rfl
  have hheader : (g.nextCur s i).header = g.cur.header := flits_getD hne fun _ => by
    rw [h.length]
    exact Nat.zero_lt_one
  have haddrFlit : (g.nextCur s i).addrFlit = i.splitterData := by
    obtain ⟨a, ha⟩ := List.length_eq_one_iff.1 h.length
    rw [Exchange.addrFlit, hflits, ha]
    rfl
  have hhead : Head (s.next i f).core (g.nextCur s i) := head_next h.head hheader hne
  have haddr : (s.next i f).core.addr = (g.nextCur s i).addrFlit.addrRemapped := by
    rw [haddrFlit]
    simp [Bridge.next, CoreCtrl.next, hs, hgo, hreq]
  have hsz : (s.next i f).core.dataSz = (g.nextCur s i).addrFlit.dataSize := by
    rw [haddrFlit]
    simp [Bridge.next, CoreCtrl.next, hs, hgo, hreq]
  have hce : s.core.bufferCe (s.coreIn i) = false := by simp [CoreCtrl.bufferCe, h.cb]
  have hreads : (g.nextCur s i).reads = [] := by
    simp [Log.nextCur, base_eq hne, hce, h.untouched.reads]
  have hwords : (g.nextCur s i).words = [] := by
    simp [Log.nextCur, base_eq hne, h.quiet.re, h.untouched.words]
  have hre : (s.next i f).core.cacheRe = false := by
    simp [Bridge.next, CoreCtrl.next, hce]
  have hoff : (s.next i f).core.offset = 0 := by
    simp [Bridge.next, CoreCtrl.next, h.cb]
  obtain ⟨hacc, hcb⟩ := account_start (f := f) h hs hgo
  obtain ⟨htype, hpayload⟩ := type_next (i := i) (f := f) hne
  refine ⟨hst, hhead, haddr, hsz, ?_, hlen, ?_, ?_⟩
  · simp [Bridge.next, CoreCtrl.next, CoreCtrl.counterNext, hs]
  · exact (sent_next hne (by simp [CoreCtrl.bridgeVal, hs])).trans h.untouched.sent
  cases hwr : s.core.wr with
  | true =>
    rw [hwr, if_pos rfl] at hacc hcb
    have hwr' : isWr g.cur.header.type = true := by
      rw [← h.head.type]
      exact hwr
    obtain ⟨hleast, hmost⟩ := h.head.wellFormed.2 hwr'
    refine .inl ⟨by rw [CoreCtrl.wr, htype]; exact hwr, ⟨hacc, ?_, ?_, hre, hreads, hwords,
      fun _ => ?_, fun _ k => ?_⟩, hcb⟩
    · rw [hpayload, h.head.payload]
      exact hleast
    · rw [hpayload, h.head.payload]
      exact hmost
    · rw [hoff, hpayload, h.head.payload]
      exact ⟨Nat.zero_le _, by simpa using hleast, fun h0 => absurd h0 (Nat.lt_irrefl 0)⟩
    · rw [msgData_start h hs, Exchange.dataCount, hlen]
      simp
  | false =>
    rw [hwr, if_neg Bool.false_ne_true] at hacc hcb
    have hrd : s.core.rd = true := by simpa [hwr] using hreq
    refine .inr ⟨by rw [CoreCtrl.rd, htype]; exact hrd, ⟨hacc, ?_, haddr, hsz, fun _ => ?_,
      fun hc => absurd hcb hc, ⟨(s.next i f).cache.cacheEntryLkp, by rw [hreads]; rfl,
      fun _ _ => rfl⟩, ?_, fun hf => ?_, fun hf => ?_, fun k => ?_, fun k hk => ?_⟩, .inl hcb⟩
    · rw [CoreCtrl.respMask, hhead.type, hsz, Exchange.mask]
    · rw [hoff, hreads]
      exact ⟨rfl, Nat.zero_le _, fun h0 => absurd h0 (Nat.lt_irrefl 0)⟩
    · rw [hre, hreads, hwords]
      rfl
    · rw [hre] at hf
      cases hf
    · rw [hcb] at hf
      cases hf
    · rw [msgData_start h hs, hwords]
      simp
    · rw [hwords] at hk
      exact absurd hk (Nat.not_lt_zero _)

/-- The cycles after a header. -/
theorem step_inHeader1 (h : Header1 s g.cur) (hok : s.cache.LockOk) (hs : s.core.state = .inHeader1) :
    PhaseOk (s.next i f) (g.nextCur s i) ∧
      ((s.next i f).core.state = .idle → Served (w + m) (g.nextCur s i)) := by
  have hne : s.core.state ≠ .idle := by simp [hs]
  by_cases hstart : (s.core.rd || s.core.wr) = true ∧ i.splitterVal = true
  · obtain ⟨hst, hnext⟩ := step_address (f := f) h hs hstart.1 hstart.2
    exact ⟨phaseOk_inHeader2 hst hnext, goesOn hst (by decide)⟩
  have hgo : s.core.splitterGo (s.coreIn i) = false := by
    rw [← Bool.not_eq_true, CoreCtrl.splitterGo, Bool.and_eq_true]
    simp only [CoreCtrl.bridgeRdy, hs]
    exact hstart
  have hacq : s.core.lockAcquire (s.coreIn i) = false := by
    simp [CoreCtrl.lockAcquire, h.cb, hgo]
  obtain ⟨hq, hcb⟩ := h.quiet.next (f := f) hok hacq
  have hun : Untouched (g.nextCur s i) :=
    h.untouched.next h.quiet hne hacq (by simp [CoreCtrl.bridgeVal, hs])
  have hflits : (g.nextCur s i).flits = g.cur.flits := by
    rw [flits_next hne, hgo, if_neg Bool.false_ne_true]
  have hheader : (g.nextCur s i).header = g.cur.header := by rw [Exchange.header, Exchange.header, hflits]
  have hhead : Head (s.next i f).core (g.nextCur s i) := head_next h.head hheader hne
  have hcnt : (s.next i f).core.counter = 0 := by
    simp [Bridge.next, CoreCtrl.next, CoreCtrl.counterNext, hs]
  obtain ⟨htype, hpayload⟩ := type_next (i := i) (f := f) hne
  cases hreq : s.core.rd || s.core.wr with
  | true =>
    have hst : (s.next i f).core.state = .inHeader1 := by
      change s.core.stateNext (s.coreIn i) = _
      simp only [CoreCtrl.stateNext, hs, hreq, hgo, if_true, Bool.false_eq_true, if_false]
    exact ⟨phaseOk_inHeader1 hst ⟨hhead, hq, hcb, msgData_start h hs, hcnt,
      by rw [hflits]; exact h.length, hun⟩, goesOn hst (by decide)⟩
  | false =>
    have hst : (s.next i f).core.state =
        if s.core.payload = 0 then .idle else .throwing := by
      change s.core.stateNext (s.coreIn i) = _
      simp only [CoreCtrl.stateNext, hs, hreq, Bool.false_eq_true, if_false]
    simp only [Bool.or_eq_false_iff] at hreq
    by_cases hp : s.core.payload = 0
    · rw [if_pos hp] at hst
      refine ⟨phaseOk_idle hst hq, fun _ => served_untouched hun ?_ ?_ ?_⟩
      · rw [hheader, ← h.head.type]
        exact hreq.1
      · rw [hheader, ← h.head.type]
        exact hreq.2
      · rw [hflits, hheader, ← h.head.payload, hp, h.length]
        rfl
    · rw [if_neg hp] at hst
      refine ⟨phaseOk_throwing hst ⟨hhead, hq, ?_, ?_, ?_, ?_, hun⟩, goesOn hst (by decide)⟩
      · rw [CoreCtrl.wr, htype]
        exact hreq.2
      · rw [CoreCtrl.rd, htype]
        exact hreq.1
      · rw [hflits, hcnt, h.length]
        rfl
      · rw [hcnt, hpayload]
        exact Nat.pos_of_ne_zero fun h0 => hp (BitVec.eq_of_toNat_eq h0)

end AddressFlit

/-! ### The source and data flits -/

section Flits

variable {s : Bridge w m t} {i : BridgeInput} {g : Log} {k : Writes w m}

/-- The registers stay once they are filled. -/
theorem source_next (h : Source s.core g.cur) (hne : s.core.state ≠ .idle)
    (hh1 : s.core.state ≠ .inHeader1) (hh2 : s.core.state ≠ .inHeader2)
    (hlen : 3 ≤ g.cur.flits.length) : Source (s.next i f).core (g.nextCur s i) := by
  have haddr : (g.nextCur s i).addrFlit = g.cur.addrFlit := flits_getD hne fun _ => by omega
  have hsrc : (g.nextCur s i).srcFlit = g.cur.srcFlit := flits_getD hne fun _ => by omega
  refine ⟨?_, ?_, ?_, ?_, ?_⟩
  · rw [haddr, ← h.addr]
    simp [Bridge.next, CoreCtrl.next, hh1]
  · rw [haddr, ← h.dataSz]
    simp [Bridge.next, CoreCtrl.next, hh1]
  · rw [hsrc, ← h.chipid]
    simp [Bridge.next, CoreCtrl.next, hh2]
  · rw [hsrc, ← h.srcx]
    simp [Bridge.next, CoreCtrl.next, hh2]
  · rw [hsrc, ← h.srcy]
    simp [Bridge.next, CoreCtrl.next, hh2]

theorem wr_next (hne : s.core.state ≠ .idle) :
    (s.next i f).core.wr = s.core.wr ∧ (s.next i f).core.rd = s.core.rd := by
  obtain ⟨htype, -⟩ := type_next (i := i) (f := f) hne
  exact ⟨congrArg isWr htype, congrArg isRd htype⟩

/-- The data count of a message that took a flit. -/
theorem dataCount_next (hne : s.core.state ≠ .idle) : (g.nextCur s i).dataCount =
    if s.core.splitterGo (s.coreIn i) then g.cur.flits.length + 1 - 3 else g.cur.dataCount := by
  rw [Exchange.dataCount, Exchange.dataCount, flits_next hne]
  split
  · rw [List.length_append]
    rfl
  · rfl

/-- A store waits for data. -/
theorem writing_stays (h : Writing s g.cur) (hc : s.core.cbState = .buffer2Cache)
    (hlt : g.cur.dataCount + 3 ≤ s.core.payload.toNat) :
    (s.next i f).core.cbState = .buffer2Cache := by
  change s.core.cbStateNext (s.coreIn i) = _
  rw [writing_next h hc, if_neg]
  rintro ⟨hlast, hce⟩
  have := ((bufferCe_iff h hc).1 hce).2
  omega

theorem reading_stays (hc : s.core.cbState = .cache2Buffer)
    (hl : CoreCtrl.locked (s.coreIn i) = false) :
    (s.next i f).core.cbState = .cache2Buffer := by
  obtain hstay | ⟨-, hl'⟩ := transfer_next (e := s.coreIn i) (.inr hc)
  · exact hstay.trans hc
  · rw [hl] at hl'
    cases hl'

/-- The lock stays until the last word is read. -/
theorem reading_lock (hok : s.cache.LockOk) (h : Reading s g.cur)
    (hl : s.core.cbState = .cache2Buffer → s.cache.lockPhase = .lock)
    (hc : (s.next i f).core.cbState = .cache2Buffer) (hhead : s.core.state ≠ .inHeader1) :
    (s.next i f).cache.lockPhase = .lock := by
  have hcb : s.core.cbState = .cache2Buffer := by
    obtain hcb | ⟨hcb, -⟩ | ⟨hcb, -⟩ := h.account.stage
    · exact hcb
    · change s.core.cbStateNext (s.coreIn i) = _ at hc
      simp only [CoreCtrl.cbStateNext, hcb] at hc
      split at hc <;> cases hc
    · change s.core.cbStateNext (s.coreIn i) = _ at hc
      simp [CoreCtrl.cbStateNext, hcb, CoreCtrl.lockAcquire, hhead] at hc
  exact lock_of_locked hok (.inr hcb) ((Bridge.locked_iff hok).2 (.inr (hl hcb)))

/-- A well-formed load has three flits. -/
theorem Head.payload_of_rd {c : CoreCtrl} {x : Exchange} (h : Head c x) (hr : c.rd = true) :
    c.payload = 2 := by
  rw [h.payload]
  refine h.wellFormed.1 ?_
  rw [← h.type]
  exact hr

/-- What a cycle leaves of a message whose source flit has not come before it. -/
structure Header2Kept (s : Bridge w m t) (i : BridgeInput) (f : BitVec 24) (g : Log) : Prop where
  gains : Gains s i g.cur (g.nextCur s i)
  head : Head (s.next i f).core (g.nextCur s i)
  addr : (s.next i f).core.addr = (g.nextCur s i).addrFlit.addrRemapped
  dataSz : (s.next i f).core.dataSz = (g.nextCur s i).addrFlit.dataSize
  counter : (s.next i f).core.counter = 0
  sent : (g.nextCur s i).sent = []
  dataCount : (g.nextCur s i).dataCount = 0
  payload : (s.next i f).core.payload = s.core.payload
  splitterGo : s.core.splitterGo (s.coreIn i) = i.splitterVal

theorem Header2.kept (h : Header2 s g.cur) (hs : s.core.state = .inHeader2) :
    Header2Kept s i f g := by
  have hne : s.core.state ≠ .idle := by simp [hs]
  have hx : Gains s i g.cur (g.nextCur s i) := gains hne fun _ => by rw [h.length]
  exact
    { gains := hx
      head := head_next h.head hx.header hne
      addr := by
        rw [hx.addrFlit, ← h.addr]
        simp [Bridge.next, CoreCtrl.next, hs]
      dataSz := by
        rw [hx.addrFlit, ← h.dataSz]
        simp [Bridge.next, CoreCtrl.next, hs]
      counter := by simp [Bridge.next, CoreCtrl.next, CoreCtrl.counterNext, hs]
      sent := (sent_next (g := g) (i := i) hne (by simp [CoreCtrl.bridgeVal, hs])).trans h.sent
      dataCount := by
        rw [dataCount_next hne, Exchange.dataCount, h.length]
        split <;> rfl
      payload := (type_next (i := i) (f := f) hne).2
      splitterGo := splitterGo_of_rdy (by simp [CoreCtrl.bridgeRdy, hs]) }

/-- A store that waits for its source flit or gets it. -/
theorem Header2.writing_next (h : Header2 s g.cur) (hok : s.cache.LockOk)
    (hs : s.core.state = .inHeader2) (hwriting : Writing s g.cur)
    (hc : s.core.cbState = .buffer2Cache) :
    Writing (s.next i f) (g.nextCur s i) ∧ (s.next i f).core.cbState = .buffer2Cache := by
  have hk := h.kept (i := i) (f := f) hs
  have hdata : g.cur.dataCount = 0 := by rw [Exchange.dataCount, h.length]
  constructor
  · refine hwriting.step hok hk.gains (by simp [hs]) (by simp [hs]) ?_ ?_
    · intro hd
      rw [hs] at hd
      cases hd
    · simp [hk.dataCount, hdata, hs]
  · refine writing_stays hwriting hc ?_
    rw [hdata]
    simpa using hwriting.least

/-- No flit comes. -/
theorem header2_waits (h : Header2 s g.cur) (hok : s.cache.LockOk) (hinv : TagInv (s.cache, k))
    (hentry : s.cache.EntryOk) (hs : s.core.state = .inHeader2) (hv : i.splitterVal = false)
    (htime : s.core.rd = true → s.core.cbState ≠ .unlock) :
    PhaseOk (s.next i f) (g.nextCur s i) ∧ (s.next i f).core.state ≠ .idle := by
  have hne : s.core.state ≠ .idle := by simp [hs]
  have hk := h.kept (i := i) (f := f) hs
  have hgo := hk.splitterGo.trans hv
  obtain ⟨hwr, hrd⟩ := wr_next (i := i) (f := f) hne
  have hst : (s.next i f).core.state = .inHeader2 := by
    change s.core.stateNext (s.coreIn i) = _
    simp only [CoreCtrl.stateNext, hs, hgo, Bool.false_eq_true, if_false]
  refine ⟨phaseOk_inHeader2 hst ⟨hk.head, hk.addr, hk.dataSz, hk.counter, ?_, hk.sent, ?_⟩,
    by rw [hst]; decide⟩
  · rw [flits_next hne, hgo, if_neg Bool.false_ne_true]
    exact h.length
  obtain ⟨hw, hwriting, hc⟩ | ⟨hr, hreading, hc | ⟨hc, -⟩⟩ := h.access
  · obtain ⟨hnext, hc'⟩ := h.writing_next (i := i) (f := f) hok hs hwriting hc
    exact .inl ⟨hwr.trans hw, hnext, hc'⟩
  · refine .inr ⟨hrd.trans hr, hreading.step hok hinv hentry hk.gains (by simp [hs]) hne
      (by simp [hs]), ?_⟩
    obtain hstay | ⟨hun, hl⟩ := transfer_next (e := s.coreIn i) (.inr hc)
    · exact .inl (hstay.trans hc)
    · exact .inr ⟨hun, lock_of_locked hok (.inr hc) hl⟩
  · exact absurd hc (htime hr)

/-- The source flit comes. -/
theorem Header2.source_next (h : Header2 s g.cur) (hs : s.core.state = .inHeader2)
    (hv : i.splitterVal = true) : Source (s.next i f).core (g.nextCur s i) ∧
      (g.nextCur s i).flits.length = 3 := by
  have hk := h.kept (i := i) (f := f) hs
  have hgo := hk.splitterGo.trans hv
  have hflits : (g.nextCur s i).flits = g.cur.flits ++ [i.splitterData] := by
    rw [flits_next (by simp [hs]), hgo, if_pos rfl]
  have hsrcFlit : (g.nextCur s i).srcFlit = i.splitterData := by
    rw [Exchange.srcFlit, hflits, List.getD_eq_getElem?_getD,
      List.getElem?_append_right (by rw [h.length]), h.length]
    rfl
  refine ⟨⟨hk.addr, hk.dataSz, ?_, ?_, ?_⟩, ?_⟩
  · rw [hsrcFlit]
    simp [Bridge.next, CoreCtrl.next, hs, hgo]
  · rw [hsrcFlit]
    simp [Bridge.next, CoreCtrl.next, hs, hgo]
  · rw [hsrcFlit]
    simp [Bridge.next, CoreCtrl.next, hs, hgo]
  · rw [hflits, List.length_append, h.length]
    rfl

/-- The source flit of a store. -/
theorem header2_store (h : Header2 s g.cur) (hok : s.cache.LockOk) (hs : s.core.state = .inHeader2)
    (hv : i.splitterVal = true) (hw : s.core.wr = true) (hwriting : Writing s g.cur)
    (hc : s.core.cbState = .buffer2Cache) :
    PhaseOk (s.next i f) (g.nextCur s i) ∧ (s.next i f).core.state ≠ .idle := by
  have hk := h.kept (i := i) (f := f) hs
  obtain ⟨hsource, hlen⟩ := h.source_next (i := i) (f := f) hs hv
  obtain ⟨hnext, hc'⟩ := h.writing_next (i := i) (f := f) hok hs hwriting hc
  have hwr := (wr_next (i := i) (f := f) (show s.core.state ≠ .idle by simp [hs])).1
  have hst : (s.next i f).core.state = .inData := by
    change s.core.stateNext (s.coreIn i) = _
    simp only [CoreCtrl.stateNext, hs, hk.splitterGo, hv, hw, if_true]
  refine ⟨phaseOk_inData hst ⟨hk.head, hsource, hwr.trans hw, hnext, hc', ?_, ?_, ?_, hk.sent⟩,
    by rw [hst]; decide⟩
  · rw [hk.counter, hk.dataCount]
    rfl
  · rw [hk.dataCount, hk.payload]
    simpa using hwriting.least
  · rw [hlen, hk.dataCount]

/-- The source flit of a load. -/
theorem header2_load (h : Header2 s g.cur) (hok : s.cache.LockOk) (hinv : TagInv (s.cache, k))
    (hentry : s.cache.EntryOk) (hs : s.core.state = .inHeader2) (hv : i.splitterVal = true)
    (hr : s.core.rd = true) (hreading : Reading s g.cur)
    (hc : s.core.cbState = .cache2Buffer ∨ (s.core.cbState = .unlock ∧ s.cache.lockPhase = .lock)) :
    PhaseOk (s.next i f) (g.nextCur s i) ∧ (s.next i f).core.state ≠ .idle := by
  have hne : s.core.state ≠ .idle := by simp [hs]
  have hk := h.kept (i := i) (f := f) hs
  have hgo := hk.splitterGo.trans hv
  obtain ⟨hsource, hlen⟩ := h.source_next (i := i) (f := f) hs hv
  have hrd := (wr_next (i := i) (f := f) hne).2
  have hw : s.core.wr = false := not_isWr_of_isRd hr
  have hlen' : (g.nextCur s i).flits.length = (s.next i f).core.payload.toNat + 1 := by
    rw [hlen, hk.payload, h.head.payload_of_rd hr]
    rfl
  have hnext : Reading (s.next i f) (g.nextCur s i) :=
    hreading.step hok hinv hentry hk.gains (by simp [hs]) hne (by simp [hs])
  cases hl : CoreCtrl.locked (s.coreIn i) with
  | true =>
    have hst : (s.next i f).core.state = .outHeader := by
      change s.core.stateNext (s.coreIn i) = _
      simp only [CoreCtrl.stateNext, hs, hgo, hw, hl, if_true, Bool.false_eq_true, if_false]
    refine ⟨phaseOk_outHeader hst ⟨hk.head, hsource, hlen', hk.sent,
      .inr ⟨hrd.trans hr, hnext, fun hc' => ?_⟩⟩, by rw [hst]; decide⟩
    obtain hc | ⟨hc, -⟩ := hc
    · exact lock_of_locked hok (.inr hc) hl
    · change s.core.cbStateNext (s.coreIn i) = _ at hc'
      simp only [CoreCtrl.cbStateNext, hc] at hc'
      split at hc' <;> cases hc'
  | false =>
    have hst : (s.next i f).core.state = .waiting := by
      change s.core.stateNext (s.coreIn i) = _
      simp only [CoreCtrl.stateNext, hs, hgo, hw, hl, if_true, Bool.false_eq_true, if_false]
    obtain hc | ⟨-, hp⟩ := hc
    · exact ⟨phaseOk_waiting hst ⟨hk.head, hsource, hlen', hk.sent,
        .inr ⟨hrd.trans hr, hnext, reading_stays hc hl⟩⟩, by rw [hst]; decide⟩
    · rw [(Bridge.locked_iff hok).2 (.inr hp)] at hl
      cases hl

/-- The cycles before the source flit. A load's flit comes before the lock is given back. -/
theorem step_inHeader2 (h : Header2 s g.cur) (hok : s.cache.LockOk) (hinv : TagInv (s.cache, k))
    (hentry : s.cache.EntryOk) (hs : s.core.state = .inHeader2)
    (htime : s.core.rd = true → s.core.cbState = .unlock → i.splitterVal = true) :
    PhaseOk (s.next i f) (g.nextCur s i) ∧
      (s.next i f).core.state ≠ .idle := by
  cases hv : i.splitterVal with
  | false =>
    refine header2_waits h hok hinv hentry hs hv fun hr hc => ?_
    rw [htime hr hc] at hv
    cases hv
  | true =>
    obtain ⟨hw, hwriting, hc⟩ | ⟨hr, hreading, hc⟩ := h.access
    · exact header2_store h hok hs hv hw hwriting hc
    · exact header2_load h hok hinv hentry hs hv hr hreading hc

/-- The data flits of a store. -/
theorem step_inData (h : InData s g.cur) (hok : s.cache.LockOk) (hs : s.core.state = .inData) :
    PhaseOk (s.next i f) (g.nextCur s i) ∧
      (s.next i f).core.state ≠ .idle := by
  have hne : s.core.state ≠ .idle := by simp [hs]
  have hh1 : s.core.state ≠ .inHeader1 := by simp [hs]
  have hgo : s.core.splitterGo (s.coreIn i) = i.splitterVal :=
    splitterGo_of_rdy (by simp [CoreCtrl.bridgeRdy, hs])
  have hlen := h.length
  have hbound := h.bound
  have hmost := h.writing.most
  have hx : Gains s i g.cur (g.nextCur s i) := gains hne fun _ => by omega
  have hhead : Head (s.next i f).core (g.nextCur s i) := head_next h.head hx.header hne
  have hsource : Source (s.next i f).core (g.nextCur s i) :=
    source_next h.source hne hh1 (by simp [hs]) (by omega)
  have hsent := (sent_next (g := g) (i := i) hne (by simp [CoreCtrl.bridgeVal, hs])).trans h.sent
  obtain ⟨hwr, -⟩ := wr_next (i := i) (f := f) hne
  obtain ⟨-, hpayload⟩ := type_next (i := i) (f := f) hne
  have hdata : (g.nextCur s i).dataCount =
      if i.splitterVal then g.cur.dataCount + 1 else g.cur.dataCount := by
    rw [dataCount_next hne, hgo, hlen]
    rfl
  have hwriting : Writing (s.next i f) (g.nextCur s i) :=
    h.writing.step hok hx hne hh1 (fun _ => ⟨h.counter, by omega⟩)
      (by rw [hdata, hgo]; simp [hs])
  have hcb := writing_stays (i := i) (f := f) h.writing h.cb hbound
  have hflits := flits_next (g := g) (i := i) hne
  have hlast := eq_lastData_iff (v := s.core.counter) (by omega) h.writing.least
  have hst : (s.next i f).core.state =
      if i.splitterVal = true ∧ s.core.counter.toNat + 3 = s.core.payload.toNat
      then .waiting else .inData := by
    change s.core.stateNext (s.coreIn i) = _
    simp only [CoreCtrl.stateNext, hs, hgo, Bool.and_eq_true, decide_eq_true_iff, hlast]
  rw [hgo] at hflits
  by_cases hend : i.splitterVal = true ∧ s.core.counter.toNat + 3 = s.core.payload.toNat
  · rw [if_pos hend] at hst
    rw [if_pos hend.1] at hflits
    refine ⟨phaseOk_waiting hst ⟨hhead, hsource, ?_, hsent, .inl ⟨hwr.trans h.wr, hwriting, hcb⟩⟩,
      by rw [hst]; decide⟩
    rw [hflits, List.length_append, hlen, hpayload, ← hend.2, h.counter]
    rfl
  · rw [if_neg hend] at hst
    have hcnt : (s.next i f).core.counter =
        if i.splitterVal then s.core.counter + 1 else s.core.counter := by
      change s.core.counterNext (s.coreIn i) = _
      simp only [CoreCtrl.counterNext, hs, hgo]
    refine ⟨phaseOk_inData hst ⟨hhead, hsource, hwr.trans h.wr, hwriting, hcb, ?_, ?_, ?_, hsent⟩,
      by rw [hst]; decide⟩
    · rw [hcnt, hdata]
      split
      next =>
        have hcounter := h.counter
        rw [BitVec.toNat_add, hcounter]
        exact Nat.mod_eq_of_lt (by simp; omega)
      next => exact h.counter
    · rw [hdata, hpayload]
      split
      next hv =>
        have hcounter := h.counter
        have : s.core.counter.toNat + 3 ≠ s.core.payload.toNat := fun he => hend ⟨hv, he⟩
        omega
      next => exact hbound
    · rw [hflits, hdata]
      split
      · rw [List.length_append, hlen]
        rfl
      · exact hlen

/-- What a cycle leaves of a message whose flits have all come. -/
structure Kept (s : Bridge w m t) (i : BridgeInput) (f : BitVec 24) (g : Log) : Prop where
  gains : Gains s i g.cur (g.nextCur s i)
  head : Head (s.next i f).core (g.nextCur s i)
  source : Source (s.next i f).core (g.nextCur s i)
  flits : (g.nextCur s i).flits = g.cur.flits
  length : (g.nextCur s i).flits.length = (s.next i f).core.payload.toNat + 1
  dataCount : (g.nextCur s i).dataCount = g.cur.dataCount
  splitterGo : s.core.splitterGo (s.coreIn i) = false

theorem Kept.of_whole (hhead : Head s.core g.cur) (hsource : Source s.core g.cur)
    (hlen : g.cur.flits.length = s.core.payload.toNat + 1) (hthree : 3 ≤ g.cur.flits.length)
    (hs : s.core.state = .waiting ∨ s.core.state = .outHeader ∨ s.core.state = .outData) :
    Kept s i f g := by
  have hne : s.core.state ≠ .idle := by obtain hs | hs | hs := hs <;> simp [hs]
  have hh1 : s.core.state ≠ .inHeader1 := by obtain hs | hs | hs := hs <;> simp [hs]
  have hh2 : s.core.state ≠ .inHeader2 := by obtain hs | hs | hs := hs <;> simp [hs]
  have hgo : s.core.splitterGo (s.coreIn i) = false :=
    not_splitterGo (by obtain hs | hs | hs := hs <;> simp [CoreCtrl.bridgeRdy, hs])
  have hx : Gains s i g.cur (g.nextCur s i) := Sd.gains hne fun hg => by rw [hgo] at hg; cases hg
  have hflits : (g.nextCur s i).flits = g.cur.flits := by
    rw [flits_next hne, hgo, if_neg Bool.false_ne_true]
  exact
    { gains := hx
      head := head_next hhead hx.header hne
      source := source_next hsource hne hh1 hh2 hthree
      flits := hflits
      length := by rw [hflits, (type_next (i := i) (f := f) hne).2, hlen]
      dataCount := by
        rw [Exchange.dataCount, hflits]
        rfl
      splitterGo := hgo }

/-- A store with all its flits goes on writing. -/
theorem Kept.writing (hk : Kept s i f g) (hok : s.cache.LockOk) (hwriting : Writing s g.cur)
    (hs : s.core.state = .waiting ∨ s.core.state = .outHeader) :
    Writing (s.next i f) (g.nextCur s i) := by
  refine hwriting.step hok hk.gains (by obtain hs | hs := hs <;> simp [hs])
    (by obtain hs | hs := hs <;> simp [hs]) ?_ (by simp [hk.dataCount, hk.splitterGo])
  intro hd
  obtain hs | hs := hs <;>
    · rw [hs] at hd
      cases hd

/-- The words of a store are being written. -/
theorem waiting_store (h : Waiting s g.cur) (hok : s.cache.LockOk) (hs : s.core.state = .waiting)
    (hw : s.core.wr = true) (hwriting : Writing s g.cur) (hc : s.core.cbState = .buffer2Cache) :
    PhaseOk (s.next i f) (g.nextCur s i) ∧ (s.next i f).core.state ≠ .idle := by
  have hne : s.core.state ≠ .idle := by simp [hs]
  have hlen := h.length
  have hleast := hwriting.least
  have hk : Kept s i f g := .of_whole h.head h.source hlen (by omega) (.inl hs)
  have hsent := (sent_next (g := g) (i := i) hne (by simp [CoreCtrl.bridgeVal, hs])).trans h.sent
  have hwr := (wr_next (i := i) (f := f) hne).1
  have hcount : g.cur.dataCount + 2 = s.core.payload.toNat := by
    rw [Exchange.dataCount]
    omega
  have hlast := eq_lastData_iff (v := s.core.offset) (by omega) hleast
  have hrdf : s.core.rd = false := by
    cases hr : s.core.rd with
    | false => rfl
    | true =>
      have hn : s.core.wr = false := not_isWr_of_isRd hr
      rw [hw] at hn
      cases hn
  have hnext := hk.writing hok hwriting (.inl hs)
  have hce := bufferCe_iff (i := i) hwriting hc
  have hcb : (s.next i f).core.cbState = _ := writing_next (i := i) hwriting hc
  have hst : (s.next i f).core.state =
      if CoreCtrl.locked (s.coreIn i) = true ∧ s.core.offset.toNat + 3 = s.core.payload.toNat
      then .outHeader else .waiting := by
    change s.core.stateNext (s.coreIn i) = _
    simp only [CoreCtrl.stateNext, hs, hw, hrdf, Bool.true_and, Bool.or_false, Bool.and_eq_true,
      decide_eq_true_iff, hlast]
  by_cases hend : CoreCtrl.locked (s.coreIn i) = true ∧
      s.core.offset.toNat + 3 = s.core.payload.toNat
  · rw [if_pos hend] at hst
    rw [if_pos ⟨hend.2, hce.2 ⟨hend.1, by omega⟩⟩] at hcb
    exact ⟨phaseOk_outHeader hst ⟨hk.head, hk.source, hk.length, hsent,
      .inl ⟨hwr.trans hw, hnext, by rw [hcb]; decide⟩⟩, by rw [hst]; decide⟩
  · rw [if_neg hend] at hst
    rw [if_neg fun he => hend ⟨(hce.1 he.2).1, he.1⟩] at hcb
    exact ⟨phaseOk_waiting hst ⟨hk.head, hk.source, hk.length, hsent,
      .inl ⟨hwr.trans hw, hnext, hcb⟩⟩, by rw [hst]; decide⟩

/-- A load waits for its entry. -/
theorem waiting_load (h : Waiting s g.cur) (hok : s.cache.LockOk) (hinv : TagInv (s.cache, k))
    (hentry : s.cache.EntryOk) (hs : s.core.state = .waiting) (hr : s.core.rd = true)
    (hreading : Reading s g.cur) (hc : s.core.cbState = .cache2Buffer) :
    PhaseOk (s.next i f) (g.nextCur s i) ∧ (s.next i f).core.state ≠ .idle := by
  have hne : s.core.state ≠ .idle := by simp [hs]
  have hk : Kept s i f g := .of_whole h.head h.source h.length
    (by rw [h.length, h.head.payload_of_rd hr]; decide) (.inl hs)
  have hsent := (sent_next (g := g) (i := i) hne (by simp [CoreCtrl.bridgeVal, hs])).trans h.sent
  have hrd := (wr_next (i := i) (f := f) hne).2
  have hnext : Reading (s.next i f) (g.nextCur s i) :=
    hreading.step hok hinv hentry hk.gains (by simp [hs]) hne (by simp [hs])
  have hst : (s.next i f).core.state =
      if CoreCtrl.locked (s.coreIn i) = true then .outHeader else .waiting := by
    change s.core.stateNext (s.coreIn i) = _
    simp only [CoreCtrl.stateNext, hs, hr, Bool.or_true, Bool.and_true]
  cases hl : CoreCtrl.locked (s.coreIn i) with
  | true =>
    rw [hl, if_pos rfl] at hst
    exact ⟨phaseOk_outHeader hst ⟨hk.head, hk.source, hk.length, hsent, .inr ⟨hrd.trans hr, hnext,
      fun _ => lock_of_locked hok (.inr hc) hl⟩⟩, by rw [hst]; decide⟩
  | false =>
    rw [hl, if_neg Bool.false_ne_true] at hst
    exact ⟨phaseOk_waiting hst ⟨hk.head, hk.source, hk.length, hsent, .inr ⟨hrd.trans hr, hnext,
      reading_stays hc hl⟩⟩, by rw [hst]; decide⟩

theorem step_waiting (h : Waiting s g.cur) (hok : s.cache.LockOk) (hinv : TagInv (s.cache, k))
    (hentry : s.cache.EntryOk) (hs : s.core.state = .waiting) :
    PhaseOk (s.next i f) (g.nextCur s i) ∧
      (s.next i f).core.state ≠ .idle := by
  obtain ⟨hw, hwriting, hc⟩ | ⟨hr, hreading, hc⟩ := h.access
  · exact waiting_store h hok hs hw hwriting hc
  · exact waiting_load h hok hinv hentry hs hr hreading hc

end Flits

/-! ### The response -/

section Response

variable {s : Bridge w m t} {i : BridgeInput} {g : Log} {k : Writes w m}

theorem respHeader_eq {c : CoreCtrl} {x : Exchange} (h : Head c x) (h' : Source c x) :
    c.respHeader = x.respHeader := by
  rw [CoreCtrl.respHeader, Exchange.respHeader, h.type, h.mshr, h'.chipid, h'.srcx, h'.srcy]

/-- A request whose lock is given back was granted it once. -/
theorem account_done {busy : CbState} {cb : CbState} {x : Exchange}
    (h : Account busy cb .free x) (hcb : cb ≠ busy) : x.locks = 1 ∧ x.releases = 1 := by
  refine ⟨?_, ?_⟩
  · rw [h.locks, if_neg fun hc => hcb hc.1]
  · rw [h.releases, if_pos ⟨hcb, rfl⟩]

theorem Reading.re_of_free {x : Exchange} (h : Reading s x) (hp : s.cache.lockPhase = .free) :
    s.core.cacheRe = false := by
  cases hre : s.core.cacheRe with
  | false => rfl
  | true =>
    have := (h.late hre).2
    rw [hp] at this
    cases this

/-- The end of a store. -/
theorem served_store {n : Nat} {x : Exchange} (hwr : isWr x.header.type = true)
    (hlen : x.flits.length = x.header.length.toNat + 1) (hlocks : x.locks = 1)
    (hreleases : x.releases = 1) (hsent : x.sent = [x.respHeader]) : Served n x := by
  have hreq : x.isRequest = true := by simp [Exchange.isRequest, hwr]
  have hrd : isRd x.header.type = false := by
    cases hr : isRd x.header.type with
    | false => rfl
    | true => rw [not_isWr_of_isRd hr] at hwr; cases hwr
  exact
    { whole := hlen
      locks := by rw [hlocks, hreq, if_pos rfl]
      releases := by rw [hreleases, hreq, if_pos rfl]
      sent := by rw [hsent, hreq, if_pos rfl, Exchange.response, hwr, if_pos rfl]
      reads := fun hr => by simp [hrd] at hr
      words := fun hr => by simp [hrd] at hr }

/-- The header of the response is offered, and leaves with `splitterRdy`. -/
theorem OutHeader.kept (h : OutHeader s g.cur) (hs : s.core.state = .outHeader) :
    Kept s i f g ∧ (s.next i f).core.counter = 0 ∧
      s.core.bridgeGo (s.coreIn i) = i.splitterRdy ∧
      (g.nextCur s i).sent = if i.splitterRdy then [(g.nextCur s i).respHeader] else [] := by
  have hne : s.core.state ≠ .idle := by simp [hs]
  have hlen := h.length
  have hbgo : s.core.bridgeGo (s.coreIn i) = i.splitterRdy := by
    simp [CoreCtrl.bridgeGo, CoreCtrl.bridgeVal, hs]
  have hthree : 3 ≤ g.cur.flits.length := by
    obtain ⟨-, hwriting, -⟩ | ⟨hr, -, -⟩ := h.access
    · have hleast := hwriting.least
      omega
    · rw [hlen, h.head.payload_of_rd hr]
      decide
  have hk : Kept s i f g := .of_whole h.head h.source hlen hthree (.inr (.inl hs))
  have hresp : s.core.respHeader = (g.nextCur s i).respHeader := by
    have hsame : (s.next i f).core.respHeader = s.core.respHeader := by
      simp [Bridge.next, CoreCtrl.next, CoreCtrl.respHeader, hs]
    rw [← hsame]
    exact respHeader_eq hk.head hk.source
  refine ⟨hk, by simp [Bridge.next, CoreCtrl.next, CoreCtrl.counterNext, hs], hbgo, ?_⟩
  have hdata : s.core.bridgeData = s.core.respHeader := by simp only [CoreCtrl.bridgeData, hs]
  rw [sent_go hne, hbgo, h.sent, hdata, ← hresp]
  rfl

/-- The response to a store is its header. -/
theorem outHeader_store (h : OutHeader s g.cur) (hok : s.cache.LockOk)
    (hs : s.core.state = .outHeader) (hw : s.core.wr = true) (hwriting : Writing s g.cur)
    (hc : s.core.cbState ≠ .buffer2Cache) : PhaseOk (s.next i f) (g.nextCur s i) ∧
      ((s.next i f).core.state = .idle → Served (w + m) (g.nextCur s i)) := by
  obtain ⟨hk, -, hbgo, hsent⟩ := h.kept (i := i) (f := f) hs
  have hwr := (wr_next (i := i) (f := f) (show s.core.state ≠ .idle by simp [hs])).1
  have hnext := hk.writing hok hwriting (.inr hs)
  obtain ⟨hacc, hcb, hfree⟩ := account_unlock (f := f) hok (.inl rfl) (hwriting.account.over hc)
    (by simp [hs]) hwriting.account hk.gains.counted
  have hst : (s.next i f).core.state = if i.splitterRdy then .idle else .outHeader := by
    change s.core.stateNext (s.coreIn i) = _
    simp only [CoreCtrl.stateNext, hs, hbgo, respPayload, show isWr s.core.type = true from hw,
      if_true]
  cases hv : i.splitterRdy with
  | false =>
    rw [hv, if_neg Bool.false_ne_true] at hst hsent
    exact ⟨phaseOk_outHeader hst ⟨hk.head, hk.source, hk.length, hsent,
      .inl ⟨hwr.trans hw, hnext, hcb⟩⟩, goesOn hst (by decide)⟩
  | true =>
    rw [hv, if_pos rfl] at hst hsent
    rw [hfree] at hacc
    obtain ⟨hlocks, hreleases⟩ := account_done hacc hcb
    refine ⟨phaseOk_idle hst ⟨(hacc.over hcb).symm, hfree, hnext.re⟩, fun _ =>
      served_store ?_ ?_ hlocks hreleases hsent⟩
    · rw [hk.gains.header, ← h.head.type]
      exact hw
    · rw [hk.length, hk.head.payload]

/-- The header of a load's response. -/
theorem outHeader_load (h : OutHeader s g.cur) (hok : s.cache.LockOk) (hinv : TagInv (s.cache, k))
    (hentry : s.cache.EntryOk) (hs : s.core.state = .outHeader) (hr : s.core.rd = true)
    (hreading : Reading s g.cur) (hl : s.core.cbState = .cache2Buffer → s.cache.lockPhase = .lock) :
    PhaseOk (s.next i f) (g.nextCur s i) ∧
      ((s.next i f).core.state = .idle → Served (w + m) (g.nextCur s i)) := by
  have hne : s.core.state ≠ .idle := by simp [hs]
  have hh1 : s.core.state ≠ .inHeader1 := by simp [hs]
  obtain ⟨hk, hcnt, hbgo, hsent⟩ := h.kept (i := i) (f := f) hs
  have hrd := (wr_next (i := i) (f := f) hne).2
  have hw : isWr s.core.type = false := not_isWr_of_isRd hr
  have hnext : Reading (s.next i f) (g.nextCur s i) :=
    hreading.step hok hinv hentry hk.gains (by simp [hs]) hne hh1
  have hst : (s.next i f).core.state = if i.splitterRdy then .outData else .outHeader := by
    change s.core.stateNext (s.coreIn i) = _
    simp [CoreCtrl.stateNext, hs, hbgo, respPayload, hw]
  have hlock := fun hc' => reading_lock (i := i) (f := f) hok hreading hl hc' hh1
  cases hv : i.splitterRdy with
  | false =>
    rw [hv, if_neg Bool.false_ne_true] at hst hsent
    exact ⟨phaseOk_outHeader hst ⟨hk.head, hk.source, hk.length, hsent,
      .inr ⟨hrd.trans hr, hnext, hlock⟩⟩, goesOn hst (by decide)⟩
  | true =>
    rw [hv, if_pos rfl] at hst hsent
    refine ⟨phaseOk_outData hst ⟨hk.head, hk.source, hrd.trans hr, hnext, hlock, hk.length,
      ?_, ?_, ?_⟩, goesOn hst (by decide)⟩
    · rw [hcnt]
      exact Nat.zero_le _
    · rw [hcnt]
      exact fun j hj => absurd hj (Nat.not_lt_zero j)
    · rw [hcnt, hsent]
      rfl

/-- The header of the response. -/
theorem step_outHeader (h : OutHeader s g.cur) (hok : s.cache.LockOk) (hinv : TagInv (s.cache, k))
    (hentry : s.cache.EntryOk) (hs : s.core.state = .outHeader) :
    PhaseOk (s.next i f) (g.nextCur s i) ∧
      ((s.next i f).core.state = .idle → Served (w + m) (g.nextCur s i)) := by
  obtain ⟨hw, hwriting, hc⟩ | ⟨hr, hreading, hl⟩ := h.access
  · exact outHeader_store h hok hs hw hwriting hc
  · exact outHeader_load h hok hinv hentry hs hr hreading hl

/-- The words that have come stay. -/
theorem words_getD {x x' : Exchange} (hx : Gains s i x x') {j : Nat} (hj : j < x.words.length) :
    x'.words.getD j 0 = x.words.getD j 0 := by
  rw [hx.words]
  split
  · exact getD_append_of_lt hj
  · rfl

theorem words_le {x x' : Exchange} (hx : Gains s i x x') : x.words.length ≤ x'.words.length := by
  rw [hx.words]
  split
  · simp
  · exact Nat.le_refl _

/-- The index of the word that is sent. -/
theorem toNat_outIndex {c : CoreCtrl} {mask : BitVec 3} (hmask : c.respMask = mask)
    (hc : c.counter.toNat ≤ 7) : c.outIndex.toNat = c.counter.toNat &&& mask.toNat := by
  rw [CoreCtrl.outIndex, BitVec.toNat_and, BitVec.toNat_setWidth, hmask, Nat.mod_eq_of_lt (by omega)]

theorem seven_and (mask : BitVec 3) : 7 &&& mask.toNat = mask.toNat := by
  have h : ∀ v : Fin 8, 7 &&& v.val = v.val := by decide
  exact h mask.toFin

/-- With the last word come the lock is given back. -/
theorem reading_over (h : Reading s g.cur) (hw : g.cur.mask.toNat < g.cur.words.length) :
    s.core.cbState ≠ .cache2Buffer ∧ s.cache.lockPhase = .free ∧ s.core.cacheRe = false ∧
      g.cur.words.length = g.cur.mask.toNat + 1 := by
  have hpend := h.pending
  have hc : s.core.cbState ≠ .cache2Buffer := by
    intro hc
    have := (h.offset hc).2.1
    omega
  have hfull := h.full hc
  have hre : s.core.cacheRe = false := by
    cases hre : s.core.cacheRe with
    | false => rfl
    | true =>
      rw [hre] at hpend
      simp only [Bool.toNat_true] at hpend
      omega
  rw [hre] at hpend
  refine ⟨hc, ?_, hre, by simpa using hpend.trans hfull⟩
  obtain hst | ⟨hst, hp | hp⟩ | ⟨-, hp⟩ := h.account.stage
  · exact absurd hst hc
  · rw [h.last hst hp] at hre
    cases hre
  · exact hp
  · exact hp

/-- The end of a load. -/
theorem served_load {x : Exchange} (hr : isRd x.header.type = true)
    (hlen : x.flits.length = x.header.length.toNat + 1) (hlocks : x.locks = 1)
    (hreleases : x.releases = 1)
    (hsent : x.sent = x.respHeader :: (List.range 8).map fun j => x.words.getD (j &&& x.mask.toNat) 0)
    (hreads : ∃ entry : BitVec (w + m),
      x.reads = (List.range (x.mask.toNat + 1)).map (x.readAddr entry))
    (hwords : x.words.length = x.mask.toNat + 1) : Served (w + m) x := by
  have hreq : x.isRequest = true := by simp [Exchange.isRequest, hr]
  exact
    { whole := hlen
      locks := by rw [hlocks, hreq, if_pos rfl]
      releases := by rw [hreleases, hreq, if_pos rfl]
      sent := by
        rw [hsent, hreq, if_pos rfl, Exchange.response, not_isWr_of_isRd hr,
          if_neg Bool.false_ne_true]
      reads := fun _ => hreads
      words := fun _ => hwords }

theorem OutData.kept (h : OutData s g.cur) (hs : s.core.state = .outData) : Kept s i f g :=
  .of_whole h.head h.source h.length (by rw [h.length, h.head.payload_of_rd h.rd]; decide)
    (.inr (.inr hs))

/-- The word that leaves has come, and is the one after those that have left. -/
theorem OutData.sends (h : OutData s g.cur) (hs : s.core.state = .outData)
    (hbgo : s.core.bridgeGo (s.coreIn i) = true) :
    s.core.counter.toNat &&& g.cur.mask.toNat < g.cur.words.length ∧
      s.core.bridgeData = g.cur.words.getD (s.core.counter.toNat &&& g.cur.mask.toNat) 0 := by
  have hindex := toNat_outIndex h.reading.mask h.counter
  have hval : s.core.msgDataVal s.core.outIndex = true := by
    simp only [CoreCtrl.bridgeGo, CoreCtrl.bridgeVal, hs, Bool.and_eq_true] at hbgo
    exact hbgo.2
  have hcome : s.core.counter.toNat &&& g.cur.mask.toNat < g.cur.words.length := by
    rw [h.reading.val, decide_eq_true_iff, hindex] at hval
    exact hval
  refine ⟨hcome, ?_⟩
  simp only [CoreCtrl.bridgeData, hs]
  rw [h.reading.buf _ (by rw [hindex]; exact hcome), hindex]

/-- The words that have left are the first ones of the log of the next cycle. -/
theorem OutData.sent_eq (h : OutData s g.cur) (hs : s.core.state = .outData) :
    g.cur.sent = (g.nextCur s i).respHeader :: (List.range s.core.counter.toNat).map
      fun j => (g.nextCur s i).words.getD (j &&& (g.nextCur s i).mask.toNat) 0 := by
  have hk := h.kept (i := i) (f := 0) hs
  have hresp : (g.nextCur s i).respHeader = g.cur.respHeader := by
    rw [Exchange.respHeader, Exchange.respHeader, Exchange.srcFlit, Exchange.srcFlit,
      Exchange.header, Exchange.header, hk.flits]
  rw [h.sent, hresp, hk.gains.mask]
  refine congrArg _ (List.map_congr_left fun j hj => ?_)
  exact (words_getD hk.gains (h.come j (List.mem_range.1 hj))).symm

theorem OutData.sent_go (h : OutData s g.cur) (hs : s.core.state = .outData)
    (hbgo : s.core.bridgeGo (s.coreIn i) = true) : (g.nextCur s i).sent =
      (g.nextCur s i).respHeader :: (List.range (s.core.counter.toNat + 1)).map
        fun j => (g.nextCur s i).words.getD (j &&& (g.nextCur s i).mask.toNat) 0 := by
  have hx := (h.kept (i := i) (f := 0) hs).gains
  obtain ⟨hcome, hdata⟩ := h.sends hs hbgo
  rw [Sd.sent_go (by simp [hs]), hbgo, if_pos rfl, h.sent_eq (i := i) hs, hdata,
    ← words_getD hx hcome, List.range_succ, List.map_append, List.cons_append, ← hx.mask]
  rfl

/-- A response that goes on: its words have come as far as the counter says, and have left. -/
theorem OutData.goes_on (h : OutData s g.cur) (hok : s.cache.LockOk) (hinv : TagInv (s.cache, k))
    (hentry : s.cache.EntryOk) (hs : s.core.state = .outData)
    (hst : (s.next i f).core.state = .outData) {n : Nat}
    (hcnt : (s.next i f).core.counter.toNat = n) (hn : n ≤ 7)
    (hcome : ∀ j, j < n → j &&& g.cur.mask.toNat < g.cur.words.length)
    (hsent : (g.nextCur s i).sent = (g.nextCur s i).respHeader :: (List.range n).map
      fun j => (g.nextCur s i).words.getD (j &&& (g.nextCur s i).mask.toNat) 0) :
    PhaseOk (s.next i f) (g.nextCur s i) ∧
      ((s.next i f).core.state = .idle → Served (w + m) (g.nextCur s i)) := by
  have hne : s.core.state ≠ .idle := by simp [hs]
  have hh1 : s.core.state ≠ .inHeader1 := by simp [hs]
  have hk := h.kept (i := i) (f := f) hs
  have hrd := (wr_next (i := i) (f := f) hne).2
  have hnext : Reading (s.next i f) (g.nextCur s i) :=
    h.reading.step hok hinv hentry hk.gains (by simp [hs]) hne hh1
  have hlock := fun hc' => reading_lock (i := i) (f := f) hok h.reading h.lock hc' hh1
  refine ⟨phaseOk_outData hst ⟨hk.head, hk.source, hrd.trans h.rd, hnext, hlock, hk.length,
    ?_, ?_, ?_⟩, goesOn hst (by decide)⟩
  · rw [hcnt]
    exact hn
  · rw [hcnt, hk.gains.mask]
    exact fun j hj => Nat.lt_of_lt_of_le (hcome j hj) (words_le hk.gains)
  · rw [hcnt]
    exact hsent

/-- The last word of a response leaves. -/
theorem OutData.ends (h : OutData s g.cur) (hok : s.cache.LockOk) (hs : s.core.state = .outData)
    (hst : (s.next i f).core.state = .idle) (hbgo : s.core.bridgeGo (s.coreIn i) = true)
    (hend : s.core.counter.toNat = 7) : PhaseOk (s.next i f) (g.nextCur s i) ∧
      ((s.next i f).core.state = .idle → Served (w + m) (g.nextCur s i)) := by
  have hk := h.kept (i := i) (f := f) hs
  have hcome := (h.sends hs hbgo).1
  have hsent := h.sent_go hs hbgo
  rw [hend] at hsent
  rw [hend, seven_and] at hcome
  obtain ⟨hc, -, hre, hfull⟩ := reading_over h.reading hcome
  obtain ⟨hreading, hc', hp'⟩ := reading_done (f := f) h.reading hok hk.gains (by simp [hs])
    (by simp [hs]) (by simp [hs]) hc
  have hacc := hreading.account
  rw [hp'] at hacc
  obtain ⟨hlocks, hreleases⟩ := account_done hacc hc'
  have hre' : (s.next i f).core.cacheRe = false := by
    simp [Bridge.next, CoreCtrl.next, h.reading.account.bufferCe_eq hc]
  have hreads := hreading.full hc'
  obtain ⟨entry, hmap, -⟩ := hreading.reads
  refine ⟨phaseOk_idle hst ⟨(hacc.over hc').symm, hp', hre'⟩, fun _ =>
    served_load ?_ ?_ hlocks hreleases hsent ⟨entry, hreads ▸ hmap⟩ ?_⟩
  · rw [hk.gains.header, ← h.head.type]
    exact h.rd
  · rw [hk.length, hk.head.payload]
  · rw [hk.gains.words, hre, if_neg Bool.false_ne_true, hk.gains.mask]
    exact hfull

/-- The words of the response. -/
theorem step_outData (h : OutData s g.cur) (hok : s.cache.LockOk) (hinv : TagInv (s.cache, k))
    (hentry : s.cache.EntryOk) (hs : s.core.state = .outData) :
    PhaseOk (s.next i f) (g.nextCur s i) ∧
      ((s.next i f).core.state = .idle → Served (w + m) (g.nextCur s i)) := by
  have hcounter := h.counter
  have hw : isWr s.core.type = false := not_isWr_of_isRd h.rd
  have hlast : s.core.counter.setWidth 32 = (respPayload s.core.type).setWidth 32 - 1 ↔
      s.core.counter.toNat = 7 := by
    rw [respPayload, hw, ← BitVec.toNat_inj, BitVec.toNat_setWidth, Nat.mod_eq_of_lt (by omega)]
    exact Iff.rfl
  have hst : (s.next i f).core.state =
      if s.core.bridgeGo (s.coreIn i) = true ∧ s.core.counter.toNat = 7 then .idle else .outData := by
    change s.core.stateNext (s.coreIn i) = _
    simp only [CoreCtrl.stateNext, hs, Bool.and_eq_true, decide_eq_true_iff, hlast]
  have hcnt : (s.next i f).core.counter =
      if s.core.bridgeGo (s.coreIn i) then s.core.counter + 1 else s.core.counter := by
    change s.core.counterNext (s.coreIn i) = _
    simp only [CoreCtrl.counterNext, hs]
  cases hbgo : s.core.bridgeGo (s.coreIn i) with
  | false =>
    rw [if_neg fun hc => by rw [hbgo] at hc; cases hc.1] at hst
    rw [hbgo, if_neg Bool.false_ne_true] at hcnt
    refine h.goes_on hok hinv hentry hs hst (congrArg _ hcnt) hcounter h.come ?_
    rw [Sd.sent_go (by simp [hs]), hbgo, if_neg Bool.false_ne_true]
    exact h.sent_eq hs
  | true =>
    by_cases hend : s.core.counter.toNat = 7
    · rw [if_pos ⟨hbgo, hend⟩] at hst
      exact h.ends hok hs hst hbgo hend
    · rw [if_neg fun hc => hend hc.2] at hst
      rw [hbgo, if_pos rfl] at hcnt
      have hadd : (s.next i f).core.counter.toNat = s.core.counter.toNat + 1 := by
        rw [hcnt, BitVec.toNat_add]
        exact Nat.mod_eq_of_lt (by simp; omega)
      refine h.goes_on hok hinv hentry hs hst hadd (by omega) (fun j hj => ?_) (h.sent_go hs hbgo)
      obtain hj | rfl := Nat.lt_or_eq_of_le (Nat.le_of_lt_succ hj)
      · exact h.come j hj
      · exact (h.sends hs hbgo).1

end Response

/-! ### Runs -/

/-- Messages are well formed. -/
def Sane (s : Bridge w m t) (i : BridgeInput) : Prop :=
  s.core.state = .idle → i.splitterVal = true → WellFormed i.splitterData

/-- The third flit of a load comes before the lock is given back. -/
def Timely (s : Bridge w m t) (i : BridgeInput) : Prop :=
  s.core.state = .inHeader2 → s.core.rd = true → s.core.cbState = .unlock → i.splitterVal = true

instance (s : Bridge w m t) (i : BridgeInput) : Decidable (Sane s i) :=
  inferInstanceAs (Decidable (_ → _ → _))

instance (s : Bridge w m t) (i : BridgeInput) : Decidable (Timely s i) :=
  inferInstanceAs (Decidable (_ → _ → _ → _))

/-- What holds in every reachable state of a run whose loads are timely. -/
structure BridgeInv (y : Bridge w m t × Log) : Prop where
  lock : y.1.cache.LockOk
  tags : ∃ k, TagInv (y.1.cache, k)
  entry : y.1.cache.EntryOk
  phase : PhaseOk y.1 y.2.cur
  served : ∀ x ∈ y.2.served, Served (w + m) x

section Runs

variable {y : Bridge w m t × Log} {i : BridgeInput}

theorem phase_step (h : BridgeInv y) (hsane : Sane y.1 i) (htime : Timely y.1 i) :
    PhaseOk (y.1.next i f) (y.2.nextCur y.1 i) ∧
      (Log.ends y.1 i = true → Served (w + m) (y.2.nextCur y.1 i)) := by
  obtain ⟨k, hk⟩ := h.tags
  have hphase := h.phase
  have hends : Log.ends y.1 i = true → (y.1.next i f).core.state = .idle := by
    intro he
    simp only [Log.ends, Bool.and_eq_true, decide_eq_true_iff] at he
    exact he.2
  have hnot : (y.1.next i f).core.state ≠ .idle → Log.ends y.1 i = true →
      Served (w + m) (y.2.nextCur y.1 i) := fun hne he => absurd (hends he) hne
  cases hs : y.1.core.state with
  | rst =>
    rw [PhaseOk, hs] at hphase
    exact ⟨step_rst hphase h.lock hs, fun he => by simp [Log.ends, hs] at he⟩
  | idle =>
    rw [PhaseOk, hs] at hphase
    exact ⟨step_idle hphase h.lock hs (hsane hs), fun he => by simp [Log.ends, hs] at he⟩
  | inHeader1 =>
    rw [PhaseOk, hs] at hphase
    obtain ⟨hp, hserved⟩ := step_inHeader1 (f := f) hphase h.lock hs
    exact ⟨hp, fun he => hserved (hends he)⟩
  | inHeader2 =>
    rw [PhaseOk, hs] at hphase
    obtain ⟨hp, hne⟩ := step_inHeader2 (f := f) hphase h.lock hk h.entry hs
      (htime hs)
    exact ⟨hp, hnot hne⟩
  | inData =>
    rw [PhaseOk, hs] at hphase
    obtain ⟨hp, hne⟩ := step_inData (f := f) (i := i) hphase h.lock hs
    exact ⟨hp, hnot hne⟩
  | waiting =>
    rw [PhaseOk, hs] at hphase
    obtain ⟨hp, hne⟩ := step_waiting (f := f) (i := i) hphase h.lock hk h.entry
      hs
    exact ⟨hp, hnot hne⟩
  | throwing =>
    rw [PhaseOk, hs] at hphase
    obtain ⟨hp, hserved⟩ := step_throwing (f := f) hphase h.lock hs
    exact ⟨hp, fun he => hserved (hends he)⟩
  | outHeader =>
    rw [PhaseOk, hs] at hphase
    obtain ⟨hp, hserved⟩ := step_outHeader (f := f) hphase h.lock hk h.entry hs
    exact ⟨hp, fun he => hserved (hends he)⟩
  | outData =>
    rw [PhaseOk, hs] at hphase
    obtain ⟨hp, hserved⟩ := step_outData (f := f) hphase h.lock hk h.entry hs
    exact ⟨hp, fun he => hserved (hends he)⟩

theorem BridgeInv.step (h : BridgeInv y) (hsane : Sane y.1 i) (htime : Timely y.1 i) :
    BridgeInv ((logged w m t f).step y i) := by
  obtain ⟨k, hk⟩ := h.tags
  obtain ⟨hphase, hserved⟩ := phase_step (f := f) h hsane htime
  refine ⟨h.lock.step, ⟨_, hk.step⟩, CacheManager.EntryOk.step hk, hphase, fun x hx => ?_⟩
  change x ∈ (Log.update y.2 y.1 i).served at hx
  simp only [Log.update] at hx
  split at hx
  next he =>
    obtain hx | hx := List.mem_append.1 hx
    · exact h.served x hx
    · rw [List.mem_singleton.1 hx]
      exact hserved he
  next => exact h.served x hx

theorem BridgeInv.init (h : (logged w m t f).init y) : BridgeInv y := by
  obtain ⟨⟨hcore, hcache⟩, hlog⟩ := h
  have hinv := TagInv.init hcache
  obtain ⟨addrLkp, entryLkp, hcache⟩ := hcache
  refine ⟨?_, ⟨_, hinv⟩, ?_, ?_, ?_⟩
  · rw [hcache]
    exact CacheManager.LockOk.init addrLkp entryLkp
  · rw [hcache]
    exact fun hp => absurd hp (by simp [CacheManager.init, CacheManager.lockPhase, CacheState.phase])
  · rw [PhaseOk, hcore]
    refine ⟨.inl ?_, ?_, ?_⟩
    · rw [hcore]
      rfl
    · rw [hcache]
      rfl
    · rw [hcore]
      rfl
  · rw [hlog]
    exact fun x hx => by cases hx

theorem BridgeInv.of_reachable
    (h : (logged w m t f).Reachable (fun y i => Sane y.1 i ∧ Timely y.1 i) y) :
    BridgeInv y :=
  h.invariant (fun _ hs => .init hs) fun _ _ hs hi => hs.step hi.1 hi.2

end Runs

end Piton.Sd
