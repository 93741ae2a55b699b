import Piton.Sd.CoreCtrl
import Piton.Sd.Tags

/-! The bridge to the SD card: the controller with its cache manager, and a log of the messages that
it took, with the locks, reads and flits sent for each. -/

namespace Piton.Sd

open Hw

variable {w m t : Nat} {f : BitVec 24}

/-- The registers of the bridge. -/
structure Bridge (w m t : Nat) where
  core : CoreCtrl
  cache : CacheManager w m t

/-- What the splitter, the block buffer and the transaction manager do. -/
structure BridgeInput where
  splitterVal : Bool
  splitterData : Flit
  splitterRdy : Bool
  bufferData : Flit
  tmCacheRdy : Bool
  tmCacheOk : Bool
  tmCacheVal : Bool

namespace Bridge

variable (s : Bridge w m t) (i : BridgeInput)

/-- What the controller reads: the splitter, the buffer and the manager. -/
def coreIn : CoreInput (w + m) where
  splitterVal := i.splitterVal
  splitterData := i.splitterData
  splitterRdy := i.splitterRdy
  bufferData := i.bufferData
  lockStatus := s.cache.lockStatus
  cacheRdy := s.cache.cacheCoreRdy
  cacheEntry := s.cache.cacheCoreEntry

@[simp] theorem coreIn_splitterVal : (s.coreIn i).splitterVal = i.splitterVal := rfl
@[simp] theorem coreIn_splitterData : (s.coreIn i).splitterData = i.splitterData := rfl
@[simp] theorem coreIn_splitterRdy : (s.coreIn i).splitterRdy = i.splitterRdy := rfl
@[simp] theorem coreIn_bufferData : (s.coreIn i).bufferData = i.bufferData := rfl
@[simp] theorem coreIn_lockStatus : (s.coreIn i).lockStatus = s.cache.lockStatus := rfl
@[simp] theorem coreIn_cacheRdy : (s.coreIn i).cacheRdy = s.cache.cacheCoreRdy := rfl

/-- What the manager reads: the controller and the transaction manager. -/
def cacheIn : CacheInput m t where
  lockAcquire := s.core.lockAcquire (s.coreIn i)
  lockRelease := s.core.lockRelease
  coreCacheWe := s.core.wr
  coreCacheAddr := (s.core.cacheAddr (s.coreIn i)).extractLsb' 9 (t + m)
  tmCacheRdy := i.tmCacheRdy
  tmCacheOk := i.tmCacheOk
  tmCacheVal := i.tmCacheVal

/-- The clock edge. -/
def next (flushWaitTime : BitVec 24) : Bridge w m t where
  core := s.core.next (s.coreIn i)
  cache := s.cache.next (s.cacheIn i) flushWaitTime

/-- The lock is granted in this cycle. -/
def grants : Bool := s.cache.accepting && s.cache.lockReq (s.cacheIn i)

/-- The lock is given back in this cycle. -/
def releases : Bool := s.cache.state = .lock && s.cache.unlockReq (s.cacheIn i)

end Bridge

/-- The bridge as a machine. -/
def bridge (w m t : Nat) (flushWaitTime : BitVec 24) : Machine (Bridge w m t) BridgeInput where
  init s := s.core = .init ∧ (manager w m t flushWaitTime).init s.cache
  step s i := s.next i flushWaitTime

/-! ### The log -/

/-- What happened for one message. -/
structure Exchange where
  flits : List Flit
  locks : Nat
  releases : Nat
  reads : List (BitVec 32)
  words : List Flit
  sent : List Flit
  deriving DecidableEq

namespace Exchange

/-- A message of which nothing has come. -/
def empty : Exchange := ⟨[], 0, 0, [], [], []⟩

variable (x : Exchange)

/-- The header of a message. -/
def header : Flit := x.flits.getD 0 0

/-- The address flit of a message. -/
def addrFlit : Flit := x.flits.getD 1 0

/-- The source flit of a message. -/
def srcFlit : Flit := x.flits.getD 2 0

/-- The words that a load asks for, less one. -/
def mask : BitVec 3 := actualRespPayloadMask x.header.type x.addrFlit.dataSize

/-- The message is a request for the card. -/
def isRequest : Bool := isRd x.header.type || isWr x.header.type

/-- The header of the response owed: the source becomes the destination, and the MSHR is kept. -/
def respHeader : Flit :=
  x.srcFlit.srcChipid ++ x.srcFlit.srcX ++ x.srcFlit.srcY ++ 0#4 ++ respPayload x.header.type ++
    respMsgType x.header.type ++ x.header.mshrid ++ 0#6

/-- The address in the block buffer of word `k` of the request. -/
def readAddr {n : Nat} (entry : BitVec n) (k : Nat) : BitVec 32 :=
  entry.setWidth 23 ++ wordOffset x.addrFlit.dataSize x.addrFlit.addrRemapped (BitVec.ofNat 3 k)

/-- One flit for a store; for a load a header and eight flits, the words repeated. -/
def response : List Flit :=
  x.respHeader :: if isWr x.header.type then []
    else (List.range 8).map fun j => x.words.getD (j &&& x.mask.toNat) 0

end Exchange

/-- The message in progress and those that are over. -/
structure Log where
  cur : Exchange
  served : List Exchange

namespace Log

variable (g : Log) (s : Bridge w m t) (i : BridgeInput)

/-- A message starts with its header. -/
def base : Exchange := if s.core.state = .idle && s.core.splitterGo (s.coreIn i) then .empty else g.cur

/-- What one cycle adds to the message in service. -/
def nextCur : Exchange :=
  let x := g.base s i
  { flits := if s.core.splitterGo (s.coreIn i) then x.flits ++ [i.splitterData] else x.flits
    locks := if s.grants i then x.locks + 1 else x.locks
    releases := if s.releases i then x.releases + 1 else x.releases
    reads := if s.core.bufferCe (s.coreIn i) && !s.core.bufferWr (s.coreIn i)
      then x.reads ++ [s.core.bufferAddr (s.coreIn i)] else x.reads
    words := if s.core.cacheRe then x.words ++ [i.bufferData] else x.words
    sent := if s.core.bridgeGo (s.coreIn i) then x.sent ++ [s.core.bridgeData] else x.sent }

/-- The state machine goes back to idle. -/
def ends : Bool :=
  s.core.state ≠ .rst && s.core.state ≠ .idle && s.core.stateNext (s.coreIn i) = .idle

/-- What one cycle adds to the log: a message that ends joins those served. -/
def update (g : Log) (s : Bridge w m t) (i : BridgeInput) : Log where
  cur := g.nextCur s i
  served := if ends s i then g.served ++ [g.nextCur s i] else g.served

end Log

/-- The bridge with the log of its messages. -/
def logged (w m t : Nat) (flushWaitTime : BitVec 24) :
    Machine (Bridge w m t × Log) BridgeInput :=
  (bridge w m t flushWaitTime).withHistory ⟨.empty, []⟩ Log.update

/-! ### What a message gets -/

/-- A load or store takes the lock once and gives it back, and gets its response; another message gets
nothing. Both are taken whole. -/
structure Served (n : Nat) (x : Exchange) : Prop where
  whole : x.flits.length = x.header.length.toNat + 1
  locks : x.locks = if x.isRequest then 1 else 0
  releases : x.releases = if x.isRequest then 1 else 0
  sent : x.sent = if x.isRequest then x.response else []
  reads : isRd x.header.type = true →
    ∃ entry : BitVec n, x.reads = (List.range (x.mask.toNat + 1)).map (x.readAddr entry)
  words : isRd x.header.type = true → x.words.length = x.mask.toNat + 1

/-! ### The lock -/

/-- What the controller sees of the cache manager. -/
inductive LockPhase
  | free | pending | update | lock
  deriving DecidableEq

/-- The phase of the lock in a state of the manager. -/
def CacheState.phase : CacheState → LockPhase
  | .idle | .flushScan | .flushIssue | .flushWait | .flushUpdate => .free
  | .lookup | .writebackIssue | .writebackWait | .fillIssue | .fillWait => .pending
  | .update => .update
  | .lock => .lock

namespace CacheManager

/-- The phase of the access that the lock protects. -/
def lockPhase (s : CacheManager w m t) : LockPhase := s.state.phase

/-- The lock is held from the look-up on. -/
def LockOk (s : CacheManager w m t) : Prop := s.lockStatus = true ↔ s.lockPhase ≠ .free

section Lock

variable {s : CacheManager w m t} {i : CacheInput m t}

theorem lockPhase_of_free (h : s.lockPhase = .free) : (s.next i f).lockPhase =
    if s.accepting && s.lockReq i then .pending else .free := by
  cases hs : s.state <;> simp only [lockPhase, hs, CacheState.phase, reduceCtorEq] at h <;>
    simp only [lockPhase, next, stateNext, accepting, hs] <;> split_ifs <;>
    simp_all [CacheState.phase]

theorem lockPhase_of_pending (h : s.lockPhase = .pending) :
    (s.next i f).lockPhase = .pending ∨ (s.next i f).lockPhase = .update := by
  cases hs : s.state <;> simp only [lockPhase, hs, CacheState.phase, reduceCtorEq] at h <;>
    simp only [lockPhase, next, stateNext, hs] <;> split_ifs <;> simp [CacheState.phase]

theorem state_of_update (h : s.lockPhase = .update) : s.state = .update := by
  cases hs : s.state <;> simp only [lockPhase, hs, CacheState.phase, reduceCtorEq] at h
  rfl

theorem state_of_lock (h : s.lockPhase = .lock) : s.state = .lock := by
  cases hs : s.state <;> simp only [lockPhase, hs, CacheState.phase, reduceCtorEq] at h
  rfl

theorem lockPhase_of_update (h : s.lockPhase = .update) :
    (s.next i f).lockPhase = .lock := by
  simp only [lockPhase, next, stateNext, state_of_update h]
  rfl

theorem lockPhase_of_lock (hok : s.LockOk) (h : s.lockPhase = .lock) :
    (s.next i f).lockPhase = if i.lockRelease then .free else .lock := by
  have hst : s.lockStatus = true := hok.2 (by simp [h])
  simp only [lockPhase, next, stateNext, unlockReq, hst, Bool.and_true, state_of_lock h]
  split_ifs <;> rfl

/-- Locks are taken from free phases. -/
theorem free_of_accepting (h : s.accepting = true) : s.lockPhase = .free := by
  simp only [accepting, Bool.or_eq_true, decide_eq_true_iff] at h
  obtain hs | hs := h <;> simp [lockPhase, hs, CacheState.phase]

theorem LockOk.lockStatus_of_free (h : s.LockOk) (hp : s.lockPhase = .free) :
    s.lockStatus = false := by
  cases hls : s.lockStatus with
  | false => rfl
  | true => exact absurd hp (h.1 hls)

theorem LockOk.step (h : s.LockOk) : (s.next i f).LockOk := by
  have hst : (s.next i f).lockStatus = if s.accepting then i.lockAcquire
      else if s.state = .lock then !i.lockRelease else s.lockStatus := rfl
  rw [LockOk, hst]
  cases hp : s.lockPhase with
  | free =>
    have hls : s.lockStatus = false := h.lockStatus_of_free hp
    have hne : s.state ≠ .lock := by
      intro hl
      simp [lockPhase, hl, CacheState.phase] at hp
    rw [lockPhase_of_free hp, if_neg hne, hls, lockReq, hls]
    cases s.accepting <;> cases i.lockAcquire <;> simp
  | pending =>
    have hls : s.lockStatus = true := h.2 (by simp [hp])
    have hacc : ¬ s.accepting = true := fun ha => by simp [free_of_accepting ha] at hp
    have hne : s.state ≠ .lock := by
      intro hl
      simp [lockPhase, hl, CacheState.phase] at hp
    rw [if_neg hacc, if_neg hne, hls]
    obtain hn | hn := lockPhase_of_pending (i := i) (f := f) hp <;> simp [hn]
  | update =>
    have hls : s.lockStatus = true := h.2 (by simp [hp])
    rw [lockPhase_of_update hp]
    simp [accepting, state_of_update hp, hls]
  | lock =>
    rw [lockPhase_of_lock h hp]
    cases hr : i.lockRelease <;> simp [accepting, state_of_lock hp]

theorem cacheCoreRdy_iff : s.cacheCoreRdy = true ↔ s.lockPhase = .update ∨ s.lockPhase = .lock := by
  cases hs : s.state <;> simp [cacheCoreRdy, lockPhase, hs, CacheState.phase]

theorem LockOk.init (addrLkp : BitVec m → BitVec t) (entryLkp : BitVec m → BitVec w) :
    (CacheManager.init addrLkp entryLkp).LockOk := by
  simp [LockOk, CacheManager.init, lockPhase, CacheState.phase]

end Lock

end CacheManager

namespace Bridge

variable {s : Bridge w m t} {i : BridgeInput}

/-- Data moves while the manager holds the lock and is ready. -/
theorem locked_iff (h : s.cache.LockOk) : CoreCtrl.locked (s.coreIn i) = true ↔
    s.cache.lockPhase = .update ∨ s.cache.lockPhase = .lock := by
  rw [← CacheManager.cacheCoreRdy_iff]
  simp only [CoreCtrl.locked, coreIn, Bool.and_eq_true, and_iff_right_iff_imp]
  intro hr
  refine h.2 fun hf => ?_
  obtain hp | hp := CacheManager.cacheCoreRdy_iff.1 hr <;> rw [hf] at hp <;> cases hp

end Bridge

end Piton.Sd
