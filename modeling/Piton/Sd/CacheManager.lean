import Piton.Lib.Machine
import Piton.Sd.CacheTag

/-! `piton_sd_cache_manager`: the lock, the state machine for accesses and for the flush of dirty
blocks while idle, and the tags of its `2 ^ m` indexes. -/

namespace Piton.Sd

open Hw

variable {w m t : Nat}

/-! ### Slices -/

/-- `CACHE_INDEX_BITS`. -/
def indexBits {n : Nat} (b : BitVec (n + m)) : BitVec m := b.setWidth m

/-- `CACHE_ENTRY_INDEXED_BITS` and `CACHE_BLOCK_PLACEMENT_BITS`. -/
def upperBits {n : Nat} (b : BitVec (n + m)) : BitVec n := b.extractLsb' m n

@[simp] theorem indexBits_append {n : Nat} (x : BitVec n) (y : BitVec m) :
    indexBits (x ++ y) = y := by
  rw [indexBits, BitVec.setWidth_append]
  simp

@[simp] theorem upperBits_append {n : Nat} (x : BitVec n) (y : BitVec m) :
    upperBits (x ++ y) = x := by
  rw [upperBits, BitVec.extractLsb'_append_eq_left]

theorem append_slices {n : Nat} (b : BitVec (n + m)) : upperBits b ++ indexBits b = b := by
  rw [upperBits, indexBits, BitVec.setWidth_eq_extractLsb' (Nat.le_add_left m n)]
  exact BitVec.extractLsb'_append_extractLsb'

/-! ### The registers -/

/-- The states of the manager: an access on the first line, a flush on the second. -/
inductive CacheState
  | idle | lookup | writebackIssue | writebackWait | fillIssue | fillWait | update | lock
  | flushScan | flushIssue | flushWait | flushUpdate
  deriving DecidableEq, Repr

/-- The registers, with the tags of every index. -/
structure CacheManager (w m t : Nat) where
  state : CacheState
  lockStatus : Bool
  coreCacheWe : Bool
  coreCacheAddr : BitVec (t + m)
  flushTimer : BitVec 24
  cacheEntryScan : BitVec (w + m)
  cacheAddrQuery : BitVec (t + m)
  cacheEntryQuery : BitVec (w + m)
  addrLkpIndexed : BitVec m → BitVec t
  entryLkpIndexed : BitVec m → BitVec w
  index : BitVec m → CacheTag w t

/-- What the manager reads in a cycle. -/
structure CacheInput (m t : Nat) where
  lockAcquire : Bool
  lockRelease : Bool
  coreCacheWe : Bool
  coreCacheAddr : BitVec (t + m)
  tmCacheRdy : Bool
  tmCacheOk : Bool
  tmCacheVal : Bool

namespace CacheManager

/-- The state after reset; the lookup registers have no reset value. -/
def init (addrLkp : BitVec m → BitVec t) (entryLkp : BitVec m → BitVec w) : CacheManager w m t where
  state := .idle
  lockStatus := false
  coreCacheWe := false
  coreCacheAddr := 0
  flushTimer := 0
  cacheEntryScan := 0
  cacheAddrQuery := 0
  cacheEntryQuery := 0
  addrLkpIndexed := addrLkp
  entryLkpIndexed := entryLkp
  index := fun _ => .init

section Wires

variable (s : CacheManager w m t) (i : CacheInput m t)

/-- A lock is asked for and not held. -/
def lockReq : Bool := i.lockAcquire && !s.lockStatus

/-- A lock is given up. -/
def unlockReq : Bool := i.lockRelease && s.lockStatus

/-! ### Lookups and queries -/

/-- The index of the access. -/
def indexLkp : BitVec m := indexBits s.coreCacheAddr

/-- The tag of the access. -/
def tagLkp : BitVec t := upperBits s.coreCacheAddr

/-- The access hits. -/
def cacheHitLkp : Bool := (s.index s.indexLkp).hitLkp s.tagLkp

/-- The entry that the access will use is dirty. -/
def cacheDirtyLkp : Bool := (s.index s.indexLkp).dirtyLkp s.tagLkp

/-- The block that this entry holds. -/
def cacheAddrLkp : BitVec (t + m) := s.addrLkpIndexed s.indexLkp ++ s.indexLkp

/-- The entry that the access will use. -/
def cacheEntryLkp : BitVec (w + m) := s.entryLkpIndexed s.indexLkp ++ s.indexLkp

/-- The index that the flush looks at. -/
def indexQuery : BitVec m := indexBits s.cacheEntryScan

/-- The entry that the flush looks at is dirty. -/
def cacheDirtyQuery : Bool := (s.index s.indexQuery).dirtyQuery (upperBits s.cacheEntryScan)

/-- The block that this entry holds. -/
def addrQuery : BitVec (t + m) :=
  (s.index s.indexQuery).addrQuery (upperBits s.cacheEntryScan) ++ s.indexQuery

/-- The test that ends a scan; the literal of the source widens both sides to 32 bits. -/
def scanEnds : Bool :=
  s.cacheEntryScan.setWidth (max 32 (w + m)) = s.cacheEntryLkp.setWidth (max 32 (w + m)) - 1

/-! ### The transaction manager's side -/

/-- A transfer is asked for. -/
def cacheTmVal : Bool :=
  match s.state with
  | .writebackIssue | .fillIssue | .flushIssue => true
  | _ => false

/-- A transfer is awaited. -/
def cacheTmRdy : Bool :=
  match s.state with
  | .writebackWait | .fillWait | .flushWait => true
  | _ => false

/-- A transfer is taken up. -/
def cacheTmGo : Bool := i.tmCacheRdy && s.cacheTmVal

/-- A transfer is over. -/
def tmCacheGo : Bool := s.cacheTmRdy && i.tmCacheVal

/-! ### The update port -/

/-- The tags are written. -/
def cacheWe : Bool :=
  match s.state with
  | .update | .flushUpdate => true
  | _ => false

/-- They are written for a flush. -/
def cacheUpdateSel : Bool := s.state = .flushUpdate

/-- The entry written. -/
def updateEntry : BitVec (w + m) := if s.cacheUpdateSel then s.cacheEntryQuery else s.cacheEntryLkp

/-- The tag written. -/
def updateAddr : BitVec t := if s.cacheUpdateSel then upperBits s.cacheAddrQuery else s.tagLkp

/-- The dirty bit written: a store makes its entry dirty, a flush clean. -/
def updateDirty : Bool := if s.cacheUpdateSel then false else s.coreCacheWe

/-- The write enable of one index. -/
def indexWe (k : BitVec m) : Bool := s.cacheWe && indexBits s.updateEntry = k

/-- The tags of an index after the edge. -/
def nextIndex (k : BitVec m) : CacheTag w t :=
  if s.indexWe k then (s.index k).write s.updateAddr (upperBits s.updateEntry) s.updateDirty
  else s.index k

/-! ### The state machine -/

variable (flushWaitTime : BitVec 24)

/-- The state after the edge; a failed transfer is issued again. -/
def stateNext : CacheState :=
  match s.state with
  | .idle =>
    if s.lockReq i then .lookup
    else if s.flushTimer = flushWaitTime then .flushScan else .idle
  | .lookup =>
    if s.cacheHitLkp then .update
    else if s.cacheDirtyLkp then .writebackIssue else .fillIssue
  | .writebackIssue => if s.cacheTmGo i then .writebackWait else .writebackIssue
  | .writebackWait =>
    if s.tmCacheGo i then if i.tmCacheOk then .fillIssue else .writebackIssue else .writebackWait
  | .fillIssue => if s.cacheTmGo i then .fillWait else .fillIssue
  | .fillWait =>
    if s.tmCacheGo i then if i.tmCacheOk then .update else .fillIssue else .fillWait
  | .update => .lock
  | .lock => if s.unlockReq i then .idle else .lock
  | .flushScan =>
    if s.lockReq i then .lookup
    else if s.cacheDirtyQuery then .flushIssue
    else if s.scanEnds then .idle else .flushScan
  | .flushIssue => if s.cacheTmGo i then .flushWait else .flushIssue
  | .flushWait =>
    if s.tmCacheGo i then if i.tmCacheOk then .flushUpdate else .flushIssue else .flushWait
  | .flushUpdate => if s.cacheEntryScan = s.cacheEntryLkp then .idle else .flushScan

/-- Locks are taken in these states. -/
def accepting : Bool := s.state = .idle || s.state = .flushScan

/-- One clock edge. -/
def next : CacheManager w m t where
  state := s.stateNext i flushWaitTime
  lockStatus :=
    if s.accepting then i.lockAcquire
    else if s.state = .lock then !i.lockRelease else s.lockStatus
  coreCacheWe := if s.accepting && s.lockReq i then i.coreCacheWe else s.coreCacheWe
  coreCacheAddr := if s.accepting && s.lockReq i then i.coreCacheAddr else s.coreCacheAddr
  flushTimer := if s.state = .idle then s.flushTimer + 1 else 0
  cacheEntryScan :=
    if s.state = .update then s.cacheEntryLkp
    else if s.state = .flushScan then s.cacheEntryScan + 1 else s.cacheEntryScan
  cacheAddrQuery := if s.state = .flushScan then s.addrQuery else s.cacheAddrQuery
  cacheEntryQuery := if s.state = .flushScan then s.cacheEntryScan else s.cacheEntryQuery
  addrLkpIndexed := fun k => (s.index k).addrLkp s.tagLkp
  entryLkpIndexed := fun k => (s.index k).entryLkp s.tagLkp
  index := s.nextIndex

/-! ### Outputs -/

/-- The controller may use the entry. -/
def cacheCoreRdy : Bool :=
  match s.state with
  | .update | .lock => true
  | _ => false

/-- The entry given to the controller. -/
def cacheCoreEntry : BitVec (w + m) := s.cacheEntryLkp

/-- The transfer asked for writes the card. -/
def cacheTmWr : Bool :=
  match s.state with
  | .writebackIssue | .flushIssue => true
  | _ => false

/-- The address on the card of a block: its number, or its first byte. -/
def sdAddr (isHcxc : Bool) (block : BitVec (t + m)) : BitVec 32 :=
  if isHcxc then block.setWidth 32 else block.setWidth 23 ++ 0#9

/-- Where the transfer is on the card. -/
def cacheTmAddrSd (isHcxc : Bool) : BitVec 32 :=
  match s.state with
  | .writebackIssue => sdAddr isHcxc s.cacheAddrLkp
  | .flushIssue => sdAddr isHcxc s.cacheAddrQuery
  | _ => sdAddr isHcxc s.coreCacheAddr

/-- The address of an entry in the block buffer. -/
def dmaAddr (entry : BitVec (w + m)) : BitVec 32 := entry.setWidth 23 ++ 0#9

/-- Where the transfer is in the buffer. -/
def cacheTmAddrDma : BitVec 32 :=
  match s.state with
  | .flushIssue => dmaAddr s.cacheEntryQuery
  | _ => dmaAddr s.cacheEntryLkp

end Wires

end CacheManager

/-- The cache manager from reset. -/
def manager (w m t : Nat) (flushWaitTime : BitVec 24) :
    Machine (CacheManager w m t) (CacheInput m t) where
  init s := ∃ addrLkp entryLkp, s = .init addrLkp entryLkp
  step s i := s.next i flushWaitTime

theorem manager_init {flushWaitTime : BitVec 24} (addrLkp : BitVec m → BitVec t)
    (entryLkp : BitVec m → BitVec w) :
    (manager w m t flushWaitTime).init (.init addrLkp entryLkp) := ⟨addrLkp, entryLkp, rfl⟩

end Piton.Sd
