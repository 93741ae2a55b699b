import Piton.Sd.Coherence
import Piton.Sd.Words

/-! The bridge with its block buffer and the card. The transaction manager latches a request, and until
it answers the destination may change in any way; when it answers that all went well the destination is
a copy of the source. -/

namespace Piton.Sd

open Hw CacheManager

variable {w m t : Nat}

/-- `req_addr_sd_f`, `req_addr_dma_f` and the direction of the transaction. -/
structure Txn where
  wr : Bool
  addrSd : BitVec 32
  addrDma : BitVec 32

/-- The bridge with the block buffer and the word last read from it, the card, and the transfer
under way. -/
structure Storage (w m t : Nat) where
  bridge : Bridge w m t
  bram : Bram
  dout : Flit
  card : BitVec 32 → Block
  txn : Txn

/-- `dest` is what a transaction that is not over leaves at its destination, and `dmaDout` what the BRAM
shows when the controller does not read. -/
structure StorageInput where
  splitterVal : Bool
  splitterData : Flit
  splitterRdy : Bool
  tmCacheRdy : Bool
  tmCacheOk : Bool
  tmCacheVal : Bool
  dest : Block
  dmaDout : Flit

namespace Storage

variable (s : Storage w m t) (i : StorageInput)

/-- The inputs of the bridge, with the word read from the buffer. -/
def wire : BridgeInput where
  splitterVal := i.splitterVal
  splitterData := i.splitterData
  splitterRdy := i.splitterRdy
  bufferData := s.dout
  tmCacheRdy := i.tmCacheRdy
  tmCacheOk := i.tmCacheOk
  tmCacheVal := i.tmCacheVal

/-- The controller. -/
def core : CoreCtrl := s.bridge.core

/-- The manager. -/
def cache : CacheManager w m t := s.bridge.cache

/-- What the controller reads. -/
def coreIn : CoreInput (w + m) := s.bridge.coreIn (s.wire i)

/-- What the manager reads. -/
def cacheIn : CacheInput m t := s.bridge.cacheIn (s.wire i)

/-- The transaction is answered, and all went well. -/
def moves : Bool := s.cache.tmCacheGo (s.cacheIn i) && i.tmCacheOk

/-- The block that the transfer copies. -/
def source : Block := if s.txn.wr then s.bram.block s.txn.addrDma else s.card s.txn.addrSd

/-- What a transaction leaves at its destination in this cycle. -/
def moved : Block := if s.moves i then s.source else i.dest

/-- The controller's port goes before the other one. -/
def bramNext : Bram :=
  if s.core.bufferCe (s.coreIn i) then
    if s.core.bufferWr (s.coreIn i)
    then s.bram.write (s.core.bufferAddr (s.coreIn i)) (bufferSz s.core.dataSz) s.core.coreBufferData
    else s.bram
  else if s.cache.cacheTmRdy && !s.txn.wr then s.bram.setBlock s.txn.addrDma (s.moved i)
  else s.bram

/-- The word read from the buffer; the port may show anything while it is not read. -/
def doutNext : Flit :=
  if s.core.bufferCe (s.coreIn i) && !s.core.bufferWr (s.coreIn i)
  then s.bram.read (s.core.bufferAddr (s.coreIn i)) else i.dmaDout

/-- The card after the edge: the block written changes in any way until the answer, which leaves
the copy. -/
def cardNext : BitVec 32 → Block :=
  if s.cache.cacheTmRdy && s.txn.wr then Function.update s.card s.txn.addrSd (s.moved i) else s.card

/-- The transfer after the edge: one that is taken up is latched. -/
def txnNext (isHcxc : Bool) : Txn :=
  if s.cache.cacheTmGo (s.cacheIn i)
  then ⟨s.cache.cacheTmWr, s.cache.cacheTmAddrSd isHcxc, s.cache.cacheTmAddrDma⟩ else s.txn

/-- One clock edge. -/
def next (flushWaitTime : BitVec 24) (isHcxc : Bool) : Storage w m t where
  bridge := s.bridge.next (s.wire i) flushWaitTime
  bram := s.bramNext i
  dout := s.doutNext i
  card := s.cardNext i
  txn := s.txnNext i isHcxc

/-- The block of an entry. -/
def buf (e : BitVec (w + m)) : Block := s.bram.block (dmaAddr e)

/-- A block of the card. -/
def disk (isHcxc : Bool) (b : BitVec (t + m)) : Block := s.card (sdAddr isHcxc b)

end Storage

/-- The storage from reset, with this content of the card. -/
def storage (w m t : Nat) (flushWaitTime : BitVec 24) (isHcxc : Bool) (card : BitVec 32 → Block) :
    Machine (Storage w m t) StorageInput where
  init s := (bridge w m t flushWaitTime).init s.bridge ∧ s.card = card
  step s i := s.next i flushWaitTime isHcxc

/-- The storage with the log of its messages. -/
def served (w m t : Nat) (flushWaitTime : BitVec 24) (isHcxc : Bool) (card : BitVec 32 → Block) :
    Machine (Storage w m t × Log) StorageInput :=
  (storage w m t flushWaitTime isHcxc card).withHistory ⟨.empty, []⟩
    fun g s i => g.update s.bridge (s.wire i)

/-! ### What is expected -/

/-- The blocks that the card's 32-bit addresses reach: those of a card with block addresses, and the
first 4 GiB of one with byte addresses. -/
def OnCard (isHcxc : Bool) {n : Nat} (b : BitVec n) : Prop := b.toNat < 2 ^ (if isHcxc then 32 else 23)

/-- The address flit of a load or store: it has a size, a store's LENGTH fits it, and the block is on
the card. -/
def Storage.Placed (isHcxc : Bool) (s : Storage w m t) (i : StorageInput) : Prop :=
  s.core.state = .inHeader1 → (s.core.rd || s.core.wr) = true → i.splitterVal = true →
    i.splitterData.dataSize ≠ 0 ∧
      (s.core.wr = true → s.core.payload.toNat = 2 + wordCount i.splitterData.dataSize) ∧
      OnCard isHcxc (i.splitterData.addrRemapped.extractLsb' 9 (t + m))

/-- Messages are well formed. -/
def Storage.Proper (isHcxc : Bool) (s : Storage w m t) (i : StorageInput) : Prop :=
  Sane s.bridge (s.wire i) ∧ s.Placed isHcxc i

/-- No load updates an entry that is dirty and holds the load's block, unless the card has the same. -/
def Storage.KeepsDirty (isHcxc : Bool) (s : Storage w m t) : Prop :=
  s.cache.state = .update → s.cache.coreCacheWe = false → s.cache.cacheHitLkp = true →
    s.cache.entryDirty s.cache.cacheEntryLkp = true →
      s.buf s.cache.cacheEntryLkp = s.disk isHcxc s.cache.coreCacheAddr

/-- What the card has at first. -/
def onDisk (t m : Nat) (isHcxc : Bool) (card : BitVec 32 → Block) : BitVec (t + m) → Block :=
  fun b => card (sdAddr isHcxc b)

/-- Each load that was answered got the bytes that the card had at first, or those that the stores
before it have written. -/
def LoadsFlat {n : Nat} (initial : BitVec n → Block) (g : Log) : Prop :=
  ∀ xs x zs, g.served = xs ++ x :: zs → isRd x.header.type = true →
    x.sent = x.loadResponse (flatAfter initial xs)

/-- A block that is held and differs from the card is dirty. -/
def Storage.DirtyMarked (isHcxc : Bool) (s : Storage w m t) : Prop :=
  ∀ e b, s.cache.Holds e b → s.buf e ≠ s.disk isHcxc b → s.cache.entryDirty e = true

/-- Loads get what was stored last, between messages the entries and the card hold what was stored
last, and what differs from the card is dirty. -/
structure Refines (isHcxc : Bool) (initial : BitVec (t + m) → Block) (y : Storage w m t × Log) :
    Prop where
  loads : LoadsFlat initial y.2
  between : y.1.core.state = .idle → WriteBack.Coherent (OnCard isHcxc)
    (y.1.cache.back y.1.buf (y.1.disk isHcxc)) (flatAfter initial y.2.served)
  dirty : y.1.DirtyMarked isHcxc

end Piton.Sd
