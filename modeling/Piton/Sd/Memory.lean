import Piton.Lib.Lanes
import Piton.Sd.Requests

/-! `piton_sd_buffer` as the controller sees it, byte by byte, and the flat memory that loads and stores
mean: each store lays its bytes over its block. -/

namespace Piton.Sd

open Hw

/-- The bytes of an SD block. -/
abbrev Block := BitVec 9 → BitVec 8

/-- A word, its first byte being the most significant one. -/
def wordOf (b : BitVec 3 → BitVec 8) : Flit := b 0 ++ b 1 ++ b 2 ++ b 3 ++ b 4 ++ b 5 ++ b 6 ++ b 7

/-! ### The block buffer -/

/-- The BRAM: a byte address is a word address and a lane. -/
abbrev Bram := BitVec 12 → BitVec 8

/-- `bram_wea`, whose bit 0 is that of the first byte. -/
def bramWea (sz : BitVec 2) (addr lane : BitVec 3) : Bool :=
  match sz with
  | 0 => lane = addr
  | 1 => lane.extractLsb' 1 2 = addr.extractLsb' 1 2
  | 2 => lane.extractLsb' 2 1 = addr.extractLsb' 2 1
  | _ => true

/-- `bram_din` in the lanes that are enabled. -/
def bramDin (sz : BitVec 2) (data : Flit) (lane : BitVec 3) : BitVec 8 :=
  match sz with
  | 0 => data.extractLsb' 0 8
  | 1 => data.extractLsb' (8 * (1 - lane.toNat % 2)) 8
  | 2 => data.extractLsb' (8 * (3 - lane.toNat % 4)) 8
  | _ => data.extractLsb' (8 * (7 - lane.toNat)) 8

namespace Bram

variable (b : Bram) (addr : BitVec 32)

/-- What the controller's port reads. -/
def read : Flit := wordOf fun lane => b (addr.extractLsb' 3 9 ++ lane)

/-- The controller's port writes. -/
def write (sz : BitVec 2) (data : Flit) : Bram := fun a =>
  if a.extractLsb' 3 9 = addr.extractLsb' 3 9 &&
      bramWea sz (addr.extractLsb' 0 3) (a.extractLsb' 0 3)
  then bramDin sz data (a.extractLsb' 0 3) else b a

/-- The block at an address of a transaction. -/
def block : Block := fun o => b (addr.extractLsb' 9 3 ++ o)

/-- The buffer with the block of an entry replaced. -/
def setBlock (x : Block) : Bram := fun a =>
  if a.extractLsb' 9 3 = addr.extractLsb' 9 3 then x (a.extractLsb' 0 9) else b a

end Bram

/-! ### Loads and stores of a flat memory -/

/-- The words of a request. -/
def wordCount (sz : BitVec 3) : Nat :=
  match sz with
  | 5 => 2
  | 6 => 4
  | 7 => 8
  | _ => 1

namespace Exchange

variable (x : Exchange)

/-- The bytes that the request is for; its address is aligned to it. -/
def size : Nat := 2 ^ (x.addrFlit.dataSize.toNat - 1)

/-- The block of an access. -/
def block (n : Nat) : BitVec n := x.addrFlit.addrRemapped.extractLsb' 9 n

/-- The place of the request in its block. -/
def offset : Nat := x.addrFlit.addrRemapped.toNat % 512

/-- Byte `r` of the data; less than eight bytes come in the low part of the flit. -/
def dataByte (r : Nat) : BitVec 8 :=
  (x.flits.getD (3 + r / 8) 0).extractLsb' (8 * (min x.size 8 - 1 - r % 8)) 8

/-- The bytes of the first `j` words of a store. -/
def writes (j : Nat) : Overlay (BitVec 9) (BitVec 8) := fun o =>
  if o.toNat / x.size = x.offset / x.size ∧ o.toNat % x.size / 8 < j
  then some (x.dataByte (o.toNat % x.size)) else none

/-- The bytes of a store. -/
def stores : Overlay (BitVec 9) (BitVec 8) := fun o =>
  if o.toNat / x.size = x.offset / x.size then some (x.dataByte (o.toNat % x.size)) else none

/-- The first byte of word `q` of a load; a load of less than eight bytes gets their whole word. -/
def wordStart (q : Nat) : Nat := x.offset / max x.size 8 * max x.size 8 + 8 * q

/-- Word `q` of a load from a block. -/
def loadWord (b : Block) (q : Nat) : Flit :=
  wordOf fun lane => b (BitVec.ofNat 9 (x.wordStart q + lane.toNat))

/-- The memory after the message. -/
def apply {n : Nat} (mem : BitVec n → Block) : BitVec n → Block :=
  if isWr x.header.type
  then Function.update mem (x.block n) (x.stores.onto (mem (x.block n))) else mem

/-- The response of a load from a memory: a header, and eight flits that repeat the words. -/
def loadResponse {n : Nat} (mem : BitVec n → Block) : List Flit :=
  x.respHeader :: (List.range 8).map fun j => x.loadWord (mem (x.block n)) (j % wordCount x.addrFlit.dataSize)

end Exchange

/-- The memory after messages, handled in order. -/
def flatAfter {n : Nat} (mem : BitVec n → Block) (l : List Exchange) : BitVec n → Block :=
  l.foldl (fun mem x => x.apply mem) mem

end Piton.Sd
