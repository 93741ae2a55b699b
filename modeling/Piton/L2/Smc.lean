import Piton.L2.PriorityEncoder
import Piton.Lib.Machine
import Piton.Lib.MaskedWrite
import Piton.Lib.Sizes

/-! `l2_smc`, the sharer map cache of the L2, and `l15_hmc`, the home map cache of the L1.5: one
template generates both, with the same sizes. -/

namespace Piton.L2

open Hw

/-- One word of `data_mem_f`: the tag, four valid bits and four sub-entries of 30 bits. -/
structure SmcEntry where
  tag : BitVec 14
  valid : BitVec 4
  data : BitVec 120

/-- `smc_sdid`: the upper bits of the tag. -/
def SmcEntry.sdid (e : SmcEntry) : BitVec 10 := e.tag.extractLsb' 4 10

/-- `data_out` for an entry: the sub-entry at an offset. -/
def SmcEntry.dataAt (e : SmcEntry) (o : BitVec 2) : BitVec 30 :=
  (e.data >>> (o.toNat * 30)).setWidth 30

/-- The registers. -/
structure Smc where
  entryUsed : Fin 16 → Bool
  entryLocked : Fin 16 → Bool
  dataMem : Fin 16 → SmcEntry

/-- The ports of the cache in a cycle: reads and writes, each by address or by index for diagnosis,
and flushes. -/
structure SmcInput where
  rdEn : Bool
  wrEn : Bool
  rdDiagEn : Bool
  wrDiagEn : Bool
  flushEn : Bool
  addrOp : BitVec 2
  rdAddrIn : BitVec 16
  wrAddrIn : BitVec 16
  dataIn : BitVec 128

/-- The tag of an address. -/
def smcAddrTag (a : BitVec 16) : BitVec 14 := a.extractLsb' 2 14

/-- The sub-entry of an address. -/
def smcAddrOffset (a : BitVec 16) : BitVec 2 := a.extractLsb' 0 2

/-- The entry that a diagnostic access names. -/
def smcAddrIndex (a : BitVec 16) : Fin 16 := (a.extractLsb' 2 4).toFin

/-- The domain of an address, for a flush of one domain. -/
def smcAddrSdid (a : BitVec 16) : BitVec 10 := a.extractLsb' 6 10

/-- `smc_valid_in`: the top bit of each 32-bit word of the data. -/
def smcValidIn (d : BitVec 128) : BitVec 4 := packBits 4 fun k => d.getLsbD (32 * k + 31)

/-- `smc_data_in`: the low 30 bits of each word. -/
def smcDataIn (d : BitVec 128) : BitVec 120 :=
  d.extractLsb' 96 30 ++ d.extractLsb' 64 30 ++ d.extractLsb' 32 30 ++ d.extractLsb' 0 30

/-- `priority_encoder_4` on a comparison of the 16 entries: whether one meets it and which. -/
def smcEncode (f : Fin 16 → Bool) : Bool × Fin 16 :=
  ((genPriorityEncoder 3 (packBits 16 f)).nonzeroOut,
    (genPriorityEncoder 3 (packBits 16 f)).dataOut.toFin)

namespace Smc

variable (s : Smc) (i : SmcInput)

/-- Entry `j` has the tag that is read, and its sub-entry is valid. -/
def smcTagCmp (j : Fin 16) : Bool :=
  (s.dataMem j).tag == smcAddrTag i.rdAddrIn &&
    (s.dataMem j).valid.getLsbD (smcAddrOffset i.rdAddrIn).toNat

/-- Some entry does. -/
def tagHit : Bool := (smcEncode (s.smcTagCmp i)).1

/-- A read that is not a diagnostic one hits. -/
def hit : Bool := if i.rdEn && i.rdDiagEn then false else i.rdEn && s.tagHit i

/-- The entry read. -/
def hitIndex : Fin 16 :=
  if i.rdEn && i.rdDiagEn then smcAddrIndex i.rdAddrIn
  else if i.rdEn then (smcEncode (s.smcTagCmp i)).2
  else 0

/-- The sub-entry read. -/
def dataOut : BitVec 30 := (s.dataMem (s.hitIndex i)).dataAt (smcAddrOffset i.rdAddrIn)

/-- The valid bits of the entry read. -/
def validOut : BitVec 4 := (s.dataMem (s.hitIndex i)).valid

/-- The tag of the entry read. -/
def tagOut : BitVec 14 := (s.dataMem (s.hitIndex i)).tag

/-- Entry `j` has the tag that is written, and some sub-entry is valid. -/
def smcTagWrCmp (j : Fin 16) : Bool :=
  (s.dataMem j).tag == smcAddrTag i.wrAddrIn && (s.dataMem j).valid != 0

/-- Redundant entries are avoided: a write, or a flush by address, looks for its tag. -/
def wrHit : Bool :=
  (i.wrEn || (i.flushEn && i.addrOp == 1)) && (smcEncode (s.smcTagWrCmp i)).1

/-- The entry whose tag is written or flushed. -/
def wrHitIndex : Fin 16 :=
  if i.wrEn || (i.flushEn && i.addrOp == 1) then (smcEncode (s.smcTagWrCmp i)).2 else 0

/-- Entry `j` is neither used nor locked. -/
def replaceCmp (j : Fin 16) : Bool := !s.entryUsed j && !s.entryLocked j

/-- The entry that a refill of a new tag takes. -/
def replaceIndex : Fin 16 := if (smcEncode s.replaceCmp).1 then (smcEncode s.replaceCmp).2 else 0

/-- The entry written. -/
def wrIndex : Fin 16 :=
  if i.wrEn && i.wrDiagEn then smcAddrIndex i.wrAddrIn
  else if (i.flushEn || i.wrEn) && s.wrHit i then s.wrHitIndex i
  else s.replaceIndex

/-- A read, other than a diagnostic one, hits the entry. -/
def readHits (j : Fin 16) : Bool := i.rdEn && !i.rdDiagEn && s.hit i && s.hitIndex i == j

/-- Entry `j` may stay locked: it is not refilled with nothing, and a locked entry that is read is
unlocked. -/
def entryLockedAndMask (j : Fin 16) : Bool :=
  if i.wrEn && !i.wrDiagEn then
    !(smcValidIn i.dataIn == 0 && s.wrIndex i == j) &&
      !(s.readHits i j && s.wrIndex i != s.hitIndex i && s.entryLocked (s.hitIndex i))
  else !(s.readHits i j && s.entryLocked (s.hitIndex i))

/-- Entry `j` becomes locked: it is refilled. -/
def entryLockedOrMask (j : Fin 16) : Bool :=
  i.wrEn && !i.wrDiagEn && smcValidIn i.dataIn != 0 && s.wrIndex i == j

/-- Entry `j` is locked after the edge. -/
def entryLockedNext (j : Fin 16) : Bool :=
  (s.entryLocked j && s.entryLockedAndMask i j) || s.entryLockedOrMask i j

/-- Entry `j` may stay used: it is not refilled with nothing. -/
def entryUsedAndMask (j : Fin 16) : Bool :=
  if i.wrEn && !i.wrDiagEn then !(smcValidIn i.dataIn == 0 && s.wrIndex i == j) else true

/-- Entry `j` becomes used: it is refilled or read. -/
def entryUsedOrMask (j : Fin 16) : Bool :=
  if i.wrEn && !i.wrDiagEn then
    (smcValidIn i.dataIn != 0 && s.wrIndex i == j) ||
      (s.readHits i j && s.wrIndex i != s.hitIndex i)
  else s.readHits i j

/-- Entry `j` is used after the edge, unless all entries would be. -/
def entryUsedSet (j : Fin 16) : Bool :=
  (s.entryUsed j && s.entryUsedAndMask i j) || s.entryUsedOrMask i j

/-- The used bits start again when all are set. -/
def entryUsedNext (j : Fin 16) : Bool :=
  if ∀ k, s.entryUsedSet i k = true then false else s.entryUsedSet i j

/-- `data_mem_f` after a flush: of everything, of the sub-entry at an address, of an SDID. -/
def flushed (j : Fin 16) : SmcEntry :=
  if i.addrOp = 0 then { s.dataMem j with valid := 0 }
  else if i.addrOp = 1 then
    if s.wrHit i && s.wrIndex i == j then
      { s.dataMem j with
        valid := (s.dataMem j).valid &&& ~~~(1#4 <<< (smcAddrOffset i.wrAddrIn).toNat) }
    else s.dataMem j
  else if i.addrOp = 2 then
    if (s.dataMem j).sdid == smcAddrSdid i.wrAddrIn && (s.dataMem j).valid != 0 then
      { s.dataMem j with valid := 0 }
    else s.dataMem j
  else s.dataMem j

/-- `data_mem_f` after a diagnostic write of one sub-entry, of the valid bits or of the tag. -/
def diagWritten (j : Fin 16) : SmcEntry :=
  if s.wrIndex i = j then
    if i.addrOp = 0 then
      { s.dataMem j with
        data := maskedWrite (s.dataMem j).data
          ((i.dataIn.extractLsb' 0 30).setWidth 120 <<< ((smcAddrOffset i.wrAddrIn).toNat * 30))
          ((BitVec.allOnes 30).setWidth 120 <<< ((smcAddrOffset i.wrAddrIn).toNat * 30)) }
    else if i.addrOp = 1 then { s.dataMem j with valid := i.dataIn.extractLsb' 0 4 }
    else if i.addrOp = 2 then { s.dataMem j with tag := i.dataIn.extractLsb' 0 14 }
    else s.dataMem j
  else s.dataMem j

/-- The contents of entry `j` after the edge. -/
def dataMemNext (j : Fin 16) : SmcEntry :=
  if i.flushEn then s.flushed i j
  else if i.wrEn then
    if i.wrDiagEn then s.diagWritten i j
    else if s.wrIndex i = j then
      ⟨smcAddrTag i.wrAddrIn, smcValidIn i.dataIn, smcDataIn i.dataIn⟩
    else s.dataMem j
  else s.dataMem j

/-- One clock edge. -/
def step : Smc where
  entryUsed := s.entryUsedNext i
  entryLocked := s.entryLockedNext i
  dataMem := s.dataMemNext i

/-- The state after a reset. -/
def reset : Smc := ⟨fun _ => false, fun _ => false, fun _ => ⟨0, 0, 0⟩⟩

/-- The cache as a machine. -/
def machine : Machine Smc SmcInput where
  init s := s = reset
  step := step

end Smc

end Piton.L2
