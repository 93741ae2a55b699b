import Mathlib.Data.List.FinRange
import Piton.Lib.Machine
import Piton.Lib.Sizes
import Piton.Lib.Tally

/-! `l2_mshr`: the eight MSHRs of the L2 and the count of those in which a write-back guard waits. The
ways take `w` bits of an entry, and `t` bits index the sets. -/

namespace Piton.L2

open Hw

variable {w t : Nat}

/-- The `L2_MSHR_STATE_*` codes. -/
inductive MshrState where
  | inval
  | wait
  | pending
  deriving DecidableEq, Repr

/-- `L2_MSHR_ARRAY_WIDTH` bits. -/
abbrev MshrEntry (w : Nat) := BitVec (120 + w)

namespace MshrEntry

/-- `L2_MSHR_CMP_ADDR`. -/
def cmpAddr (e : MshrEntry w) : BitVec 8 := e.extractLsb' 6 8

/-- `L2_MSHR_MSG_TYPE`. -/
def msgType (e : MshrEntry w) : BitVec 8 := e.extractLsb' (52 + w) 8

/-- `L2_MSHR_SMC_MISS`. -/
def smcMiss (e : MshrEntry w) : Bool := e.getLsbD (117 + w)

/-- `MSG_TYPE_WBGUARD_REQ`. -/
def isGuard (e : MshrEntry w) : Bool := e.msgType = 13

end MshrEntry

/-- The registers of `l2_mshr`: the state, the request and the acknowledgement counter of each
entry, and the count of waiting guards. -/
structure Mshr (w : Nat) where
  stateMem : Fin 8 → MshrState
  dataMem : Fin 8 → MshrEntry w
  counterMem : Fin 8 → BitVec 6
  wbgCounter : BitVec 3

/-- The ports of `l2_mshr` in a cycle. -/
structure MshrInput (w t : Nat) where
  camEn : Bool
  wrStateEn : Bool
  wrDataEn : Bool
  pendingReady : Bool
  incCounterEn : Bool
  stateIn : MshrState
  dataIn : MshrEntry w
  dataMaskIn : MshrEntry w
  wrIndexIn : Fin 8
  addrIn : BitVec t

/-- An entry that is written under the mask. -/
def MshrInput.merge (i : MshrInput w t) (e : MshrEntry w) : MshrEntry w :=
  (e &&& ~~~i.dataMaskIn) ||| (i.dataIn &&& i.dataMaskIn)

/-- `L2_MSHR_WBG_THRESHOLD`. -/
def wbgThreshold : Nat := 4

namespace Mshr

/-- The registers after `reset`. -/
def init : Mshr w where
  stateMem := fun _ => .inval
  dataMem := fun _ => 0
  counterMem := fun _ => 0
  wbgCounter := 0

variable (s : Mshr w) (i : MshrInput w t)

/-- `pending_index`, when `pending`. -/
def pendingIndex : Option (Fin 8) := (List.finRange 8).find? fun k => s.stateMem k = .pending

/-- `hit_index`, when `hit`. -/
def hitIndex : Option (Fin 8) :=
  if i.camEn then
    (List.finRange 8).find? fun k =>
      (s.dataMem k).cmpAddr.toNat = i.addrIn.toNat && s.stateMem k ≠ .inval
  else none

/-- The entry that is popped: `pending && pending_ready`. -/
def popped : Option (Fin 8) := if i.pendingReady then s.pendingIndex else none

/-- The entry that is hit, when it holds a write-back guard. -/
def guardHit : Option (Fin 8) := (s.hitIndex i).filter fun k => (s.dataMem k).isGuard

/-- The write-back guards that wait. -/
def waits (k : Fin 8) : Bool := s.stateMem k = .wait && (s.dataMem k).isGuard

/-- SMC miss entries are locked in the MSHR. -/
def poppedState (k : Fin 8) : MshrState := if (s.dataMem k).smcMiss then .wait else .inval

/-- `state_mem_f` after the clock edge. -/
def stateNext (k : Fin 8) : MshrState :=
  if i.wrStateEn then
    if k = i.wrIndexIn then i.stateIn
    else if s.popped i = some k then s.poppedState k
    else s.stateMem k
  else
    match s.popped i with
    | some q => if k = q then s.poppedState k else s.stateMem k
    | none =>
      match s.guardHit i with
      | some h => if k = h then .pending else s.stateMem k
      | none =>
        if wbgThreshold < s.wbgCounter.toNat then
          if s.waits k then .pending else s.stateMem k
        else s.stateMem k

/-- A guard is written with its state and its whole type. -/
def counts : Bool :=
  i.wrStateEn && i.wrDataEn && i.stateIn = .wait && i.dataIn.isGuard &&
    i.dataMaskIn.msgType = BitVec.allOnes 8

/-- A guard is hit, and neither a state is written nor an entry popped. -/
def uncounts : Bool := !i.wrStateEn && (s.popped i).isNone && (s.guardHit i).isSome

/-- `wbg_counter_next`. -/
def wbgCounterNext : BitVec 3 :=
  if counts i then s.wbgCounter + 1
  else if s.uncounts i then s.wbgCounter - 1
  else s.wbgCounter

/-- `counter_mem_f` after the clock edge. -/
def counterNext (k : Fin 8) : BitVec 6 :=
  match s.popped i with
  | some q =>
    if i.incCounterEn && q ≠ i.wrIndexIn && k = i.wrIndexIn then s.counterMem k + 1
    else if k = q then 0
    else s.counterMem k
  | none => if i.incCounterEn && k = i.wrIndexIn then s.counterMem k + 1 else s.counterMem k

/-- `data_mem_f` after the clock edge. -/
def dataNext (k : Fin 8) : MshrEntry w :=
  if i.wrDataEn && k = i.wrIndexIn then i.merge (s.dataMem k) else s.dataMem k

/-- One clock edge. -/
def step : Mshr w where
  stateMem := s.stateNext i
  dataMem := s.dataNext i
  counterMem := s.counterNext i
  wbgCounter := s.wbgCounterNext i

/-- The forced clear takes place. -/
def clears : Bool :=
  !i.wrStateEn && (s.popped i).isNone && (s.guardHit i).isNone && wbgThreshold < s.wbgCounter.toNat

/-- The number of write-back guards that wait. -/
def waiting : Nat := tally s.waits

end Mshr

/-- The MSHRs as a machine. -/
def mshrArray (w t : Nat) : Machine (Mshr w) (MshrInput w t) where
  init s := s = .init
  step := Mshr.step

end Piton.L2
