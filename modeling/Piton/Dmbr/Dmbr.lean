import Mathlib.Algebra.GroupWithZero.Nat
import Piton.Lib.Machine
import Piton.Lib.Select

/-! The memory traffic shaper `dmbr`: misses are charged to bins of credits by the interval since the
last miss, and wait when no bin that the interval reaches has a credit. -/

namespace Piton.Dmbr

open Hw

/-- The number of bins, `DMBR_BIN_NUM`. -/
abbrev Bin := Fin 10

instance neZero_bins : NeZero 10 := ⟨by decide⟩

/-- The registers of `dmbr`: the credits each bin is refilled to and has left, the replenishment
counter, the stall counter, for each tag the interval and the bin of its last miss, the counter of
cycles since the last miss with the interval given back to it, and the two configuration registers.
-/
structure State where
  repCredit : Bin → BitVec 6
  curCredit : Bin → BitVec 6
  repInterval : BitVec 16
  totalStallCycles : BitVec 16
  interval : BitVec 4 → BitVec 10
  binUsed : BitVec 4 → BitVec 4
  satCounter : BitVec 9
  addCounter : BitVec 9
  replenishCycles : BitVec 16
  binScale : BitVec 10

/-- What `dmbr` reads in a cycle: the configuration load, the misses of the L1.5 and the responses
of the L2. -/
structure Input where
  funcEn : Bool
  procLd : Bool
  creditIn : Bin → BitVec 6
  replenishCyclesIn : BitVec 16
  binScaleIn : BitVec 10
  l1missIn : Bool
  l1missTag : BitVec 4
  l2responseIn : Bool
  l2missIn : Bool
  l2missTag : BitVec 4

section Wires

variable (s : State) (i : Input)

/-! ### Intervals -/

/-- `max_interval`: one more than the interval of a bin past the last one, in nine bits. -/
def maxInterval : BitVec 9 := ((10#32 <<< s.binScale) + 1).setWidth 9

/-- The cycles since the last miss, which stop at the largest interval. -/
def nextSatCounter : BitVec 9 :=
  if i.l1missIn then 0
  else if s.satCounter < maxInterval s then s.satCounter + 1 else s.satCounter

/-- A response that hit in the L2 gives back its interval. -/
def refunds : Bool := i.l2responseIn && !i.l2missIn

/-- The interval that a refunding response brings back. -/
def addInterval : BitVec 10 := if refunds i then s.interval i.l2missTag else 0

/-- That interval, capped at the largest one. -/
def addInterval2 : BitVec 9 :=
  if addInterval s i > (maxInterval s).setWidth 10 then maxInterval s
  else (addInterval s i).setWidth 9

/-- The interval given back since the last miss, capped as well. -/
def nextAddCounter : BitVec 9 :=
  if i.l2responseIn && i.l1missIn then addInterval2 s i
  else if refunds i then
    if s.addCounter + addInterval2 s i < maxInterval s then s.addCounter + addInterval2 s i
    else maxInterval s
  else if i.l1missIn then 0 else s.addCounter

/-- The interval a miss has: cycles counted and cycles given back. -/
def sumCounter : BitVec 10 := s.satCounter.setWidth 10 + s.addCounter.setWidth 10

/-- The interval of the miss of this cycle. -/
def curInterval : BitVec 10 := if i.l1missIn then sumCounter s else 0

/-! ### Bins -/

/-- The interval that bin `k` asks for, in the width of the comparison. -/
def threshold (k : Bin) : BitVec 10 := BitVec.ofNat 10 k <<< s.binScale

/-- Bin `k` has a credit and the interval reaches it; bin 0 is always reached. -/
def reached (k : Bin) : Bool :=
  (k = 0 || threshold s k ≤ curInterval s i) && 0 < s.curCredit k

/-- What a miss is charged and how long it waits. -/
structure Selected where
  reqEn : Bin
  binNumber : BitVec 4
  stallCycles : BitVec 16

/-- The largest bin with a credit that the interval reaches; else the smallest bin with a credit,
after a wait; else none until the next replenishment. -/
def selected : Selected :=
  match (List.finRange 10).reverse.find? (reached s i) with
  | some k => ⟨k, BitVec.ofNat 4 k, 0⟩
  | none =>
    match (List.finRange 10).find? fun k => k ≠ 0 && 0 < s.curCredit k with
    | some k => ⟨k, BitVec.ofNat 4 k,
        (BitVec.ofNat 16 k <<< s.binScale) - (curInterval s i).setWidth 16⟩
    | none => ⟨0, 10, s.replenishCycles - s.repInterval⟩

/-- A miss is charged to a bin with a credit, or to none. -/
theorem selected_cases : (0 < s.curCredit (selected s i).reqEn ∧
    (selected s i).binNumber = BitVec.ofNat 4 (selected s i).reqEn) ∨
      (selected s i).binNumber = 10 := by
  rw [selected]
  split
  next k hr =>
    have hk := (isGreatest_of_find? hr).1
    simp only [reached, Set.mem_ofPred_eq, Bool.and_eq_true, decide_eq_true_iff] at hk
    exact .inl ⟨hk.2, rfl⟩
  next =>
    split
    next k hl =>
      have hk := (isLeast_of_find? hl).1
      simp only [Set.mem_ofPred_eq, Bool.and_eq_true, decide_eq_true_iff] at hk
      exact .inl ⟨hk.2, rfl⟩
    next => exact .inr rfl

/-- Bin `k` is charged. -/
def reqEn (k : Bin) : Bool := i.l1missIn && k = (selected s i).reqEn

/-- How long the miss of this cycle has to wait. -/
def stallCycles : BitVec 16 := if i.l1missIn then (selected s i).stallCycles else 0

/-- The waits that have not passed yet. -/
def nextTotalStallCycles : BitVec 16 :=
  if stallCycles s i > 0 then s.totalStallCycles + stallCycles s i
  else if s.totalStallCycles > 0 then s.totalStallCycles - 1 else 0

/-! ### Credits -/

/-- The credits are replenished. -/
def repEn : Bool := s.repInterval = s.replenishCycles

/-- The cycles since the last replenishment. -/
def nextRepInterval : BitVec 16 := if repEn s then 0 else s.repInterval + 1

/-- The bin that a refunding response was charged to. -/
def addBin : BitVec 4 := if refunds i then s.binUsed i.l2missTag else 0

/-- Bin `k` gets a credit back. -/
def addEn (k : Bin) : Bool := refunds i && addBin s i = BitVec.ofNat 4 k

/-- The credits of the bin charged, less one. -/
def curCreditMinusOne : BitVec 6 :=
  let c := bus (reqEn s i) s.curCredit
  if c > 0 then c - 1 else c

/-- The credits of a bin that is charged and not refunded. -/
def reqOut : BitVec 6 :=
  if repEn s then bus (reqEn s i) s.repCredit else curCreditMinusOne s i

/-- The credits of a bin that is refunded, which stop at 63. -/
def addOut : BitVec 6 :=
  let c := if repEn s then bus (addEn s i) s.repCredit else bus (addEn s i) s.curCredit
  if c < 63 then c + 1 else c

/-- The eight rows of charge, replenishment and refund. -/
def nextCredit (k : Bin) : BitVec 6 :=
  match reqEn s i k, repEn s, addEn s i k with
  | false, false, true => addOut s i
  | false, true, false => s.repCredit k
  | false, true, true => addOut s i
  | true, false, false => reqOut s i
  | true, true, false => reqOut s i
  | true, true, true => s.repCredit k
  | false, false, false => s.curCredit k
  | true, false, true => s.curCredit k

/-- One clock edge. -/
def next : State :=
  if i.funcEn then
    { repCredit := if i.procLd then i.creditIn else s.repCredit
      curCredit := if i.procLd then i.creditIn else nextCredit s i
      repInterval := nextRepInterval s
      totalStallCycles := nextTotalStallCycles s i
      interval := fun t => if i.l1missIn ∧ t = i.l1missTag then sumCounter s else s.interval t
      binUsed := fun t =>
        if i.l1missIn ∧ t = i.l1missTag then (selected s i).binNumber else s.binUsed t
      satCounter := nextSatCounter s i
      addCounter := nextAddCounter s i
      replenishCycles := if i.procLd then i.replenishCyclesIn else s.replenishCycles
      binScale := if i.procLd then i.binScaleIn else s.binScale }
  else s

end Wires

/-- The state after reset. -/
def reset : State where
  repCredit := fun _ => 0
  curCredit := fun _ => 1
  repInterval := 0
  totalStallCycles := 0
  interval := fun _ => 0
  binUsed := fun _ => 0
  satCounter := 0
  addCounter := 0
  replenishCycles := 0
  binScale := 0

/-- The shaper as a machine. -/
def machine : Machine State Input where
  init s := s = reset
  step := next

end Piton.Dmbr
