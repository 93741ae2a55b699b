import Mathlib.Tactic.Common
import Piton.Lib.Sizes

/-! The route calculation of a network node: `dynamic_input_route_request_calc` and the mesh variants
of `dynamic_input_route_request_calc_para`, with the header fields that they read. -/

namespace Piton.Noc

/-! ### Header fields -/

/-- A flit of a network (`DATA_WIDTH`). -/
abbrev Flit := BitVec 64

namespace Flit

/-- The chip of a header's destination. -/
def absChipId (f : Flit) : BitVec 14 := f.extractLsb' 50 14

/-- The column of a header's destination. -/
def absX (f : Flit) : BitVec 8 := f.extractLsb' 42 8

/-- The row of a header's destination. -/
def absY (f : Flit) : BitVec 8 := f.extractLsb' 34 8

/-- Bit 33 of the final route field is not read. -/
def finalBits (f : Flit) : BitVec 3 := f.extractLsb' 30 3

/-- How many flits follow a header. -/
def length (f : Flit) : BitVec 8 := f.extractLsb' 22 8

/-- The number of flits that follow a header. -/
def len (f : Flit) : Nat := f.length.toNat

end Flit

/-- `OFF_CHIP_NODE_X`. -/
def offChipNodeX : BitVec 8 := 0

/-- `OFF_CHIP_NODE_Y`. -/
def offChipNodeY : BitVec 8 := 0

/-! ### Two dimensions -/

/-- The ports of a mesh node, in the order of the numbered variant. -/
inductive Port where
  | n
  | e
  | s
  | w
  | p
  deriving DecidableEq, Repr

/-- The port that the final bits name. -/
def finalPort : BitVec 3 → Option Port
  | 0b000#3 => some .p
  | 0b010#3 => some .w
  | 0b011#3 => some .s
  | 0b100#3 => some .e
  | 0b101#3 => some .n
  | _ => none

/-- The requests of a mesh node, from the coordinates that are compared. -/
def meshRequests (nodeAbsX nodeAbsY nodeMyLocX nodeMyLocY : BitVec 8) (offChip : Bool)
    (finalBits : BitVec 3) (headerIn : Bool) : Port → Bool :=
  let moreX : Bool := if offChip then offChipNodeX > nodeMyLocX else nodeAbsX > nodeMyLocX
  let moreY : Bool := if offChip then offChipNodeY > nodeMyLocY else nodeAbsY > nodeMyLocY
  let lessX : Bool := if offChip then offChipNodeX < nodeMyLocX else nodeAbsX < nodeMyLocX
  let lessY : Bool := if offChip then offChipNodeY < nodeMyLocY else nodeAbsY < nodeMyLocY
  let doneX : Bool := if offChip then offChipNodeX = nodeMyLocX else nodeAbsX = nodeMyLocX
  let doneY : Bool := if offChip then offChipNodeY = nodeMyLocY else nodeAbsY = nodeMyLocY
  let done := doneX && doneY
  fun
  | .n => headerIn && (doneX && lessY || finalBits = 0b101#3 && done)
  | .s => headerIn && (doneX && moreY || finalBits = 0b011#3 && done)
  | .e => headerIn && (moreX || finalBits = 0b100#3 && done)
  | .w => headerIn && (lessX || finalBits = 0b010#3 && done)
  | .p => headerIn && (finalBits = 0b000#3 && done)

/-- `dynamic_input_route_request_calc`. -/
def dynamicInputRouteRequestCalc (myLocX myLocY : BitVec 8) (myChipId : BitVec 14)
    (absX absY : BitVec 8) (absChipId : BitVec 14) (finalBits : BitVec 3) (headerIn : Bool) :
    Port → Bool :=
  meshRequests absX absY myLocX myLocY (absChipId ≠ myChipId) finalBits headerIn

/-- `ROUTING_XY` or `ROUTING_CHIP_ID`. -/
inductive Routing where
  | xy
  | chipId
  deriving DecidableEq, Repr

/-- `dynamic_input_route_request_calc_para` under `NETWORK_TOPO_2D_MESH`. -/
def dynamicInputRouteRequestCalcPara (r : Routing) (myLocX myLocY : BitVec 8)
    (myChipId : BitVec 14) (absX absY : BitVec 8) (absChipId : BitVec 14) (finalBits : BitVec 3)
    (headerIn : Bool) : Port → Bool :=
  match r with
  | .xy => meshRequests absX absY myLocX myLocY (absChipId ≠ myChipId) finalBits headerIn
  | .chipId =>
    meshRequests (0#1 ++ absChipId.extractLsb' 7 7) (0#1 ++ absChipId.extractLsb' 0 7)
      (0#1 ++ myChipId.extractLsb' 7 7) (0#1 ++ myChipId.extractLsb' 0 7) false finalBits headerIn

/-! ### Three dimensions -/

/-- The ports of a node of the three-dimensional mesh: north, east, up, south, west, down and the
processor. -/
inductive Port3d where
  | dir0
  | dir1
  | dir2
  | dir3
  | dir4
  | dir5
  | dir6
  deriving DecidableEq, Repr

/-- The coordinates in a chip id: each has a third of the bits, the first two bits are not read. -/
def dim1 (c : BitVec 14) : BitVec 8 := 0#4 ++ c.extractLsb' 8 4

/-- The second coordinate of a chip. -/
def dim2 (c : BitVec 14) : BitVec 8 := 0#4 ++ c.extractLsb' 4 4

/-- The third coordinate of a chip. -/
def dim3 (c : BitVec 14) : BitVec 8 := 0#4 ++ c.extractLsb' 0 4

/-- `dynamic_input_route_request_calc_para` under `NETWORK_TOPO_3D_MESH`. -/
def dynamicInputRouteRequestCalc3d (myChipId absChipId : BitVec 14) (headerIn : Bool) :
    Port3d → Bool :=
  let moreDim1 : Bool := dim1 absChipId > dim1 myChipId
  let moreDim2 : Bool := dim2 absChipId > dim2 myChipId
  let moreDim3 : Bool := dim3 absChipId > dim3 myChipId
  let lessDim1 : Bool := dim1 absChipId < dim1 myChipId
  let lessDim2 : Bool := dim2 absChipId < dim2 myChipId
  let lessDim3 : Bool := dim3 absChipId < dim3 myChipId
  let doneDim1 : Bool := dim1 absChipId = dim1 myChipId
  let doneDim2 : Bool := dim2 absChipId = dim2 myChipId
  let doneDim3 : Bool := dim3 absChipId = dim3 myChipId
  fun
  | .dir4 => headerIn && (lessDim1 && doneDim2 && doneDim3)
  | .dir3 => headerIn && (moreDim2 && doneDim3)
  | .dir2 => headerIn && lessDim3
  | .dir1 => headerIn && (moreDim1 && doneDim2 && doneDim3)
  | .dir0 => headerIn && (lessDim2 && doneDim3)
  | .dir5 => headerIn && moreDim3
  | .dir6 => headerIn && (doneDim1 && doneDim2 && doneDim3)

end Piton.Noc
