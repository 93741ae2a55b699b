import Mathlib.Algebra.Group.Fin.Basic
import Mathlib.Algebra.Group.Nat.Defs
import Mathlib.Algebra.GroupWithZero.Nat
import Mathlib.Data.Fin.VecNotation
import Mathlib.Data.List.FinRange
import Piton.Lib.Fifo
import Piton.Lib.Machine
import Piton.Noc.Route

/-! The routers of the network, `dynamic_node_top` and the generated `dynamic_node_top_para`: a full
crossbar of input units, which find the headers, and output units, which hold a route. -/

namespace Piton.Noc

/-! ### Input units -/

/-- The registers of `dynamic_input_control`. -/
structure InputControl where
  count : BitVec 8
  headerLast : Bool
  thanksAll : Bool
  countZero : Bool
  countOne : Bool
  tailLast : Bool

namespace InputControl

/-- The registers after `reset`. -/
def init : InputControl where
  count := 0
  headerLast := true
  thanksAll := false
  countZero := true
  countOne := false
  tailLast := false

variable (c : InputControl) (validIn : Bool) (length : BitVec 8)

/-- The next flit is a header: the last one was and is still here, or the message has gone. -/
def headerTemp : Bool :=
  match c.headerLast, c.countZero, c.thanksAll with
  | false, false, false => false
  | false, false, true => false
  | false, true, false => false
  | false, true, true => true
  | true, false, false => true
  | true, false, true => false
  | true, true, false => true
  | true, true, true => true

/-- A header is at the front of the queue. -/
def header : Bool := validIn && c.headerTemp

/-- The flits of the message that are left: read from the header, one less for each flit taken. -/
def countTemp : BitVec 8 :=
  if c.header validIn then length else if c.thanksAll then c.count - 1 else c.count

/-- The flit at the front is the last of its message. -/
def tail : Bool :=
  (c.header validIn && length = 0) || (!c.thanksAll && c.tailLast) || (c.thanksAll && c.countOne)

/-- One clock edge. -/
def step (thanksAllTemp : Bool) : InputControl where
  count := c.countTemp validIn length
  headerLast := c.headerTemp
  thanksAll := thanksAllTemp
  countZero := c.countTemp validIn length = 0
  countOne := c.countTemp validIn length = 1
  tailLast := c.tail validIn length

end InputControl

/-- `dynamic_input_top_4` or `_16`: the queue of `network_input_blk_multi_out`, with
`LOG2_NUMBER_FIFO_ELEMENTS` of `k`, and the control. -/
structure InputUnit (k : Nat) where
  blk : Hw.Fifo k Flit
  yummyOut : Bool
  control : InputControl

namespace InputUnit

variable {k : Nat} (u : InputUnit k)

/-- The flit at the front of the queue. -/
def dataOut : Flit := u.blk.front

/-- The queue holds a flit. -/
def validOut : Bool := u.blk.nonempty

/-- A header is at the front of the queue. -/
def header : Bool := u.control.header u.validOut

/-- The flit at the front is the last of its message. -/
def tailOut : Bool := u.control.tail u.validOut u.dataOut.length

/-- One clock edge. -/
def step (dataIn : Option Flit) (thanksAllTemp : Bool) : InputUnit k where
  blk := u.blk.step dataIn thanksAllTemp
  yummyOut := thanksAllTemp
  control := u.control.step u.validOut u.dataOut.length thanksAllTemp

/-- Reset leaves the storage as it is. -/
structure Reset : Prop where
  head : u.blk.head = 0
  tail : u.blk.tail = 0
  count : u.blk.count = 0
  yummyOut : u.yummyOut = false
  control : u.control = .init

end InputUnit

/-! ### Output units -/

/-- The registers of `space_avail_top` with a `BUFFER_SIZE` of 4. -/
structure SpaceAvail where
  count : BitVec 3
  yummy : Bool
  valid : Bool
  isOne : Bool
  isTwoOrMore : Bool

namespace SpaceAvail

/-- The registers after `reset`, with four free elements. -/
def init : SpaceAvail where
  count := 4
  yummy := false
  valid := false
  isOne := false
  isTwoOrMore := true

variable (a : SpaceAvail)

/-- The next router has room for a flit, by the count and by what came in the cycle before. -/
def spcAvail : Bool := a.isTwoOrMore || a.yummy || (a.isOne && !a.valid)

/-- The free elements of the next router, between none and four. -/
def countTemp : BitVec 3 :=
  let up := a.yummy && !a.valid
  let down := !a.yummy && a.valid
  if a.count = 0 then
    if up then a.count + 1 else a.count
  else if a.count = 4 then
    if down then a.count - 1 else a.count
  else
    match up, down with
    | true, false => a.count + 1
    | false, true => a.count - 1
    | _, _ => a.count

/-- One clock edge. -/
def step (valid yummy : Bool) : SpaceAvail where
  count := a.countTemp
  yummy := yummy
  valid := valid
  isOne := a.countTemp.extractLsb' 1 2 = 0 && a.countTemp.getLsbD 0
  isTwoOrMore := a.countTemp.extractLsb' 1 2 ≠ 0

end SpaceAvail

/-- The wires into `dynamic_output_control`, numbered by routes. -/
structure OutputIn (n : Nat) where
  routeReq : Fin n → Bool
  tail : Fin n → Bool
  valid : Fin n → Bool
  defaultReady : Bool
  spaceAvail : Bool

/-- The registers of `dynamic_output_control`. -/
structure OutputControl (n : Nat) where
  currentRoute : Fin n
  planned : Bool

namespace OutputControl

variable {n : Nat} [NeZero n] (c : OutputControl n) (w : OutputIn n)

/-- The registers after `reset`, with the default route. -/
def init : OutputControl n where
  currentRoute := 0
  planned := false

/-- `valid_out_temp` is that of the current route. -/
def validOut : Bool :=
  w.valid c.currentRoute && (c.planned || w.defaultReady) && w.spaceAvail

/-- Input `k` sends its flit. -/
def thanks (k : Fin n) : Bool := k = c.currentRoute && c.validOut w

/-- The input of the current route has the last flit of its message. -/
def tailCurrentRoute : Bool := w.tail c.currentRoute

/-- Input `k` is not the one whose route is planned. -/
def routeReqMask (k : Fin n) : Bool := !(c.planned && k = c.currentRoute)

/-- Some input without the planned route requests this output. -/
def routeReqAllOrWithPlanned : Bool :=
  (List.finRange n).any fun k => w.routeReq k && c.routeReqMask k

/-- Some input other than the default one requests this output. -/
def routeReqAllButDefault : Bool := (List.finRange n).any fun k => k ≠ 0 && w.routeReq k

/-- The rotating priority encoder: the current route itself is not among the choices. -/
def newRoute : Fin n :=
  (((List.range (n - 1)).map fun b => c.currentRoute + Fin.ofNat n (b + 1)).find? w.routeReq).getD 0

/-- The rows of the table do not depend on the default. -/
def newRouteNeeded : Bool :=
  match w.defaultReady, c.validOut w, c.tailCurrentRoute w, c.planned with
  | _, false, _, planned => !planned
  | _, true, tail, _ => tail

/-- The route is planned after the edge: a request waits, or the current message is not over. -/
def plannedTemp : Bool :=
  match c.routeReqAllOrWithPlanned w, w.defaultReady, c.validOut w, c.tailCurrentRoute w,
    c.planned with
  | false, _, false, _, planned => planned
  | false, _, true, false, planned => planned
  | false, _, true, true, _ => false
  | true, true, true, true, false => routeReqAllButDefault w
  | true, _, _, _, _ => true

/-- One clock edge. -/
def step : OutputControl n where
  currentRoute := if c.newRouteNeeded w then c.newRoute w else c.currentRoute
  planned := c.plannedTemp w

end OutputControl

/-- `dynamic_output_top`. -/
structure OutputUnit (n : Nat) where
  space : SpaceAvail
  control : OutputControl n

/-! ### The crossbar -/

/-- A router: what its headers request, the inputs behind the routes of each output and the input
whose header is the default of each output. -/
structure DynamicNode where
  ports : Nat
  [ports_pos : NeZero ports]
  routeReq : Flit → Fin ports → Bool
  mapList : Fin ports → Fin ports → Fin ports
  mapList_injective : ∀ o, Function.Injective (mapList o)
  defaultDir : Fin ports → Fin ports
  log2Elements : Fin ports → Nat

attribute [instance] DynamicNode.ports_pos

namespace DynamicNode

variable (d : DynamicNode)

/-- The registers of a router. -/
structure State where
  inputs : (i : Fin d.ports) → InputUnit (d.log2Elements i)
  outputs : Fin d.ports → OutputUnit d.ports

/-- What a router reads in a cycle: the flits and the credits of its neighbours. -/
structure Input where
  dataIn : Fin d.ports → Option Flit
  yummyIn : Fin d.ports → Bool

variable {d} (s : d.State)

/-- `route_req_<i>_to_<o>`. -/
def routeReqTo (i o : Fin d.ports) : Bool :=
  (s.inputs i).header && d.routeReq (s.inputs i).dataOut o

/-- The wires into an output; `default_ready` is the request of the default input. -/
def outputIn (o : Fin d.ports) : OutputIn d.ports where
  routeReq := fun k => routeReqTo s (d.mapList o k) o
  tail := fun k => (s.inputs (d.mapList o k)).tailOut
  valid := fun k => (s.inputs (d.mapList o k)).validOut
  defaultReady := routeReqTo s (d.defaultDir o) o
  spaceAvail := (s.outputs o).space.spcAvail

/-- A flit leaves on output `o`. -/
def validOut (o : Fin d.ports) : Bool := (s.outputs o).control.validOut (outputIn s o)

/-- The input that the current route of an output selects. -/
def source (o : Fin d.ports) : Fin d.ports := d.mapList o (s.outputs o).control.currentRoute

/-- The flit on output `o`. -/
def dataOut (o : Fin d.ports) : Flit := (s.inputs (source s o)).dataOut

/-- `thanks_<o>_to_<i>`. -/
def thanksTo (o i : Fin d.ports) : Bool :=
  (List.finRange d.ports).any fun k =>
    d.mapList o k = i && (s.outputs o).control.thanks (outputIn s o) k

/-- Some output takes the flit of input `i`. -/
def thanksAllTemp (i : Fin d.ports) : Bool := (List.finRange d.ports).any fun o => thanksTo s o i

/-- One clock edge. -/
def next (e : d.Input) : d.State where
  inputs := fun i => (s.inputs i).step (e.dataIn i) (thanksAllTemp s i)
  outputs := fun o =>
    { space := (s.outputs o).space.step (validOut s o) (e.yummyIn o)
      control := (s.outputs o).control.step (outputIn s o) }

variable (d)

/-- The router as a machine. -/
def machine : Hw.Machine d.State d.Input where
  init s := (∀ i, (s.inputs i).Reset) ∧ ∀ o, s.outputs o = ⟨.init, .init⟩
  step := next

/-- What has passed through a router: the flits that arrived at and were taken from each input, the
flits that left each output, with the input they came from, and the credits returned upstream. -/
structure History where
  arrived : Fin d.ports → List Flit
  taken : Fin d.ports → List Flit
  left : Fin d.ports → List (Fin d.ports × Flit)
  returned : Fin d.ports → Nat

namespace History

variable {d}

/-- No flit has passed. -/
def init : d.History where
  arrived := fun _ => []
  taken := fun _ => []
  left := fun _ => []
  returned := fun _ => 0

/-- What one cycle moves. -/
def update (h : d.History) (s : d.State) (e : d.Input) : d.History where
  arrived := fun i => h.arrived i ++ (e.dataIn i).toList
  taken := fun i => if thanksAllTemp s i then h.taken i ++ [(s.inputs i).dataOut] else h.taken i
  left := fun o => if validOut s o then h.left o ++ [(source s o, dataOut s o)] else h.left o
  returned := fun i => h.returned i + (s.inputs i).yummyOut.toNat

end History

/-- The router with the history of its ports. -/
def recorded : Hw.Machine (d.State × d.History) d.Input :=
  d.machine.withHistory .init History.update

variable {d}

/-- Upstream sends a flit only on a credit: it starts with one for each element of the queue. -/
def Credited (y : d.State × d.History) (e : d.Input) : Prop :=
  ∀ i, (e.dataIn i).isSome = true →
    (y.2.arrived i).length <
      y.2.returned i + (y.1.inputs i).yummyOut.toNat + 2 ^ d.log2Elements i

instance (y : d.State × d.History) (e : d.Input) : Decidable (Credited y e) :=
  inferInstanceAs (Decidable (∀ _, _ → _))

end DynamicNode

/-! ### Configurations -/

/-- The ports of the mesh node in order. -/
def meshPort : Fin 5 → Port := ![.n, .e, .s, .w, .p]

/-- `dynamic_node_top`. -/
def meshNode (myLocX myLocY : BitVec 8) (myChipId : BitVec 14) : DynamicNode where
  ports := 5
  routeReq h o :=
    dynamicInputRouteRequestCalc myLocX myLocY myChipId h.absX h.absY h.absChipId h.finalBits true
      (meshPort o)
  mapList := ![![2, 3, 4, 1, 0], ![3, 4, 0, 2, 1], ![0, 1, 3, 4, 2], ![1, 2, 4, 0, 3],
    ![2, 3, 0, 1, 4]]
  mapList_injective := by unfold Function.Injective; decide
  defaultDir := ![2, 3, 0, 1, 2]
  log2Elements := ![2, 2, 2, 2, 4]

section Generated

variable (n : Nat) [NeZero n]

/-- `gen_default_dir`. -/
def genDefaultDir (dir : Fin n) : Fin n :=
  Fin.ofNat n
    (if dir.val = n - 1 then (n - 1) / 2 % (n - 1) else (dir.val + (n - 1) / 2) % (n - 1))

variable {n}

/-- `map_list`: the inputs from the default direction on, the output's own one last. -/
def paraMapList (dir : Fin n) : List (Fin n) :=
  ((List.finRange n).map (genDefaultDir n dir + ·)).filter (· != dir) ++ [dir]

omit [NeZero n] in
theorem nodup_rotated (a : Fin n) : ((List.finRange n).map (a + ·)).Nodup :=
  (List.nodup_finRange n).map (add_right_injective a)

theorem length_paraMapList (dir : Fin n) : (paraMapList dir).length = n := by
  have hmem : dir ∈ (List.finRange n).map (genDefaultDir n dir + ·) :=
    List.mem_map.2 ⟨dir - genDefaultDir n dir, List.mem_finRange _, by simp⟩
  rw [paraMapList, List.length_append, ← (nodup_rotated _).erase_eq_filter,
    List.length_erase_of_mem hmem, List.length_map, List.length_finRange, List.length_singleton]
  have := Nat.pos_of_ne_zero (NeZero.ne n)
  omega

theorem nodup_paraMapList (dir : Fin n) : (paraMapList dir).Nodup := by
  rw [paraMapList, List.nodup_append]
  refine ⟨(nodup_rotated _).filter _, List.nodup_singleton dir, ?_⟩
  intro a ha b hb
  rw [List.mem_singleton.1 hb]
  simpa using (List.mem_filter.1 ha).2

/-- `dynamic_node_top_para` with a route calculation. -/
def paraNode (routeCalc : Flit → Fin n → Bool) : DynamicNode where
  ports := n
  routeReq := routeCalc
  mapList o k := (paraMapList o).get (k.cast (length_paraMapList o).symm)
  mapList_injective o := by
    intro a b h
    have := (nodup_paraMapList o).injective_get h
    simpa using this
  defaultDir := genDefaultDir n
  log2Elements := fun _ => 2

/-- `dynamic_input_route_request_calc_para` under `NETWORK_TOPO_XBAR`. -/
def xbarRouteReq (myChipId : BitVec 14) (h : Flit) (o : Fin n) : Bool :=
  if o.val + 1 < n then h.absChipId = myChipId && h.absX = BitVec.ofNat 8 o
  else h.absChipId ≠ myChipId

/-- The generated crossbar. -/
def xbarNode (n : Nat) [NeZero n] (myChipId : BitVec 14) : DynamicNode :=
  paraNode (n := n) (xbarRouteReq myChipId)

end Generated

end Piton.Noc
