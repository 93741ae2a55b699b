import Piton.Lib.Packets
import Piton.Noc.Mesh
import Piton.Noc.Units

/-! Messages through a router: the flits that leave each output are whole messages, each from one
input and on the output that its header requests. -/

namespace Piton.Noc

open Hw

namespace DynamicNode

variable {d : DynamicNode}

/-! ### Statement -/

/-- Output `o`, with no route planned, is about to send the flit of an input that does not request
it, because another input's header is its default. -/
def Misled (s : d.State) (o : Fin d.ports) : Prop :=
  (s.outputs o).control.planned = false ∧ (outputIn s o).defaultReady = true ∧
    (outputIn s o).spaceAvail = true ∧
    (s.inputs (source s o)).validOut = true ∧ routeReqTo s (source s o) o = false

/-- Each header at the front of a queue requests at most one output, and no output is misled. -/
structure Clear (s : d.State) : Prop where
  single : ∀ i o o', routeReqTo s i o = true → routeReqTo s i o' = true → o = o'
  led : ∀ o, ¬ Misled s o

/-- The flits that arrived and have not been taken are in the queues, each output's flits are
packets of single inputs, and what left from an input at an output is, in order and once, the
packets taken from the input whose headers request the output. A packet requests one output. -/
structure Intact (y : d.State × d.History) : Prop where
  queued : ∀ i, ∃ w, y.2.arrived i = y.2.taken i ++ w ∧ (y.1.inputs i).blk.Holds w
  unmixed : ∀ o, Unmixed Flit.len (y.2.left o)
  carries : ∀ i o, Carries Flit.len (fun h => d.routeReq h o) i (y.2.taken i) (y.2.left o)
  routed : ∀ i, ∀ pk ∈ packets Flit.len (y.2.taken i),
    ∃! o, headed (fun h => d.routeReq h o) pk = true

/-! ### Invariant -/

/-- The flits in the queue of an input. -/
def waiting (y : d.State × d.History) (i : Fin d.ports) : List Flit :=
  (y.2.arrived i).drop (y.2.taken i).length

/-- What the packet that leaves input `i` lacks. -/
def lacks (y : d.State × d.History) (i : Fin d.ports) : Nat := due Flit.len (y.2.taken i)

/-- What the packet that leaves on output `o` lacks. -/
def lacksOut (y : d.State × d.History) (o : Fin d.ports) : Nat :=
  due (tagLen Flit.len) (y.2.left o)

/-- The packet of the next flit of input `i` requests output `o`. -/
def wants (y : d.State × d.History) (i o : Fin d.ports) : Bool :=
  (current Flit.len (y.2.taken i) (waiting y i).head?).any fun h => d.routeReq h o

/-- What holds of an input: its flits are those taken and those in its queue, each taken one gave a
credit back, its control is where the message is, and each message has one output. -/
structure InputInv (y : d.State × d.History) (i : Fin d.ports) : Prop where
  arrived_eq : y.2.arrived i = y.2.taken i ++ waiting y i
  holds : (y.1.inputs i).blk.Holds (waiting y i)
  returned_eq : y.2.returned i + (y.1.inputs i).yummyOut.toNat = (y.2.taken i).length
  tracks : (y.1.inputs i).control.Tracks (lacks y i) (waiting y i)
  single : lacks y i ≠ 0 → ∀ o o', wants y i o = true → wants y i o' = true → o = o'
  routed : ∀ pk ∈ packets Flit.len (y.2.taken i), ∃! o, headed (fun h => d.routeReq h o) pk = true

/-- What holds of an output: without a plan no message is under way, with one the planned input's
is, and what left are whole messages of the inputs. -/
structure OutputInv (y : d.State × d.History) (o : Fin d.ports) : Prop where
  idle : (y.1.outputs o).control.planned = false →
    (y.1.outputs o).control.currentRoute = 0 ∧ lacksOut y o = 0
  busy : (y.1.outputs o).control.planned = true →
    wants y (source y.1 o) o = true ∧ lacksOut y o = lacks y (source y.1 o)
  origin : lacksOut y o ≠ 0 →
    ∀ a, (current (tagLen Flit.len) (y.2.left o) a).any (·.1 = source y.1 o) = true
  unmixed : Unmixed Flit.len (y.2.left o)
  carries : ∀ i, Carries Flit.len (fun h => d.routeReq h o) i (y.2.taken i) (y.2.left o)

/-- What holds of a router in every reachable state. -/
structure Inv (y : d.State × d.History) : Prop where
  input : ∀ i, InputInv y i
  output : ∀ o, OutputInv y o

theorem Inv.intact {y : d.State × d.History} (h : Inv y) : Intact y where
  queued := fun i => ⟨waiting y i, (h.input i).arrived_eq, (h.input i).holds⟩
  unmixed := fun o => (h.output o).unmixed
  carries := fun i o => (h.output o).carries i
  routed := fun i => (h.input i).routed

/-! ### What the wires say -/

section Wires

variable {y : d.State × d.History} {i j o o' : Fin d.ports}

theorem validOut_unit (h : Inv y) (i : Fin d.ports) :
    (y.1.inputs i).validOut = true ↔ waiting y i ≠ [] :=
  (h.input i).holds.nonempty_iff

theorem dataOut_unit (h : Inv y) {x : Flit} {w : List Flit} (hw : waiting y i = x :: w) :
    (y.1.inputs i).dataOut = x := by
  have hh := (h.input i).holds
  rw [hw] at hh
  exact hh.front_eq

/-- A request is that of a header at the front of the queue. -/
theorem routeReqTo_iff (h : Inv y) :
    routeReqTo y.1 i o = true ↔
      lacks y i = 0 ∧ ∃ x w, waiting y i = x :: w ∧ d.routeReq x o = true := by
  rw [routeReqTo, InputUnit.header, (h.input i).tracks.header_eq]
  simp only [Bool.and_eq_true, decide_eq_true_iff, validOut_unit h]
  constructor
  · rintro ⟨⟨hw, hl⟩, hr⟩
    obtain ⟨x, w, hx⟩ := List.exists_cons_of_ne_nil hw
    exact ⟨hl, x, w, hx, by rwa [dataOut_unit h hx] at hr⟩
  · rintro ⟨hl, x, w, hx, hr⟩
    exact ⟨⟨by simp [hx], hl⟩, by rwa [dataOut_unit h hx]⟩

theorem wants_of_routeReqTo (h : Inv y) (hr : routeReqTo y.1 i o = true) :
    wants y i o = true ∧ lacks y i = 0 := by
  obtain ⟨hl, x, w, hx, hro⟩ := (routeReqTo_iff h).1 hr
  exact ⟨by simp [wants, current_of_due_eq Flit.len hl, hx, hro], hl⟩

theorem routeReqTo_of_wants (h : Inv y) (hl : lacks y i = 0) (hw : wants y i o = true) :
    routeReqTo y.1 i o = true := by
  rw [wants, current_of_due_eq Flit.len hl] at hw
  rw [routeReqTo_iff h]
  cases hx : waiting y i with
  | nil => simp [hx] at hw
  | cons x w => exact ⟨hl, x, w, rfl, by simpa [hx] using hw⟩

/-- The packet in hand requests one output. -/
theorem wants_unique (h : Inv y) (hc : Clear y.1) (hw : wants y i o = true)
    (hw' : wants y i o' = true) : o = o' := by
  by_cases hl : lacks y i = 0
  · exact hc.single i o o' (routeReqTo_of_wants h hl hw) (routeReqTo_of_wants h hl hw')
  · exact (h.input i).single hl o o' hw hw'

/-- A flit leaves for the output that its packet requests, and joins its own packet there. -/
theorem sends (h : Inv y) (hc : Clear y.1) (hv : validOut y.1 o = true) :
    wants y (source y.1 o) o = true ∧ lacksOut y o = lacks y (source y.1 o) ∧
      waiting y (source y.1 o) ≠ [] ∧
      ((y.1.outputs o).control.planned = false → routeReqTo y.1 (source y.1 o) o = true) := by
  have hv' : ((y.1.inputs (source y.1 o)).validOut = true ∧
      ((y.1.outputs o).control.planned = true ∨ (outputIn y.1 o).defaultReady = true)) ∧
      (outputIn y.1 o).spaceAvail = true := by
    simpa [validOut, OutputControl.validOut, outputIn, source] using hv
  have hw := (validOut_unit h _).1 hv'.1.1
  cases hp : (y.1.outputs o).control.planned with
  | true =>
    obtain ⟨h1, h2⟩ := (h.output o).busy hp
    exact ⟨h1, h2, hw, fun h => absurd h (by simp)⟩
  | false =>
    obtain ⟨-, h0⟩ := (h.output o).idle hp
    have hD : (outputIn y.1 o).defaultReady = true := by simpa [hp] using hv'.1.2
    have hr : routeReqTo y.1 (source y.1 o) o = true := by
      rw [← Bool.not_eq_false]
      exact fun hf => hc.led o ⟨hp, hD, hv'.2, hv'.1.1, hf⟩
    obtain ⟨h1, h2⟩ := wants_of_routeReqTo h hr
    exact ⟨h1, by rw [h0, h2], hw, fun _ => hr⟩

theorem thanksTo_iff : thanksTo y.1 o i = true ↔ source y.1 o = i ∧ validOut y.1 o = true := by
  simp only [thanksTo, OutputControl.thanks, List.any_eq_true, List.mem_finRange, true_and,
    Bool.and_eq_true, decide_eq_true_iff]
  constructor
  · rintro ⟨k, hk, rfl, hv⟩
    exact ⟨hk, hv⟩
  · rintro ⟨hs, hv⟩
    exact ⟨_, hs, rfl, hv⟩

theorem thanksAllTemp_iff :
    thanksAllTemp y.1 i = true ↔ ∃ o, source y.1 o = i ∧ validOut y.1 o = true := by
  simp [thanksAllTemp, thanksTo_iff]

/-- An input is thanked by the output that its packet requests. -/
theorem thanked_by (h : Inv y) (hc : Clear y.1) (ht : thanksAllTemp y.1 i = true)
    (hw : wants y i o = true) : source y.1 o = i ∧ validOut y.1 o = true := by
  obtain ⟨o', rfl, hv⟩ := thanksAllTemp_iff.1 ht
  rw [wants_unique h hc hw (sends h hc hv).1]
  exact ⟨rfl, hv⟩

end Wires

/-! ### One clock edge -/

section Step

variable {y : d.State × d.History} {e : d.Input} {i o : Fin d.ports}

theorem thanked (h : Inv y) (hc : Clear y.1) (ht : thanksAllTemp y.1 i = true) :
    ∃ x w, waiting y i = x :: w ∧ (y.1.inputs i).dataOut = x := by
  obtain ⟨o, rfl, hv⟩ := thanksAllTemp_iff.1 ht
  obtain ⟨-, -, hw, -⟩ := sends h hc hv
  obtain ⟨x, w, hx⟩ := List.exists_cons_of_ne_nil hw
  exact ⟨x, w, hx, dataOut_unit h hx⟩

theorem taken_kept (ht : thanksAllTemp y.1 i = false) :
    (d.recorded.step y e).2.taken i = y.2.taken i := by
  simp [recorded, Machine.withHistory, History.update, ht]

theorem taken_thanked (ht : thanksAllTemp y.1 i = true) :
    (d.recorded.step y e).2.taken i = y.2.taken i ++ [(y.1.inputs i).dataOut] := by
  simp [recorded, Machine.withHistory, History.update, ht]

theorem arrived_next :
    (d.recorded.step y e).2.arrived i = y.2.arrived i ++ (e.dataIn i).toList := rfl

theorem inputs_next :
    (d.recorded.step y e).1.inputs i = (y.1.inputs i).step (e.dataIn i) (thanksAllTemp y.1 i) := rfl

theorem control_next :
    ((d.recorded.step y e).1.outputs o).control =
      (y.1.outputs o).control.step (outputIn y.1 o) := rfl

theorem waiting_kept (h : Inv y) (ht : thanksAllTemp y.1 i = false) :
    waiting (d.recorded.step y e) i = waiting y i ++ (e.dataIn i).toList := by
  rw [waiting, taken_kept ht, arrived_next, (h.input i).arrived_eq, List.append_assoc,
    List.drop_left]

theorem waiting_thanked (h : Inv y) (ht : thanksAllTemp y.1 i = true) {x : Flit} {w : List Flit}
    (hw : waiting y i = x :: w) :
    waiting (d.recorded.step y e) i = w ++ (e.dataIn i).toList := by
  rw [waiting, taken_thanked ht, arrived_next, (h.input i).arrived_eq, hw,
    dataOut_unit h hw]
  simp

theorem lacks_kept (ht : thanksAllTemp y.1 i = false) :
    lacks (d.recorded.step y e) i = lacks y i := by
  rw [lacks, taken_kept ht, lacks]

theorem lacks_thanked (h : Inv y) (ht : thanksAllTemp y.1 i = true) {x : Flit} {w : List Flit}
    (hw : waiting y i = x :: w) :
    lacks (d.recorded.step y e) i = if lacks y i = 0 then x.len else lacks y i - 1 := by
  rw [lacks, taken_thanked ht, dataOut_unit h hw, due_snoc, lacks]

/-- The tail wire at an input that has a flit. -/
theorem tailOut_eq (h : Inv y) {x : Flit} {w : List Flit} (hw : waiting y i = x :: w) :
    (y.1.inputs i).tailOut =
      decide ((if lacks y i = 0 then x.len else lacks y i - 1) = 0) := by
  have htr := (h.input i).tracks
  have hv : (y.1.inputs i).validOut = true := (validOut_unit h i).2 (by simp [hw])
  rw [hw] at htr
  rw [InputUnit.tailOut, hv, dataOut_unit h hw, htr.tail_eq]

/-- A waiting packet is not forgotten. -/
theorem wants_kept (h : Inv y) (ht : thanksAllTemp y.1 i = false) (hw : wants y i o = true) :
    wants (d.recorded.step y e) i o = true := by
  rw [wants, taken_kept ht, waiting_kept h ht]
  by_cases hl : lacks y i = 0
  · rw [wants, current_of_due_eq Flit.len hl] at hw
    rw [current_of_due_eq Flit.len hl]
    cases hx : waiting y i with
    | nil => simp [hx] at hw
    | cons x w => simpa [hx] using hw
  · rwa [current_of_due Flit.len hl _ (waiting y i).head?]

theorem wants_kept_inside (ht : thanksAllTemp y.1 i = false) (hl : lacks y i ≠ 0) :
    wants (d.recorded.step y e) i o = wants y i o := by
  rw [wants, taken_kept ht, current_of_due Flit.len hl _ (waiting y i).head?, wants]

theorem wants_thanked (h : Inv y) (hc : Clear y.1) (ht : thanksAllTemp y.1 i = true)
    (hl : lacks (d.recorded.step y e) i ≠ 0) :
    wants (d.recorded.step y e) i o = wants y i o := by
  obtain ⟨x, w, hx, hd⟩ := thanked h hc ht
  rw [lacks, taken_thanked ht, hd] at hl
  rw [wants, taken_thanked ht, hd, current_snoc Flit.len hl, wants, hx, List.head?_cons]

end Step

/-! ### Inputs -/

section Inputs

variable {y : d.State × d.History} {e : d.Input}

/-- The queue of an input has room for what upstream sends. -/
theorem room (h : Inv y) (he : Credited y e) (i : Fin d.ports)
    (hi : (e.dataIn i).isSome = true) : (waiting y i).length < 2 ^ d.log2Elements i := by
  have h1 := he i hi
  have h2 := (h.input i).returned_eq
  have h3 := congrArg List.length (h.input i).arrived_eq
  rw [List.length_append] at h3
  omega

theorem returned_next (h : Inv y) (i : Fin d.ports) :
    (d.recorded.step y e).2.returned i + ((d.recorded.step y e).1.inputs i).yummyOut.toNat =
      ((d.recorded.step y e).2.taken i).length := by
  have hr : (d.recorded.step y e).2.returned i =
    y.2.returned i + (y.1.inputs i).yummyOut.toNat := rfl
  rw [hr, (h.input i).returned_eq, inputs_next]
  cases ht : thanksAllTemp y.1 i with
  | false => rw [taken_kept ht]; rfl
  | true => rw [taken_thanked ht, List.length_append]; rfl

theorem tracks_next (h : Inv y) (hc : Clear y.1) (i : Fin d.ports) :
    ((d.recorded.step y e).1.inputs i).control.Tracks (lacks (d.recorded.step y e) i)
      (waiting (d.recorded.step y e) i) := by
  have htr := (h.input i).tracks
  cases ht : thanksAllTemp y.1 i with
  | true =>
    obtain ⟨x, w, hx, hd⟩ := thanked h hc ht
    have hv : (y.1.inputs i).validOut = true := (validOut_unit h i).2 (by simp [hx])
    rw [inputs_next, InputUnit.step, hv, hd, ht, lacks_thanked h ht hx]
    rw [hx] at htr
    exact htr.step_taken _
  | false =>
    rw [inputs_next, InputUnit.step, ht, lacks_kept ht, waiting_kept h ht]
    refine htr.step_kept ?_ ?_
    · intro hv
      obtain ⟨x, w, hx⟩ := List.exists_cons_of_ne_nil ((validOut_unit h i).1 hv)
      exact ⟨x, by simp [hx], by rw [dataOut_unit h hx]⟩
    · intro x hx
      rw [List.head?_append, hx]
      rfl

theorem holds_next (h : Inv y) (hc : Clear y.1) (he : Credited y e) (i : Fin d.ports) :
    ((d.recorded.step y e).1.inputs i).blk.Holds (waiting (d.recorded.step y e) i) := by
  have hne : thanksAllTemp y.1 i = true → waiting y i ≠ [] := by
    intro ht
    obtain ⟨x, w, hx, -⟩ := thanked h hc ht
    simp [hx]
  have hst := (h.input i).holds.step (room h he i) hne
  have heq : waiting (d.recorded.step y e) i =
      (if thanksAllTemp y.1 i then (waiting y i).tail else waiting y i) ++
        (e.dataIn i).toList := by
    cases ht : thanksAllTemp y.1 i with
    | true =>
      obtain ⟨x, w, hx, -⟩ := thanked h hc ht
      rw [waiting_thanked h ht hx, hx]
      rfl
    | false => rw [waiting_kept h ht]; rfl
  rw [heq]
  exact hst

theorem arrived_eq_next (h : Inv y) (hc : Clear y.1) (i : Fin d.ports) :
    (d.recorded.step y e).2.arrived i =
      (d.recorded.step y e).2.taken i ++ waiting (d.recorded.step y e) i := by
  rw [arrived_next, (h.input i).arrived_eq]
  cases ht : thanksAllTemp y.1 i with
  | true =>
    obtain ⟨x, w, hx, hd⟩ := thanked h hc ht
    rw [taken_thanked ht, waiting_thanked h ht hx, hx, hd]
    simp
  | false => rw [taken_kept ht, waiting_kept h ht, List.append_assoc]

theorem single_next (h : Inv y) (hc : Clear y.1) (i : Fin d.ports)
    (hl : lacks (d.recorded.step y e) i ≠ 0) (o o' : Fin d.ports)
    (hw : wants (d.recorded.step y e) i o = true)
    (hw' : wants (d.recorded.step y e) i o' = true) : o = o' := by
  cases ht : thanksAllTemp y.1 i with
  | true =>
    rw [wants_thanked h hc ht hl] at hw hw'
    exact wants_unique h hc hw hw'
  | false =>
    rw [lacks_kept ht] at hl
    rw [wants_kept_inside ht hl] at hw hw'
    exact (h.input i).single hl o o' hw hw'

/-- A taken packet requests the output that it left on, and no other. -/
theorem routed_next (h : Inv y) (hc : Clear y.1) (i : Fin d.ports) {pk : List Flit}
    (hpk : pk ∈ packets Flit.len ((d.recorded.step y e).2.taken i)) :
    ∃! o, headed (fun f => d.routeReq f o) pk = true := by
  cases ht : thanksAllTemp y.1 i with
  | false =>
    rw [taken_kept ht] at hpk
    exact (h.input i).routed pk hpk
  | true =>
    obtain ⟨x, w, hx, hd⟩ := thanked h hc ht
    obtain ⟨o, hs, hv⟩ := thanksAllTemp_iff.1 ht
    have hw := (sends h hc hv).1
    rw [hs] at hw
    rw [taken_thanked ht, hd, packets_snoc] at hpk
    by_cases hl : due Flit.len (y.2.taken i) = 0
    · rw [grow, if_pos hl] at hpk
      obtain hpk | hpk := List.mem_append.1 hpk
      · exact (h.input i).routed pk hpk
      · rw [List.mem_singleton.1 hpk]
        obtain ⟨-, x', w', hx', hro⟩ := (routeReqTo_iff h).1 (routeReqTo_of_wants h hl hw)
        obtain ⟨rfl, rfl⟩ : x = x' ∧ w = w' := by simpa [hx] using hx'
        refine ⟨o, hro, fun o' ho' => wants_unique h hc ?_ hw⟩
        simpa [wants, current_of_due_eq Flit.len hl, hx, headed] using ho'
    · obtain ⟨ps, a, t, hp, -⟩ := exists_last Flit.len hl
      rw [hp, grow_snoc hl] at hpk
      obtain hpk | hpk := List.mem_append.1 hpk
      · exact (h.input i).routed pk (hp ▸ List.mem_append_left _ hpk)
      · obtain ⟨o₁, ho₁, hu⟩ := (h.input i).routed (a :: t)
          (hp ▸ List.mem_append_right _ List.mem_cons_self)
        rw [List.mem_singleton.1 hpk]
        exact ⟨o₁, ho₁, hu⟩

end Inputs

/-! ### Outputs -/

section Outputs

variable {y : d.State × d.History} {e : d.Input} {i o : Fin d.ports}

theorem left_kept (hv : validOut y.1 o = false) :
    (d.recorded.step y e).2.left o = y.2.left o := by
  simp [recorded, Machine.withHistory, History.update, hv]

theorem left_sent (hv : validOut y.1 o = true) :
    (d.recorded.step y e).2.left o = y.2.left o ++ [(source y.1 o, dataOut y.1 o)] := by
  simp [recorded, Machine.withHistory, History.update, hv]

theorem thanksAllTemp_of_sent (hv : validOut y.1 o = true) :
    thanksAllTemp y.1 (source y.1 o) = true :=
  thanksAllTemp_iff.2 ⟨o, rfl, hv⟩

/-- An input whose packet requests an output that is not sending from it is not thanked. -/
theorem not_thanked (h : Inv y) (hc : Clear y.1) (hw : wants y i o = true)
    (hn : validOut y.1 o = true → source y.1 o ≠ i) : thanksAllTemp y.1 i = false := by
  rw [← Bool.not_eq_true]
  intro ht
  obtain ⟨hs, hv⟩ := thanked_by h hc ht hw
  exact hn hv hs

theorem lacksOut_kept (hv : validOut y.1 o = false) :
    lacksOut (d.recorded.step y e) o = lacksOut y o := by
  rw [lacksOut, left_kept hv, lacksOut]

/-- The packet on an output and the packet of its source lack the same. -/
theorem lacksOut_sent (h : Inv y) (hc : Clear y.1) (hv : validOut y.1 o = true) :
    lacksOut (d.recorded.step y e) o = lacks (d.recorded.step y e) (source y.1 o) := by
  obtain ⟨x, w, hx, hd⟩ := thanked h hc (thanksAllTemp_of_sent hv)
  rw [lacksOut, left_sent hv, due_snoc, lacks_thanked h (thanksAllTemp_of_sent hv) hx,
    show due (tagLen Flit.len) (y.2.left o) = lacks y (source y.1 o) from (sends h hc hv).2.1,
    tagLen, dataOut, hd]

/-- The packet that an output continues is from its source. -/
theorem current_left (h : Inv y) (o : Fin d.ports) (x : Flit) :
    (current (tagLen Flit.len) (y.2.left o) (some (source y.1 o, x))).any
      (·.1 = source y.1 o) = true := by
  by_cases hl : lacksOut y o = 0
  · simp [current_of_due_eq (tagLen Flit.len) hl]
  · exact (h.output o).origin hl _

theorem unmixed_next (h : Inv y) (o : Fin d.ports) :
    Unmixed Flit.len ((d.recorded.step y e).2.left o) := by
  cases hv : validOut y.1 o with
  | false =>
    rw [left_kept hv]
    exact (h.output o).unmixed
  | true =>
    rw [left_sent hv]
    exact (h.output o).unmixed.snoc (current_left h o _)

/-- A flit that leaves on another output. -/
theorem elsewhere (h : Inv y) (hc : Clear y.1) (ht : thanksAllTemp y.1 i = true)
    (hn : validOut y.1 o = true → source y.1 o ≠ i) :
    (current Flit.len (y.2.taken i) (some (y.1.inputs i).dataOut)).all
      (fun f => !d.routeReq f o) = true := by
  obtain ⟨x, w, hx, hd⟩ := thanked h hc ht
  have hw : wants y i o = false := by
    rw [← Bool.not_eq_true]
    intro hw
    rw [not_thanked h hc hw hn] at ht
    exact Bool.false_ne_true ht
  rw [wants, hx, List.head?_cons] at hw
  rw [hd]
  cases hk : current Flit.len (y.2.taken i) (some x) with
  | none => rfl
  | some f => simpa [hk] using hw

theorem carries_next (h : Inv y) (hc : Clear y.1) (i o : Fin d.ports) :
    Carries Flit.len (fun f => d.routeReq f o) i ((d.recorded.step y e).2.taken i)
      ((d.recorded.step y e).2.left o) := by
  have hca := (h.output o).carries i
  by_cases hm : validOut y.1 o = true ∧ source y.1 o = i
  · -- the flit moves from `i` to `o`
    obtain ⟨hv, rfl⟩ := hm
    have ht := thanksAllTemp_of_sent hv
    obtain ⟨x, w, hx, hd⟩ := thanked h hc ht
    obtain ⟨hw, hl, -, -⟩ := sends h hc hv
    rw [taken_thanked ht, left_sent hv]
    refine hca.moved hl (current_left h o _) ?_
    rw [wants, hx] at hw
    rw [hd]
    exact hw
  · have hn : validOut y.1 o = true → source y.1 o ≠ i := fun hv hs => hm ⟨hv, hs⟩
    have hleft : Carries Flit.len (fun f => d.routeReq f o) i (y.2.taken i)
        ((d.recorded.step y e).2.left o) := by
      cases hv : validOut y.1 o with
      | false => rwa [left_kept hv]
      | true =>
        rw [left_sent hv]
        refine hca.foreign (hn hv) ?_
        have := current_left h o (dataOut y.1 o)
        cases hk : current (tagLen Flit.len) (y.2.left o)
            (some (source y.1 o, dataOut y.1 o)) with
        | none => rfl
        | some f => simpa [hk] using this
    cases ht : thanksAllTemp y.1 i with
    | false => rwa [taken_kept ht]
    | true =>
      rw [taken_thanked ht]
      exact hleft.elsewhere (elsewhere h hc ht hn)

theorem source_next (hs : ((d.recorded.step y e).1.outputs o).control.currentRoute =
    (y.1.outputs o).control.currentRoute) : source (d.recorded.step y e).1 o = source y.1 o := by
  rw [source, hs, source]

/-- An output that has taken up a new request, or none. -/
theorem fresh (h : Inv y) (hc : Clear y.1) {c : OutputControl d.ports}
    (hcn : ((d.recorded.step y e).1.outputs o).control = c)
    (hl : lacksOut (d.recorded.step y e) o = 0)
    (hcase : (c.planned = true ∧ routeReqTo y.1 (d.mapList o c.currentRoute) o = true ∧
        (validOut y.1 o = true → source y.1 o ≠ d.mapList o c.currentRoute)) ∨
      (c.planned = false ∧ c.currentRoute = 0)) :
    OutputInv (d.recorded.step y e) o where
  idle := by
    intro hp
    rw [hcn] at hp ⊢
    obtain ⟨hp', -⟩ | ⟨-, h0⟩ := hcase
    · rw [hp] at hp'
      exact absurd hp' Bool.false_ne_true
    · exact ⟨h0, hl⟩
  busy := by
    intro hp
    rw [hcn] at hp
    obtain ⟨-, hr, hn⟩ | ⟨hp', -⟩ := hcase
    · obtain ⟨hw, hl0⟩ := wants_of_routeReqTo h hr
      have ht := not_thanked h hc hw hn
      rw [source, hcn]
      exact ⟨wants_kept h ht hw, by rw [hl, lacks_kept ht, hl0]⟩
    · rw [hp] at hp'
      exact absurd hp' Bool.true_eq_false_eq_False
  origin := fun hl' => absurd hl hl'
  unmixed := unmixed_next h o
  carries := fun i => carries_next h hc i o

/-- An output that stays with its input. -/
theorem stays (h : Inv y) (hc : Clear y.1)
    (hcn : ((d.recorded.step y e).1.outputs o).control =
      { currentRoute := (y.1.outputs o).control.currentRoute, planned := true })
    (hw : wants (d.recorded.step y e) (source y.1 o) o = true)
    (hl : lacksOut (d.recorded.step y e) o = lacks (d.recorded.step y e) (source y.1 o))
    (horigin : lacksOut (d.recorded.step y e) o ≠ 0 →
      ∀ a, (current (tagLen Flit.len) ((d.recorded.step y e).2.left o) a).any
        (·.1 = source y.1 o) = true) :
    OutputInv (d.recorded.step y e) o where
  idle := fun hp => by simp [hcn] at hp
  busy := by
    intro _
    rw [source_next (by rw [hcn])]
    exact ⟨hw, hl⟩
  origin := by
    rw [source_next (by rw [hcn])]
    exact horigin
  unmixed := unmixed_next h o
  carries := fun i => carries_next h hc i o

theorem tailCurrentRoute_eq (h : Inv y) (hc : Clear y.1) (hv : validOut y.1 o = true) :
    (y.1.outputs o).control.tailCurrentRoute (outputIn y.1 o) =
      decide (lacks (d.recorded.step y e) (source y.1 o) = 0) := by
  have ht := thanksAllTemp_of_sent hv
  obtain ⟨x, w, hx, -⟩ := thanked h hc ht
  rw [lacks_thanked h ht hx, ← tailOut_eq h hx]
  rfl

/-- The packet goes on: the route is held. -/
theorem continues (h : Inv y) (hc : Clear y.1) (hv : validOut y.1 o = true)
    (hl : lacks (d.recorded.step y e) (source y.1 o) ≠ 0) :
    ((d.recorded.step y e).1.outputs o).control =
      { currentRoute := (y.1.outputs o).control.currentRoute, planned := true } := by
  rw [control_next]
  refine OutputControl.step_continues hv ?_ (sends h hc hv).2.2.2
  rw [tailCurrentRoute_eq h hc hv]
  exact decide_eq_false hl

theorem waits (hv : validOut y.1 o = false)
    (hp : (y.1.outputs o).control.planned = true) :
    ((d.recorded.step y e).1.outputs o).control =
      { currentRoute := (y.1.outputs o).control.currentRoute, planned := true } := by
  rw [control_next]
  exact OutputControl.step_waits hv hp

theorem output_next (h : Inv y) (hc : Clear y.1) (o : Fin d.ports) :
    OutputInv (d.recorded.step y e) o := by
  have hidle := fun hp => ((h.output o).idle hp).1
  cases hv : validOut y.1 o with
  | true =>
    have ht := thanksAllTemp_of_sent hv
    have hlo := lacksOut_sent (e := e) h hc hv
    by_cases hl : lacks (d.recorded.step y e) (source y.1 o) = 0
    · -- the packet ends
      have htail : (y.1.outputs o).control.tailCurrentRoute (outputIn y.1 o) = true := by
        rw [tailCurrentRoute_eq (e := e) h hc hv]
        exact decide_eq_true hl
      refine fresh h hc control_next (hlo.trans hl) ?_
      obtain ⟨hp, hne, hr⟩ | hnone := OutputControl.step_ends hv htail hidle
      · exact .inl ⟨hp, hr, fun _ hs => hne (d.mapList_injective o hs).symm⟩
      · exact .inr hnone
    · refine stays h hc (continues h hc hv hl) ?_ hlo ?_
      · rw [wants_thanked h hc ht hl]
        exact (sends h hc hv).1
      · intro hlo' a
        rw [lacksOut, left_sent hv] at hlo'
        rw [left_sent hv, current_snoc (tagLen Flit.len) hlo']
        exact current_left h o _
  | false =>
    cases hp : (y.1.outputs o).control.planned with
    | true =>
      obtain ⟨hw, hl⟩ := (h.output o).busy hp
      have ht := not_thanked h hc hw (by simp [hv])
      refine stays h hc (waits hv hp) (wants_kept h ht hw) ?_ ?_
      · rw [lacksOut_kept hv, lacks_kept ht, hl]
      · rw [lacksOut_kept hv, left_kept hv]
        exact (h.output o).origin
    | false =>
      obtain ⟨h0, hl⟩ := (h.output o).idle hp
      refine fresh h hc control_next (by rw [lacksOut_kept hv, hl]) ?_
      obtain ⟨hp', hr⟩ | hnone := OutputControl.step_plans hv hp h0
      · exact .inl ⟨hp', hr, by simp [hv]⟩
      · exact .inr hnone

end Outputs

/-! ### Runs -/

theorem inv_init {y : d.State × d.History} (h : d.recorded.init y) : Inv y := by
  obtain ⟨s, g⟩ := y
  obtain ⟨⟨hin, hout⟩, rfl⟩ := h
  refine ⟨fun i => ?_, fun o => ?_⟩
  · obtain ⟨hhead, htail, hcount, hyummy, hcontrol⟩ := hin i
    exact
      { arrived_eq := rfl
        holds := .nil hcount (htail.trans hhead.symm)
        returned_eq := by rw [hyummy]; rfl
        tracks := hcontrol ▸ InputControl.tracks_init
        single := fun hl => absurd rfl hl
        routed := fun pk hpk => absurd hpk List.not_mem_nil }
  · exact
      { idle := fun _ => ⟨by rw [hout o]; rfl, rfl⟩
        busy := fun hp => by rw [hout o] at hp; exact absurd hp Bool.false_ne_true
        origin := fun hl => absurd rfl hl
        unmixed := .nil
        carries := fun _ => .nil }

theorem inv_step {y : d.State × d.History} {e : d.Input} (h : Inv y) (hc : Clear y.1)
    (he : Credited y e) : Inv (d.recorded.step y e) where
  input := fun i =>
    { arrived_eq := arrived_eq_next h hc i
      holds := holds_next h hc he i
      returned_eq := returned_next h i
      tracks := tracks_next h hc i
      single := single_next h hc i
      routed := fun _ hpk => routed_next h hc i hpk }
  output := fun o => output_next h hc o

/-- The default of each output is behind its first route, and a header requests at most one
output. -/
structure Sound (d : DynamicNode) : Prop where
  defaultDir_eq : ∀ o, d.defaultDir o = d.mapList o 0
  single : ∀ h o o', d.routeReq h o = true → d.routeReq h o' = true → o = o'

theorem Sound.clear (hd : d.Sound) {y : d.State × d.History} (h : Inv y) : Clear y.1 where
  single := by
    intro i o o' ho ho'
    simp only [routeReqTo, Bool.and_eq_true] at ho ho'
    exact hd.single _ o o' ho.2 ho'.2
  led := by
    rintro o ⟨hp, hD, -, -, hr⟩
    have h0 := ((h.output o).idle hp).1
    rw [source, h0, ← hd.defaultDir_eq o] at hr
    exact Bool.false_ne_true (hr.symm.trans hD)

theorem intact_of_clear {y : d.State × d.History}
    (h : d.recorded.Reachable (fun y e => (d.Sound ∨ Clear y.1) ∧ Credited y e) y) :
    Intact y := by
  refine (h.invariant (P := Inv) (fun _ => inv_init) ?_).intact
  rintro y e hy ⟨hc, he⟩
  exact inv_step hy (hc.elim (fun hd => hd.clear hy) id) he

end DynamicNode

/-! ### Configurations -/

theorem meshPort_injective : Function.Injective meshPort := by
  unfold Function.Injective
  decide

/-- The mesh node and its processor port have sound defaults. -/
theorem meshNode_sound (myLocX myLocY : BitVec 8) (myChipId : BitVec 14) :
    (meshNode myLocX myLocY myChipId).Sound where
  defaultDir_eq := (by decide : ∀ o : Fin 5, (![2, 3, 0, 1, 2] : Fin 5 → Fin 5) o =
    (![![2, 3, 4, 1, 0], ![3, 4, 0, 2, 1], ![0, 1, 3, 4, 2], ![1, 2, 4, 0, 3],
      ![2, 3, 0, 1, 4]] : Fin 5 → Fin 5 → Fin 5) o 0)
  single := by
    intro h o o' ho ho'
    have h1 := meshRequests_iff.1 ho
    have h2 := meshRequests_iff.1 ho'
    exact meshPort_injective (Option.some_inj.1 (h1.symm.trans h2))

section Crossbar

variable {n : Nat} [NeZero n]

theorem genDefaultDir_ne (hn : 3 ≤ n) (o : Fin n) :
    genDefaultDir n o ≠ o := by
  intro h
  have hv := congrArg Fin.val h
  have ho := o.isLt
  simp only [genDefaultDir, Fin.ofNat] at hv
  rw [Nat.mod_eq_of_lt] at hv
  · by_cases hlast : o.val = n - 1
    · rw [if_pos hlast] at hv
      have := Nat.mod_lt ((n - 1) / 2) (show 0 < n - 1 by omega)
      omega
    · rw [if_neg hlast] at hv
      by_cases hw : o.val + (n - 1) / 2 < n - 1
      · rw [Nat.mod_eq_of_lt hw] at hv
        omega
      · rw [Nat.mod_eq_sub_mod (by omega), Nat.mod_eq_of_lt (by omega)] at hv
        omega
  · split
    · exact Nat.lt_of_lt_of_le (Nat.mod_lt _ (by omega)) (by omega)
    · exact Nat.lt_of_lt_of_le (Nat.mod_lt _ (by omega)) (by omega)

/-- With three ports or more the default direction is behind the first route. -/
theorem head_paraMapList (hn : 3 ≤ n) (o : Fin n) :
    (paraMapList o).head? = some (genDefaultDir n o) := by
  obtain ⟨m, rfl⟩ : ∃ m, n = m + 1 := ⟨n - 1, by omega⟩
  have hne := genDefaultDir_ne hn o
  rw [paraMapList, List.finRange_succ, List.map_cons, add_zero, List.filter_cons_of_pos]
  · rfl
  · simpa using hne

omit [NeZero n] in
theorem xbarRouteReq_single (hn : n ≤ 257) {myChipId : BitVec 14} {h : Flit} {o o' : Fin n}
    (ho : xbarRouteReq myChipId h o = true) (ho' : xbarRouteReq myChipId h o' = true) : o = o' := by
  have hlt := o.isLt
  have hlt' := o'.isLt
  unfold xbarRouteReq at ho ho'
  by_cases h1 : o.val + 1 < n
  · rw [if_pos h1] at ho
    simp only [Bool.and_eq_true, decide_eq_true_iff] at ho
    by_cases h2 : o'.val + 1 < n
    · rw [if_pos h2] at ho'
      simp only [Bool.and_eq_true, decide_eq_true_iff] at ho'
      have hv := congrArg BitVec.toNat (ho.2.symm.trans ho'.2)
      rw [BitVec.toNat_ofNat, BitVec.toNat_ofNat, Nat.mod_eq_of_lt (by omega),
        Nat.mod_eq_of_lt (by omega)] at hv
      exact Fin.ext hv
    · rw [if_neg h2, decide_eq_true_iff] at ho'
      exact absurd ho.1 ho'
  · rw [if_neg h1, decide_eq_true_iff] at ho
    by_cases h2 : o'.val + 1 < n
    · rw [if_pos h2] at ho'
      simp only [Bool.and_eq_true, decide_eq_true_iff] at ho'
      exact absurd ho'.1 ho
    · exact Fin.ext (by omega)

theorem xbarNode_sound (hn : 3 ≤ n) (hn' : n ≤ 257) (myChipId : BitVec 14) :
    (xbarNode n myChipId).Sound where
  defaultDir_eq := by
    intro o
    have hl := length_paraMapList o
    have h := head_paraMapList hn o
    show genDefaultDir n o = (paraMapList o).get _
    rw [List.head?_eq_getElem?] at h
    obtain ⟨h0, hget⟩ := List.getElem?_eq_some_iff.1 h
    rw [← hget]
    rfl
  single := by
    intro h o o' ho ho'
    exact xbarRouteReq_single hn' ho ho'

end Crossbar

/-- The flits that leave a mesh node or a crossbar of 3 to 257 ports are whole messages; so are
those of any other crossbar while each step is clear. -/
theorem whole_messages (myLocX myLocY : BitVec 8) (myChipId : BitVec 14) (n : Nat) [NeZero n] :
    (∀ y, (meshNode myLocX myLocY myChipId).recorded.Reachable DynamicNode.Credited y →
      DynamicNode.Intact y) ∧
    ∀ y, (xbarNode n myChipId).recorded.Reachable
        (fun y e => ((3 ≤ n ∧ n ≤ 257) ∨ DynamicNode.Clear y.1) ∧ DynamicNode.Credited y e) y →
      DynamicNode.Intact y := by
  constructor
  · intro y hy
    have hs := meshNode_sound myLocX myLocY myChipId
    exact DynamicNode.intact_of_clear (hy.mono fun _ _ he => ⟨.inl hs, he⟩)
  · intro y hy
    refine DynamicNode.intact_of_clear (hy.mono ?_)
    rintro z e ⟨hc, he⟩
    exact ⟨hc.imp_left fun hn => xbarNode_sound hn.1 hn.2 myChipId, he⟩

/-- A router after reset. -/
def DynamicNode.start (d : DynamicNode) : d.State × d.History where
  fst :=
    { inputs := fun _ => ⟨⟨fun _ => 0, 0, 0, 0⟩, false, .init⟩
      outputs := fun _ => ⟨.init, .init⟩ }
  snd := .init

/-- A message of two flits crosses the tile at (1, 1) from west to east. -/
def crossing : List (meshNode 1 1 0).Input :=
  [⟨![none, none, none, some (2#64 <<< 42 ||| 1#64 <<< 34 ||| 1#64 <<< 22), none], fun _ => false⟩,
    ⟨![none, none, none, some 7, none], fun _ => false⟩, ⟨fun _ => none, fun _ => false⟩]

theorem init_start (d : DynamicNode) : d.recorded.init d.start := by
  refine ⟨⟨fun i => ?_, fun o => rfl⟩, rfl⟩
  exact ⟨rfl, rfl, rfl, rfl, rfl⟩

theorem reachable_start (d : DynamicNode) {ok : d.State × d.History → d.Input → Prop}
    {es : List d.Input} (h : d.recorded.RunOk ok d.start es) :
    d.recorded.Reachable ok (d.recorded.run d.start es) :=
  (Machine.Reachable.init (init_start d)).run h

set_option maxRecDepth 20000 in
theorem whole_messages_crossing :
    DynamicNode.Intact ((meshNode 1 1 0).recorded.run (meshNode 1 1 0).start crossing) ∧
      ((meshNode 1 1 0).recorded.run (meshNode 1 1 0).start crossing).2.left (1 : Fin 5) =
        [((3 : Fin 5), 2#64 <<< 42 ||| 1#64 <<< 34 ||| 1#64 <<< 22), ((3 : Fin 5), 7)] := by
  refine ⟨(whole_messages 1 1 0 1).1 _ (reachable_start _ ?_), ?_⟩
  · decide +kernel
  · rfl

/-- In a crossbar of two ports a header for tile 0 arrives from tile 0 and one for another chip from
off the chip. -/
def crossed : List (xbarNode 2 0).Input :=
  [⟨fun i => if i = 0 then some (0 : Flit) else some (1#64 <<< 50), fun _ => false⟩,
    ⟨fun _ => none, fun _ => false⟩]

-- the header for the other chip leaves for tile 0
example : ((xbarNode 2 0).recorded.run (xbarNode 2 0).start crossed).2.left (0 : Fin 2) =
    [((1 : Fin 2), 1#64 <<< 50)] := rfl

theorem not_whole_messages :
    ¬ ∀ (n : Nat) [NeZero n] (myChipId : BitVec 14), 2 ≤ n →
      ∀ y, (xbarNode n myChipId).recorded.Reachable DynamicNode.Credited y →
        DynamicNode.Intact y := by
  intro h
  have hr : (xbarNode 2 0).recorded.Reachable DynamicNode.Credited
      ((xbarNode 2 0).recorded.run (xbarNode 2 0).start crossed) :=
    reachable_start _ (by decide +kernel)
  have hc := (h 2 0 (by decide) _ hr).carries (1 : Fin 2) (0 : Fin 2)
  unfold Carries at hc
  revert hc
  decide +kernel

end Piton.Noc
