import Mathlib.Data.Fintype.EquivFin
import Piton.Lib.Rotate
import Piton.Noc.Wormhole

/-! Fairness of an output of a router: while a header waits for it, every other input starts at most
one message there. -/

namespace Piton.Noc

open Hw

variable {n : Nat} [NeZero n]

/-- `dynamic_output_control` by itself. -/
def outputControl (n : Nat) [NeZero n] : Machine (OutputControl n) (OutputIn n) where
  init c := c = .init
  step := OutputControl.step

/-- The inputs whose message has left on the output in part: a flit, but not yet the tail. -/
abbrev Underway (n : Nat) := Fin n → Bool

namespace OutputControl

/-- The tail of the current message leaves. -/
def tailSent (c : OutputControl n) (w : OutputIn n) : Bool := c.validOut w && c.tailCurrentRoute w

end OutputControl

/-- A message is under way from its first flit to its tail. -/
def Underway.update (u : Underway n) (c : OutputControl n) (w : OutputIn n) : Underway n :=
  if c.validOut w then Function.update u c.currentRoute (!c.tailCurrentRoute w) else u

/-- The control with the messages under way. -/
def delimited (n : Nat) [NeZero n] : Machine (OutputControl n × Underway n) (OutputIn n) :=
  (outputControl n).withHistory (fun _ => false) Underway.update

/-- Input `b` starts a message: it sends a flit with none of its messages under way. -/
def starts (y : OutputControl n × Underway n) (w : OutputIn n) (b : Fin n) : Bool :=
  y.1.thanks w b && !y.2 b

/-! ### The next route -/

namespace OutputControl

variable {c : OutputControl n} {w : OutputIn n} {a : Fin n}

theorem newRoute_eq : c.newRoute w = ((rotation c.currentRoute).find? w.routeReq).getD 0 := rfl

/-- The next route is closer to a requester. -/
theorem distance_newRoute_lt (ha : w.routeReq a = true) (h : a ≠ c.currentRoute) :
    distance a (c.newRoute w) < distance a c.currentRoute := by
  obtain ⟨r, hr⟩ := exists_find_rotation ha h
  rw [newRoute_eq, hr, Option.getD_some]
  exact distance_find_lt ha h hr

/-- Without a planned route the default input is the current one. -/
def Idle (c : OutputControl n) : Prop := c.planned = false → c.currentRoute = 0

theorem idle_init : (init : OutputControl n).Idle := fun _ => rfl

/-- While another input requests, the next route is planned. -/
theorem plannedTemp_of_request (hc : c.Idle) (ha : w.routeReq a = true)
    (h : a ≠ c.currentRoute) : c.plannedTemp w = true := by
  have hall : c.routeReqAllOrWithPlanned w = true :=
    routeReqAllOrWithPlanned_iff.2 ⟨a, .inr h, ha⟩
  have hothers : c.planned = false → routeReqAllButDefault w = true := by
    intro hp
    exact routeReqAllButDefault_iff.2 ⟨a, hc hp ▸ h, ha⟩
  rw [plannedTemp, hall]
  cases hp : c.planned <;> cases w.defaultReady <;> cases c.validOut w <;>
    cases c.tailCurrentRoute w <;> simp [hp, hothers]

/-- A planned route stays until a tail has been sent. -/
theorem step_planned (hp : c.planned = true) (ht : c.tailSent w = false) : c.step w = c := by
  have hcur : c = { currentRoute := c.currentRoute, planned := true } := by rw [← hp]
  cases hv : c.validOut w with
  | false =>
    rw [step_waits hv hp]
    exact hcur.symm
  | true =>
    have htail : c.tailCurrentRoute w = false := by
      rw [tailSent, hv] at ht
      exact ht
    rw [step_continues hv htail (fun h0 => absurd (hp.symm.trans h0) (by simp))]
    exact hcur.symm

theorem Idle.step (hc : c.Idle) (w : OutputIn n) : (c.step w).Idle := by
  intro hp
  have hp' : c.plannedTemp w = false := hp
  have hnobody : ¬ ∃ k, k ≠ c.currentRoute ∧ w.routeReq k = true := by
    rintro ⟨k, hk, hr⟩
    rw [plannedTemp_of_request hc hr hk] at hp'
    exact Bool.false_ne_true hp'.symm
  show (if c.newRouteNeeded w then c.newRoute w else c.currentRoute) = 0
  split
  · exact newRoute_of_not_exists hnobody
  · rename_i hn
    apply hc
    by_contra hP
    rw [Bool.not_eq_false] at hP
    have ht : c.tailSent w = false := by
      rw [newRouteNeeded] at hn
      rw [tailSent]
      cases hv : c.validOut w <;> cases ht : c.tailCurrentRoute w <;> simp [hv, ht] at hn ⊢
    rw [step_planned hP ht, hP] at hp
    exact Bool.false_ne_true hp.symm

/-- A step towards a requester: the route stays, inside a message or while it waits, or the next one
is closer. -/
theorem step_toward (hc : c.Idle) (ha : w.routeReq a = true) (h : a ≠ c.currentRoute) :
    (c.step w).planned = true ∧
      (distance a (c.step w).currentRoute < distance a c.currentRoute ∨
        (c.step w).currentRoute = c.currentRoute ∧
          (c.validOut w = false ∧ c.planned = true ∨
            c.validOut w = true ∧ c.tailCurrentRoute w = false)) := by
  refine ⟨plannedTemp_of_request hc ha h, ?_⟩
  cases hn : c.newRouteNeeded w with
  | true =>
    left
    rw [step, hn]
    exact distance_newRoute_lt ha h
  | false =>
    right
    refine ⟨by rw [step, hn]; rfl, ?_⟩
    rw [newRouteNeeded] at hn
    cases hv : c.validOut w <;> cases ht : c.tailCurrentRoute w <;> cases hp : c.planned <;>
      simp_all

end OutputControl

/-! ### A waiting header -/

section Waiting

variable {y : OutputControl n × Underway n} {w : OutputIn n} {a b : Fin n} {S : Fin n → Prop}

/-- The inputs `S` that have started a message while the header of `a` waits: they are behind the
current route, or the message is still under way. -/
structure Passed (a : Fin n) (y : OutputControl n × Underway n) (S : Fin n → Prop) : Prop where
  behind : ∀ b, S b → b ≠ y.1.currentRoute → distance a y.1.currentRoute < distance a b
  here : S y.1.currentRoute → y.1.planned = true ∧ y.2 y.1.currentRoute = true
  arrived : a = y.1.currentRoute → y.1.planned = true ∨ ∀ b, ¬ S b

omit [NeZero n] in
theorem starts_iff : starts y w b = true ↔
    b = y.1.currentRoute ∧ y.1.validOut w = true ∧ y.2 b = false := by
  simp [starts, OutputControl.thanks, and_assoc]

omit [NeZero n] in
theorem thanks_iff : y.1.thanks w a = true ↔ a = y.1.currentRoute ∧ y.1.validOut w = true := by
  simp [OutputControl.thanks]

omit [NeZero n] in

/-- Nobody starts a second message. -/
theorem Passed.not_started (h : Passed a y S) (hb : starts y w b = true) : ¬ S b := by
  obtain ⟨rfl, -, hu⟩ := starts_iff.1 hb
  intro hS
  rw [(h.here hS).2] at hu
  exact Bool.false_ne_true hu.symm

theorem control_step : ((delimited n).step y w).1 = y.1.step w := rfl

theorem underway_step : ((delimited n).step y w).2 = y.2.update y.1 w := rfl

/-- The route has come to the waiting header. -/
theorem Passed.step_arrived (h : Passed a y S) (hcur : a = y.1.currentRoute)
    (hv : y.1.validOut w = false) :
    Passed a ((delimited n).step y w) (fun b => S b ∨ starts y w b = true) := by
  have hnone : ∀ b, ¬ starts y w b = true := by
    intro b hb
    rw [(starts_iff.1 hb).2.1] at hv
    exact Bool.false_ne_true hv.symm
  cases hp : y.1.planned with
  | true =>
    have hstep : ((delimited n).step y w) = y := by
      refine Prod.ext ?_ ?_
      · exact OutputControl.step_planned hp (by rw [OutputControl.tailSent, hv]; rfl)
      · rw [underway_step, Underway.update, hv]
        rfl
    rw [hstep]
    simpa [hnone] using h
  | false =>
    have hS : ∀ b, ¬ S b := (h.arrived hcur).resolve_left (by simp [hp])
    have hempty : ∀ b, ¬ (S b ∨ starts y w b = true) := fun b hb => hb.elim (hS b) (hnone b)
    exact ⟨fun b hb => absurd hb (hempty b), fun hb => absurd hb (hempty _),
      fun _ => .inr hempty⟩

/-- The route is on its way to the waiting header. -/
theorem Passed.step_toward (h : Passed a y S) (hc : y.1.Idle) (ha : w.routeReq a = true)
    (hcur : a ≠ y.1.currentRoute) :
    Passed a ((delimited n).step y w) (fun b => S b ∨ starts y w b = true) := by
  obtain ⟨hplanned, hcase⟩ := OutputControl.step_toward hc ha hcur
  -- whoever has started is at the current route or behind it
  have hle : ∀ b, S b ∨ starts y w b = true →
      b = y.1.currentRoute ∨ distance a y.1.currentRoute < distance a b := by
    rintro b (hb | hb)
    · by_cases hbc : b = y.1.currentRoute
      · exact .inl hbc
      · exact .inr (h.behind b hb hbc)
    · exact .inl (starts_iff.1 hb).1
  obtain hlt | ⟨hsame, hstay⟩ := hcase
  · have hbehind : ∀ b, S b ∨ starts y w b = true →
        distance a (y.1.step w).currentRoute < distance a b := by
      intro b hb
      obtain rfl | hb := hle b hb
      · exact hlt
      · exact hlt.trans hb
    exact ⟨fun b hb _ => hbehind b hb, fun hb => absurd (hbehind _ hb) (Nat.lt_irrefl _),
      fun _ => .inl hplanned⟩
  · refine ⟨?_, ?_, fun _ => .inl hplanned⟩
    · rw [control_step, hsame]
      intro b hb hbc
      exact (hle b hb).resolve_left hbc
    · rw [control_step, underway_step, hsame]
      intro hb
      refine ⟨hplanned, ?_⟩
      obtain ⟨hv, hp⟩ | ⟨hv, ht⟩ := hstay
      · have hS : S y.1.currentRoute := by
          refine hb.resolve_right fun hs => ?_
          rw [(starts_iff.1 hs).2.1] at hv
          exact Bool.false_ne_true hv.symm
        rw [Underway.update, hv]
        exact (h.here hS).2
      · rw [Underway.update, hv, ht]
        exact Function.update_self ..

theorem Passed.step (h : Passed a y S) (hc : y.1.Idle) (ha : w.routeReq a = true)
    (hwait : y.1.thanks w a = false) :
    Passed a ((delimited n).step y w) (fun b => S b ∨ starts y w b = true) := by
  by_cases hcur : a = y.1.currentRoute
  · refine h.step_arrived hcur ?_
    rw [← Bool.not_eq_true]
    intro hv
    rw [thanks_iff.2 ⟨hcur, hv⟩] at hwait
    exact Bool.false_ne_true hwait.symm
  · exact h.step_toward hc ha hcur

end Waiting

/-! ### Runs -/

section Runs

variable {r : Nat → OutputControl n × Underway n} {w : Nat → OutputIn n} {a : Fin n} {t : Nat}

theorem idle_of_reachable {y : OutputControl n × Underway n}
    (h : (delimited n).Reachable (fun _ _ => True) y) : y.1.Idle := by
  refine h.invariant (P := fun y => y.1.Idle) ?_ ?_
  · rintro z ⟨hz, -⟩
    have hz : z.1 = .init := hz
    rw [hz]
    exact OutputControl.idle_init
  · intro z w hz _
    exact hz.step w

/-- While the header of `a` waits. -/
theorem passed_of_run (hr : (delimited n).IsRun r w)
    (h0 : (delimited n).Reachable (fun _ _ => True) (r 0))
    (hwait : ∀ m < t, (w m).routeReq a = true ∧ (r m).1.thanks (w m) a = false) :
    ∀ m ≤ t, Passed a (r m) fun b => ∃ i < m, starts (r i) (w i) b = true := by
  intro m
  induction m with
  | zero =>
    intro _
    have hnone : ∀ b, ¬ ∃ i < 0, starts (r i) (w i) b = true := by
      rintro b ⟨i, hi, -⟩
      exact Nat.not_lt_zero i hi
    exact ⟨fun b hb => absurd hb (hnone b), fun hb => absurd hb (hnone _), fun _ => .inr hnone⟩
  | succ m ih =>
    intro hm
    obtain ⟨ha, hth⟩ := hwait m hm
    have hidle := idle_of_reachable (hr.reachable h0 (fun _ => trivial) m)
    have hstep := (ih (Nat.le_of_succ_le hm)).step hidle ha hth
    rw [← hr m] at hstep
    have hS : (fun b => ∃ i < m + 1, starts (r i) (w i) b = true) =
        fun b => (∃ i < m, starts (r i) (w i) b = true) ∨ starts (r m) (w m) b = true := by
      funext b
      simp only [Nat.lt_succ_iff_lt_or_eq, or_and_right, exists_or, exists_eq_left]
    rw [hS]
    exact hstep

theorem started_once (hr : (delimited n).IsRun r w)
    (h0 : (delimited n).Reachable (fun _ _ => True) (r 0))
    (hwait : ∀ m < t, (w m).routeReq a = true ∧ (r m).1.thanks (w m) a = false) {b : Fin n}
    {i j : Nat} (hj : j < t) (hij : i < j) (hi : starts (r i) (w i) b = true) :
    ¬ starts (r j) (w j) b = true := by
  intro hb
  exact (passed_of_run hr h0 hwait j (Nat.le_of_lt hj)).not_started hb ⟨i, hij, hi⟩

theorem bypass_of_run (hr : (delimited n).IsRun r w)
    (h0 : (delimited n).Reachable (fun _ _ => True) (r 0))
    (hwait : ∀ m < t, (w m).routeReq a = true ∧ (r m).1.thanks (w m) a = false) :
    ∀ b, ∀ i < t, ∀ j < t,
      starts (r i) (w i) b = true → starts (r j) (w j) b = true → i = j := by
  intro b i hi j hj hbi hbj
  obtain hij | hij | hij := Nat.lt_trichotomy i j
  · exact absurd hbj (started_once hr h0 hwait hj hij hbi)
  · exact hij
  · exact absurd hbi (started_once hr h0 hwait hi hij hbj)

/-- From any reachable state and for all later wires: while a header waits, every other input starts at
most one message on the output; and a planned route stays until a tail has been sent. -/
theorem bypass_bounded (n : Nat) [NeZero n] {r : Nat → OutputControl n × Underway n}
    {w : Nat → OutputIn n} (hr : (delimited n).IsRun r w)
    (h0 : (delimited n).Reachable (fun _ _ => True) (r 0)) :
    (∀ (a : Fin n) (t : Nat),
      (∀ m < t, (w m).routeReq a = true ∧ (r m).1.thanks (w m) a = false) →
      ∀ b, ∀ i < t, ∀ j < t,
        starts (r i) (w i) b = true → starts (r j) (w j) b = true → i = j) ∧
    ∀ i j, i ≤ j → (r i).1.planned = true →
      (∀ m, i ≤ m → m < j → (r m).1.tailSent (w m) = false) → (r j).1 = (r i).1 := by
  constructor
  · intro a t hwait
    exact bypass_of_run hr h0 hwait
  · intro i j hij hp
    induction j, hij using Nat.le_induction with
    | base => exact fun _ => rfl
    | succ j hij ih =>
      intro ht
      have hsame := ih fun m him hm => ht m him (Nat.lt_succ_of_lt hm)
      rw [hr j, control_step,
        OutputControl.step_planned (hsame ▸ hp) (ht j hij (Nat.lt_succ_self j)), hsame]

/-- Three inputs with messages of one flit. -/
def eager : OutputIn 3 where
  routeReq := fun _ => true
  tail := fun _ => true
  valid := fun _ => true
  defaultReady := true
  spaceAvail := true

theorem init_delimited (n : Nat) [NeZero n] : (delimited n).init (.init, fun _ => false) :=
  ⟨rfl, rfl⟩

theorem bypass_bounded_eager :
    starts ((delimited 3).trace (.init, fun _ => false) (fun _ => eager) 0) eager 0 = true ∧
      ∀ b, ∀ i < 2, ∀ j < 2,
        starts ((delimited 3).trace (.init, fun _ => false) (fun _ => eager) i) eager b = true →
        starts ((delimited 3).trace (.init, fun _ => false) (fun _ => eager) j) eager b = true →
        i = j :=
  ⟨by decide, (bypass_bounded 3 (Machine.isRun_trace _ fun _ => eager)
    (.init (init_delimited 3))).1 2 2 (by decide)⟩

end Runs

/-! ### In a router -/

namespace DynamicNode

variable {d : DynamicNode} {o : Fin d.ports}

/-- Output `o` sends a header of input `i`. -/
def headerSent (s : d.State) (o i : Fin d.ports) : Bool := thanksTo s o i && routeReqTo s i o

section Step

variable {Y : d.State × d.History} {y : OutputControl d.ports × Underway d.ports}

/-- The messages under way are those whose inputs lack flits for the output. -/
structure Delimits (Y : d.State × d.History) (o : Fin d.ports)
    (y : OutputControl d.ports × Underway d.ports) : Prop where
  control : y.1 = (Y.1.outputs o).control
  inside : ∀ b, y.2 b = true → lacks Y (d.mapList o b) ≠ 0 ∧ wants Y (d.mapList o b) o = true

theorem Delimits.validOut_eq (h : Delimits Y o y) :
    y.1.validOut (outputIn Y.1 o) = validOut Y.1 o := by
  rw [h.control, validOut]

theorem Delimits.source_eq (h : Delimits Y o y) : d.mapList o y.1.currentRoute = source Y.1 o := by
  rw [h.control, source]

/-- A message that the current flit does not end is under way. -/
theorem Delimits.inside_current (h : Delimits Y o y) (hY : Inv Y) (hc : Clear Y.1)
    (hv : validOut Y.1 o = true) (ht : y.1.tailCurrentRoute (outputIn Y.1 o) = false)
    (e : d.Input) :
    lacks (d.recorded.step Y e) (source Y.1 o) ≠ 0 ∧
      wants (d.recorded.step Y e) (source Y.1 o) o = true := by
  have hth : thanksAllTemp Y.1 (source Y.1 o) = true := thanksAllTemp_iff.2 ⟨o, rfl, hv⟩
  obtain ⟨x, w, hx, -⟩ := thanked hY hc hth
  have htail : (Y.1.inputs (source Y.1 o)).tailOut = false := by
    rw [← h.source_eq]
    exact ht
  rw [tailOut_eq hY hx] at htail
  have hl : lacks (d.recorded.step Y e) (source Y.1 o) ≠ 0 := by
    rw [lacks_thanked hY hth hx]
    exact of_decide_eq_false htail
  exact ⟨hl, by rw [wants_thanked hY hc hth hl]; exact (sends hY hc hv).1⟩

/-- The input of a message under way waits for this output. -/
theorem Delimits.inside_kept (h : Delimits Y o y) (hY : Inv Y) (hc : Clear Y.1) {b : Fin d.ports}
    (hb : y.2 b = true) (hne : ¬ (b = y.1.currentRoute ∧ validOut Y.1 o = true)) (e : d.Input) :
    lacks (d.recorded.step Y e) (d.mapList o b) ≠ 0 ∧
      wants (d.recorded.step Y e) (d.mapList o b) o = true := by
  obtain ⟨hl, hw⟩ := h.inside b hb
  have hth : thanksAllTemp Y.1 (d.mapList o b) = false := by
    rw [← Bool.not_eq_true]
    intro hth
    obtain ⟨hs, hv⟩ := thanked_by hY hc hth hw
    rw [← h.source_eq] at hs
    exact hne ⟨(d.mapList_injective o hs).symm, hv⟩
  rw [lacks_kept hth, wants_kept_inside hth hl]
  exact ⟨hl, hw⟩

theorem Delimits.step (h : Delimits Y o y) (hY : Inv Y) (hc : Clear Y.1) (e : d.Input) :
    Delimits (d.recorded.step Y e) o ((delimited d.ports).step y (outputIn Y.1 o)) where
  control := by rw [control_step, h.control, control_next]
  inside := by
    intro b hb
    rw [underway_step, Underway.update, h.validOut_eq] at hb
    cases hv : validOut Y.1 o with
    | false =>
      rw [hv] at hb
      exact h.inside_kept hY hc hb (by simp [hv]) e
    | true =>
      rw [hv, if_pos rfl] at hb
      by_cases hbc : b = y.1.currentRoute
      · subst hbc
        rw [Function.update_self, Bool.not_eq_true'] at hb
        rw [h.source_eq]
        exact h.inside_current hY hc hv hb e
      · rw [Function.update_of_ne hbc] at hb
        exact h.inside_kept hY hc hb (fun hn => hbc hn.1) e

/-- A header that is sent starts a message. -/
theorem Delimits.starts_of_headerSent (h : Delimits Y o y) (hY : Inv Y) {b : Fin d.ports}
    (hb : headerSent Y.1 o (d.mapList o b) = true) : starts y (outputIn Y.1 o) b = true := by
  rw [headerSent, Bool.and_eq_true] at hb
  obtain ⟨hs, hv⟩ := thanksTo_iff.1 hb.1
  rw [← h.source_eq] at hs
  refine starts_iff.2 ⟨(d.mapList_injective o hs).symm, h.validOut_eq.trans hv, ?_⟩
  rw [← Bool.not_eq_true]
  intro hu
  exact (h.inside b hu).1 (wants_of_routeReqTo hY hb.2).2

/-- A header that is not sent keeps requesting. -/
theorem routeReqTo_step {i : Fin d.ports} (hY : Inv Y) (hc : Clear Y.1)
    {e : d.Input} (he : Credited Y e) (hr : routeReqTo Y.1 i o = true)
    (hw : thanksTo Y.1 o i = false) : routeReqTo (d.recorded.step Y e).1 i o = true := by
  obtain ⟨hwants, hl⟩ := wants_of_routeReqTo hY hr
  have hth : thanksAllTemp Y.1 i = false := by
    rw [← Bool.not_eq_true]
    intro hth
    rw [thanksTo_iff.2 (thanked_by hY hc hth hwants)] at hw
    exact Bool.false_ne_true hw.symm
  exact routeReqTo_of_wants (inv_step hY hc he) ((lacks_kept hth).trans hl)
    (wants_kept hY hth hwants)

end Step

theorem inv_of_reachable (hd : d.Sound) {Y : d.State × d.History}
    (h : d.recorded.Reachable Credited Y) : Inv Y :=
  h.invariant (fun _ => inv_init) fun _ _ hY he => inv_step hY (hd.clear hY) he

theorem exists_delimits (hd : d.Sound) (o : Fin d.ports) {Y : d.State × d.History}
    (h : d.recorded.Reachable Credited Y) :
    ∃ y, (delimited d.ports).Reachable (fun _ _ => True) y ∧ Delimits Y o y := by
  induction h with
  | @init Y h =>
    have hcontrol : (Y.1.outputs o).control = .init := by rw [h.1.2 o]
    exact ⟨⟨.init, fun _ => false⟩, .init ⟨rfl, rfl⟩, hcontrol.symm,
      fun _ hb => absurd hb Bool.false_ne_true⟩
  | @step Y e hreach _ ih =>
    obtain ⟨y, hy, hYy⟩ := ih
    have hY := inv_of_reachable hd hreach
    exact ⟨_, .step hy trivial, hYy.step hY (hd.clear hY) e⟩

/-- In a router with sound defaults: a header that requests an output keeps requesting until it is
sent, and until then the output sends at most one header of every other input. -/
theorem header_bypass (hd : d.Sound) {R : Nat → d.State × d.History} {e : Nat → d.Input}
    (hR : d.recorded.IsRun R e) (h0 : d.recorded.Reachable Credited (R 0))
    (he : ∀ m, Credited (R m) (e m)) {i : Fin d.ports} {t : Nat}
    (hr : routeReqTo (R 0).1 i o = true) (hwait : ∀ m < t, thanksTo (R m).1 o i = false) :
    (∀ m ≤ t, routeReqTo (R m).1 i o = true) ∧
      ∀ b, ∀ p < t, ∀ q < t,
        headerSent (R p).1 o b = true → headerSent (R q).1 o b = true → p = q := by
  have hinv := fun m => inv_of_reachable hd (hR.reachable h0 he m)
  have hreq : ∀ m ≤ t, routeReqTo (R m).1 i o = true := by
    intro m
    induction m with
    | zero => exact fun _ => hr
    | succ m ih =>
      intro hm
      rw [hR m]
      exact routeReqTo_step (hinv m) (hd.clear (hinv m)) (he m) (ih (Nat.le_of_succ_le hm))
        (hwait m hm)
  refine ⟨hreq, ?_⟩
  obtain ⟨y, hy, hYy⟩ := exists_delimits hd o h0
  have hrun := Machine.isRun_trace (M := delimited d.ports) y fun m => outputIn (R m).1 o
  have hdel : ∀ m, Delimits (R m) o ((delimited d.ports).trace y (fun m => outputIn (R m).1 o) m) := by
    intro m
    induction m with
    | zero => exact hYy
    | succ m ih =>
      rw [hR m]
      exact ih.step (hinv m) (hd.clear (hinv m)) (e m)
  have hsurj := Finite.surjective_of_injective (d.mapList_injective o)
  obtain ⟨a, rfl⟩ := hsurj i
  intro b p hp q hq hbp hbq
  obtain ⟨b, rfl⟩ := hsurj b
  refine (bypass_of_run (a := a) hrun hy ?_) b p hp q hq ((hdel p).starts_of_headerSent (hinv p) hbp)
    ((hdel q).starts_of_headerSent (hinv q) hbq)
  intro m hm
  refine ⟨hreq m (Nat.le_of_lt hm), ?_⟩
  rw [← Bool.not_eq_true]
  intro hth
  obtain ⟨hcur, hv⟩ := thanks_iff.1 hth
  have hnot := hwait m hm
  rw [thanksTo_iff.2 ⟨by rw [hcur, (hdel m).source_eq], (hdel m).validOut_eq.symm.trans hv⟩] at hnot
  exact Bool.false_ne_true hnot.symm

end DynamicNode

end Piton.Noc
