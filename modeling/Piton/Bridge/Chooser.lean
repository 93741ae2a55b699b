import Mathlib.Tactic.Common
import Piton.Lib.Machine
import Piton.Lib.Sizes

/-! `bridge_network_chooser`: which of three networks the off-chip link serves, by credits and by four
priority registers, and why none of them waits for more than five decisions. -/

namespace Piton.Bridge

open Hw

/-- The three networks that share the link. -/
inductive Net
  | net1 | net2 | net3
  deriving DecidableEq, Repr

/-- `00` is no network. -/
abbrev Channel := Option Net

/-- The registers of `bridge_network_chooser`: a credit counter for each network, the network whose
second half is on the wires, and a priority for each pair of networks and for all three. -/
structure Chooser where
  credit : Net → BitVec 9
  selectReg : Channel
  selectCounter : Bool
  sel23 : Bool
  sel13 : Bool
  sel12 : Bool
  sel123 : Channel

namespace Chooser

/-- The registers after `reset`. -/
def init : Chooser where
  credit _ := 0
  selectReg := none
  selectCounter := false
  sel23 := false
  sel13 := false
  sel12 := false
  sel123 := none

variable (threshold : BitVec 9) (s : Chooser) (val : Net → Bool)

/-- The network has no flit, or as many in flight as it may. -/
def blocked (n : Net) : Bool := s.credit n = threshold || !val n

/-- `select`: the network of the half in flight, else the only network that may send, else the one
with the priority among those that may. -/
def select : Channel :=
  if s.selectCounter then s.selectReg
  else if s.blocked threshold val .net1 && s.blocked threshold val .net2 &&
    s.blocked threshold val .net3 then none
  else if s.blocked threshold val .net2 && s.blocked threshold val .net3 then some .net1
  else if s.blocked threshold val .net1 && s.blocked threshold val .net3 then some .net2
  else if s.blocked threshold val .net1 && s.blocked threshold val .net2 then some .net3
  else if s.blocked threshold val .net1 then if s.sel23 then some .net3 else some .net2
  else if s.blocked threshold val .net2 then if s.sel13 then some .net3 else some .net1
  else if s.blocked threshold val .net3 then if s.sel12 then some .net2 else some .net1
  else s.sel123

/-- The first of the two cycles of a selection. -/
def first (n : Net) : Bool := s.select threshold val = some n && !s.selectCounter

variable (rdy back : Net → Bool)

/-- A flit is sent. -/
def sends (n : Net) : Bool := rdy n && val n

/-- The counter of flits in flight of a network: one more when it sends, one less when a credit
comes back. -/
def creditNext (n : Net) : BitVec 9 :=
  if sends val rdy n then if back n then s.credit n else s.credit n + 1
  else if back n then s.credit n - 1 else s.credit n

/-- The last assignment wins. -/
def sel123Next : Channel :=
  if sends val rdy .net3 && s.sel123 = some .net3 then some .net1
  else if sends val rdy .net2 && s.sel123 = some .net2 then some .net3
  else if sends val rdy .net1 && s.sel123 = some .net1 then some .net2
  else if s.credit .net1 < threshold && s.credit .net2 < threshold && s.credit .net3 < threshold &&
    s.sel123 = none then some .net1
  else s.sel123

/-- One clock edge, at which flits are read from the networks `rdy` and credits come `back`. -/
def next : Chooser where
  credit := s.creditNext val rdy back
  selectReg := s.select threshold val
  selectCounter := if s.select threshold val = none then false else !s.selectCounter
  sel23 := if sends val rdy .net3 then false else if sends val rdy .net2 then true else s.sel23
  sel13 := if sends val rdy .net3 then false else if sends val rdy .net1 then true else s.sel13
  sel12 := if sends val rdy .net2 then false else if sends val rdy .net1 then true else s.sel12
  sel123 := s.sel123Next threshold val rdy

/-! ### Priorities -/

/-- The register of the two networks prefers the first. -/
def prefers : Net → Net → Bool
  | .net1, .net2 => !s.sel12
  | .net2, .net1 => s.sel12
  | .net1, .net3 => !s.sel13
  | .net3, .net1 => s.sel13
  | .net2, .net3 => !s.sel23
  | .net3, .net2 => s.sel23
  | _, _ => false

/-- The first network may be selected before the second. -/
def favours (m n : Net) : Prop := s.prefers m n = true ∨ s.sel123 = some m

/-- Selections until the turn of a network comes, when none is blocked. -/
def turns : Channel → Net → Nat
  | some .net1, .net2 | some .net2, .net3 | some .net3, .net1 | none, .net2 => 1
  | some .net1, .net3 | some .net2, .net1 | some .net3, .net2 | none, .net3 => 2
  | _, _ => 0

/-- How often others can still be selected before the network. -/
def rank : Net → Nat
  | .net1 => (s.prefers .net2 .net1).toNat + (s.prefers .net3 .net1).toNat + turns s.sel123 .net1
  | .net2 => (s.prefers .net1 .net2).toNat + (s.prefers .net3 .net2).toNat + turns s.sel123 .net2
  | .net3 => (s.prefers .net1 .net3).toNat + (s.prefers .net2 .net3).toNat + turns s.sel123 .net3

section Select

variable {threshold s val rdy back} {n m : Net}

/-- What is selected anew has a flit and a credit, and is favoured over the others that have. -/
theorem select_eq_some (h : s.select threshold val = some m) (hc : s.selectCounter = false) :
    s.blocked threshold val m = false ∧
      ∀ n, n ≠ m → s.blocked threshold val n = false → s.favours m n := by
  simp only [select, hc, Bool.false_eq_true, if_false] at h
  cases m
  · refine ⟨by grind, fun n hne hn => ?_⟩
    cases n <;> grind [favours, prefers]
  · refine ⟨by grind, fun n hne hn => ?_⟩
    cases n <;> grind [favours, prefers]
  · refine ⟨by grind, fun n hne hn => ?_⟩
    cases n <;> grind [favours, prefers]

theorem select_ne_none (hc : s.selectCounter = false) (hn : s.blocked threshold val n = false)
    (hs : s.sel123 ≠ none) : s.select threshold val ≠ none := by
  simp only [select, hc, Bool.false_eq_true, if_false]
  cases n <;> grind

theorem rank_le : s.rank n ≤ 4 := by
  have hb := fun a b : Net => Bool.toNat_le (s.prefers a b)
  have ht : turns s.sel123 n ≤ 2 := by
    cases s.sel123 with
    | none => cases n <;> simp [turns]
    | some a => cases a <;> cases n <;> simp [turns]
  cases n
  · have := hb .net2 .net1
    have := hb .net3 .net1
    simp only [rank]
    omega
  · have := hb .net1 .net2
    have := hb .net3 .net2
    simp only [rank]
    omega
  · have := hb .net1 .net3
    have := hb .net2 .net3
    simp only [rank]
    omega

end Select

/-- The networks in their order. -/
def succ : Net → Net
  | .net1 => .net2
  | .net2 => .net3
  | .net3 => .net1

section Turns

variable {val rdy : Net → Bool} {n m : Net}

/-- The turn passes on when its network sends, and first goes to network 1. -/
theorem sel123_next (back : Net → Bool) (hone : ∀ a, sends val rdy a = decide (a = m)) :
    (s.next threshold val rdy back).sel123 = (if s.sel123 = some m then some (succ m) else s.sel123) ∨
      s.sel123 = none ∧ (s.next threshold val rdy back).sel123 = some .net1 := by
  simp only [next, sel123Next, hone]
  cases m <;> grind [succ]

theorem turns_next (back : Net → Bool) (hone : ∀ a, sends val rdy a = decide (a = m)) (hne : m ≠ n) :
    turns (s.next threshold val rdy back).sel123 n + (decide (s.sel123 = some m)).toNat =
      turns s.sel123 n := by
  obtain h | ⟨hs, h⟩ := sel123_next threshold s back hone
  · rw [h]
    cases hs : s.sel123 with
    | none => simp
    | some a => cases a <;> cases m <;> cases n <;> simp_all [succ, turns]
  · rw [h, hs]
    cases n <;> simp [turns]

theorem turns_quiet (back : Net → Bool) (hnone : ∀ a, sends val rdy a = false) :
    turns (s.next threshold val rdy back).sel123 n = turns s.sel123 n := by
  simp only [next, sel123Next, hnone, Bool.false_and, Bool.false_eq_true, if_false]
  split
  next h =>
    have hs : s.sel123 = none := by simp_all
    rw [hs]
    cases n <;> rfl
  next => rfl

/-- After a selection the register of two networks prefers the other one. -/
theorem prefers_next (back : Net → Bool) (hone : ∀ a, sends val rdy a = decide (a = m)) (a : Net)
    (hne : m ≠ n) :
    (s.next threshold val rdy back).prefers a n = (s.prefers a n && decide (a ≠ m)) := by
  simp only [next, prefers, hone]
  cases a <;> cases n <;> cases m <;> simp_all

theorem prefers_quiet (back : Net → Bool) (hnone : ∀ a, sends val rdy a = false) (a : Net) :
    (s.next threshold val rdy back).prefers a n = s.prefers a n := by
  cases a <;> cases n <;> simp [next, prefers, hnone]

theorem rank_quiet (back : Net → Bool) (hnone : ∀ a, sends val rdy a = false) :
    (s.next threshold val rdy back).rank n = s.rank n := by
  have ht := turns_quiet threshold s (n := n) back hnone
  have hp := prefers_quiet threshold s (n := n) back hnone
  cases n <;> simp only [rank, hp, ht]

/-- Another network uses up what made it go first. -/
theorem rank_sends (back : Net → Bool) (hone : ∀ a, sends val rdy a = decide (a = m))
    (hne : m ≠ n) : (s.next threshold val rdy back).rank n + (s.prefers m n).toNat +
      (decide (s.sel123 = some m)).toNat = s.rank n := by
  have ht := turns_next threshold s back hone hne
  have hp := fun a => prefers_next threshold s back hone a hne
  cases n <;> cases m <;> simp_all [rank] <;> omega

theorem rank_favoured (back : Net → Bool) (hone : ∀ a, sends val rdy a = decide (a = m))
    (hne : m ≠ n) (hf : s.favours m n) : (s.next threshold val rdy back).rank n < s.rank n := by
  have h := rank_sends threshold s back hone hne
  obtain hf | hf := hf <;> simp only [hf, decide_true, Bool.toNat_true] at h <;> omega

/-- From the first edge after reset on it is some network's turn. -/
theorem sel123_next_ne_none {back : Net → Bool} (hpos : 0 < threshold)
    (h : s = .init ∨ s.sel123 ≠ none) : (s.next threshold val rdy back).sel123 ≠ none := by
  obtain rfl | h := h
  · have hlt : ∀ n, Chooser.init.credit n < threshold := fun _ => hpos
    simp [next, sel123Next, hlt, show Chooser.init.sel123 = none from rfl]
  · simp only [next, sel123Next]
    grind

/-- Where the credits suffice the register counts them. -/
theorem toNat_creditNext {back : Net → Bool}
    (hsend : sends val rdy n = true → s.credit n < threshold) (hback : back n = true → s.credit n ≠ 0) :
    (s.creditNext val rdy back n).toNat + (back n).toNat =
      (s.credit n).toNat + (sends val rdy n).toNat := by
  have hlt := (s.credit n).isLt
  have ht := threshold.isLt
  unfold creditNext
  cases hs : sends val rdy n <;> cases hb : back n
  · rfl
  · have hne := hback hb
    simp only [Bool.false_eq_true, if_false, if_true, Bool.toNat_true, Bool.toNat_false]
    bv_omega
  · have hlt := hsend hs
    simp only [Bool.false_eq_true, if_false, if_true, Bool.toNat_true, Bool.toNat_false]
    bv_omega
  · rfl

end Turns

/-- Selections of others since the network could not be served or was selected. -/
def passed (threshold : BitVec 9) (s : Chooser) (val : Net → Bool) (g : Net → Nat) (n : Net) : Nat :=
  if s.selectCounter then g n
  else if s.blocked threshold val n || s.select threshold val = some n then 0
  else if s.select threshold val = none then g n
  else g n + 1

end Chooser

/-! ### The chip's chooser, which reads in the cycle of the selection -/

/-- What the chooser reads in a cycle: the flits offered and the credits that come back. -/
structure ChooserInput where
  val : Net → Bool
  back : Net → Bool

/-- `bridge_network_chooser`. -/
def networkChooser : Machine Chooser ChooserInput where
  init s := s = .init
  step s i := s.next 255 i.val (s.first 255 i.val) i.back

section NetworkChooser

open Chooser

variable {threshold : BitVec 9} {s : Chooser} {val rdy back : Net → Bool} {g : Net → Nat} {m n : Net}

theorem sends_first (h : s.select threshold val = some m) (hc : s.selectCounter = false) (a : Net) :
    sends val (s.first threshold val) a = decide (a = m) := by
  have hm := (select_eq_some h hc).1
  simp only [blocked, Bool.or_eq_false_iff, Bool.not_eq_false'] at hm
  simp only [sends, first, h, hc, Option.some.injEq, Bool.not_false, Bool.and_true]
  by_cases ha : a = m
  · simp [ha, hm.2]
  · simp [ha, Ne.symm ha]

theorem first_eq_false (h : s.selectCounter = true ∨ s.select threshold val = none) (a : Net) :
    s.first threshold val a = false := by
  obtain h | h := h <;> simp [first, h]

/-- A network is passed over as often as its rank goes down. -/
theorem passed_step (h : g n + s.rank n ≤ 4) :
    s.passed threshold val g n + (s.next threshold val (s.first threshold val) back).rank n ≤ 4 := by
  by_cases hq : s.selectCounter = true ∨ s.select threshold val = none
  · have hnone : ∀ a, sends val (s.first threshold val) a = false := fun a => by
      rw [sends, first_eq_false hq, Bool.false_and]
    have hle : s.passed threshold val g n ≤ g n := by
      unfold passed
      obtain hq | hq := hq <;> split_ifs <;> omega
    rw [rank_quiet threshold s back hnone]
    omega
  · simp only [not_or, Bool.not_eq_true] at hq
    obtain ⟨hc, hsel⟩ := hq
    obtain ⟨m, hm⟩ := Option.ne_none_iff_exists'.1 hsel
    have hone := sends_first hm hc
    have hbound := rank_le (s := s.next threshold val (s.first threshold val) back) (n := n)
    unfold passed
    rw [hc, if_neg Bool.false_ne_true, if_neg hsel]
    split
    next => omega
    next hwait =>
      simp only [Bool.or_eq_true, decide_eq_true_iff, not_or, Bool.not_eq_true, hm,
        Option.some.injEq] at hwait
      have hlt := rank_favoured threshold s back hone hwait.2
        ((select_eq_some hm hc).2 n (Ne.symm hwait.2) hwait.1)
      omega

/-- The chooser with the selections that passed each network over. -/
def countedChooser : Machine (Chooser × (Net → Nat)) ChooserInput :=
  networkChooser.withHistory (fun _ => 0) fun g s i => s.passed 255 i.val g

theorem turn_of_reachable {y : Chooser × (Net → Nat)}
    (h : countedChooser.Reachable (fun _ _ => True) y) : y.1 = .init ∨ y.1.sel123 ≠ none :=
  h.invariant (P := fun y => y.1 = .init ∨ y.1.sel123 ≠ none) (fun _ hy => .inl hy.1) fun y _ hs _ =>
    .inr (sel123_next_ne_none 255 y.1 (by decide) hs)

/-- A network that can be served is passed over at most four times, and while there is one, but for the
cycle after reset, some network is selected. -/
theorem chooser_passed {y : Chooser × (Net → Nat)}
    (h : countedChooser.Reachable (fun _ _ => True) y) (n : Net) : y.2 n ≤ 4 ∧
      ∀ val, y.1.selectCounter = false → y.1.blocked 255 val n = false →
        y.1.select 255 val ≠ none ∨ y.1 = .init := by
  have hrank : y.2 n + y.1.rank n ≤ 4 := by
    refine h.invariant (P := fun y => y.2 n + y.1.rank n ≤ 4) (fun y hy => ?_) fun _ _ hs _ =>
      passed_step hs
    rw [hy.2, Nat.zero_add]
    exact rank_le
  refine ⟨by omega, fun val hc hn => ?_⟩
  obtain hinit | hturn := turn_of_reachable h
  · exact .inr hinit
  · exact .inl (select_ne_none hc hn hturn)

end NetworkChooser

namespace ThreeFlits

/-- Each network has flits, and a credit comes back for the second. -/
def busy : ChooserInput := ⟨fun _ => true, fun n => n = .net2⟩

/-- The chooser after `reset`, for the runs below. -/
def start : Chooser × (Net → Nat) := (.init, fun _ => 0)

theorem init_start : countedChooser.init start := ⟨rfl, rfl⟩

/-- Five cycles with a flit on every network. -/
def cycles : List ChooserInput := List.replicate 5 busy

end ThreeFlits

open ThreeFlits in
theorem chooser_passed_threeFlits : (countedChooser.run start cycles).2 .net3 ≤ 4 ∧
    (countedChooser.run start cycles).2 .net3 = 2 :=
  ⟨(chooser_passed (Machine.Reachable.run (.init init_start)
    (Machine.runOk_of_mem (fun _ _ => trivial) start)) .net3).1, by decide +kernel⟩

/-! ### The other chooser, which reads a cycle later -/

/-- `bridge_network_chooser_32`. -/
structure NetworkChooser32 where
  base : Chooser
  rdyF : Net → Bool

namespace NetworkChooser32

open Chooser

/-- The registers after `reset`. -/
def init : NetworkChooser32 := ⟨.init, fun _ => false⟩

/-- The clock edge: the chooser below reads the registered `rdy`, and its own is registered in
turn. -/
def next (threshold : BitVec 9) (s : NetworkChooser32) (val back : Net → Bool) : NetworkChooser32 where
  base := s.base.next threshold val s.rdyF back
  rdyF := s.base.first threshold val

/-- A read belongs to the selection of the cycle before. -/
structure Ok (s : NetworkChooser32) : Prop where
  rdy : ∀ a, s.rdyF a = (s.base.selectCounter && decide (s.base.selectReg = some a))
  busy : s.base.selectCounter = true → s.base.selectReg ≠ none

variable {threshold : BitVec 9} {s : NetworkChooser32} {val back : Net → Bool} {g : Net → Nat}
  {m n : Net}

theorem ok_next : (s.next threshold val back).Ok where
  rdy a := by
    change s.base.first threshold val a = ((if s.base.select threshold val = none then false
      else !s.base.selectCounter) && decide (s.base.select threshold val = some a))
    unfold first
    cases hs : s.base.select threshold val <;> cases s.base.selectCounter <;> simp
  busy hc := by
    change s.base.select threshold val ≠ none
    intro hs
    simp [next, Chooser.next, hs] at hc

theorem Ok.init : NetworkChooser32.init.Ok := ⟨fun a => by simp [NetworkChooser32.init, Chooser.init],
  fun hc => by cases hc⟩

/-- How often the network was passed over, where a selection still counts until its flit is read. -/
def Bounded (s : NetworkChooser32) (g : Net → Nat) (n : Net) : Prop :=
  if s.base.selectCounter then (s.base.selectReg = some n → g n = 0) ∧
    ∀ m, m ≠ n → s.base.selectReg = some m → g n + s.base.rank n ≤ 4 ∨
      s.base.favours m n ∧ g n + s.base.rank n ≤ 5
  else g n + s.base.rank n ≤ 4

/-- Registers that nothing is sent by keep their preferences. -/
theorem favours_quiet (hnone : ∀ a, sends val s.rdyF a = false) (h : s.base.favours m n) :
    (s.next threshold val back).base.favours m n := by
  refine h.imp (fun hp => ?_) fun hs => ?_
  · exact (prefers_quiet threshold s.base back hnone m).trans hp
  · simp [next, Chooser.next, sel123Next, hnone, hs]

theorem bounded_decision (hok : s.Ok) (hc : s.base.selectCounter = false) (h : s.Bounded g n) :
    (s.next threshold val back).Bounded (s.base.passed threshold val g) n := by
  have hnone : ∀ a, sends val s.rdyF a = false := fun a => by
    rw [sends, hok.rdy, hc, Bool.false_and, Bool.false_and]
  have hrank := rank_quiet threshold s.base (n := n) back hnone
  have hreg : (s.next threshold val back).base.selectReg = s.base.select threshold val := rfl
  rw [Bounded, hc, if_neg Bool.false_ne_true] at h
  rw [Bounded, hreg, show (s.next threshold val back).base.rank n = _ from hrank]
  cases hsel : s.base.select threshold val with
  | none =>
    have hcount : (s.next threshold val back).base.selectCounter = false := by
      simp [next, Chooser.next, hsel]
    have hle : s.base.passed threshold val g n ≤ g n := by
      unfold passed
      split_ifs <;> omega
    rw [hcount, if_neg Bool.false_ne_true]
    omega
  | some m =>
    have hcount : (s.next threshold val back).base.selectCounter = true := by
      simp [next, Chooser.next, hc, hsel]
    rw [hcount, if_pos rfl]
    refine ⟨fun hm => ?_, fun m' hne hm => ?_⟩
    · simp [passed, hc, hsel, Option.some.inj hm]
    · obtain rfl : m = m' := Option.some.inj hm
      cases hb : s.base.blocked threshold val n with
      | true =>
        have hbound := rank_le (s := s.base) (n := n)
        left
        simpa [passed, hc, hb] using hbound
      | false =>
        have hpass : s.base.passed threshold val g n = g n + 1 := by
          simp [passed, hc, hb, hsel, hne]
        have hf := (select_eq_some hsel hc).2 n (Ne.symm hne) hb
        exact .inr ⟨favours_quiet hnone hf, by omega⟩

theorem bounded_read (hok : s.Ok) (hval : ∀ a, s.rdyF a = true → val a = true)
    (hc : s.base.selectCounter = true) (h : s.Bounded g n) :
    (s.next threshold val back).Bounded (s.base.passed threshold val g) n := by
  obtain ⟨m, hm⟩ := Option.ne_none_iff_exists'.1 (hok.busy hc)
  have hrdy : ∀ a, s.rdyF a = decide (a = m) := fun a => by
    rw [hok.rdy, hc, hm, Bool.true_and]
    simp [eq_comm]
  have hone : ∀ a, sends val s.rdyF a = decide (a = m) := fun a => by
    have hv := hval a
    rw [hrdy] at hv
    rw [sends, hrdy]
    by_cases ha : a = m
    · simpa [ha] using hv
    · simp [ha]
  have hcount : (s.next threshold val back).base.selectCounter = false := by
    simp [next, Chooser.next, hc]
  have hpass : s.base.passed threshold val g n = g n := by simp [passed, hc]
  rw [Bounded, hc, if_pos rfl] at h
  rw [Bounded, hcount, if_neg Bool.false_ne_true, hpass]
  by_cases hmn : m = n
  · have hbound := rank_le (s := (s.next threshold val back).base) (n := n)
    rw [h.1 (hmn ▸ hm)]
    omega
  · have hle := rank_sends threshold s.base back hone hmn
    have heq : (s.next threshold val back).base.rank n =
        (s.base.next threshold val s.rdyF back).rank n := rfl
    obtain hb | ⟨hf, hb⟩ := h.2 m hmn hm
    · omega
    · have hlt := rank_favoured threshold s.base back hone hmn hf
      omega

theorem le_of_bounded (threshold : BitVec 9) (hok : s.Ok) (h : s.Bounded g n) : g n ≤ 4 := by
  unfold Bounded at h
  cases hc : s.base.selectCounter with
  | false =>
    rw [hc, if_neg Bool.false_ne_true] at h
    omega
  | true =>
    rw [hc, if_pos rfl] at h
    obtain ⟨m, hm⟩ := Option.ne_none_iff_exists'.1 (hok.busy hc)
    by_cases hmn : m = n
    · rw [h.1 (hmn ▸ hm)]
      omega
    · obtain hb | ⟨hf, hb⟩ := h.2 m hmn hm
      · omega
      · have hlt := rank_favoured threshold s.base (fun _ => false)
          (show ∀ a, sends (fun _ => true) (fun a => decide (a = m)) a = decide (a = m) from
            fun a => by simp [sends]) hmn hf
        omega

end NetworkChooser32

/-- `bridge_network_chooser_32` with the selections that passed each network over. -/
def countedChooser32 (threshold : BitVec 9) :
    Machine (NetworkChooser32 × (Net → Nat)) ChooserInput :=
  Machine.withHistory ⟨fun s => s = .init, fun s i => s.next threshold i.val i.back⟩ (fun _ => 0)
    fun g s i => s.base.passed threshold i.val g

theorem ok_of_reachable {threshold : BitVec 9} {ok : NetworkChooser32 × (Net → Nat) → ChooserInput → Prop}
    {y : NetworkChooser32 × (Net → Nat)} (hpos : 0 < threshold)
    (h : (countedChooser32 threshold).Reachable ok y) :
    y.1.Ok ∧ (y.1 = .init ∨ y.1.base.sel123 ≠ none) := by
  refine h.invariant (P := fun y => y.1.Ok ∧ (y.1 = .init ∨ y.1.base.sel123 ≠ none))
    (fun y hy => ?_) fun y i hs _ => ⟨NetworkChooser32.ok_next, .inr ?_⟩
  · have hs : y.1 = .init := hy.1
    exact ⟨hs ▸ .init, .inl hs⟩
  · have hbase : y.1.base = .init ∨ y.1.base.sel123 ≠ none := hs.2.imp_left fun h => by
      rw [h]
      rfl
    exact Chooser.sel123_next_ne_none threshold y.1.base hpos hbase

/-- Where a flit that was chosen stays until it is read, a network that can be served is passed over at
most four times, and while there is one, but for the cycle after reset, some network is selected. -/
theorem chooser32_passed {threshold : BitVec 9} (hpos : 0 < threshold)
    {y : NetworkChooser32 × (Net → Nat)} (h : (countedChooser32 threshold).Reachable
      (fun y i => ∀ a, y.1.rdyF a = true → i.val a = true) y) (n : Net) : y.2 n ≤ 4 ∧
      ∀ val, y.1.base.selectCounter = false → y.1.base.blocked threshold val n = false →
        y.1.base.select threshold val ≠ none ∨ y.1 = .init := by
  have hinv : y.1.Ok ∧ y.1.Bounded y.2 n := by
    refine h.invariant (P := fun y => y.1.Ok ∧ y.1.Bounded y.2 n) (fun y hy => ?_) fun y i hs hi => ?_
    · obtain ⟨hs, hg⟩ := hy
      have hs : y.1 = .init := hs
      rw [hs, hg]
      refine ⟨.init, ?_⟩
      have hbound := Chooser.rank_le (s := Chooser.init) (n := n)
      simpa [NetworkChooser32.Bounded, NetworkChooser32.init, Chooser.init] using hbound
    · refine ⟨NetworkChooser32.ok_next, ?_⟩
      cases hc : y.1.base.selectCounter with
      | false => exact NetworkChooser32.bounded_decision hs.1 hc hs.2
      | true => exact NetworkChooser32.bounded_read hs.1 hi hc hs.2
  refine ⟨NetworkChooser32.le_of_bounded threshold hinv.1 hinv.2, fun val hc hn => ?_⟩
  obtain hinit | hturn := (ok_of_reachable hpos h).2
  · exact .inr hinit
  · exact .inl (Chooser.select_ne_none hc hn hturn)

namespace ThreeFlits

/-- The chooser of the 32-bit link after `reset`, for the run below. -/
def start32 : NetworkChooser32 × (Net → Nat) := (.init, fun _ => 0)

theorem init_start32 : (countedChooser32 7).init start32 := ⟨rfl, rfl⟩

theorem run_ok32 : (countedChooser32 7).RunOk (fun y i => ∀ a, y.1.rdyF a = true → i.val a = true)
    start32 cycles := by
  simp [cycles, busy, Machine.RunOk, List.replicate]

end ThreeFlits

open ThreeFlits in
theorem chooser32_passed_threeFlits : ((countedChooser32 7).run start32 cycles).2 .net3 ≤ 4 ∧
    ((countedChooser32 7).run start32 cycles).2 .net3 = 2 :=
  ⟨(chooser32_passed (by decide) (Machine.Reachable.run (.init init_start32) run_ok32) .net3).1,
    by decide +kernel⟩

end Piton.Bridge
