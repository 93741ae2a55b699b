import Mathlib.Tactic.Common

/-! Words of channels that cross a wire in two halves, one after the other; several channels share the
wire, and some cycles are idle. -/

namespace Hw

variable {ν η δ : Type} {n m : ν} {a b : η} {c : Option ν} {l l' : List (Option ν × η)}

/-- Each first half is followed by a second one on the same channel; `none` is an idle cycle. -/
def Paired : List (Option ν × η) → Prop
  | (none, _) :: l => Paired l
  | (some m, _) :: (c, _) :: l => c = some m ∧ Paired l
  | [(some _, _)] => False
  | [] => True

@[simp] theorem paired_nil : Paired ([] : List (Option ν × η)) := trivial

@[simp] theorem paired_idle : Paired ((none, a) :: l) ↔ Paired l := Iff.rfl

@[simp] theorem paired_pair : Paired ((some m, a) :: (c, b) :: l) ↔ c = some m ∧ Paired l := Iff.rfl

@[simp] theorem not_paired_single : ¬ Paired [(some m, a)] := id

theorem paired_append (h : Paired l) : Paired (l ++ l') ↔ Paired l' := by
  induction l using Paired.induct with
  | case1 a l ih => exact ih h
  | case2 m a c b l ih =>
    simp only [List.cons_append, paired_pair]
    exact ⟨fun hp => (ih h.2).1 hp.2, fun hp => ⟨h.1, (ih h.2).2 hp⟩⟩
  | case3 m a => exact absurd h not_paired_single
  | case4 => exact Iff.rfl

theorem paired_replicate (d : Nat) (a : η) : Paired (List.replicate d ((none : Option ν), a)) := by
  induction d with
  | zero => exact paired_nil
  | succ d ih => exact paired_idle.2 ih

section Crossing

variable [DecidableEq ν] (join : η → η → δ)

/-- What crosses on one channel. -/
def crossing (n : ν) : List (Option ν × η) → List δ
  | (none, _) :: l => crossing n l
  | (some m, low) :: (_, high) :: l =>
    if m = n then join low high :: crossing n l else crossing n l
  | [(some _, _)] => []
  | [] => []

variable {join}

@[simp] theorem crossing_nil : crossing join n [] = [] := rfl

@[simp] theorem crossing_idle : crossing join n ((none, a) :: l) = crossing join n l := rfl

@[simp] theorem crossing_pair : crossing join n ((some m, a) :: (c, b) :: l) =
    (if m = n then [join a b] else []) ++ crossing join n l := by
  by_cases h : m = n <;> simp [crossing, h]

theorem crossing_append (h : Paired l) :
    crossing join n (l ++ l') = crossing join n l ++ crossing join n l' := by
  induction l using Paired.induct with
  | case1 a l ih => exact ih h
  | case2 m a c b l ih => simp only [List.cons_append, crossing_pair, ih h.2, List.append_assoc]
  | case3 m a => exact absurd h not_paired_single
  | case4 => rfl

theorem crossing_replicate (d : Nat) (a : η) : crossing join n (List.replicate d (none, a)) = [] := by
  induction d with
  | zero => rfl
  | succ d ih => exact ih

end Crossing

end Hw
