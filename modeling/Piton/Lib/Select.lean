import Mathlib.Order.Bounds.Defs
import Mathlib.Data.List.FinRange
import Mathlib.Data.List.Sort

/-! Priority: the first element of a sorted list with a property, and a bus on which one of several
sources drives. -/

namespace Hw

/-! ### The first match of a list -/

section Find

variable {α : Type} {r : α → α → Prop} {p : α → Bool} {l : List α} {b : α}

theorem find?_pairwise (hl : l.Pairwise r) (h : l.find? p = some b) :
    p b = true ∧ ∀ a ∈ l, p a = true → a = b ∨ r b a := by
  induction l with
  | nil => simp at h
  | cons c l ih =>
    obtain ⟨hc, hl⟩ := List.pairwise_cons.1 hl
    rw [List.find?_cons] at h
    cases hp : p c with
    | true =>
      rw [hp] at h
      obtain rfl := Option.some.inj h
      refine ⟨hp, fun a ha _ => ?_⟩
      obtain rfl | ha := List.mem_cons.1 ha
      · exact .inl rfl
      · exact .inr (hc a ha)
    | false =>
      rw [hp] at h
      obtain ⟨hb, hall⟩ := ih hl h
      refine ⟨hb, fun a ha hpa => ?_⟩
      obtain rfl | ha := List.mem_cons.1 ha
      · rw [hp] at hpa
        cases hpa
      · exact hall a ha hpa

end Find

section Priority

variable {n : Nat} {p : Fin n → Bool} {k : Fin n}

theorem isLeast_of_find? (h : (List.finRange n).find? p = some k) :
    IsLeast {i | p i = true} k := by
  obtain ⟨hk, hall⟩ := find?_pairwise (List.pairwise_lt_finRange n) h
  refine ⟨hk, fun i hi => ?_⟩
  obtain rfl | hlt := hall i (List.mem_finRange i) hi
  · exact Nat.le_refl _
  · exact Nat.le_of_lt hlt

theorem isGreatest_of_find? (h : (List.finRange n).reverse.find? p = some k) :
    IsGreatest {i | p i = true} k := by
  have hl : (List.finRange n).reverse.Pairwise fun i j => j < i :=
    List.pairwise_reverse.2 (List.pairwise_lt_finRange n)
  obtain ⟨hk, hall⟩ := find?_pairwise hl h
  refine ⟨hk, fun i hi => ?_⟩
  obtain rfl | hlt := hall i (List.mem_reverse.2 (List.mem_finRange i)) hi
  · exact Nat.le_refl _
  · exact Nat.le_of_lt hlt

theorem none_of_find? (h : (List.finRange n).find? p = none) (i : Fin n) : p i = false := by
  have := List.find?_eq_none.1 h i (List.mem_finRange i)
  simpa using this

theorem none_of_find?_reverse (h : (List.finRange n).reverse.find? p = none) (i : Fin n) :
    p i = false := by
  have := List.find?_eq_none.1 h i (List.mem_reverse.2 (List.mem_finRange i))
  simpa using this

end Priority

/-! ### A shared bus -/

section Bus

variable {n w : Nat}

/-- The or of the sources that drive. -/
def bus (drives : Fin n → Bool) (v : Fin n → BitVec w) : BitVec w :=
  (List.finRange n).foldr (fun i acc => (if drives i then v i else 0) ||| acc) 0

/-- With one driver the bus has its value. -/
theorem bus_eq {drives : Fin n → Bool} {v : Fin n → BitVec w} {k : Fin n}
    (h : ∀ i, drives i = decide (i = k)) : bus drives v = v k := by
  have hnone : ∀ l : List (Fin n), k ∉ l →
      l.foldr (fun i acc => (if drives i then v i else 0) ||| acc) 0 = 0 := by
    intro l
    induction l with
    | nil => intro _; rfl
    | cons i l ih =>
      intro hk
      have hi : i ≠ k := fun hi => hk (hi ▸ List.mem_cons_self)
      rw [List.foldr_cons, ih (fun hm => hk (List.mem_cons_of_mem i hm)), h i]
      simp [hi]
  have hone : ∀ l : List (Fin n), l.Nodup → k ∈ l →
      l.foldr (fun i acc => (if drives i then v i else 0) ||| acc) 0 = v k := by
    intro l
    induction l with
    | nil =>
      intro _ hm
      cases hm
    | cons i l ih =>
      intro hnd hm
      obtain ⟨hi, hnd⟩ := List.nodup_cons.1 hnd
      rw [List.foldr_cons, h i]
      obtain rfl | hm := List.mem_cons.1 hm
      · rw [hnone l hi]
        simp
      · have hne : i ≠ k := fun he => hi (he ▸ hm)
        rw [ih hnd hm]
        simp [hne]
  exact hone _ (List.nodup_finRange n) (List.mem_finRange k)

end Bus

end Hw
