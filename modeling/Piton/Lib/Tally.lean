import Mathlib.Algebra.BigOperators.Group.Finset.Basic
import Mathlib.Algebra.Order.BigOperators.Group.Finset

/-! How many entries of an array satisfy a predicate, and how this changes with one or two entries. -/

namespace Hw

open Finset

variable {n : Nat} {p q : Fin n → Bool} {a b : Fin n}

/-- The number of entries that satisfy `p`. -/
def tally (p : Fin n → Bool) : Nat := ∑ k, (p k).toNat

theorem tally_false (h : ∀ k, p k = false) : tally p = 0 := by
  apply Finset.sum_eq_zero
  intro k _
  rw [h k]
  rfl

theorem toNat_le_tally (p : Fin n → Bool) (a : Fin n) : (p a).toNat ≤ tally p :=
  single_le_sum (f := fun k => (p k).toNat) (fun _ _ => Nat.zero_le _) (mem_univ a)

/-- Only entry `a` may have changed. -/
theorem tally_change (h : ∀ k, k ≠ a → q k = p k) :
    tally q + (p a).toNat = tally p + (q a).toNat := by
  have hp := add_sum_erase univ (fun k => (p k).toNat) (mem_univ a)
  have hq := add_sum_erase univ (fun k => (q k).toNat) (mem_univ a)
  have hrest : ∑ k ∈ univ.erase a, (q k).toNat = ∑ k ∈ univ.erase a, (p k).toNat := by
    apply sum_congr rfl
    intro k hk
    rw [h k (ne_of_mem_erase hk)]
  rw [tally, tally, ← hp, ← hq, hrest]
  omega

/-- Only the entries `a` and `b` may have changed. -/
theorem tally_change_two (hab : a ≠ b) (h : ∀ k, k ≠ a → k ≠ b → q k = p k) :
    tally q + (p a).toNat + (p b).toNat = tally p + (q a).toNat + (q b).toNat := by
  have hfirst := tally_change (p := p) (q := Function.update p a (q a)) (a := a)
    fun k hk => Function.update_of_ne hk _ _
  have hsecond := tally_change (p := Function.update p a (q a)) (q := q) (a := b) (by
    intro k hk
    by_cases hka : k = a
    · rw [hka, Function.update_self]
    · rw [Function.update_of_ne hka, h k hka hk])
  rw [Function.update_self] at hfirst
  rw [Function.update_of_ne hab.symm] at hsecond
  omega

end Hw
