import Mathlib.Data.Nat.Init
import Mathlib.Tactic.Common

/-! What happens at last along a run: an offer that stays until it is taken, and a count that keeps
growing. -/

namespace Hw

/-- An offer that stays until it is taken is taken. -/
theorem exists_taken (offer ready : Nat → Prop) {n : Nat} (hoffer : offer n)
    (hstay : ∀ m, n ≤ m → offer m → ¬ ready m → offer (m + 1)) (hready : ∃ m, n ≤ m ∧ ready m) :
    ∃ m, n ≤ m ∧ offer m ∧ ready m := by
  by_contra hnone
  have hkept : ∀ m, n ≤ m → offer m := by
    intro m hm
    induction m, hm using Nat.le_induction with
    | base => exact hoffer
    | succ m hm ih => exact hstay m hm ih fun hr => hnone ⟨m, hm, ih, hr⟩
  obtain ⟨m, hm, hr⟩ := hready
  exact hnone ⟨m, hm, hkept m hm, hr⟩

/-- A count that grows for as long as it is below `k` comes to `k`. -/
theorem exists_ge {f : Nat → Nat} {k n : Nat}
    (hgrow : ∀ m, n ≤ m → f m < k → ∃ p, m ≤ p ∧ f m < f p) : ∃ m, n ≤ m ∧ k ≤ f m := by
  have hfrom : ∀ m, n ≤ m → ∃ p, n ≤ p ∧ k ≤ f p := by
    intro m
    induction hd : k - f m using Nat.strong_induction_on generalizing m with
    | _ d ih =>
      intro hm
      by_cases hk : f m < k
      · obtain ⟨p, hp, hlt⟩ := hgrow m hm hk
        exact ih (k - f p) (by omega) p rfl (Nat.le_trans hm hp)
      · exact ⟨m, hm, Nat.le_of_not_lt hk⟩
  exact hfrom n (Nat.le_refl n)

/-- A sequence of lists that only grow. -/
theorem prefix_of_le {α : Type} {f : Nat → List α} (hf : ∀ n, f n <+: f (n + 1)) {n m : Nat}
    (h : n ≤ m) : f n <+: f m := by
  induction m, h using Nat.le_induction with
  | base => exact List.prefix_refl _
  | succ m _ ih => exact ih.trans (hf m)

end Hw
