import Mathlib.Algebra.GroupWithZero.Nat
import Mathlib.Data.List.Sort
import Mathlib.Logic.Function.Iterate
import Mathlib.Order.Bounds.Defs

/-! The set bits of a bit vector in increasing order, and selectors that take the lowest one and
mask it out. -/

namespace Hw

variable {w : Nat}

/-- The positions of the set bits, the lowest first. -/
def setBits (x : BitVec w) : List Nat := (List.range w).filter fun i => x.getLsbD i

@[simp] theorem mem_setBits {x : BitVec w} {i : Nat} : i ∈ setBits x ↔ x.getLsbD i = true := by
  unfold setBits
  rw [List.mem_filter, List.mem_range]
  constructor
  · intro h
    exact h.2
  · intro h
    exact ⟨BitVec.lt_of_getLsbD h, h⟩

theorem pairwise_setBits (x : BitVec w) : (setBits x).Pairwise (· < ·) :=
  List.Pairwise.filter _ List.pairwise_lt_range

theorem ne_zero_iff_exists_getLsbD {x : BitVec w} : x ≠ 0 ↔ ∃ i, x.getLsbD i = true := by
  constructor
  · intro hx
    by_contra hno
    apply hx
    apply BitVec.eq_of_getLsbD_eq
    intro i _
    cases hi : x.getLsbD i with
    | true => exact absurd ⟨i, hi⟩ hno
    | false => simp
  · rintro ⟨i, hi⟩ rfl
    simp at hi

theorem setBits_eq_nil {x : BitVec w} : setBits x = [] ↔ ¬∃ i, x.getLsbD i = true := by
  rw [List.eq_nil_iff_forall_not_mem, not_exists]
  simp only [mem_setBits]

/-- The lowest set bit heads the list, and the rest is what remains when it is masked out. -/
theorem setBits_eq_cons {x mask : BitVec w} {k : Nat} (hk : IsLeast {i | x.getLsbD i = true} k)
    (hmask : ∀ j < w, (mask.getLsbD j = true ↔ j ≠ k)) :
    setBits x = k :: setBits (x &&& mask) := by
  have hrest : ∀ j, j ∈ setBits (x &&& mask) ↔ x.getLsbD j = true ∧ j ≠ k := by
    intro j
    rw [mem_setBits, BitVec.getLsbD_and, Bool.and_eq_true]
    constructor
    · rintro ⟨hx, hm⟩
      exact ⟨hx, (hmask j (BitVec.lt_of_getLsbD hx)).1 hm⟩
    · rintro ⟨hx, hne⟩
      exact ⟨hx, (hmask j (BitVec.lt_of_getLsbD hx)).2 hne⟩
  apply List.Pairwise.eq_of_mem_iff (pairwise_setBits x)
  · refine List.pairwise_cons.2 ⟨?_, pairwise_setBits _⟩
    intro j hj
    obtain ⟨hx, hne⟩ := (hrest j).1 hj
    exact Nat.lt_of_le_of_ne (hk.2 hx) (Ne.symm hne)
  · intro j
    rw [mem_setBits, List.mem_cons, hrest]
    constructor
    · intro hx
      by_cases hj : j = k
      · exact .inl hj
      · exact .inr ⟨hx, hj⟩
    · rintro (rfl | ⟨hx, -⟩)
      · exact hk.1
      · exact hx

/-- Clearing the bits below `m` keeps the set bits from `m` on. -/
theorem setBits_shift (x : BitVec w) (m : Nat) :
    setBits ((x >>> m) <<< m) = (setBits x).filter fun i => m ≤ i := by
  apply List.Pairwise.eq_of_mem_iff (pairwise_setBits _) ((pairwise_setBits x).filter _)
  intro i
  rw [mem_setBits, List.mem_filter, mem_setBits, decide_eq_true_iff, BitVec.getLsbD_shiftLeft,
    BitVec.getLsbD_ushiftRight]
  constructor
  · intro h
    rw [Bool.and_eq_true, Bool.and_eq_true, Bool.not_eq_true', decide_eq_false_iff_not] at h
    have hm : m ≤ i := Nat.le_of_not_lt h.1.2
    rw [Nat.add_sub_of_le hm] at h
    exact ⟨h.2, hm⟩
  · rintro ⟨hx, hm⟩
    have hw := BitVec.lt_of_getLsbD hx
    have hm' : ¬i < m := Nat.not_lt.2 hm
    rw [Nat.add_sub_of_le hm, decide_eq_true hw, decide_eq_false hm', hx]
    rfl

/-- In an increasing list the elements from `m` on are its end. -/
theorem filter_le_of_pairwise {l r : List Nat} {m : Nat}
    (h : (l ++ m :: r).Pairwise (· < ·)) : (l ++ m :: r).filter (fun i => m ≤ i) = m :: r := by
  obtain ⟨-, hr, hl⟩ := List.pairwise_append.1 h
  have hl' : l.filter (fun i => m ≤ i) = [] := by
    rw [List.filter_eq_nil_iff]
    intro a ha
    have := hl a ha m List.mem_cons_self
    rw [decide_eq_true_iff]
    omega
  have hr' : (m :: r).filter (fun i => m ≤ i) = m :: r := by
    rw [List.filter_eq_self]
    intro a ha
    rw [decide_eq_true_iff]
    obtain rfl | ha := List.mem_cons.1 ha
    · exact Nat.le_refl _
    · exact Nat.le_of_lt ((List.pairwise_cons.1 hr).1 a ha)
  rw [List.filter_append, hl', hr', List.nil_append]

/-- A circuit that finds the lowest set bit and gives the mask that clears it. -/
structure LowestBit (w : Nat) where
  nonzero : BitVec w → Bool
  index : BitVec w → Nat
  mask : BitVec w → BitVec w
  nonzero_iff : ∀ x, nonzero x = true ↔ ∃ i, x.getLsbD i = true
  isLeast : ∀ x, nonzero x = true → IsLeast {i | x.getLsbD i = true} (index x)
  mask_iff : ∀ x, nonzero x = true → ∀ j < w, ((mask x).getLsbD j = true ↔ j ≠ index x)

namespace LowestBit

variable (e : LowestBit w) {x : BitVec w}

/-- The input without the bit that was found. -/
def rest (x : BitVec w) : BitVec w := x &&& e.mask x

theorem setBits_of_nonzero (h : e.nonzero x = true) : setBits x = e.index x :: setBits (e.rest x) :=
  setBits_eq_cons (e.isLeast x h) (e.mask_iff x h)

theorem setBits_of_zero (h : e.nonzero x = false) : setBits x = [] := by
  rw [setBits_eq_nil, ← e.nonzero_iff, h]
  exact Bool.false_ne_true

theorem setBits_rest : setBits (e.rest x) = (setBits x).tail := by
  cases h : e.nonzero x with
  | true => rw [e.setBits_of_nonzero h, List.tail_cons]
  | false =>
    rw [e.setBits_of_zero h, List.tail_nil, setBits_eq_nil]
    rintro ⟨i, hi⟩
    unfold rest at hi
    rw [BitVec.getLsbD_and, Bool.and_eq_true] at hi
    have hx : e.nonzero x = true := (e.nonzero_iff x).2 ⟨i, hi.1⟩
    rw [h] at hx
    cases hx

/-- After `k` rounds the first `k` set bits are gone. -/
theorem setBits_iterate (x : BitVec w) (k : Nat) : setBits (e.rest^[k] x) = (setBits x).drop k := by
  induction k with
  | zero => rfl
  | succ k ih => rw [Function.iterate_succ_apply', setBits_rest, ih, List.tail_drop]

/-- Round `k` finds set bit `k`, and none once all have been found. -/
theorem getElem?_setBits (x : BitVec w) (k : Nat) :
    (setBits x)[k]? =
      if e.nonzero (e.rest^[k] x) then some (e.index (e.rest^[k] x)) else none := by
  have hhead : (setBits x)[k]? = (setBits (e.rest^[k] x)).head? := by
    rw [setBits_iterate, List.head?_drop]
  rw [hhead]
  cases h : e.nonzero (e.rest^[k] x) with
  | true => rw [e.setBits_of_nonzero h, List.head?_cons, if_pos rfl]
  | false => rw [e.setBits_of_zero h, List.head?_nil, if_neg Bool.false_ne_true]

end LowestBit

/-- The bit vector with the given bits. -/
def packBits : (n : Nat) → (Fin n → Bool) → BitVec n
  | 0, _ => 0#0
  | n + 1, f => (packBits n fun j => f j.castSucc).cons (f (Fin.last n))

theorem getLsbD_packBits {n : Nat} (f : Fin n → Bool) (j : Fin n) :
    (packBits n f).getLsbD j = f j := by
  induction n with
  | zero => exact j.elim0
  | succ n ih =>
    unfold packBits
    rw [BitVec.getLsbD_cons]
    cases j using Fin.lastCases with
    | last => rw [Fin.val_last, if_pos rfl]
    | cast j =>
      rw [Fin.val_castSucc, if_neg (Nat.ne_of_lt j.isLt)]
      exact ih (fun j => f j.castSucc) j

end Hw
