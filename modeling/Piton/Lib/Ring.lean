import Mathlib.Algebra.BigOperators.Fin
import Mathlib.Algebra.Group.Fin.Basic
import Mathlib.Algebra.Order.BigOperators.Group.Finset
import Mathlib.Data.Fintype.Card

/-! Ring buffers: slots with a full bit each, a write and a read index. A ring holds a list when its
full slots are, from the read index on, the elements of the list. -/

namespace Hw

variable {α : Type} {n : Nat}

/-- A ring of `n` slots. -/
structure Ring (n : Nat) (α : Type) where
  slot : Fin n → α
  full : Fin n → Bool
  wr : Fin n
  rd : Fin n

namespace Ring

/-- Store an element at the write index. -/
def push [NeZero n] (r : Ring n α) (x : α) : Ring n α where
  slot := Function.update r.slot r.wr x
  full := Function.update r.full r.wr true
  wr := r.wr + 1
  rd := r.rd

/-- Free the slot at the read index. -/
def pop [NeZero n] (r : Ring n α) : Ring n α where
  slot := r.slot
  full := Function.update r.full r.rd false
  wr := r.wr
  rd := r.rd + 1

/-- The slot `k` places after the read index. -/
def pos [NeZero n] (r : Ring n α) (k : Nat) : Fin n := r.rd + Fin.ofNat n k

/-- The sum of `f` over the full slots. -/
def weight (r : Ring n α) (f : α → Nat) : Nat := ∑ i, if r.full i then f (r.slot i) else 0

/-- The ring holds the list `q`. -/
structure Holds [NeZero n] (r : Ring n α) (q : List α) : Prop where
  length_le : q.length ≤ n
  wr_eq : r.wr = r.pos q.length
  full_pos : ∀ k < n, r.full (r.pos k) = decide (k < q.length)
  slot_pos : ∀ (k : Nat) (h : k < q.length), r.slot (r.pos k) = q[k]

/-- An element in a full slot counts. -/
theorem le_weight (r : Ring n α) (f : α → Nat) {i : Fin n} (h : r.full i = true) :
    f (r.slot i) ≤ r.weight f := by
  have hi := Finset.single_le_sum (f := fun i => if r.full i then f (r.slot i) else 0)
    (fun j _ => Nat.zero_le _) (Finset.mem_univ i)
  rw [if_pos h] at hi
  exact hi

/-- An empty ring weighs nothing. -/
theorem weight_eq_zero {r : Ring n α} (h : ∀ i, r.full i = false) (f : α → Nat) :
    r.weight f = 0 := by
  unfold weight
  refine Finset.sum_eq_zero fun i _ => ?_
  rw [h i, if_neg Bool.false_ne_true]

section Lemmas

variable [NeZero n] {r : Ring n α} {q : List α} {x : α}

theorem pos_zero (r : Ring n α) : r.pos 0 = r.rd := by
  unfold pos
  rw [Fin.ofNat_zero, add_zero]

theorem pos_succ (r : Ring n α) (k : Nat) : r.pos (k + 1) = r.pos k + 1 := by
  unfold pos
  rw [add_assoc]
  congr 1
  ext
  simp [Fin.val_add, Nat.add_mod]

theorem pos_inj (r : Ring n α) {j k : Nat} (hj : j < n) (hk : k < n) (h : r.pos j = r.pos k) :
    j = k := by
  have hofNat : Fin.ofNat n j = Fin.ofNat n k := add_left_cancel h
  have hval := congrArg Fin.val hofNat
  simpa [Nat.mod_eq_of_lt hj, Nat.mod_eq_of_lt hk] using hval

/-- Every slot is some number of places after the read index. -/
theorem exists_pos (r : Ring n α) (i : Fin n) : ∃ k < n, r.pos k = i := by
  refine ⟨(i - r.rd).val, (i - r.rd).isLt, ?_⟩
  unfold pos
  rw [Fin.ofNat_val_eq_self, add_sub_cancel]

theorem pos_push (r : Ring n α) (x : α) (k : Nat) : (r.push x).pos k = r.pos k := rfl

theorem pos_pop (r : Ring n α) (k : Nat) : r.pop.pos k = r.pos (k + 1) := by
  rw [pos_succ]
  show r.rd + 1 + _ = r.rd + _ + 1
  rw [add_right_comm]

/-- A ring that is not full has a free slot at the write index. -/
theorem Holds.full_wr (h : r.Holds q) (hq : q.length < n) : r.full r.wr = false := by
  rw [h.wr_eq, h.full_pos q.length hq]
  exact decide_eq_false (lt_irrefl _)

/-- The slot at the read index is full unless the list is empty. -/
theorem Holds.full_rd (h : r.Holds q) : r.full r.rd = decide (0 < q.length) := by
  rw [← pos_zero r]
  exact h.full_pos 0 (Nat.pos_of_ne_zero (NeZero.ne n))

/-- The slot at the read index holds the first element. -/
theorem Holds.slot_rd (h : r.Holds (x :: q)) : r.slot r.rd = x := by
  rw [← pos_zero r]
  exact h.slot_pos 0 (Nat.succ_pos _)

theorem Holds.push (h : r.Holds q) (hq : q.length < n) (x : α) : (r.push x).Holds (q ++ [x]) := by
  have hlen : (q ++ [x]).length = q.length + 1 := List.length_append
  refine ⟨by omega, ?_, fun k hk => ?_, fun k hk => ?_⟩
  · rw [hlen, pos_push, pos_succ, ← h.wr_eq]
    rfl
  · rw [pos_push, hlen]
    show Function.update r.full r.wr true (r.pos k) = _
    rw [h.wr_eq]
    by_cases hkq : k = q.length
    · subst hkq
      rw [Function.update_self, decide_eq_true (Nat.lt_succ_self _)]
    · have hne : r.pos k ≠ r.pos q.length := fun he => hkq (r.pos_inj hk hq he)
      rw [Function.update_of_ne hne, h.full_pos k hk]
      exact decide_eq_decide.2 (by omega)
  · rw [pos_push]
    show Function.update r.slot r.wr x (r.pos k) = _
    rw [h.wr_eq]
    by_cases hkq : k = q.length
    · subst hkq
      rw [Function.update_self, List.getElem_concat_length rfl]
    · have hlt : k < q.length := by omega
      have hne : r.pos k ≠ r.pos q.length := fun he => hkq (r.pos_inj (by omega) hq he)
      rw [Function.update_of_ne hne, h.slot_pos k hlt, List.getElem_append_left hlt]

theorem Holds.pop (h : r.Holds (x :: q)) : r.pop.Holds q := by
  have hlen : (x :: q).length = q.length + 1 := List.length_cons
  have hle : q.length + 1 ≤ n := by
    rw [← hlen]
    exact h.length_le
  refine ⟨by omega, ?_, fun k hk => ?_, fun k hk => ?_⟩
  · rw [pos_pop, ← hlen, ← h.wr_eq]
    rfl
  · rw [pos_pop]
    show Function.update r.full r.rd false (r.pos (k + 1)) = _
    rw [← pos_zero r]
    by_cases hkn : k + 1 = n
    · have hround : r.pos (k + 1) = r.pos 0 := by
        unfold pos
        rw [hkn]
        congr 1
        ext
        simp
      rw [hround, Function.update_self]
      exact (decide_eq_false (by omega)).symm
    · have hne : r.pos (k + 1) ≠ r.pos 0 :=
        fun he => Nat.succ_ne_zero k (r.pos_inj (by omega) (by omega) he)
      rw [Function.update_of_ne hne, h.full_pos (k + 1) (by omega)]
      exact decide_eq_decide.2 (by omega)
  · rw [pos_pop]
    show r.slot (r.pos (k + 1)) = _
    rw [h.slot_pos (k + 1) (by omega)]
    rfl

/-- The element in a full slot is in the list. -/
theorem Holds.mem_of_full (h : r.Holds q) {i : Fin n} (hi : r.full i = true) : r.slot i ∈ q := by
  obtain ⟨k, hk, rfl⟩ := r.exists_pos i
  rw [h.full_pos k hk, decide_eq_true_eq] at hi
  rw [h.slot_pos k hi]
  exact List.getElem_mem hi

/-- Storing an element in a free slot adds its weight. -/
theorem weight_push (r : Ring n α) (f : α → Nat) (x : α) (h : r.full r.wr = false) :
    (r.push x).weight f = r.weight f + f x := by
  unfold weight Ring.push
  rw [← Finset.add_sum_erase _ _ (Finset.mem_univ r.wr),
    ← Finset.add_sum_erase _ (fun i => if r.full i then f (r.slot i) else 0)
      (Finset.mem_univ r.wr)]
  have hrest : ∀ i ∈ Finset.univ.erase r.wr,
      (if Function.update r.full r.wr true i then f (Function.update r.slot r.wr x i) else 0) =
        if r.full i then f (r.slot i) else 0 := by
    intro i hi
    have hne := Finset.ne_of_mem_erase hi
    rw [Function.update_of_ne hne, Function.update_of_ne hne]
  rw [Finset.sum_congr rfl hrest]
  simp [h, Nat.add_comm]

/-- Storing an element adds at most its weight, also where it overwrites another. -/
theorem weight_push_le (r : Ring n α) (f : α → Nat) (x : α) :
    (r.push x).weight f ≤ r.weight f + f x := by
  cases h : r.full r.wr with
  | false => exact (r.weight_push f x h).le
  | true =>
    let r' : Ring n α := { r with full := Function.update r.full r.wr false }
    have hsame : r.push x = r'.push x := by
      unfold Ring.push
      simp [r']
    have hless : r'.weight f ≤ r.weight f := by
      refine Finset.sum_le_sum fun i _ => ?_
      by_cases hi : i = r.wr
      · simp [r', hi]
      · simp [r', Function.update_of_ne hi]
    rw [hsame, r'.weight_push f x (Function.update_self _ _ _)]
    exact Nat.add_le_add_right hless _

/-- Freeing a full slot takes its weight away. -/
theorem weight_pop (r : Ring n α) (f : α → Nat) (h : r.full r.rd = true) :
    r.pop.weight f + f (r.slot r.rd) = r.weight f := by
  unfold weight Ring.pop
  rw [← Finset.add_sum_erase _ _ (Finset.mem_univ r.rd),
    ← Finset.add_sum_erase _ (fun i => if r.full i then f (r.slot i) else 0)
      (Finset.mem_univ r.rd)]
  have hrest : ∀ i ∈ Finset.univ.erase r.rd,
      (if Function.update r.full r.rd false i then f (r.slot i) else 0) =
        if r.full i then f (r.slot i) else 0 := by
    intro i hi
    rw [Function.update_of_ne (Finset.ne_of_mem_erase hi)]
  rw [Finset.sum_congr rfl hrest]
  simp [h, Nat.add_comm]

/-- The weight of a ring is that of the list it holds. -/
theorem Holds.weight_eq (h : r.Holds q) (f : α → Nat) : r.weight f = (q.map f).sum := by
  induction q generalizing r with
  | nil =>
    refine weight_eq_zero (fun i => ?_) f
    obtain ⟨k, hk, rfl⟩ := r.exists_pos i
    exact h.full_pos k hk
  | cons x q ih =>
    rw [List.map_cons, List.sum_cons, ← ih h.pop, ← h.slot_rd, Nat.add_comm]
    exact (r.weight_pop f h.full_rd).symm

end Lemmas

end Ring

end Hw
