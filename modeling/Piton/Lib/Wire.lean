import Mathlib.Tactic.Common

/-! Wires that bring a value to their other end after a fixed number of clock edges. -/

namespace Hw

variable {α : Type} {d : Nat}

/-- A wire of `d` registers, the oldest value first. -/
structure Wire (d : Nat) (α : Type) where
  cells : List α
  length_eq : cells.length = d

namespace Wire

variable (w : Wire d α) (x : α) (p : α → Bool)

/-- The value at the far end while `x` is at the near end. -/
def out : α := (w.cells ++ [x]).head (by simp)

/-- One clock edge. -/
def step : Wire d α where
  cells := (w.cells ++ [x]).tail
  length_eq := by simp [w.length_eq]

/-- A wire that carries one value. -/
def still (d : Nat) (x : α) : Wire d α := ⟨List.replicate d x, List.length_replicate⟩

/-- The values under way that satisfy `p`. -/
def load : Nat := w.cells.countP p

theorem out_cons_step : w.out x :: (w.step x).cells = w.cells ++ [x] :=
  List.cons_head_tail _

theorem load_still (h : p x = false) : (still d x).load p = 0 := by
  rw [load, List.countP_eq_zero]
  intro y hy
  rw [List.eq_of_mem_replicate hy, h]
  exact Bool.false_ne_true

/-- What enters at the near end is under way until it leaves at the far end. -/
theorem load_step : (w.step x).load p + (p (w.out x)).toNat = w.load p + (p x).toNat := by
  have h := congrArg (List.countP p) (w.out_cons_step x)
  rw [List.countP_cons, List.countP_append, List.countP_singleton] at h
  rw [load, load]
  cases hx : p x <;> cases hp : p (w.out x) <;> simpa [hx, hp] using h

/-- A value that leaves a wire was under way or has just entered. -/
theorem out_le (h : p (w.out x) = true) : 1 ≤ w.load p + (p x).toNat := by
  have := w.load_step x p
  rw [h] at this
  exact Nat.le_trans (Nat.le_add_left _ _) (Nat.le_of_eq this)

end Wire

end Hw
