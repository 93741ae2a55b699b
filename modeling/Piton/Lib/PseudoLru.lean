import Mathlib.Algebra.GroupWithZero.Nat
import Mathlib.Logic.Function.Basic

/-! Replacement by used bits: an access marks its way, and when all ways are marked the marks start
again; a pointer goes round with the fills. -/

namespace Hw

/-- The replacement state of a set of `n` ways. -/
structure PseudoLru (n : Nat) where
  used : Fin n → Bool
  turn : Fin n

/-- What happens to a way of a set. -/
inductive WayEvent (n : Nat) where
  | access (w : Fin n)
  | fill (w : Fin n)
  | invalidate (w : Fin n)
  deriving DecidableEq, Repr

namespace PseudoLru

variable {n : Nat} [NeZero n] (r : PseudoLru n)

/-- No way is used. -/
def empty : PseudoLru n := ⟨fun _ => false, 0⟩

/-- The state after an event. -/
def apply : WayEvent n → PseudoLru n
  | .access w =>
    let marked := Function.update r.used w true
    { r with used := if ∀ v, marked v = true then fun _ => false else marked }
  | .fill w => { used := Function.update r.used w true, turn := r.turn + 1 }
  | .invalidate w => { r with used := Function.update r.used w false }

theorem apply_access (w : Fin n) :
    r.apply (.access w) =
      { r with
        used := if ∀ v, Function.update r.used w true v = true then fun _ => false
          else Function.update r.used w true } := rfl

theorem apply_invalidate (w : Fin n) :
    r.apply (.invalidate w) = { r with used := Function.update r.used w false } := rfl

/-- A way is invalidated once. -/
theorem invalidate_idem (w : Fin n) :
    (r.apply (.invalidate w)).apply (.invalidate w) = r.apply (.invalidate w) := by
  rw [apply_invalidate, apply_invalidate, Function.update_idem]

end PseudoLru

end Hw
