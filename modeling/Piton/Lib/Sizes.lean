import Mathlib.Algebra.GroupWithZero.Nat

/-! The sizes of small arrays are not zero. -/

namespace Hw

instance neZero_two : NeZero 2 := ⟨by decide⟩

instance neZero_four : NeZero 4 := ⟨by decide⟩

instance neZero_eight : NeZero 8 := ⟨by decide⟩

instance neZero_sixteen : NeZero 16 := ⟨by decide⟩

end Hw
