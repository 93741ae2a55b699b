import Mathlib.Algebra.Group.Fin.Basic
import Mathlib.Algebra.GroupWithZero.Nat

/-! Rotating priority among `n` requesters: the first one after the current one. -/

namespace Hw

variable {n : Nat} [NeZero n]

/-- How far `a` is behind `c` in the rotation. -/
def distance (a c : Fin n) : Nat := (a - c).val

/-- The requesters other than `c` in the order of their priority. -/
def rotation (c : Fin n) : List (Fin n) :=
  (List.range (n - 1)).map fun b => c + Fin.ofNat n (b + 1)

theorem distance_pos {a c : Fin n} (h : a ≠ c) : 0 < distance a c := by
  rw [distance, Nat.pos_iff_ne_zero]
  intro h0
  exact h (sub_eq_zero.1 (Fin.ext h0))

/-- `a` is in the rotation at its distance. -/
theorem add_distance {a c : Fin n} (h : a ≠ c) :
    c + Fin.ofNat n (distance a c - 1 + 1) = a := by
  have hofNat : Fin.ofNat n (distance a c - 1 + 1) = a - c := by
    rw [Nat.sub_add_cancel (distance_pos h)]
    exact Fin.ext (Nat.mod_eq_of_lt (a - c).isLt)
  rw [hofNat, add_sub_cancel]

theorem mem_rotation {a c : Fin n} (h : a ≠ c) : a ∈ rotation c := by
  have hpos := distance_pos h
  have hlt : distance a c < n := (a - c).isLt
  exact List.mem_map.2 ⟨distance a c - 1, List.mem_range.2 (by omega), add_distance h⟩

theorem exists_find_rotation {req : Fin n → Bool} {a c : Fin n} (ha : req a = true) (h : a ≠ c) :
    ∃ r, (rotation c).find? req = some r := by
  rw [← Option.isSome_iff_exists, List.find?_isSome]
  exact ⟨a, mem_rotation h, ha⟩

/-- While `a` requests, the first requester is closer to `a`. -/
theorem distance_find_lt {req : Fin n → Bool} {a c r : Fin n} (ha : req a = true) (h : a ≠ c)
    (hr : (rotation c).find? req = some r) : distance a r < distance a c := by
  rw [rotation, List.find?_map, Option.map_eq_some_iff] at hr
  obtain ⟨j, hj, rfl⟩ := hr
  rw [List.find?_range_eq_some] at hj
  obtain ⟨-, hjn, hbefore⟩ := hj
  have hjn := List.mem_range.1 hjn
  have hpos := distance_pos h
  have hle : j + 1 ≤ distance a c := by
    by_contra hgt
    have hk := hbefore (distance a c - 1) (by omega)
    simp only [Function.comp_apply, add_distance h, ha] at hk
    exact Bool.false_ne_true hk
  have hval : (Fin.ofNat n (j + 1)).val = j + 1 := Nat.mod_eq_of_lt (by omega)
  have hsub : Fin.ofNat n (j + 1) ≤ a - c := by
    rw [Fin.le_def, hval]
    exact hle
  have hnew : distance a (c + Fin.ofNat n (j + 1)) = distance a c - (j + 1) := by
    rw [distance, sub_add_eq_sub_sub, Fin.sub_val_of_le hsub, hval, distance]
  omega

end Hw
