import Piton.Lib.MaskedWrite

/-! Slices of bit vectors: assignment to a slice, and reading a slice back. -/

namespace Hw

variable {n w : Nat}

/-- `f` with the slice from bit `lo` on replaced by `v`. -/
def setSlice (f : BitVec n) (lo : Nat) (v : BitVec w) : BitVec n :=
  maskedWrite f (v.setWidth n <<< lo) ((BitVec.allOnes w).setWidth n <<< lo)

theorem setSlice_getLsbD {f : BitVec n} {lo i : Nat} {v : BitVec w} (hn : lo + w ≤ n) :
    (setSlice f lo v).getLsbD i =
      if lo ≤ i ∧ i < lo + w then v.getLsbD (i - lo) else f.getLsbD i := by
  unfold setSlice
  rw [maskedWrite_getLsbD]
  by_cases hlo : lo ≤ i
  · by_cases hhi : i < lo + w
    · have hi : i < n := by omega
      have hw : i - lo < w := by omega
      simp [hlo, hhi, hi, hw, show ¬ i < lo by omega]
    · have hw : ¬ i - lo < w := by omega
      simp [hhi, hw]
  · simp [hlo, show i < lo by omega]

/-- Reading within an assigned slice. -/
theorem extractLsb'_setSlice_within {f : BitVec n} {lo s l : Nat} {v : BitVec w}
    (hn : lo + w ≤ n) (hs : lo ≤ s) (hl : s + l ≤ lo + w) :
    (setSlice f lo v).extractLsb' s l = v.extractLsb' (s - lo) l := by
  ext i hi
  rw [BitVec.getElem_extractLsb', BitVec.getElem_extractLsb', setSlice_getLsbD hn,
    if_pos (by omega), show s + i - lo = s - lo + i by omega]

/-- Reading apart from an assigned slice. -/
theorem extractLsb'_setSlice_apart {f : BitVec n} {lo s l : Nat} {v : BitVec w}
    (hn : lo + w ≤ n) (hs : s + l ≤ lo ∨ lo + w ≤ s) :
    (setSlice f lo v).extractLsb' s l = f.extractLsb' s l := by
  ext i hi
  rw [BitVec.getElem_extractLsb', BitVec.getElem_extractLsb', setSlice_getLsbD hn,
    if_neg (by omega)]

/-- A slice of a slice. -/
theorem extractLsb'_extractLsb'_add {f : BitVec n} {s l t k : Nat} (h : t + k ≤ l) :
    (f.extractLsb' s l).extractLsb' t k = f.extractLsb' (s + t) k := by
  ext i hi
  rw [BitVec.getElem_extractLsb', BitVec.getElem_extractLsb', BitVec.getLsbD_extractLsb',
    Nat.add_assoc]
  simp
  omega

end Hw
