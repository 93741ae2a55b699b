import Mathlib.Logic.Function.Basic

/-! Masked writes of bit vectors: the bits under the mask come from the new value and the others
keep the old one. A mask with one bit for a group of `k` bits is spread over the groups. -/

namespace Hw

variable {w : Nat}

/-- `old` with the bits of `din` written under the mask `bw`. -/
def maskedWrite (old din bw : BitVec w) : BitVec w := (din &&& bw) ||| (old &&& ~~~bw)

theorem maskedWrite_getLsbD (old din bw : BitVec w) (i : Nat) :
    (maskedWrite old din bw).getLsbD i =
      if bw.getLsbD i then din.getLsbD i else old.getLsbD i := by
  by_cases hi : i < w
  · simp only [maskedWrite, BitVec.getLsbD_or, BitVec.getLsbD_and, BitVec.getLsbD_not, hi,
      decide_true, Bool.true_and]
    cases bw.getLsbD i <;> simp
  · have hw : w ≤ i := by omega
    simp [BitVec.getLsbD_of_ge, hw]

@[simp] theorem maskedWrite_allOnes (old din : BitVec w) :
    maskedWrite old din (BitVec.allOnes w) = din := by
  simp [maskedWrite]

@[simp] theorem maskedWrite_zero (old din : BitVec w) : maskedWrite old din 0#w = old := by
  simp [maskedWrite]

/-- The mask of `k * n` bits whose group `i` of `k` bits is bit `i` of `m`. -/
def spreadMask (k : Nat) : (n : Nat) → BitVec n → BitVec (k * n)
  | 0, _ => 0#_
  | n + 1, m =>
    spreadMask k n (m.extractLsb' 1 n) ++ (if m.getLsbD 0 then BitVec.allOnes k else 0#k)

theorem spreadMask_getLsbD {k : Nat} (hk : 0 < k) (n : Nat) (m : BitVec n) (i : Nat) :
    (spreadMask k n m).getLsbD i = m.getLsbD (i / k) := by
  induction n generalizing i with
  | zero => simp [BitVec.of_length_zero]
  | succ n ih =>
    rw [spreadMask, BitVec.getLsbD_append]
    by_cases hi : i < k
    · have hdiv : i / k = 0 := Nat.div_eq_of_lt hi
      rw [hdiv]
      cases m.getLsbD 0 <;> simp [hi]
    · have hdiv : i / k = (i - k) / k + 1 := by
        rw [Nat.div_eq_sub_div hk (by omega)]
      simp only [hi, if_false]
      rw [ih, BitVec.getLsbD_extractLsb', hdiv, Nat.add_comm 1]
      by_cases hn : (i - k) / k < n
      · simp [hn]
      · simp only [hn, decide_false, Bool.false_and]
        exact (BitVec.getLsbD_of_ge m _ (by omega)).symm

end Hw
