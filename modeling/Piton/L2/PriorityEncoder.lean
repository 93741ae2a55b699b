import Piton.Lib.SetBits

/-! `l2_priority_encoder` and `l15_priority_encoder`: the circuit that `gen_priority_encoder`
generates, one instance for each number of index bits. -/

namespace Piton.L2

open Hw

/-- The outputs of the encoder with `n` index bits. -/
structure PriorityOut (n : Nat) where
  dataOut : BitVec n
  dataOutMask : BitVec (2 ^ n)
  nonzeroOut : Bool

theorem two_pow_halves (n : Nat) : 2 ^ (n + 1) + 2 ^ (n + 1) = 2 ^ (n + 1 + 1) := by
  rw [Nat.pow_succ 2 (n + 1)]
  omega

/-- The outputs of an encoder for two halves of the input. -/
def PriorityOut.glue {n : Nat} (high low : PriorityOut (n + 1)) : PriorityOut (n + 1 + 1) where
  dataOut := (if low.nonzeroOut then 0#1 ++ low.dataOut else 1#1 ++ high.dataOut).cast
    (Nat.add_comm 1 (n + 1))
  dataOutMask :=
    (if low.nonzeroOut then BitVec.allOnes (2 ^ (n + 1)) ++ low.dataOutMask
      else high.dataOutMask ++ BitVec.allOnes (2 ^ (n + 1))).cast (two_pow_halves n)
  nonzeroOut := low.nonzeroOut || high.nonzeroOut

/-- `gen_priority_encoder(n + 1)`: the generator starts from one index bit and puts two encoders
for the halves of the input together. -/
def genPriorityEncoder : (n : Nat) → BitVec (2 ^ (n + 1)) → PriorityOut (n + 1)
  | 0, dataIn =>
    { dataOut := if dataIn.getLsbD 0 then 0#1 else 1#1
      dataOutMask := if dataIn.getLsbD 0 then 0b10#2 else 0b01#2
      nonzeroOut := dataIn != 0 }
  | n + 1, dataIn =>
    PriorityOut.glue
      (genPriorityEncoder n (dataIn.extractLsb' (2 ^ (n + 1)) (2 ^ (n + 1))))
      (genPriorityEncoder n (dataIn.extractLsb' 0 (2 ^ (n + 1))))

/-- What the outputs say about the input. -/
structure PriorityOut.Encodes {n : Nat} (o : PriorityOut n) (x : BitVec (2 ^ n)) : Prop where
  nonzeroOut_iff : o.nonzeroOut = true ↔ ∃ i, x.getLsbD i = true
  isLeast : o.nonzeroOut = true → IsLeast {i | x.getLsbD i = true} o.dataOut.toNat
  mask_iff : o.nonzeroOut = true →
    ∀ j < 2 ^ n, (o.dataOutMask.getLsbD j = true ↔ j ≠ o.dataOut.toNat)

namespace PriorityEncoder

variable {n : Nat} {x : BitVec (2 ^ (n + 1 + 1))}

/-- The low and the high half of the input. -/
def lowHalf (x : BitVec (2 ^ (n + 1 + 1))) : BitVec (2 ^ (n + 1)) := x.extractLsb' 0 (2 ^ (n + 1))

/-- The high half of a vector. -/
def highHalf (x : BitVec (2 ^ (n + 1 + 1))) : BitVec (2 ^ (n + 1)) :=
  x.extractLsb' (2 ^ (n + 1)) (2 ^ (n + 1))

theorem getLsbD_lowHalf (i : Nat) :
    (lowHalf x).getLsbD i = true ↔ i < 2 ^ (n + 1) ∧ x.getLsbD i = true := by
  unfold lowHalf
  rw [BitVec.getLsbD_extractLsb', Nat.zero_add, Bool.and_eq_true, decide_eq_true_iff]

theorem getLsbD_highHalf (i : Nat) :
    (highHalf x).getLsbD i = true ↔ x.getLsbD (2 ^ (n + 1) + i) = true := by
  unfold highHalf
  rw [BitVec.getLsbD_extractLsb', Bool.and_eq_true, decide_eq_true_iff]
  constructor
  · intro h
    exact h.2
  · intro h
    have hlt := BitVec.lt_of_getLsbD h
    have hpow := two_pow_halves n
    exact ⟨by omega, h⟩

/-- A set bit lies in one of the halves. -/
theorem exists_bit_iff : (∃ i, x.getLsbD i = true) ↔
    (∃ i, (lowHalf x).getLsbD i = true) ∨ ∃ i, (highHalf x).getLsbD i = true := by
  constructor
  · rintro ⟨i, hi⟩
    by_cases hlt : i < 2 ^ (n + 1)
    · exact .inl ⟨i, (getLsbD_lowHalf i).2 ⟨hlt, hi⟩⟩
    · refine .inr ⟨i - 2 ^ (n + 1), (getLsbD_highHalf _).2 ?_⟩
      rw [Nat.add_sub_of_le (by omega)]
      exact hi
  · rintro (⟨i, hi⟩ | ⟨i, hi⟩)
    · exact ⟨i, ((getLsbD_lowHalf i).1 hi).2⟩
    · exact ⟨_, (getLsbD_highHalf i).1 hi⟩

theorem toNat_zero_append {w : Nat} (y : BitVec w) : (0#1 ++ y).toNat = y.toNat := by
  rw [BitVec.toNat_append]
  simp

theorem toNat_one_append {w : Nat} (y : BitVec w) : (1#1 ++ y).toNat = 2 ^ w + y.toNat := by
  rw [BitVec.toNat_append, ← Nat.shiftLeft_add_eq_or_of_lt y.isLt]
  simp [Nat.shiftLeft_eq]

theorem isLeast_of_low {k : Nat} (h : IsLeast {i | (lowHalf x).getLsbD i = true} k) :
    IsLeast {i | x.getLsbD i = true} k := by
  obtain ⟨hk, hmin⟩ := h
  obtain ⟨hlt, hx⟩ := (getLsbD_lowHalf k).1 hk
  refine ⟨hx, fun i hi => ?_⟩
  by_cases hi' : i < 2 ^ (n + 1)
  · exact hmin ((getLsbD_lowHalf i).2 ⟨hi', hi⟩)
  · omega

theorem isLeast_of_high {k : Nat} (hlow : ¬∃ i, (lowHalf x).getLsbD i = true)
    (h : IsLeast {i | (highHalf x).getLsbD i = true} k) :
    IsLeast {i | x.getLsbD i = true} (2 ^ (n + 1) + k) := by
  obtain ⟨hk, hmin⟩ := h
  refine ⟨(getLsbD_highHalf k).1 hk, fun i hi => ?_⟩
  by_cases hi' : i < 2 ^ (n + 1)
  · exact absurd ⟨i, (getLsbD_lowHalf i).2 ⟨hi', hi⟩⟩ hlow
  · have hle : k ≤ i - 2 ^ (n + 1) := by
      apply hmin
      change (highHalf x).getLsbD _ = true
      rw [getLsbD_highHalf, Nat.add_sub_of_le (by omega)]
      exact hi
    omega

theorem encodes_one (x : BitVec (2 ^ (0 + 1))) : (genPriorityEncoder 0 x).Encodes x := by
  have hbits : ∀ i, x.getLsbD i = true → i = 0 ∨ i = 1 := by
    intro i hi
    have hlt : i < 2 ^ (0 + 1) := BitVec.lt_of_getLsbD hi
    omega
  have hnonzero : (x != 0) = true ↔ ∃ i, x.getLsbD i = true := by
    rw [bne_iff_ne]
    exact ne_zero_iff_exists_getLsbD
  cases h0 : x.getLsbD 0 with
  | true =>
    refine ⟨hnonzero, ?_, ?_⟩
    · intro _
      simp only [genPriorityEncoder, h0, if_true]
      exact ⟨h0, fun i _ => Nat.zero_le i⟩
    · intro _ j hj
      simp only [genPriorityEncoder, h0, if_true]
      obtain rfl | rfl : j = 0 ∨ j = 1 := by omega
      · decide
      · decide
  | false =>
    refine ⟨hnonzero, ?_, ?_⟩
    · intro hnz
      simp only [genPriorityEncoder, h0, if_neg Bool.false_ne_true]
      have hone : ∀ i, x.getLsbD i = true → i = 1 := by
        intro i hi
        obtain rfl | rfl := hbits i hi
        · rw [h0] at hi
          cases hi
        · rfl
      obtain ⟨i, hi⟩ := hnonzero.1 hnz
      obtain rfl := hone i hi
      exact ⟨hi, fun j hj => Nat.le_of_eq (hone j hj).symm⟩
    · intro _ j hj
      simp only [genPriorityEncoder, h0, if_neg Bool.false_ne_true]
      obtain rfl | rfl : j = 0 ∨ j = 1 := by omega
      · decide
      · decide

/-- The low half decides when it has a set bit, and the high half otherwise. -/
theorem encodes_glue {high low : PriorityOut (n + 1)} (hlow : low.Encodes (lowHalf x))
    (hhigh : high.Encodes (highHalf x)) : (PriorityOut.glue high low).Encodes x := by
  have hpow := two_pow_halves n
  have hnonzero : (PriorityOut.glue high low).nonzeroOut = true ↔ ∃ i, x.getLsbD i = true := by
    change (low.nonzeroOut || high.nonzeroOut) = true ↔ _
    rw [Bool.or_eq_true, hlow.nonzeroOut_iff, hhigh.nonzeroOut_iff, exists_bit_iff]
  cases hlo : low.nonzeroOut with
  | true =>
    have hout : (PriorityOut.glue high low).dataOut.toNat = low.dataOut.toNat := by
      simp only [PriorityOut.glue, hlo, if_true, BitVec.toNat_cast, toNat_zero_append]
    refine ⟨hnonzero, ?_, ?_⟩
    · intro _
      rw [hout]
      exact isLeast_of_low (hlow.isLeast hlo)
    · intro _ j hj
      rw [hout]
      simp only [PriorityOut.glue, hlo, if_true, BitVec.getLsbD_cast, BitVec.getLsbD_append]
      have hlt := low.dataOut.isLt
      by_cases hj' : j < 2 ^ (n + 1)
      · rw [if_pos hj']
        exact hlow.mask_iff hlo j hj'
      · rw [if_neg hj', BitVec.getLsbD_allOnes, decide_eq_true_iff]
        omega
  | false =>
    have hno : ¬∃ i, (lowHalf x).getLsbD i = true := by
      rw [← hlow.nonzeroOut_iff, hlo]
      exact Bool.false_ne_true
    have hnz : (PriorityOut.glue high low).nonzeroOut = high.nonzeroOut := by
      change (low.nonzeroOut || high.nonzeroOut) = _
      rw [hlo, Bool.false_or]
    have hout : (PriorityOut.glue high low).dataOut.toNat =
        2 ^ (n + 1) + high.dataOut.toNat := by
      simp only [PriorityOut.glue, hlo, if_neg Bool.false_ne_true, BitVec.toNat_cast,
        toNat_one_append]
    refine ⟨hnonzero, ?_, ?_⟩
    · intro h
      rw [hnz] at h
      rw [hout]
      exact isLeast_of_high hno (hhigh.isLeast h)
    · intro h j hj
      rw [hnz] at h
      rw [hout]
      simp only [PriorityOut.glue, hlo, if_neg Bool.false_ne_true, BitVec.getLsbD_cast,
        BitVec.getLsbD_append]
      by_cases hj' : j < 2 ^ (n + 1)
      · rw [if_pos hj', BitVec.getLsbD_allOnes, decide_eq_true_iff]
        omega
      · rw [if_neg hj', hhigh.mask_iff h (j - 2 ^ (n + 1)) (by omega)]
        omega

theorem encodes (n : Nat) (x : BitVec (2 ^ (n + 1))) : (genPriorityEncoder n x).Encodes x := by
  induction n with
  | zero => exact encodes_one x
  | succ n ih => exact encodes_glue (ih (lowHalf x)) (ih (highHalf x))

/-- The encoder as a selector of the lowest set bit. -/
def lowestBit (n : Nat) : LowestBit (2 ^ (n + 1)) where
  nonzero x := (genPriorityEncoder n x).nonzeroOut
  index x := (genPriorityEncoder n x).dataOut.toNat
  mask x := (genPriorityEncoder n x).dataOutMask
  nonzero_iff x := (encodes n x).nonzeroOut_iff
  isLeast x := (encodes n x).isLeast
  mask_iff x := (encodes n x).mask_iff

end PriorityEncoder

/-- The input that is left after `k` rounds of taking `data_out` and masking it out. -/
def remaining (n : Nat) (x : BitVec (2 ^ (n + 1))) (k : Nat) : BitVec (2 ^ (n + 1)) :=
  (fun y => y &&& (genPriorityEncoder n y).dataOutMask)^[k] x

/-- Round `k` finds the set bit number `k` in increasing order, and from the number of set bits on
`nonzero_out` is 0. -/
def Enumerates (n : Nat) (x : BitVec (2 ^ (n + 1))) : Prop :=
  (setBits x).Pairwise (· < ·) ∧ (∀ i, i ∈ setBits x ↔ x.getLsbD i = true) ∧
  ∀ k, (setBits x)[k]? =
    if (genPriorityEncoder n (remaining n x k)).nonzeroOut then
      some (genPriorityEncoder n (remaining n x k)).dataOut.toNat
    else none

theorem enumerates (n : Nat) (x : BitVec (2 ^ (n + 1))) : Enumerates n x :=
  ⟨pairwise_setBits x, fun _ => mem_setBits, (PriorityEncoder.lowestBit n).getElem?_setBits x⟩

end Piton.L2
