import Mathlib.Data.Nat.Bitwise
import Mathlib.Logic.Function.Iterate

/-! Gray codes: the decoder, the one bit that counting changes, and what is read of a pointer while it
counts. -/

namespace Hw

variable {n : Nat}

/-- The Gray code of a number. -/
def toGray (b : BitVec n) : BitVec n := (b >>> 1) ^^^ b

/-- What `b = (b >> 1) ^ g` settles at. -/
def ofGray (g : BitVec n) : BitVec n := (fun b : BitVec n => (b >>> 1) ^^^ g)^[n] 0

@[simp] theorem toGray_zero : toGray (0 : BitVec n) = 0 := by
  simp [toGray]

theorem getLsbD_toGray (b : BitVec n) (i : Nat) :
    (toGray b).getLsbD i = (b.getLsbD (i + 1) ^^ b.getLsbD i) := by
  rw [toGray, BitVec.getLsbD_xor, BitVec.getLsbD_ushiftRight, Nat.add_comm 1 i]

theorem toGray_xor (a b : BitVec n) : toGray a ^^^ toGray b = toGray (a ^^^ b) := by
  apply BitVec.eq_of_getLsbD_eq
  intro i _
  simp only [BitVec.getLsbD_xor, getLsbD_toGray]
  cases a.getLsbD (i + 1) <;> cases a.getLsbD i <;> cases b.getLsbD (i + 1) <;> simp

/-- Each step gets one more bit right. -/
theorem iterate_xor (b : BitVec n) (k : Nat) :
    (fun x : BitVec n => (x >>> 1) ^^^ toGray b)^[k] 0 ^^^ b = b >>> k := by
  induction k with
  | zero => simp
  | succ k ih =>
    rw [Function.iterate_succ_apply', BitVec.shiftRight_add, ← ih, BitVec.ushiftRight_xor_distrib]
    apply BitVec.eq_of_getLsbD_eq
    intro i _
    simp only [BitVec.getLsbD_xor, toGray]
    cases b.getLsbD i <;> simp

@[simp] theorem ofGray_toGray (b : BitVec n) : ofGray (toGray b) = b := by
  have h := iterate_xor b n
  rw [BitVec.ushiftRight_eq_zero (Nat.le_refl n)] at h
  exact BitVec.xor_eq_zero_iff.1 h

theorem toGray_inj {a b : BitVec n} : toGray a = toGray b ↔ a = b := by
  constructor
  · intro h
    rw [← ofGray_toGray a, h, ofGray_toGray]
  · exact congrArg toGray

/-! ### Counting -/

/-- Counting flips the lowest bits. -/
theorem exists_xor_succ (b : Nat) : ∃ j, b ^^^ (b + 1) = 2 ^ (j + 1) - 1 := by
  induction b using Nat.strong_induction_on with
  | _ b ih =>
    obtain ⟨c, rfl | rfl⟩ : ∃ c, b = 2 * c ∨ b = 2 * c + 1 := ⟨b / 2, by omega⟩
    · refine ⟨0, ?_⟩
      have h := Nat.xor_bit false c true c
      simpa [Nat.bit_val] using h
    · obtain ⟨j, hj⟩ := ih c (by omega)
      refine ⟨j + 1, ?_⟩
      have h := Nat.xor_bit true c false (c + 1)
      rw [hj] at h
      have hpos : 0 < 2 ^ (j + 1) := Nat.two_pow_pos _
      simp only [Nat.bit_val, Bool.toNat_true, Bool.toNat_false, Nat.mul_add] at h
      rw [show 2 * c + 1 + 1 = 2 * c + 2 * 1 + 0 by omega, h, Nat.pow_succ 2 (j + 1)]
      simp
      omega

theorem getLsbD_xor_succ (b : BitVec n) :
    ∃ j, ∀ i, (b ^^^ (b + 1)).getLsbD i = decide (i < n ∧ i ≤ j) := by
  obtain ⟨j, hj⟩ := exists_xor_succ b.toNat
  refine ⟨j, fun i => ?_⟩
  have hsucc : b + 1 = BitVec.ofNat n (b.toNat + 1) := by
    apply BitVec.eq_of_toNat_eq
    simp [BitVec.toNat_add]
  have hb : b = BitVec.ofNat n b.toNat := by simp
  have hxor : b ^^^ (b + 1) = BitVec.ofNat n (2 ^ (j + 1) - 1) := by
    rw [hsucc, ← hj]
    apply BitVec.eq_of_getLsbD_eq
    intro i hi
    simp [hi, BitVec.getLsbD]
  rw [hxor, BitVec.getLsbD_ofNat, Nat.testBit_two_pow_sub_one, ← Bool.decide_and]
  simp only [decide_eq_decide]
  omega

/-- Counting changes one bit of the code. -/
theorem toGray_succ (b : BitVec n) : ∃ p, ∀ i, i ≠ p →
    (toGray b).getLsbD i = (toGray (b + 1)).getLsbD i := by
  obtain ⟨j, hj⟩ := getLsbD_xor_succ b
  refine ⟨min j (n - 1), fun i hi => ?_⟩
  have hbit : (toGray b ^^^ toGray (b + 1)).getLsbD i = false := by
    have hsame : decide (i + 1 < n ∧ i + 1 ≤ j) = decide (i < n ∧ i ≤ j) :=
      decide_eq_decide.2 (by omega)
    rw [toGray_xor, getLsbD_toGray, hj, hj, hsame, Bool.xor_self]
  rw [BitVec.getLsbD_xor] at hbit
  simpa using hbit

/-- The bits of a pointer that are read while it changes are old or new. -/
def blend (mask old new : BitVec n) : BitVec n := (old &&& ~~~mask) ||| (new &&& mask)

theorem getLsbD_blend (mask old new : BitVec n) (i : Nat) (hi : i < n) :
    (blend mask old new).getLsbD i = if mask.getLsbD i then new.getLsbD i else old.getLsbD i := by
  simp only [blend, BitVec.getLsbD_or, BitVec.getLsbD_and, BitVec.getLsbD_not, hi]
  cases mask.getLsbD i <;> simp

@[simp] theorem blend_self (mask b : BitVec n) : blend mask b b = b := by
  apply BitVec.eq_of_getLsbD_eq
  intro i hi
  rw [getLsbD_blend _ _ _ i hi]
  split <;> rfl

/-- What is read of a pointer that counts is the old value or the new one. -/
theorem blend_toGray (mask b : BitVec n) : blend mask (toGray b) (toGray (b + 1)) = toGray b ∨
    blend mask (toGray b) (toGray (b + 1)) = toGray (b + 1) := by
  obtain ⟨p, hp⟩ := toGray_succ b
  cases hm : mask.getLsbD p with
  | false =>
    left
    apply BitVec.eq_of_getLsbD_eq
    intro i hi
    rw [getLsbD_blend _ _ _ i hi]
    by_cases hip : i = p
    · rw [hip, hm, if_neg Bool.false_ne_true]
    · rw [hp i hip, ite_self]
  | true =>
    right
    apply BitVec.eq_of_getLsbD_eq
    intro i hi
    rw [getLsbD_blend _ _ _ i hi]
    by_cases hip : i = p
    · rw [hip, hm, if_pos rfl]
    · rw [hp i hip, ite_self]

/-! ### Pointers half a turn apart -/

/-- The two top bits differ and the others agree. -/
def halfTurn {k : Nat} (g g' : BitVec (k + 2)) : Bool :=
  g.getLsbD (k + 1) != g'.getLsbD (k + 1) && g.getLsbD k != g'.getLsbD k &&
    g.extractLsb' 0 k = g'.extractLsb' 0 k

theorem halfTurn_iff {k : Nat} (g g' : BitVec (k + 2)) :
    halfTurn g g' = true ↔ g ^^^ g' = toGray (BitVec.twoPow (k + 2) (k + 1)) := by
  have hbit : ∀ i, (toGray (BitVec.twoPow (k + 2) (k + 1))).getLsbD i = decide (i = k ∨ i = k + 1) := by
    intro i
    have hw : k + 1 < k + 2 := Nat.lt_succ_self _
    simp only [getLsbD_toGray, BitVec.getLsbD_twoPow, hw, decide_true, Bool.true_and]
    by_cases h : i = k
    · simp [h]
    · by_cases h' : i = k + 1
      · simp [h']
      · simp [h, h', Ne.symm h, Ne.symm h']
  unfold halfTurn
  simp only [Bool.and_eq_true, bne_iff_ne, decide_eq_true_iff, ne_eq]
  constructor
  · rintro ⟨⟨htop, hnext⟩, hlow⟩
    apply BitVec.eq_of_getLsbD_eq
    intro i hi
    rw [BitVec.getLsbD_xor, hbit]
    by_cases hik : i = k
    · subst hik
      simpa using hnext
    · by_cases hik' : i = k + 1
      · subst hik'
        simpa using htop
      · have hl := congrArg (fun x => BitVec.getLsbD x i) hlow
        have hlt : i < k := by omega
        simp only [BitVec.getLsbD_extractLsb', hlt, decide_true, Bool.true_and, Nat.zero_add] at hl
        simp [hl, hik, hik']
  · intro h
    have hi : ∀ i, (g.getLsbD i ^^ g'.getLsbD i) = decide (i = k ∨ i = k + 1) := fun i => by
      rw [← BitVec.getLsbD_xor, h, hbit]
    refine ⟨⟨?_, ?_⟩, ?_⟩
    · simpa using hi (k + 1)
    · simpa using hi k
    · apply BitVec.eq_of_getLsbD_eq
      intro i hik
      have hne : ¬ (i = k ∨ i = k + 1) := by omega
      have h' := hi i
      rw [decide_eq_false hne] at h'
      simpa [BitVec.getLsbD_extractLsb', hik] using h'

/-- Nothing is carried into the top bit. -/
theorem carry_twoPow (b : BitVec (n + 1)) (i : Nat) (hi : i ≤ n) :
    BitVec.carry i b (BitVec.twoPow (n + 1) n) false = false := by
  induction i with
  | zero => exact BitVec.carry_zero
  | succ i ih =>
    rw [BitVec.carry_succ, ih (by omega), BitVec.getLsbD_twoPow]
    simp [show n ≠ i by omega]

theorem add_twoPow (b : BitVec (n + 1)) :
    b + BitVec.twoPow (n + 1) n = b ^^^ BitVec.twoPow (n + 1) n := by
  apply BitVec.eq_of_getLsbD_eq
  intro i hi
  rw [BitVec.getLsbD_add hi, BitVec.getLsbD_xor, carry_twoPow b i (by omega), Bool.xor_false]

theorem halfTurn_toGray {k : Nat} (a b : BitVec (k + 2)) :
    halfTurn (toGray a) (toGray b) = true ↔ a = b + BitVec.twoPow (k + 2) (k + 1) := by
  rw [halfTurn_iff, toGray_xor, toGray_inj, add_twoPow]
  constructor
  · intro h
    rw [← h, BitVec.xor_comm a b, ← BitVec.xor_assoc, BitVec.xor_self, BitVec.zero_xor]
  · rintro rfl
    rw [BitVec.xor_comm, ← BitVec.xor_assoc, BitVec.xor_self, BitVec.zero_xor]

end Hw
