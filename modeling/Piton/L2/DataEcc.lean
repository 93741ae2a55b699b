import Mathlib.Algebra.Group.Nat.Defs
import Piton.Lib.Parity

/-! The error correction of the L2 data array: the parity generator `l2_data_pgen` and the checker
`l2_data_ecc`, a Hamming code over positions 1 to 71 with one more parity bit. -/

namespace Piton.L2

open Hw

/-! ### The generated index arithmetic -/

/-- The positions of the code, `xrange(1, 72)`. -/
def positions : List Nat := List.range' 1 71

/-- The data bit at a position that is not a power of two. -/
def dataBit (j : Nat) : Nat := j - 2 - j.log2

/-- The positions that parity bit `i` covers, itself apart. -/
def covered (i : Nat) : List Nat := positions.filter fun j => j ≠ 2 ^ i ∧ j / 2 ^ i % 2 = 1

/-- `dcount[i][n]`: how often parity bit `i` covers data bit `n`. -/
def dcount (i n : Nat) : Nat := (covered i).countP fun j => dataBit j = n

/-! ### l2_data_pgen -/

/-- The parity of the data at the positions of parity bit `i`. -/
def dataParity (i : Nat) (din : BitVec 64) : Bool :=
  xorAll (fun j => din.getLsbD (dataBit j)) (covered i)

/-- The data bits that an even number of parity bits covers. -/
def evenBits : List Nat :=
  (List.range 64).filter fun n => ((List.range 7).map fun i => dcount i n).sum % 2 = 0

/-- The parity bits of a data word: seven of the Hamming code, and one over the bits that make the
parity of the whole word even. -/
def l2DataPgen (din : BitVec 64) : BitVec 8 :=
  ofBits (fun i => if i < 7 then dataParity i din else xorAll (fun n => din.getLsbD n) evenBits) 8

/-! ### l2_data_ecc -/

/-- Parity bit `i` disagrees with the data. -/
def cflag (din : BitVec 64) (parity : BitVec 8) (i : Nat) : Bool :=
  parity.getLsbD i ^^ dataParity i din

/-- The data bits that `cflag[0]` does not have. -/
def otherBits : List Nat := (List.range 64).filter fun n => dcount 0 n = 0

/-- The parity of the whole word is odd, as far as the checker reads it: it takes parity bits 0 to
6 and not bit 7. -/
def pflag (din : BitVec 64) (parity : BitVec 8) : Bool :=
  cflag din parity 0 ^^ (xorAll (fun m => parity.getLsbD m) (List.range' 1 6) ^^
    xorAll (fun n => din.getLsbD n) otherBits)

/-- The data bit whose position the seven flags spell out. -/
def errBitPos (din : BitVec 64) (parity : BitVec 8) : BitVec 64 :=
  ofBits (fun n => (List.range 7).all fun m =>
    if dcount m n = 1 then cflag din parity m else !cflag din parity m) 64

/-- The outputs of `l2_data_ecc`. -/
structure EccOut where
  dout : BitVec 64
  corrError : Bool
  uncorrError : Bool
  deriving DecidableEq

/-- The corrected word, and whether an error was corrected or cannot be. -/
def l2DataEcc (din : BitVec 64) (parity : BitVec 8) : EccOut where
  dout := din ^^^ errBitPos din parity
  corrError := pflag din parity
  uncorrError := (List.range 7).any (cflag din parity) && !pflag din parity

/-! ### Flipped bits -/

/-- A bit of a stored word: a data bit or a parity bit. -/
abbrev Bit := Fin 64 ⊕ Fin 8

/-- The word with one bit. -/
def unit : Bit → BitVec 64 × BitVec 8
  | .inl n => (BitVec.twoPow 64 n, 0)
  | .inr m => (0, BitVec.twoPow 8 m)

/-- The stored word with a bit flipped. -/
def flip (b : Bit) (w : BitVec 64 × BitVec 8) : BitVec 64 × BitVec 8 :=
  (w.1 ^^^ (unit b).1, w.2 ^^^ (unit b).2)

/-- At most two bits are flipped. -/
inductive Flips where
  | none
  | one (b : Bit)
  | two (b b' : Bit) (distinct : b ≠ b')

/-- The word that is read when `d` was written. -/
def Flips.read (d : BitVec 64) : Flips → BitVec 64 × BitVec 8
  | .none => (d, l2DataPgen d)
  | .one b => flip b (d, l2DataPgen d)
  | .two b b' _ => flip b (flip b' (d, l2DataPgen d))

/-- The checker's answer for a word that was written as `d`: correct the data and tell one flipped
bit, and tell two. -/
def Flips.Answered (d : BitVec 64) (o : EccOut) : Flips → Prop
  | .none => o.dout = d ∧ o.corrError = false ∧ o.uncorrError = false
  | .one _ => o.dout = d ∧ o.corrError = true ∧ o.uncorrError = false
  | .two _ _ _ => o.uncorrError = true ∧ o.corrError = false

/-- Single errors are corrected and double errors detected. -/
def Secded (d : BitVec 64) (e : Flips) : Prop :=
  e.Answered d (l2DataEcc (e.read d).1 (e.read d).2)

/-! ### The code is linear -/

theorem dataParity_additive (i : Nat) : Additive (dataParity i) :=
  Additive.all fun j => Additive.bit (dataBit j)

theorem cflag_xor (x y : BitVec 64) (q r : BitVec 8) (i : Nat) :
    cflag (x ^^^ y) (q ^^^ r) i = (cflag x q i ^^ cflag y r i) := by
  rw [cflag, cflag, cflag, dataParity_additive, BitVec.getLsbD_xor]
  cases q.getLsbD i <;> cases r.getLsbD i <;> simp

theorem pflag_xor (x y : BitVec 64) (q r : BitVec 8) :
    pflag (x ^^^ y) (q ^^^ r) = (pflag x q ^^ pflag y r) := by
  have hq : Additive fun q : BitVec 8 => xorAll (fun m => q.getLsbD m) (List.range' 1 6) :=
    Additive.all Additive.bit
  have hx : Additive fun x : BitVec 64 => xorAll (fun n => x.getLsbD n) otherBits :=
    Additive.all Additive.bit
  simp only [pflag, cflag_xor, hq q r, hx x y]
  cases cflag x q 0 <;> cases cflag y r 0 <;> simp [Bool.xor_left_comm]

/-- The syndrome of a word. -/
def syndrome (w : BitVec 64 × BitVec 8) : BitVec 7 := ofBits (cflag w.1 w.2) 7

/-- The column of a bit in the check matrix. -/
def column (b : Bit) : BitVec 7 := syndrome (unit b)

theorem syndrome_flip (b : Bit) (w : BitVec 64 × BitVec 8) :
    syndrome (flip b w) = syndrome w ^^^ column b := by
  rw [column, syndrome, syndrome, syndrome, ← ofBits_xor]
  congr 1
  funext i
  exact cflag_xor _ _ _ _ _

theorem cflag_pgen (d : BitVec 64) {i : Nat} (hi : i < 7) : cflag d (l2DataPgen d) i = false := by
  rw [cflag, l2DataPgen, getLsbD_ofBits, if_pos hi, decide_eq_true (Nat.lt_succ_of_lt hi),
    Bool.true_and, Bool.xor_self]

theorem syndrome_pgen (d : BitVec 64) : syndrome (d, l2DataPgen d) = 0#7 := by
  have hzero : syndrome (d, l2DataPgen d) = ofBits (fun _ => false) 7 :=
    ofBits_eq_iff.2 fun i hi => cflag_pgen d hi
  rw [hzero]
  rfl

theorem pgen_xor (x y : BitVec 64) : l2DataPgen (x ^^^ y) = l2DataPgen x ^^^ l2DataPgen y := by
  have heven : Additive fun d : BitVec 64 => xorAll (fun n => d.getLsbD n) evenBits :=
    Additive.all Additive.bit
  rw [l2DataPgen, l2DataPgen, l2DataPgen, ← ofBits_xor]
  congr 1
  funext i
  split
  · exact dataParity_additive i x y
  · exact heven x y

/-! ### The check matrix -/

/-- The positions of the data bits, and then of the parity bits; the last one has none. -/
def bitPositions : List Nat :=
  (positions.filter fun j => j ≠ 2 ^ j.log2) ++ [1, 2, 4, 8, 16, 32, 64, 0]

/-- The position of a bit in the code word. -/
def position : Bit → Nat
  | .inl n => bitPositions.getD n 0
  | .inr m => bitPositions.getD (64 + m) 0

theorem length_bitPositions : bitPositions.length = 72 := by
  decide +kernel

theorem nodup_bitPositions : bitPositions.Nodup := by
  decide +kernel

/-- Parity bit `i` covers the data bits with bit `i` in their position. -/
theorem dcount_eq : ∀ (i : Fin 7) (n : Fin 64), dcount i n = position (.inl n) / 2 ^ i.val % 2 := by
  decide +kernel

theorem position_injective {b b' : Bit} (h : position b = position b') : b = b' := by
  have hget : ∀ i < 72, ∀ j < 72, bitPositions.getD i 0 = bitPositions.getD j 0 → i = j := by
    intro i hi j hj hij
    rw [← length_bitPositions] at hi hj
    rw [List.getD_eq_getElem?_getD, List.getD_eq_getElem?_getD, List.getElem?_eq_getElem hi,
      List.getElem?_eq_getElem hj] at hij
    exact nodup_bitPositions.getElem_inj_iff.1 hij
  cases b with
  | inl n =>
    cases b' with
    | inl n' => exact congrArg Sum.inl (Fin.ext (hget n (by omega) n' (by omega) h))
    | inr m =>
      have := hget n (by omega) (64 + m) (by omega) h
      omega
  | inr m =>
    cases b' with
    | inl n =>
      have := hget (64 + m) (by omega) n (by omega) h
      omega
    | inr m' =>
      have := hget (64 + m) (by omega) (64 + m') (by omega) h
      exact congrArg Sum.inr (Fin.ext (by omega))

theorem position_lt : ∀ b : Fin 72, bitPositions.getD b 0 < 128 := by
  decide +kernel

theorem position_parity : ∀ (m : Fin 8) (i : Fin 7),
    position (.inr m) / 2 ^ i.val % 2 = if i.val = m.val then 1 else 0 := by
  decide

/-- A check bit of a word with one data bit. -/
theorem dataParity_twoPow (n : Fin 64) {i : Nat} (hi : i < 7) :
    dataParity i (BitVec.twoPow 64 n) = decide (dcount i n = 1) := by
  have hd : dataParity i (BitVec.twoPow 64 n) = decide (dcount i n % 2 = 1) :=
    xorAll_twoPow n.isLt dataBit (covered i)
  have hc : dcount i n = position (.inl n) / 2 ^ i % 2 := dcount_eq ⟨i, hi⟩ n
  rw [hd, hc, Nat.mod_mod]

theorem dcount_lt_two (n : Fin 64) {i : Nat} (hi : i < 7) : dcount i n < 2 := by
  have hc : dcount i n = position (.inl n) / 2 ^ i % 2 := dcount_eq ⟨i, hi⟩ n
  rw [hc]
  exact Nat.mod_lt _ (by decide)

/-- Data bit `n` is in `pflag` through `cflag[0]` or on its own. -/
theorem otherBits_twoPow (n : Fin 64) :
    xorAll (fun m => (BitVec.twoPow 64 n).getLsbD m) otherBits = !decide (dcount 0 n = 1) := by
  have h2 := dcount_lt_two n (show 0 < 7 by decide)
  have hcount := countP_filter_range n.isLt fun n => decide (dcount 0 n = 0)
  rw [xorAll_twoPow n.isLt, otherBits, hcount, ← decide_not]
  by_cases h0 : dcount 0 n = 0
  · simp [h0]
  · have h1 : dcount 0 n = 1 := by omega
    simp [h1]

/-- Data bit `n` is in the last parity bit if the others cover it an even number of times. -/
theorem evenBits_twoPow (n : Fin 64) :
    xorAll (fun m => (BitVec.twoPow 64 n).getLsbD m) evenBits =
      !xorAll (fun i => decide (dcount i n = 1)) (List.range 7) := by
  have hodd : xorAll (fun i => decide (dcount i n = 1)) (List.range 7) =
      xorAll (fun i => decide (dcount i n % 2 = 1)) (List.range 7) := by
    refine xorAll_congr fun i hi => ?_
    rw [Nat.mod_eq_of_lt (dcount_lt_two n (List.mem_range.1 hi))]
  have hcount := countP_filter_range n.isLt fun n =>
    decide (((List.range 7).map fun i => dcount i n).sum % 2 = 0)
  rw [xorAll_twoPow n.isLt, evenBits, hcount, hodd, xorAll_odd, ← decide_not]
  have hlt := Nat.mod_lt ((List.range 7).map fun i => dcount i n).sum (show 0 < 2 by decide)
  by_cases h0 : ((List.range 7).map fun i => dcount i n).sum % 2 = 0
  · simp [h0]
  · have h1 : ((List.range 7).map fun i => dcount i n).sum % 2 = 1 := by omega
    simp [h1]

/-- The column of a bit is its position. -/
theorem column_eq (b : Bit) : column b = BitVec.ofNat 7 (position b) := by
  apply BitVec.eq_of_getLsbD_eq
  intro i hi
  rw [column, syndrome, getLsbD_ofBits, BitVec.getLsbD_ofNat, Nat.testBit_eq_decide_div_mod_eq,
    cflag]
  congr 1
  cases b with
  | inl n =>
    have hc : dcount i n = position (.inl n) / 2 ^ i % 2 := dcount_eq ⟨i, hi⟩ n
    simp only [unit]
    rw [dataParity_twoPow n hi, hc]
    simp
  | inr m =>
    have hp : position (.inr m) / 2 ^ i % 2 = if i = m.val then 1 else 0 :=
      position_parity m ⟨i, hi⟩
    simp only [unit]
    rw [(dataParity_additive i).map_zero, hp, BitVec.getLsbD_twoPow, Bool.xor_false]
    by_cases him : i = m.val
    · simp [him]
    · simp [him, Ne.symm him]

theorem column_injective {b b' : Bit} (h : column b = column b') : b = b' := by
  have hlt : ∀ b, position b < 128 := by
    intro b
    cases b with
    | inl n => exact position_lt ⟨n, by omega⟩
    | inr m => exact position_lt ⟨64 + m, by omega⟩
  rw [column_eq, column_eq] at h
  have ht := congrArg BitVec.toNat h
  rw [BitVec.toNat_ofNat, BitVec.toNat_ofNat, Nat.mod_eq_of_lt (hlt b),
    Nat.mod_eq_of_lt (hlt b')] at ht
  exact position_injective ht

/-- The bit that has no column. -/
def lastBit : Bit := .inr 7

theorem column_last : column lastBit = 0#7 := by
  rw [column_eq]
  decide

/-- The other six parity bits and the data make up the last parity bit. -/
theorem pflag_pgen (d : BitVec 64) : pflag d (l2DataPgen d) = (l2DataPgen d).getLsbD 7 := by
  have hf : Hw.Additive fun d => pflag d (l2DataPgen d) := by
    intro x y
    simp only [pgen_xor, pflag_xor]
  have hg : Hw.Additive fun d => (l2DataPgen d).getLsbD 7 := by
    intro x y
    simp only [pgen_xor, BitVec.getLsbD_xor]
  refine hf.ext hg ?_ d
  intro n hn
  have hpar : ∀ m < 7, (l2DataPgen (BitVec.twoPow 64 n)).getLsbD m = decide (dcount m n = 1) := by
    intro m hm
    rw [l2DataPgen, getLsbD_ofBits, decide_eq_true (Nat.lt_succ_of_lt hm), Bool.true_and,
      if_pos hm]
    exact dataParity_twoPow ⟨n, hn⟩ hm
  have hsix : xorAll (fun m => (l2DataPgen (BitVec.twoPow 64 n)).getLsbD m) (List.range' 1 6) =
      xorAll (fun m => decide (dcount m n = 1)) (List.range' 1 6) :=
    xorAll_congr fun m hm => hpar m (by have := List.mem_range'_1.1 hm; omega)
  have hother : xorAll (fun m => (BitVec.twoPow 64 n).getLsbD m) otherBits =
      !decide (dcount 0 n = 1) := otherBits_twoPow ⟨n, hn⟩
  have heven : (l2DataPgen (BitVec.twoPow 64 n)).getLsbD 7 =
      !xorAll (fun i => decide (dcount i n = 1)) (List.range 7) := by
    rw [l2DataPgen, getLsbD_ofBits]
    exact evenBits_twoPow ⟨n, hn⟩
  have hseven : List.range 7 = 0 :: List.range' 1 6 := rfl
  rw [pflag, cflag_pgen _ (by decide), hsix, hother, heven, hseven, xorAll]
  cases decide (dcount 0 n = 1) <;> simp

/-! ### The checker by its syndrome -/

theorem unit_data (b : Bit) (k : Fin 64) : (unit b).1.getLsbD k = decide (b = .inl k) := by
  cases b with
  | inl n =>
    rw [unit, BitVec.getLsbD_twoPow, decide_eq_true n.isLt, Bool.true_and]
    simp only [Sum.inl.injEq, Fin.ext_iff]
  | inr m => simp [unit]

/-- The bit with the syndrome as its column is corrected. -/
theorem errBitPos_eq {w : BitVec 64 × BitVec 8} {b : Bit} (h : syndrome w = column b) :
    errBitPos w.1 w.2 = (unit b).1 := by
  apply BitVec.eq_of_getLsbD_eq
  intro k hk
  have hcol : column (.inl ⟨k, hk⟩) = ofBits (fun m => decide (dcount m k = 1)) 7 := by
    rw [column, syndrome, ofBits_eq_iff]
    intro m hm
    rw [cflag, unit, dataParity_twoPow ⟨k, hk⟩ hm]
    simp
  rw [errBitPos, getLsbD_ofBits, decide_eq_true hk, Bool.true_and, unit_data b ⟨k, hk⟩,
    Bool.eq_iff_iff, List.all_eq_true, decide_eq_true_iff]
  constructor
  · intro hall
    apply column_injective
    rw [← h, hcol, syndrome, ofBits_eq_iff]
    intro m hm
    have := hall m (List.mem_range.2 hm)
    by_cases hd : dcount m k = 1
    · simpa [hd] using this
    · simpa [hd] using this
  · rintro rfl
    rw [hcol, syndrome, ofBits_eq_iff] at h
    intro m hm
    rw [h m (List.mem_range.1 hm)]
    by_cases hd : dcount m k = 1 <;> simp [hd]

theorem uncorrError_eq (w : BitVec 64 × BitVec 8) :
    (l2DataEcc w.1 w.2).uncorrError = (decide (syndrome w ≠ 0#7) && !pflag w.1 w.2) := by
  have hzero : 0#7 = ofBits (fun _ => false) 7 := by decide
  have hany : (List.range 7).any (cflag w.1 w.2) = decide (syndrome w ≠ 0#7) := by
    rw [Bool.eq_iff_iff, List.any_eq_true, decide_eq_true_iff, hzero, syndrome, ne_eq,
      ofBits_eq_iff]
    constructor
    · rintro ⟨m, hm, hf⟩ hall
      rw [hall m (List.mem_range.1 hm)] at hf
      cases hf
    · intro hne
      by_contra hno
      apply hne
      intro m hm
      rw [← Bool.not_eq_true]
      intro hf
      exact hno ⟨m, List.mem_range.2 hm, hf⟩
  show ((List.range 7).any (cflag w.1 w.2) && !pflag w.1 w.2) = _
  rw [hany]

theorem pflag_flip (b : Bit) (w : BitVec 64 × BitVec 8) :
    pflag (flip b w).1 (flip b w).2 = (pflag w.1 w.2 ^^ decide (b ≠ lastBit)) := by
  have hunit : pflag (unit b).1 (unit b).2 = decide (b ≠ lastBit) := by
    cases b with
    | inl n =>
      have hnone : xorAll (fun m => (0 : BitVec 8).getLsbD m) (List.range' 1 6) = false := rfl
      simp only [unit, pflag, cflag]
      rw [dataParity_twoPow n (by decide), otherBits_twoPow, hnone]
      cases decide (dcount 0 n = 1) <;> simp [lastBit]
    | inr m =>
      revert m
      decide +kernel
  rw [flip, pflag_xor, hunit]

/-! ### Single error correction, double error detection -/

theorem read_last (d : BitVec 64) (e : Flips) : (e.read d).2.getLsbD 7 =
    match e with
    | .none => (l2DataPgen d).getLsbD 7
    | .one b => (l2DataPgen d).getLsbD 7 ^^ decide (b = lastBit)
    | .two b b' _ => (l2DataPgen d).getLsbD 7 ^^ decide (b' = lastBit) ^^ decide (b = lastBit) := by
  have hunit : ∀ b : Bit, (unit b).2.getLsbD 7 = decide (b = lastBit) := by
    intro b
    cases b with
    | inl n => simp [unit, lastBit]
    | inr m =>
      revert m
      decide
  cases e with
  | none => rfl
  | one b => simp only [Flips.read, flip, BitVec.getLsbD_xor, hunit]
  | two b b' h => simp only [Flips.read, flip, BitVec.getLsbD_xor, hunit]

theorem corrError_eq {w : BitVec 64 × BitVec 8} : (l2DataEcc w.1 w.2).corrError = pflag w.1 w.2 :=
  rfl

theorem syndrome_one (d : BitVec 64) (b : Bit) :
    syndrome (flip b (d, l2DataPgen d)) = column b := by
  rw [syndrome_flip, syndrome_pgen, BitVec.zero_xor]

theorem dout_eq {d : BitVec 64} {b : Bit} : (l2DataEcc (flip b (d, l2DataPgen d)).1
    (flip b (d, l2DataPgen d)).2).dout = d := by
  have hs := syndrome_one d b
  show (flip b (d, l2DataPgen d)).1 ^^^ errBitPos _ _ = d
  rw [errBitPos_eq hs, flip, BitVec.xor_assoc, BitVec.xor_self, BitVec.xor_zero]

/-- The checker answers rightly exactly when the last parity bit, which it does not read, is zero
in the word that it checks. -/
theorem secded_iff (d : BitVec 64) (e : Flips) :
    Secded d e ↔ (e.read d).2.getLsbD 7 = false := by
  rw [read_last]
  cases e with
  | none =>
    have hs : syndrome (d, l2DataPgen d) = column lastBit := by rw [syndrome_pgen, column_last]
    have hdout : (l2DataEcc d (l2DataPgen d)).dout = d := by
      show d ^^^ errBitPos d (l2DataPgen d) = d
      rw [errBitPos_eq hs]
      exact BitVec.xor_zero
    have hcorr : (l2DataEcc d (l2DataPgen d)).corrError = (l2DataPgen d).getLsbD 7 := pflag_pgen d
    have huncorr := uncorrError_eq (d, l2DataPgen d)
    rw [syndrome_pgen] at huncorr
    simp only [Secded, Flips.Answered, Flips.read, hdout, huncorr, hcorr]
    simp
  | one b =>
    have hp := pflag_flip b (d, l2DataPgen d)
    have huncorr := uncorrError_eq (flip b (d, l2DataPgen d))
    rw [syndrome_one, hp] at huncorr
    have hcol : column b = 0#7 ↔ b = lastBit := by
      rw [← column_last]
      exact ⟨column_injective, fun h => h ▸ rfl⟩
    simp only [Secded, Flips.Answered, Flips.read, dout_eq, corrError_eq, huncorr, hp, pflag_pgen,
      ne_eq, hcol, true_and]
    by_cases hb : b = lastBit
    · simp [hb]
    · simp [hb]
  | two b b' h =>
    have hp := pflag_flip b (flip b' (d, l2DataPgen d))
    rw [pflag_flip b', pflag_pgen] at hp
    have huncorr := uncorrError_eq (flip b (flip b' (d, l2DataPgen d)))
    have hne : syndrome (flip b (flip b' (d, l2DataPgen d))) ≠ 0#7 := by
      rw [syndrome_flip, syndrome_one]
      intro hz
      rw [BitVec.xor_eq_zero_iff] at hz
      exact h (column_injective hz.symm)
    rw [decide_eq_true hne, hp, Bool.true_and] at huncorr
    simp only [Secded, Flips.Answered, Flips.read, corrError_eq, huncorr, hp]
    by_cases hb : b = lastBit
    · have hb' : b' ≠ lastBit := fun hb' => h (hb.trans hb'.symm)
      simp [hb, hb']
    · by_cases hb' : b' = lastBit
      · simp [hb, hb']
      · simp [hb, hb']

-- the word 1 has an odd number of ones with its parities
theorem not_secded : ¬ ∀ d e, Secded d e := by
  intro h
  have h1 := (h 1 .none).2.1
  revert h1
  decide +kernel

end Piton.L2
