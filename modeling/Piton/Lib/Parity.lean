import Mathlib.Data.BitVec
import Piton.Lib.Sizes

/-! Parities: the exclusive or of a Boolean function over a list, bit vectors from their bits, and
functions on bit vectors that are determined by their values on single bits. -/

namespace Hw

variable {α : Type} {w : Nat}

/-! ### Parities -/

/-- The exclusive or of `f` over a list. -/
def xorAll (f : α → Bool) : List α → Bool
  | [] => false
  | a :: l => f a ^^ xorAll f l

theorem xorAll_xor (f g : α → Bool) (l : List α) :
    xorAll (fun a => f a ^^ g a) l = (xorAll f l ^^ xorAll g l) := by
  induction l with
  | nil => rfl
  | cons a l ih =>
    simp only [xorAll, ih]
    cases f a <;> cases g a <;> simp

theorem xorAll_congr {f g : α → Bool} {l : List α} (h : ∀ a ∈ l, f a = g a) :
    xorAll f l = xorAll g l := by
  induction l with
  | nil => rfl
  | cons a l ih =>
    rw [xorAll, xorAll, h a List.mem_cons_self, ih fun b hb => h b (List.mem_cons_of_mem a hb)]

theorem xorAll_eq (f : α → Bool) (l : List α) : xorAll f l = decide (l.countP f % 2 = 1) := by
  induction l with
  | nil => rfl
  | cons a l ih =>
    rw [xorAll, ih, List.countP_cons]
    have hlt := Nat.mod_lt (l.countP f) (show 0 < 2 by decide)
    cases f a with
    | false => simp
    | true =>
      rw [Bool.true_xor, if_pos rfl, ← decide_not, decide_eq_decide]
      omega

/-- The parity of a sum. -/
theorem xorAll_odd (f : α → Nat) (l : List α) :
    xorAll (fun a => decide (f a % 2 = 1)) l = decide ((l.map f).sum % 2 = 1) := by
  induction l with
  | nil => rfl
  | cons a l ih =>
    have ha := Nat.mod_lt (f a) (show 0 < 2 by decide)
    rw [xorAll, ih, List.map_cons, List.sum_cons]
    by_cases h0 : f a % 2 = 1
    · rw [decide_eq_true h0, Bool.true_xor, ← decide_not, decide_eq_decide]
      omega
    · rw [decide_eq_false h0, Bool.false_xor, decide_eq_decide]
      omega

/-- A number is at most once among those below `N` that meet a condition. -/
theorem countP_filter_range {N n : Nat} (hn : n < N) (p : Nat → Bool) :
    ((List.range N).filter p).countP (fun m => m = n) = if p n then 1 else 0 := by
  have hcount : ((List.range N).filter p).countP (fun m => m = n) =
      ((List.range N).filter p).count n := List.countP_congr fun m _ => by simp
  have hnodup := List.nodup_range.filter p (l := List.range N)
  rw [hcount]
  cases hp : p n with
  | true =>
    rw [if_pos rfl]
    exact List.count_eq_one_of_mem hnodup (List.mem_filter.2 ⟨List.mem_range.2 hn, hp⟩)
  | false =>
    rw [if_neg Bool.false_ne_true]
    refine List.count_eq_zero_of_not_mem fun hm => ?_
    rw [List.mem_filter, hp] at hm
    exact Bool.false_ne_true hm.2

/-- The parity of the places at which a vector with a single bit is read. -/
theorem xorAll_twoPow {n : Nat} (hn : n < w) (h : α → Nat) (l : List α) :
    xorAll (fun a => (BitVec.twoPow w n).getLsbD (h a)) l =
      decide (l.countP (fun a => h a = n) % 2 = 1) := by
  have hbit : (fun a => (BitVec.twoPow w n).getLsbD (h a)) = fun a => decide (h a = n) := by
    funext a
    rw [BitVec.getLsbD_twoPow, decide_eq_true hn, Bool.true_and]
    exact decide_eq_decide.2 eq_comm
  rw [xorAll_eq, hbit]

/-! ### Bits -/

/-- The vector whose bits are those of `f`. -/
def ofBits (f : Nat → Bool) : (w : Nat) → BitVec w
  | 0 => 0
  | w + 1 => BitVec.cons (f w) (ofBits f w)

@[simp]
theorem getLsbD_ofBits (f : Nat → Bool) (i : Nat) : (ofBits f w).getLsbD i = (i < w && f i) := by
  induction w with
  | zero => simp [ofBits]
  | succ w ih =>
    rw [ofBits, BitVec.getLsbD_cons, ih]
    by_cases h : i = w
    · simp [h]
    · rw [if_neg h]
      congr 1
      simp only [decide_eq_decide]
      omega

theorem ofBits_xor (f g : Nat → Bool) :
    ofBits (fun i => f i ^^ g i) w = ofBits f w ^^^ ofBits g w := by
  apply BitVec.eq_of_getLsbD_eq
  intro i hi
  rw [BitVec.getLsbD_xor, getLsbD_ofBits, getLsbD_ofBits, getLsbD_ofBits]
  simp [hi]

theorem ofBits_eq_iff {f g : Nat → Bool} : ofBits f w = ofBits g w ↔ ∀ i < w, f i = g i := by
  constructor
  · intro h i hi
    have hb : (ofBits f w).getLsbD i = (ofBits g w).getLsbD i := by rw [h]
    rwa [getLsbD_ofBits, getLsbD_ofBits, decide_eq_true hi, Bool.true_and, Bool.true_and] at hb
  · intro h
    apply BitVec.eq_of_getLsbD_eq
    intro i hi
    rw [getLsbD_ofBits, getLsbD_ofBits, h i hi]

/-! ### Additive functions -/

/-- A function that turns exclusive or into exclusive or. -/
def Additive (f : BitVec w → Bool) : Prop := ∀ x y, f (x ^^^ y) = (f x ^^ f y)

namespace Additive

variable {f g : BitVec w → Bool}

theorem map_zero (hf : Additive f) : f 0 = false := by
  have h := hf 0 0
  rwa [BitVec.xor_self, Bool.xor_self] at h

theorem bit (i : Nat) : Additive fun x : BitVec w => x.getLsbD i := by
  intro x y
  exact BitVec.getLsbD_xor

theorem all {h : α → BitVec w → Bool} {l : List α} (hh : ∀ a, Additive (h a)) :
    Additive fun x => xorAll (fun a => h a x) l := by
  intro x y
  simp only [hh _ x y, xorAll_xor]

/-- Additive functions that agree on the single bits below `k` agree on vectors with those bits. -/
theorem eq_below (hf : Additive f) (hg : Additive g)
    (hbit : ∀ i < w, f (BitVec.twoPow w i) = g (BitVec.twoPow w i)) {k : Nat} (hk : k ≤ w)
    {x : BitVec w} (hx : ∀ i, k ≤ i → x.getLsbD i = false) : f x = g x := by
  induction k generalizing x with
  | zero =>
    have h0 : x = 0 := by
      apply BitVec.eq_of_getLsbD_eq
      intro i _
      rw [hx i (Nat.zero_le i)]
      simp
    rw [h0, hf.map_zero, hg.map_zero]
  | succ k ih =>
    cases hb : x.getLsbD k with
    | false =>
      apply ih (Nat.le_of_succ_le hk)
      intro i hi
      obtain rfl | hlt := Nat.eq_or_lt_of_le hi
      · exact hb
      · exact hx i hlt
    | true =>
      -- the highest bit is split off
      have hsplit : x = (x ^^^ BitVec.twoPow w k) ^^^ BitVec.twoPow w k := by
        rw [BitVec.xor_assoc, BitVec.xor_self, BitVec.xor_zero]
      have hrest : f (x ^^^ BitVec.twoPow w k) = g (x ^^^ BitVec.twoPow w k) := by
        apply ih (Nat.le_of_succ_le hk)
        intro i hi
        rw [BitVec.getLsbD_xor, BitVec.getLsbD_twoPow]
        obtain rfl | hlt := Nat.eq_or_lt_of_le hi
        · simp [hb, Nat.lt_of_succ_le hk]
        · rw [hx i hlt]
          simp
          omega
      rw [hsplit, hf, hg, hrest, hbit k (Nat.lt_of_succ_le hk)]

theorem ext (hf : Additive f) (hg : Additive g)
    (hbit : ∀ i < w, f (BitVec.twoPow w i) = g (BitVec.twoPow w i)) (x : BitVec w) : f x = g x :=
  eq_below hf hg hbit (Nat.le_refl w) fun _ hi => BitVec.getLsbD_of_ge x _ hi

end Additive

end Hw
