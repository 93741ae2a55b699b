import Mathlib.Algebra.Group.Nat.Defs
import Mathlib.Order.Bounds.Basic
import Piton.Dmbr.Dmbr

/-! The charge of a miss in exact arithmetic, and when the shaper computes it. -/

namespace Piton.Dmbr

open Hw

/-! ### The charge in exact arithmetic -/

section Exact

variable (credit : Bin → Nat) (scale t : Nat)

/-- A miss after `t` cycles is charged to the largest bin with a credit that `t` reaches, or else waits
for the smallest bin with a credit. -/
inductive Charged : Bin → Nat → Prop
  | reached (k : Bin) : IsGreatest {j : Bin | 0 < credit j ∧ j * 2 ^ scale ≤ t} k → Charged k 0
  | waits (k : Bin) : (∀ j : Bin, 0 < credit j → t < j * 2 ^ scale) →
      IsLeast {j : Bin | 0 < credit j} k → Charged k (k * 2 ^ scale - t)

variable {credit scale t} {k k' : Bin} {n n' : Nat}

/-- There is one charge. -/
theorem Charged.unique (h : Charged credit scale t k n) (h' : Charged credit scale t k' n') :
    k = k' ∧ n = n' := by
  cases h with
  | reached hk =>
    cases h' with
    | reached hk' => exact ⟨hk.unique hk', rfl⟩
    | waits hno _ => exact absurd (hno k hk.1.1) (Nat.not_lt.2 hk.1.2)
  | waits hno hk =>
    cases h' with
    | reached hk' => exact absurd (hno k' hk'.1.1) (Nat.not_lt.2 hk'.1.2)
    | waits _ hk' =>
      obtain rfl := hk.unique hk'
      exact ⟨rfl, rfl⟩

end Exact

/-- The credits, the scale and the measured interval as numbers. -/
def credits (s : State) (k : Bin) : Nat := (s.curCredit k).toNat

/-- The bin scale as a number. -/
def scale (s : State) : Nat := s.binScale.toNat

/-- The interval that the two counters hold together. -/
def measured (s : State) : Nat := s.satCounter.toNat + s.addCounter.toNat

/-- The interval that a response gives back, at most one more than the largest threshold asks. -/
def givenBack (s : State) (i : Input) : Nat :=
  min (s.interval i.l2missTag).toNat (10 * 2 ^ scale s + 1)

/-- A refund that is added to the interval of earlier ones. -/
def addsRefund (i : Input) : Prop := refunds i = true ∧ i.l1missIn = false

/-- A miss is charged as in exact arithmetic, and nothing wraps: thresholds, the bound of the counters,
the intervals, and the cycles to wait. -/
structure Exact (s : State) (i : Input) : Prop where
  charged : i.l1missIn = true → (∃ k, 0 < credits s k) →
    Charged (credits s) (scale s) (measured s) (selected s i).reqEn (stallCycles s i).toNat ∧
      (selected s i).binNumber.toNat = (selected s i).reqEn
  noCredit : i.l1missIn = true → (∀ k, credits s k = 0) →
    (stallCycles s i).toNat + s.repInterval.toNat = s.replenishCycles.toNat
  threshold : ∀ k : Bin, (threshold s k).toNat = k * 2 ^ scale s
  bound : (maxInterval s).toNat = 10 * 2 ^ scale s + 1
  interval : (sumCounter s).toNat = measured s
  sum : addsRefund i → (s.addCounter + addInterval2 s i).toNat =
    s.addCounter.toNat + givenBack s i
  total : (s.totalStallCycles + stallCycles s i).toNat =
    s.totalStallCycles.toNat + (stallCycles s i).toNat

/-- The scales and sums that fit the registers. -/
structure Fits (s : State) (i : Input) : Prop where
  scale : scale s ≤ 5
  sum : addsRefund i → s.addCounter.toNat + givenBack s i < 512
  noCredit : i.l1missIn = true → (∀ k, credits s k = 0) → s.repInterval ≤ s.replenishCycles ∧
    s.totalStallCycles.toNat + (s.replenishCycles.toNat - s.repInterval.toNat) < 2 ^ 16
  total : i.l1missIn = true → ∀ k n, Charged (credits s) (Dmbr.scale s) (measured s) k n →
    s.totalStallCycles.toNat + n < 2 ^ 16

/-! ### Shifts -/

section Fits

variable {s : State} {i : Input}

theorem toNat_shift {w m : Nat} {x : BitVec w} {k : BitVec m} (h : x.toNat * 2 ^ k.toNat < 2 ^ w) :
    (x <<< k).toNat = x.toNat * 2 ^ k.toNat := by
  show (x <<< k.toNat).toNat = _
  rw [BitVec.toNat_shiftLeft, Nat.shiftLeft_eq, Nat.mod_eq_of_lt h]

theorem two_pow_scale_le (h : scale s ≤ 5) : 2 ^ scale s ≤ 32 :=
  Nat.pow_le_pow_right (by decide) h

theorem threshold_eq (h : scale s ≤ 5) (k : Bin) : (threshold s k).toNat = k * 2 ^ scale s := by
  have hk : (BitVec.ofNat 10 k).toNat = k := Nat.mod_eq_of_lt (by omega)
  have hp := two_pow_scale_le h
  have hle : k.val * 2 ^ scale s ≤ 9 * 32 := Nat.mul_le_mul (by omega) hp
  rw [threshold, toNat_shift, hk]
  · rfl
  · rw [hk]
    exact Nat.lt_of_le_of_lt hle (by decide)

theorem maxInterval_eq (h : scale s ≤ 5) : (maxInterval s).toNat = 10 * 2 ^ scale s + 1 := by
  have hp := two_pow_scale_le h
  have hs : (10#32 <<< s.binScale).toNat = 10 * 2 ^ scale s :=
    toNat_shift (Nat.lt_of_le_of_lt (Nat.mul_le_mul_left 10 hp) (by decide))
  rw [maxInterval, BitVec.toNat_setWidth, BitVec.toNat_add, hs, Nat.mod_eq_of_lt (a := _ + _)]
  · exact Nat.mod_eq_of_lt (by simp; omega)
  · simp
    omega

theorem sumCounter_eq (s : State) : (sumCounter s).toNat = measured s := by
  have h1 := s.satCounter.isLt
  have h2 := s.addCounter.isLt
  rw [sumCounter, BitVec.toNat_add, BitVec.toNat_setWidth, BitVec.toNat_setWidth,
    Nat.mod_eq_of_lt (a := s.satCounter.toNat) (by omega),
    Nat.mod_eq_of_lt (a := s.addCounter.toNat) (by omega), Nat.mod_eq_of_lt (by omega)]
  rfl

theorem addInterval2_eq (h : scale s ≤ 5) (hr : refunds i = true) :
    (addInterval2 s i).toNat = givenBack s i := by
  have hm := maxInterval_eq h
  have hlt := (maxInterval s).isLt
  have hw : ((maxInterval s).setWidth 10).toNat = 10 * 2 ^ scale s + 1 := by
    rw [BitVec.toNat_setWidth, hm, Nat.mod_eq_of_lt (by omega)]
  rw [addInterval2, addInterval, if_pos hr, givenBack]
  split
  next hgt =>
    rw [gt_iff_lt, BitVec.lt_def, hw] at hgt
    rw [hm]
    omega
  next hle =>
    rw [gt_iff_lt, BitVec.lt_def, hw] at hle
    rw [BitVec.toNat_setWidth, Nat.mod_eq_of_lt (by omega)]
    omega

theorem curCredit_pos (k : Bin) : (0 < s.curCredit k) ↔ 0 < credits s k := by
  rw [BitVec.lt_def]
  rfl

/-- A bin is reached in the source as in exact arithmetic. -/
theorem reached_iff (h : scale s ≤ 5) (hm : i.l1missIn = true) (k : Bin) :
    reached s i k = true ↔ 0 < credits s k ∧ k * 2 ^ scale s ≤ measured s := by
  have hcmp : threshold s k ≤ curInterval s i ↔ k * 2 ^ scale s ≤ measured s := by
    rw [BitVec.le_def, threshold_eq h, curInterval, if_pos hm, sumCounter_eq]
  simp only [reached, Bool.and_eq_true, Bool.or_eq_true, decide_eq_true_iff, curCredit_pos, hcmp]
  constructor
  · rintro ⟨rfl | hle, hc⟩
    · exact ⟨hc, by simp⟩
    · exact ⟨hc, hle⟩
  · rintro ⟨hc, hle⟩
    exact ⟨.inr hle, hc⟩

theorem stallCycles_of_miss (hm : i.l1missIn = true) :
    stallCycles s i = (selected s i).stallCycles := if_pos hm

theorem charged_of_fits (h : scale s ≤ 5) (hm : i.l1missIn = true) (hc : ∃ k, 0 < credits s k) :
    Charged (credits s) (scale s) (measured s) (selected s i).reqEn (stallCycles s i).toNat ∧
      (selected s i).binNumber.toNat = (selected s i).reqEn := by
  have hbin : ∀ k : Bin, (BitVec.ofNat 4 k).toNat = k := fun k => Nat.mod_eq_of_lt (by omega)
  rw [stallCycles_of_miss hm, selected]
  cases hr : (List.finRange 10).reverse.find? (reached s i) with
  | some k =>
    have hk := isGreatest_of_find? hr
    simp only [reached_iff h hm] at hk
    exact ⟨.reached k hk, hbin k⟩
  | none =>
    have hno : ∀ j : Bin, 0 < credits s j → measured s < j * 2 ^ scale s := by
      intro j hj
      have := none_of_find?_reverse hr j
      rw [← Bool.not_eq_true, reached_iff h hm] at this
      by_contra hlt
      exact this ⟨hj, Nat.le_of_not_lt hlt⟩
    have h0 : ∀ j : Bin, 0 < credits s j → j ≠ 0 := by
      rintro j hj rfl
      have := hno 0 hj
      simp at this
    cases hl : (List.finRange 10).find? fun k => k ≠ 0 && 0 < s.curCredit k with
    | some k =>
      have hk := isLeast_of_find? hl
      have hset : {j : Bin | (decide (j ≠ 0) && decide (0 < s.curCredit j)) = true} =
          {j : Bin | 0 < credits s j} := by
        ext j
        simp only [Set.mem_ofPred_eq, Bool.and_eq_true, decide_eq_true_iff, curCredit_pos]
        exact ⟨fun hj => hj.2, fun hj => ⟨h0 j hj, hj⟩⟩
      rw [hset] at hk
      have hlt := hno k hk.1
      have hkv : (BitVec.ofNat 16 k).toNat = k := Nat.mod_eq_of_lt (by omega)
      have hle : k.val * 2 ^ scale s ≤ 9 * 32 := Nat.mul_le_mul (by omega) (two_pow_scale_le h)
      have hshift : (BitVec.ofNat 16 k <<< s.binScale).toNat = k * 2 ^ scale s := by
        rw [toNat_shift, hkv]
        · rfl
        · rw [hkv]
          exact Nat.lt_of_le_of_lt hle (by decide)
      have hcur : ((curInterval s i).setWidth 16).toNat = measured s := by
        have := (sumCounter s).isLt
        rw [curInterval, if_pos hm, BitVec.toNat_setWidth, Nat.mod_eq_of_lt (by omega),
          sumCounter_eq]
      have hsub : ((BitVec.ofNat 16 k <<< s.binScale) - (curInterval s i).setWidth 16).toNat =
          k * 2 ^ scale s - measured s := by
        rw [BitVec.toNat_sub_of_le, hshift, hcur]
        rw [BitVec.le_def, hshift, hcur]
        exact Nat.le_of_lt hlt
      refine ⟨?_, hbin k⟩
      show Charged _ _ _ k _
      rw [hsub]
      exact .waits k hno hk
    | none =>
      obtain ⟨k, hk⟩ := hc
      have := none_of_find? hl k
      rw [← Bool.not_eq_true, Bool.and_eq_true, decide_eq_true_iff, decide_eq_true_iff,
        curCredit_pos] at this
      exact absurd ⟨h0 k hk, hk⟩ this

/-- With no credit at all a miss waits for the end of the period. -/
theorem selected_noCredit (hc : ∀ k, credits s k = 0) :
    selected s i = ⟨0, 10, s.replenishCycles - s.repInterval⟩ := by
  have hz : ∀ k, ¬ 0 < s.curCredit k := by
    intro k
    rw [curCredit_pos, hc k]
    exact Nat.lt_irrefl 0
  have h1 : (List.finRange 10).reverse.find? (reached s i) = none := by
    rw [List.find?_eq_none]
    intro k _
    simp only [reached, hz k, decide_false, Bool.and_false, Bool.false_eq_true, not_false_iff]
  have h2 : ((List.finRange 10).find? fun k => k ≠ 0 && 0 < s.curCredit k) = none := by
    rw [List.find?_eq_none]
    intro k _
    simp only [hz k, decide_false, Bool.and_false, Bool.false_eq_true, not_false_iff]
  rw [selected, h1, h2]

/-- A miss is charged as in exact arithmetic and nothing wraps exactly when the scale is at most 5 and
the sums fit. -/
theorem exact_iff_fits (s : State) (i : Input) : Exact s i ↔ Fits s i := by
  constructor
  · intro h
    have hscale : scale s ≤ 5 := by
      by_contra hlt
      have hp : 2 ^ 6 ≤ 2 ^ scale s := Nat.pow_le_pow_right (by decide) (by omega)
      have := (maxInterval s).isLt
      rw [h.bound] at this
      omega
    refine
      { scale := hscale
        sum := ?_
        noCredit := ?_
        total := ?_ }
    · intro ha
      rw [← h.sum ha]
      exact BitVec.isLt _
    · intro hm hc
      have hn := h.noCredit hm hc
      have ht := h.total
      have hlt := (s.totalStallCycles + stallCycles s i).isLt
      rw [ht] at hlt
      refine ⟨?_, ?_⟩
      · rw [BitVec.le_def]
        omega
      · omega
    · intro hm k n hk
      have hlt := (s.totalStallCycles + stallCycles s i).isLt
      have hc : ∃ k, 0 < credits s k := by
        cases hk with
        | reached hk => exact ⟨k, hk.1.1⟩
        | waits _ hk => exact ⟨k, hk.1⟩
      rw [h.total, (hk.unique (h.charged hm hc).1).2.symm] at hlt
      exact hlt
  · intro h
    have hs := h.scale
    have hno : i.l1missIn = true → (∀ k, credits s k = 0) →
        (stallCycles s i).toNat = s.replenishCycles.toNat - s.repInterval.toNat := by
      intro hm hc
      rw [stallCycles_of_miss hm, selected_noCredit hc]
      exact BitVec.toNat_sub_of_le (h.noCredit hm hc).1
    refine
      { charged := charged_of_fits hs
        noCredit := ?_
        threshold := threshold_eq hs
        bound := maxInterval_eq hs
        interval := sumCounter_eq s
        sum := ?_
        total := ?_ }
    · intro hm hc
      have hle := (h.noCredit hm hc).1
      rw [BitVec.le_def] at hle
      rw [hno hm hc]
      omega
    · intro ha
      have hlt := h.sum ha
      rw [BitVec.toNat_add, addInterval2_eq hs ha.1, Nat.mod_eq_of_lt hlt]
    · rw [BitVec.toNat_add]
      refine Nat.mod_eq_of_lt ?_
      have ht := s.totalStallCycles.isLt
      cases hm : i.l1missIn with
      | false =>
        have h0 : stallCycles s i = 0 := by simp [stallCycles, hm]
        rw [h0]
        exact ht
      | true =>
        by_cases hc : ∃ k, 0 < credits s k
        · exact h.total hm _ _ (charged_of_fits hs hm hc).1
        · have hz : ∀ k, credits s k = 0 := by
            intro k
            by_contra hk
            exact hc ⟨k, Nat.pos_of_ne_zero hk⟩
          rw [hno hm hz]
          exact (h.noCredit hm hz).2

/-- A miss after reset. -/
def missInput : Input where
  funcEn := true
  procLd := false
  creditIn := fun _ => 0
  replenishCyclesIn := 0
  binScaleIn := 0
  l1missIn := true
  l1missTag := 0
  l2responseIn := false
  l2missIn := false
  l2missTag := 0

/-- Scale 7 with a credit in bin 8 only. -/
def loadScale7 : Input :=
  { missInput with
    procLd := true
    l1missIn := false
    creditIn := fun k => if k = 8 then 1 else 0
    replenishCyclesIn := 100
    binScaleIn := 7 }

-- the threshold 8 * 128 is 0 in 10 bits, so the miss is charged without a wait
theorem not_exact : ¬ ∀ s i, machine.Reachable (fun _ _ => True) s → Exact s i := by
  intro h
  have hr : machine.Reachable (fun _ _ => True) (machine.run reset [loadScale7]) :=
    (Machine.Reachable.init rfl).run ⟨trivial, trivial⟩
  have hcredit : ∀ k, 0 < credits (machine.run reset [loadScale7]) k ↔ k = 8 := by
    decide
  have hwaits : Charged (credits (machine.run reset [loadScale7])) 7 1 8 1023 := by
    refine .waits 8 (fun j hj => ?_) ⟨(hcredit 8).2 rfl, fun j hj => ?_⟩
    · rw [(hcredit j).1 hj]
      decide
    · rw [(hcredit j).1 hj]
  have hc := ((h _ missInput hr).charged rfl ⟨8, (hcredit 8).2 rfl⟩).1
  have hs : scale (machine.run reset [loadScale7]) = 7 := by decide
  have ht : measured (machine.run reset [loadScale7]) = 1 := by decide
  rw [hs, ht] at hc
  have hn := (hc.unique hwaits).2
  revert hn
  decide

end Fits

end Piton.Dmbr
