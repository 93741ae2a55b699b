import Piton.Dmbr.Dmbr

/-! Replenishment in the traffic shaper: the period is bounded, and each bin is charged no more than it
was given. -/

namespace Piton.Dmbr

open Hw

/-! ### Accounts -/

/-- The enabled cycles since the last replenishment, and what has happened to each bin since the last
configuration. -/
structure Account where
  since : Nat
  initial : Bin → Nat
  charges : Bin → Nat
  refunded : Bin → Nat
  replenished : Nat

namespace Account

/-- A miss is charged to a bin that has a credit. -/
def chargesBin (s : State) (i : Input) (k : Bin) : Bool :=
  i.l1missIn && (selected s i).binNumber = BitVec.ofNat 4 k

/-- The account after `reset`, where each bin has one credit. -/
def init : Account where
  since := 0
  initial := fun _ => 1
  charges := fun _ => 0
  refunded := fun _ => 0
  replenished := 0

/-- What one cycle adds to the account. -/
def update (g : Account) (s : State) (i : Input) : Account :=
  if i.funcEn then
    { since := if repEn s then 0 else g.since + 1
      initial := if i.procLd then fun k => (i.creditIn k).toNat else g.initial
      charges := fun k =>
        if i.procLd then 0 else if chargesBin s i k then g.charges k + 1 else g.charges k
      refunded := fun k =>
        if i.procLd then 0 else if addEn s i k then g.refunded k + 1 else g.refunded k
      replenished :=
        if i.procLd then 0 else if repEn s then g.replenished + 1 else g.replenished }
  else g

end Account

/-- The shaper with the account of its credits. -/
def accounted : Machine (State × Account) Input := machine.withHistory .init Account.update

/-- The period counter stays within the period, so that a miss without credits waits for its end and
credits are replenished in time; and the charges of a bin are covered. -/
structure Replenished (y : State × Account) : Prop where
  bounded : y.1.repInterval ≤ y.1.replenishCycles
  period : y.2.since ≤ y.1.replenishCycles.toNat
  wait : (y.1.replenishCycles - y.1.repInterval).toNat + y.1.repInterval.toNat =
    y.1.replenishCycles.toNat
  covered : ∀ k, y.2.charges k ≤
    y.2.initial k + y.2.refunded k + (y.1.repCredit k).toNat * y.2.replenished

/-- A configuration is loaded at the end of a period or with a period that is not over yet. -/
def Clear (s : State) (i : Input) : Prop :=
  i.funcEn = true → i.procLd = true →
    s.repInterval = s.replenishCycles ∨ s.repInterval < i.replenishCyclesIn

/-! ### Credits -/

section Credits

variable {s : State} {i : Input} {k : Bin}

theorem bin_injective {j k : Bin} (h : BitVec.ofNat 4 j = BitVec.ofNat 4 k) : j = k := by
  have := congrArg BitVec.toNat h
  rw [BitVec.toNat_ofNat, BitVec.toNat_ofNat, Nat.mod_eq_of_lt (by omega),
    Nat.mod_eq_of_lt (by omega)] at this
  exact Fin.ext this

theorem reqEn_eq (h : reqEn s i k = true) (j : Bin) : reqEn s i j = decide (j = k) := by
  simp only [reqEn, Bool.and_eq_true, decide_eq_true_iff] at h
  simp [reqEn, h.1, h.2]

theorem addEn_eq (h : addEn s i k = true) (j : Bin) : addEn s i j = decide (j = k) := by
  simp only [addEn, Bool.and_eq_true, decide_eq_true_iff] at h
  rw [addEn, h.1, h.2, Bool.true_and, decide_eq_decide]
  exact ⟨fun he => (bin_injective he).symm, fun he => he ▸ rfl⟩

/-- A charge takes its bin's credit. -/
theorem reqOut_eq (h : reqEn s i k = true) : (reqOut s i).toNat =
    if repEn s then (s.repCredit k).toNat else (s.curCredit k).toNat - 1 := by
  rw [reqOut, curCreditMinusOne, bus_eq (reqEn_eq h), bus_eq (reqEn_eq h)]
  cases repEn s with
  | true => rfl
  | false =>
    simp only [Bool.false_eq_true, if_false]
    split
    next hgt =>
      rw [gt_iff_lt, BitVec.lt_def] at hgt
      have hgt' : 0 < (s.curCredit k).toNat := hgt
      exact BitVec.toNat_sub_of_le (show (1 : BitVec 6).toNat ≤ _ from hgt')
    next hle =>
      rw [gt_iff_lt, BitVec.lt_def] at hle
      have hle' : ¬ 0 < (s.curCredit k).toNat := hle
      omega

/-- A refund gives at most one credit. -/
theorem addOut_le (h : addEn s i k = true) : (addOut s i).toNat ≤
    (if repEn s then (s.repCredit k).toNat else (s.curCredit k).toNat) + 1 := by
  have hc : (if repEn s then bus (addEn s i) s.repCredit else bus (addEn s i) s.curCredit).toNat =
      if repEn s then (s.repCredit k).toNat else (s.curCredit k).toNat := by
    rw [bus_eq (addEn_eq h), bus_eq (addEn_eq h)]
    split <;> rfl
  have hinc : ∀ c : BitVec 6, (if c < 63 then c + 1 else c).toNat ≤ c.toNat + 1 := by
    intro c
    split
    · rw [BitVec.toNat_add]
      exact Nat.mod_le _ _
    · exact Nat.le_succ _
  rw [← hc]
  exact hinc _

/-- A miss that is charged to a bin requests it, and the bin has a credit. -/
theorem reqEn_of_charges (h : Account.chargesBin s i k = true) :
    reqEn s i k = true ∧ 0 < (s.curCredit k).toNat := by
  simp only [Account.chargesBin, Bool.and_eq_true, decide_eq_true_iff] at h
  obtain ⟨hm, hb⟩ := h
  obtain ⟨hpos, hbin⟩ | hbin := selected_cases s i
  · rw [hbin] at hb
    have hk := bin_injective hb
    rw [BitVec.lt_def, hk] at hpos
    exact ⟨by simp [reqEn, hm, hk], hpos⟩
  · -- without credits the bin number is 10
    rw [hbin] at hb
    have hn := congrArg BitVec.toNat hb
    rw [BitVec.toNat_ofNat, Nat.mod_eq_of_lt (a := k.val) (by omega)] at hn
    exact absurd hn.symm (Nat.ne_of_lt k.isLt)

/-- What a bin has and what it was charged grow by no more than refunds and replenishment. -/
theorem nextCredit_le : (nextCredit s i k).toNat + (Account.chargesBin s i k).toNat ≤
    (s.curCredit k).toNat + (addEn s i k).toNat +
      if repEn s then (s.repCredit k).toNat else 0 := by
  have hcharge : Account.chargesBin s i k = true → reqEn s i k = true ∧ 0 < (s.curCredit k).toNat :=
    reqEn_of_charges
  unfold nextCredit
  cases hc : Account.chargesBin s i k with
  | true =>
    obtain ⟨hr, hpos⟩ := hcharge hc
    have hout := reqOut_eq hr
    rw [hr]
    cases hrep : repEn s <;> cases ha : addEn s i k <;> rw [hrep] at hout <;> simp at hout ⊢ <;>
      omega
  | false =>
    cases hr : reqEn s i k with
    | true =>
      have hout := reqOut_eq hr
      cases hrep : repEn s <;> cases ha : addEn s i k <;> rw [hrep] at hout <;> simp at hout ⊢ <;>
        omega
    | false =>
      cases ha : addEn s i k with
      | true =>
        have hout := addOut_le ha
        cases hrep : repEn s <;> rw [hrep] at hout <;> simp at hout ⊢ <;> omega
      | false => cases hrep : repEn s <;> simp

end Credits

/-! ### Runs -/

section Runs

variable {y : State × Account} {i : Input}

/-- The counter is the number of cycles since the last replenishment, and what a bin has left is
covered too. -/
structure AccountInv (y : State × Account) : Prop where
  bounded : y.1.repInterval ≤ y.1.replenishCycles
  since_eq : y.2.since = y.1.repInterval.toNat
  covered : ∀ k, y.2.charges k + (y.1.curCredit k).toNat ≤
    y.2.initial k + y.2.refunded k + (y.1.repCredit k).toNat * y.2.replenished

theorem toNat_nextRepInterval (h : y.1.repInterval ≤ y.1.replenishCycles) :
    (nextRepInterval y.1).toNat =
      if repEn y.1 then 0 else y.1.repInterval.toNat + 1 := by
  rw [nextRepInterval]
  by_cases he : y.1.repInterval = y.1.replenishCycles
  · simp [repEn, he]
  · have hlt : y.1.repInterval.toNat < y.1.replenishCycles.toNat := by
      rw [BitVec.le_def] at h
      exact Nat.lt_of_le_of_ne h fun hn => he (BitVec.eq_of_toNat_eq hn)
    have hrep : repEn y.1 = false := by simp [repEn, he]
    have := y.1.replenishCycles.isLt
    rw [hrep, if_neg Bool.false_ne_true, if_neg Bool.false_ne_true, BitVec.toNat_add]
    exact Nat.mod_eq_of_lt (by simp; omega)

theorem bounded_step (h : y.1.repInterval ≤ y.1.replenishCycles) (hc : Clear y.1 i)
    (he : i.funcEn = true) : nextRepInterval y.1 ≤
      if i.procLd then i.replenishCyclesIn else y.1.replenishCycles := by
  have hn := toNat_nextRepInterval h
  rw [BitVec.le_def] at h ⊢
  rw [hn]
  by_cases hr : y.1.repInterval = y.1.replenishCycles
  · have hrep : repEn y.1 = true := by simp [repEn, hr]
    rw [if_pos hrep]
    exact Nat.zero_le _
  · have hrep : repEn y.1 = false := by simp [repEn, hr]
    rw [hrep, if_neg Bool.false_ne_true]
    cases hl : i.procLd with
    | true =>
      obtain heq | hlt := hc he hl
      · exact absurd heq hr
      · rw [BitVec.lt_def] at hlt
        exact hlt
    | false =>
      have hne : y.1.repInterval.toNat ≠ y.1.replenishCycles.toNat := fun hn =>
        hr (BitVec.eq_of_toNat_eq hn)
      simp only [Bool.false_eq_true, if_false]
      omega

theorem account_step (h : AccountInv y) (hc : Clear y.1 i) : AccountInv (accounted.step y i) := by
  show AccountInv (next y.1 i, y.2.update y.1 i)
  unfold next Account.update
  cases he : i.funcEn with
  | false => exact h
  | true =>
    rw [if_pos rfl, if_pos rfl]
    refine ⟨bounded_step h.bounded hc he, ?_, ?_⟩
    · show (if repEn y.1 then 0 else y.2.since + 1) = (nextRepInterval y.1).toNat
      rw [toNat_nextRepInterval h.bounded, h.since_eq]
    · intro k
      have hcov := h.covered k
      have hstep := nextCredit_le (s := y.1) (i := i) (k := k)
      cases hl : i.procLd with
      | true => simp
      | false =>
        simp only [Bool.false_eq_true, if_false]
        have hc' : (if Account.chargesBin y.1 i k then y.2.charges k + 1 else y.2.charges k) =
            y.2.charges k + (Account.chargesBin y.1 i k).toNat := by
          cases Account.chargesBin y.1 i k <;> rfl
        have hr' : (if addEn y.1 i k then y.2.refunded k + 1 else y.2.refunded k) =
            y.2.refunded k + (addEn y.1 i k).toNat := by
          cases addEn y.1 i k <;> rfl
        have hn' : (y.1.repCredit k).toNat *
            (if repEn y.1 then y.2.replenished + 1 else y.2.replenished) =
              (y.1.repCredit k).toNat * y.2.replenished +
                if repEn y.1 then (y.1.repCredit k).toNat else 0 := by
          cases repEn y.1 <;> simp [Nat.mul_succ]
        rw [hc', hr', hn']
        omega

theorem account_init : AccountInv (reset, .init) where
  bounded := by decide
  since_eq := rfl
  covered := by
    intro k
    exact Nat.le_refl _

theorem replenished_of_inv (h : AccountInv y) : Replenished y where
  bounded := h.bounded
  period := by
    rw [h.since_eq]
    exact h.bounded
  wait := by
    have hle := h.bounded
    rw [BitVec.toNat_sub_of_le hle]
    rw [BitVec.le_def] at hle
    omega
  covered := fun k => Nat.le_trans (Nat.le_add_right _ _) (h.covered k)

/-- Credits are replenished in time and cover the charges while no configuration is loaded whose
period is over already. -/
theorem replenished_of_clear (y : State × Account)
    (h : accounted.Reachable (fun y i => Clear y.1 i) y) : Replenished y := by
  refine replenished_of_inv (h.invariant ?_ ?_)
  · rintro ⟨s, g⟩ ⟨rfl, rfl⟩
    exact account_init
  · intro y i hi hc
    exact account_step hi hc

instance (s : State) (i : Input) : Decidable (Clear s i) :=
  inferInstanceAs (Decidable (_ → _ → _))

/-- A configuration with one credit for each bin, and an enabled cycle. -/
def load (cycles : BitVec 16) : Input where
  funcEn := true
  procLd := true
  creditIn := fun _ => 1
  replenishCyclesIn := cycles
  binScaleIn := 0
  l1missIn := false
  l1missTag := 0
  l2responseIn := false
  l2missIn := false
  l2missTag := 0

/-- A cycle without a load, a miss or a response. -/
def idle : Input := { load 0 with procLd := false }

theorem accounted_reset : accounted.init (reset, .init) := ⟨rfl, rfl⟩

theorem replenished_of_clear_load :
    Replenished (accounted.run (reset, .init) [load 5, idle, idle, load 4]) := by
  refine replenished_of_clear _ ((Machine.Reachable.init accounted_reset).run ?_)
  decide

/-- After three cycles of a period of five, a period of two is loaded. -/
theorem not_replenished : ¬ ∀ y, accounted.Reachable (fun _ _ => True) y → Replenished y := by
  intro h
  have hr : accounted.Reachable (fun _ _ => True)
      (accounted.run (reset, .init) [load 5, idle, idle, load 2]) :=
    (Machine.Reachable.init accounted_reset).run ⟨trivial, trivial, trivial, trivial, trivial⟩
  have hb := (h _ hr).bounded
  revert hb
  decide

end Runs

end Piton.Dmbr
