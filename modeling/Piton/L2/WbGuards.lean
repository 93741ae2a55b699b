import Piton.L2.Mshr
import Piton.Lib.Select

/-! When the write-back guard counter of `l2_mshr` is the number of guards that wait. -/

namespace Piton.L2

open Hw

namespace Mshr

variable {w t : Nat} {s : Mshr w} {i : MshrInput w t} {q h : Fin 8}

/-! ### What a cycle does to the guards -/

/-- The entry is a guard once the data of this cycle are written. -/
def guardAfter (s : Mshr w) (i : MshrInput w t) (k : Fin 8) : Bool :=
  (if i.wrDataEn && k = i.wrIndexIn then i.merge (s.dataMem k) else s.dataMem k).isGuard

/-- The entry at the write index waits as a guard once the data of this cycle are written. -/
def staysGuard (s : Mshr w) (i : MshrInput w t) : Bool :=
  s.stateMem i.wrIndexIn = .wait && s.guardAfter i i.wrIndexIn

/-- A guard is written with the state `WAIT`. -/
def entersGuard (s : Mshr w) (i : MshrInput w t) : Bool :=
  i.stateIn = .wait && s.guardAfter i i.wrIndexIn

/-- A guard that is popped beside a write stays locked. -/
def relocksGuard (s : Mshr w) (i : MshrInput w t) : Bool :=
  (s.popped i).any fun q => q ≠ i.wrIndexIn && (s.dataMem q).smcMiss && (s.dataMem q).isGuard

/-- The cycle changes the counter by as much as the number of guards that wait. A write that counts
adds one, a hit on a guard takes one away, and a forced clear takes the guards away but not their
number. -/
def Counted (s : Mshr w) (i : MshrInput w t) : Prop :=
  if i.wrStateEn then
    (s.entersGuard i).toNat + (s.relocksGuard i).toNat =
        (s.waits i.wrIndexIn).toNat + (counts i).toNat ∧
      s.waiting + (counts i).toNat < 8
  else
    match s.popped i with
    | some q =>
      ((s.dataMem q).smcMiss && s.guardAfter i q).toNat + (s.staysGuard i).toNat =
        (s.waits i.wrIndexIn).toNat
    | none =>
      match s.guardHit i with
      | some h =>
        (i.wrIndexIn ≠ h && s.staysGuard i).toNat + 1 =
          (s.waits h).toNat + (i.wrIndexIn ≠ h && s.waits i.wrIndexIn).toNat
      | none => s.waiting ≤ wbgThreshold ∧ s.staysGuard i = s.waits i.wrIndexIn

theorem guardAfter_of_ne {k : Fin 8} (hk : k ≠ i.wrIndexIn) :
    s.guardAfter i k = (s.dataMem k).isGuard := by
  simp [guardAfter, hk]

theorem waits_step (k : Fin 8) :
    (s.step i).waits k = (s.stateNext i k = .wait && s.guardAfter i k) := rfl

theorem pendingIndex_state (hq : s.pendingIndex = some q) : s.stateMem q = .pending := by
  simpa using List.find?_some hq

theorem popped_state (hq : s.popped i = some q) : s.stateMem q = .pending := by
  rw [popped] at hq
  split at hq
  · exact pendingIndex_state hq
  · cases hq

theorem waits_popped (hq : s.popped i = some q) : s.waits q = false := by
  simp [waits, popped_state hq]

theorem poppedState_wait (q : Fin 8) :
    decide (s.poppedState q = .wait) = (s.dataMem q).smcMiss := by
  rw [poppedState]
  split
  case isTrue h => rw [h]; rfl
  case isFalse h => rw [Bool.not_eq_true] at h; rw [h]; rfl

theorem waiting_write (hw : i.wrStateEn = true) :
    (s.step i).waiting + (s.waits i.wrIndexIn).toNat =
      s.waiting + (s.entersGuard i).toNat + (s.relocksGuard i).toNat := by
  have hself : (s.step i).waits i.wrIndexIn = s.entersGuard i := by
    rw [waits_step, stateNext, if_pos hw, if_pos rfl]
    rfl
  -- without a pop of another entry only the written one changes
  have hone : (∀ q, s.popped i = some q → q = i.wrIndexIn) → s.relocksGuard i = false →
      (s.step i).waiting + (s.waits i.wrIndexIn).toNat =
        s.waiting + (s.entersGuard i).toNat + (s.relocksGuard i).toNat := by
    intro hnone hrel
    have hchange := tally_change (p := s.waits) (q := (s.step i).waits) (a := i.wrIndexIn) (by
      intro k hk
      have hpop : s.popped i ≠ some k := fun hp => hk (hnone k hp)
      rw [waits_step, stateNext, if_pos hw, if_neg hk, if_neg hpop, guardAfter_of_ne hk]
      rfl)
    rw [hself] at hchange
    rw [hrel]
    exact hchange
  cases hp : s.popped i with
  | none =>
    refine hone (fun q hq => ?_) ?_
    · rw [hp] at hq
      cases hq
    · rw [relocksGuard, hp]
      rfl
  | some q =>
    by_cases hq : q = i.wrIndexIn
    · refine hone (fun q' hq' => ?_) ?_
      · rw [hp, Option.some_inj] at hq'
        rw [← hq', hq]
      · simp [relocksGuard, hp, hq]
    · have hchange := tally_change_two (p := s.waits) (q := (s.step i).waits) (a := i.wrIndexIn)
        (b := q) (Ne.symm hq) (by
          intro k hk hkq
          have hpop : s.popped i ≠ some k := by
            rw [hp, Ne, Option.some_inj]
            exact fun h => hkq h.symm
          rw [waits_step, stateNext, if_pos hw, if_neg hk, if_neg hpop, guardAfter_of_ne hk]
          rfl)
      have hpopped : (s.step i).waits q = s.relocksGuard i := by
        rw [waits_step, stateNext, if_pos hw, if_neg hq, if_pos hp, poppedState_wait,
          guardAfter_of_ne hq]
        simp [relocksGuard, hp, hq]
      rw [hself, hpopped, waits_popped hp] at hchange
      exact hchange

theorem waiting_pop (hw : i.wrStateEn = false) (hp : s.popped i = some q) :
    (s.step i).waiting + (s.waits i.wrIndexIn).toNat =
      s.waiting + ((s.dataMem q).smcMiss && s.guardAfter i q).toNat + (s.staysGuard i).toNat := by
  have hstate : ∀ k, s.stateNext i k = if k = q then s.poppedState k else s.stateMem k := by
    intro k
    rw [stateNext, hw, hp]
    rfl
  have hpopped : (s.step i).waits q = ((s.dataMem q).smcMiss && s.guardAfter i q) := by
    rw [waits_step, hstate, if_pos rfl, poppedState_wait]
  by_cases hq : q = i.wrIndexIn
  · have hchange := tally_change (p := s.waits) (q := (s.step i).waits) (a := q) (by
      intro k hk
      rw [waits_step, hstate, if_neg hk, guardAfter_of_ne (hq ▸ hk)]
      rfl)
    have hstays : s.staysGuard i = false := by
      simp [staysGuard, ← hq, popped_state hp]
    rw [hpopped] at hchange
    rw [hstays, ← hq]
    exact hchange
  · have hchange := tally_change_two (p := s.waits) (q := (s.step i).waits) (a := i.wrIndexIn)
      (b := q) (Ne.symm hq) (by
        intro k hk hkq
        rw [waits_step, hstate, if_neg hkq, guardAfter_of_ne hk]
        rfl)
    have hself : (s.step i).waits i.wrIndexIn = s.staysGuard i := by
      rw [waits_step, hstate, if_neg (Ne.symm hq)]
      rfl
    rw [hself, hpopped, waits_popped hp] at hchange
    rw [Bool.toNat_false, Nat.add_zero] at hchange
    rw [waiting, waiting, hchange]
    omega

theorem waiting_hit (hw : i.wrStateEn = false) (hp : s.popped i = none)
    (hh : s.guardHit i = some h) :
    (s.step i).waiting + ((s.waits h).toNat + (i.wrIndexIn ≠ h && s.waits i.wrIndexIn).toNat) =
      s.waiting + (i.wrIndexIn ≠ h && s.staysGuard i).toNat := by
  have hstate : ∀ k, s.stateNext i k = if k = h then .pending else s.stateMem k := by
    intro k
    rw [stateNext, hw, hp, hh]
    rfl
  have hhit : (s.step i).waits h = false := by
    rw [waits_step, hstate, if_pos rfl]
    rfl
  by_cases hq : h = i.wrIndexIn
  · have hchange := tally_change (p := s.waits) (q := (s.step i).waits) (a := h) (by
      intro k hk
      rw [waits_step, hstate, if_neg hk, guardAfter_of_ne (hq ▸ hk)]
      rfl)
    rw [hhit] at hchange
    simp only [← hq, ne_eq, not_true, decide_false, Bool.false_and, Bool.toNat_false, Nat.add_zero]
    exact hchange
  · have hchange := tally_change_two (p := s.waits) (q := (s.step i).waits) (a := i.wrIndexIn)
      (b := h) (Ne.symm hq) (by
        intro k hk hkh
        rw [waits_step, hstate, if_neg hkh, guardAfter_of_ne hk]
        rfl)
    have hself : (s.step i).waits i.wrIndexIn = s.staysGuard i := by
      rw [waits_step, hstate, if_neg (Ne.symm hq)]
      rfl
    rw [hself, hhit] at hchange
    have hne : decide (i.wrIndexIn ≠ h) = true := decide_eq_true (Ne.symm hq)
    rw [hne, Bool.true_and, Bool.true_and]
    rw [Bool.toNat_false] at hchange
    rw [waiting, waiting]
    omega

theorem waiting_idle (hw : i.wrStateEn = false) (hp : s.popped i = none)
    (hh : s.guardHit i = none) (hc : s.wbgCounter.toNat ≤ wbgThreshold) :
    (s.step i).waiting + (s.waits i.wrIndexIn).toNat = s.waiting + (s.staysGuard i).toNat := by
  have hstate : ∀ k, s.stateNext i k = s.stateMem k := by
    intro k
    rw [stateNext, hw, hp, hh]
    exact if_neg (Nat.not_lt.2 hc)
  have hchange := tally_change (p := s.waits) (q := (s.step i).waits) (a := i.wrIndexIn) (by
    intro k hk
    rw [waits_step, hstate, guardAfter_of_ne hk]
    rfl)
  have hself : (s.step i).waits i.wrIndexIn = s.staysGuard i := by
    rw [waits_step, hstate]
    rfl
  rw [hself] at hchange
  exact hchange

/-- A forced clear leaves no guard but one whose type is written at the same time. -/
theorem waiting_clear (hw : i.wrStateEn = false) (hp : s.popped i = none)
    (hh : s.guardHit i = none) (hc : wbgThreshold < s.wbgCounter.toNat) :
    (s.step i).waiting ≤ 1 := by
  have hstate : ∀ k, s.stateNext i k = if s.waits k then .pending else s.stateMem k := by
    intro k
    rw [stateNext, hw, hp, hh]
    exact if_pos hc
  have hchange := tally_change (p := fun _ => false) (q := (s.step i).waits) (a := i.wrIndexIn) (by
    intro k hk
    rw [waits_step, hstate, guardAfter_of_ne hk]
    cases hwk : s.waits k with
    | true => rfl
    | false => exact hwk)
  rw [tally_false fun _ => rfl] at hchange
  have hle := Bool.toNat_le ((s.step i).waits i.wrIndexIn)
  rw [Bool.toNat_false] at hchange
  rw [waiting]
  omega

/-! ### The counter -/

/-- The guards are counted, the counter does not wrap, and the forced clear takes place exactly when no
other update comes first and more guards than the threshold wait. -/
structure GuardsCounted (s : Mshr w) (i : MshrInput w t) : Prop where
  exact : s.wbgCounter.toNat = s.waiting
  up : counts i = true → s.wbgCounter.toNat + 1 < 8
  down : s.uncounts i = true → 0 < s.wbgCounter.toNat
  forced : s.clears i = true ↔ i.wrStateEn = false ∧ s.popped i = none ∧ s.guardHit i = none ∧
    wbgThreshold < s.waiting

theorem counts_write (hc : counts i = true) : i.wrStateEn = true := by
  simp only [counts, Bool.and_eq_true] at hc
  exact hc.1.1.1.1

theorem wbgCounterNext_write (hw : i.wrStateEn = true) :
    s.wbgCounterNext i = if counts i then s.wbgCounter + 1 else s.wbgCounter := by
  rw [wbgCounterNext]
  simp [uncounts, hw]

theorem wbgCounterNext_other (hw : i.wrStateEn = false) :
    s.wbgCounterNext i =
      if (s.popped i).isNone && (s.guardHit i).isSome then s.wbgCounter - 1 else s.wbgCounter := by
  have hc : counts i = false := by simp [counts, hw]
  rw [wbgCounterNext, hc]
  simp [uncounts, hw]

theorem waiting_le (h : s.wbgCounter.toNat = s.waiting) : s.waiting < 8 := h ▸ s.wbgCounter.isLt

/-- A state in which the guards are counted is followed by another exactly when the cycle counts. -/
theorem counted_iff (h : s.wbgCounter.toNat = s.waiting) :
    (s.step i).wbgCounter.toNat = (s.step i).waiting ↔ s.Counted i := by
  have hlt := waiting_le h
  have hnext : (s.step i).wbgCounter = s.wbgCounterNext i := rfl
  rw [Counted, hnext]
  cases hw : i.wrStateEn with
  | true =>
    have hwait := waiting_write (s := s) hw
    have hrel := Bool.toNat_le (s.waits i.wrIndexIn)
    rw [wbgCounterNext_write hw, if_pos rfl]
    cases hc : counts i with
    | true =>
      have hadd : (s.wbgCounter + 1).toNat = (s.waiting + 1) % 8 := by
        rw [BitVec.toNat_add, h]
        rfl
      rw [if_pos rfl, hadd, Bool.toNat_true]
      omega
    | false =>
      rw [if_neg Bool.false_ne_true, h, Bool.toNat_false]
      omega
  | false =>
    rw [wbgCounterNext_other hw, if_neg Bool.false_ne_true]
    cases hp : s.popped i with
    | some q =>
      have hwait := waiting_pop hw hp
      simp only [Option.isNone_some, Bool.false_and, Bool.false_eq_true, if_false]
      omega
    | none =>
      cases hh : s.guardHit i with
      | some g =>
        have hwait := waiting_hit hw hp hh
        have hstays := Bool.toNat_le (i.wrIndexIn ≠ g && s.staysGuard i)
        have hle : (s.waits g).toNat ≤ s.waiting := toNat_le_tally s.waits g
        have hle' : (i.wrIndexIn ≠ g && s.waits i.wrIndexIn).toNat ≤ s.waiting := by
          cases hg : decide (i.wrIndexIn ≠ g) with
          | false => exact Nat.zero_le _
          | true => exact toNat_le_tally s.waits i.wrIndexIn
        have hsub : (s.wbgCounter - 1).toNat = (s.waiting + 7) % 8 := by
          rw [BitVec.toNat_sub, h]
          simp [Nat.add_comm]
        simp only [Option.isNone_none, Option.isSome_some, Bool.and_self, if_true]
        rw [hsub]
        omega
      | none =>
        simp only [Option.isNone_none, Option.isSome_none, Bool.and_false, Bool.false_eq_true,
          if_false]
        by_cases hc : s.wbgCounter.toNat ≤ wbgThreshold
        · have hwait := waiting_idle hw hp hh hc
          rw [h] at hc ⊢
          have hbool : s.staysGuard i = s.waits i.wrIndexIn ↔
              (s.staysGuard i).toNat = (s.waits i.wrIndexIn).toNat := by
            cases s.staysGuard i <;> cases s.waits i.wrIndexIn <;> decide
          rw [hbool, and_iff_right hc]
          omega
        · have hwait := waiting_clear hw hp hh (Nat.not_le.1 hc)
          rw [h] at hc ⊢
          have h4 : wbgThreshold = 4 := rfl
          omega

theorem guardsCounted_of (h : s.wbgCounter.toNat = s.waiting) (hc : s.Counted i) :
    GuardsCounted s i where
  exact := h
  up := by
    intro hcounts
    rw [Counted, if_pos (counts_write hcounts), hcounts] at hc
    rw [h]
    exact hc.2
  down := by
    intro hun
    simp only [uncounts, Bool.and_eq_true, Bool.not_eq_true'] at hun
    obtain ⟨⟨hw, hp⟩, hh⟩ := hun
    rw [Option.isNone_iff_eq_none] at hp
    obtain ⟨g, hg⟩ := Option.isSome_iff_exists.1 hh
    have hwait := waiting_hit hw hp hg
    rw [Counted, hw, hp, hg] at hc
    simp only [Bool.false_eq_true, if_false] at hc
    omega
  forced := by
    rw [clears, h]
    simp [and_assoc]

end Mshr

/-- In a run from reset the guards are counted in every cycle exactly when every cycle changes the
counter by as much as their number. -/
theorem guardsCounted_iff {w t : Nat} {r : Nat → Mshr w} {i : Nat → MshrInput w t}
    (hr : (mshrArray w t).IsRun r i) (h0 : (mshrArray w t).init (r 0)) :
    (∀ n, Mshr.GuardsCounted (r n) (i n)) ↔ ∀ n, (r n).Counted (i n) := by
  have hstep : ∀ n, r (n + 1) = (r n).step (i n) := hr
  constructor
  · intro h n
    rw [← Mshr.counted_iff (h n).exact, ← hstep n]
    exact (h (n + 1)).exact
  · intro h n
    refine Mshr.guardsCounted_of ?_ (h n)
    induction n with
    | zero =>
      have h0 : r 0 = .init := h0
      rw [h0, Mshr.waiting, tally_false]
      · rfl
      · exact fun _ => rfl
    | succ n ih =>
      rw [hstep n]
      exact (Mshr.counted_iff ih).2 (h n)

/-- Five write-back guards for different lines, then nothing. -/
def fiveGuards (n : Nat) : MshrInput 2 8 where
  camEn := false
  wrStateEn := n < 5
  wrDataEn := n < 5
  pendingReady := false
  incCounterEn := false
  stateIn := .wait
  dataIn := (13#122 <<< 54) ||| (BitVec.ofNat 122 n <<< 6)
  dataMaskIn := BitVec.allOnes 122
  wrIndexIn := Fin.ofNat 8 n
  addrIn := 0

/-- The cycle after the fifth guard is not counted. -/
theorem not_counted_fiveGuards :
    ¬ ∀ n, ((mshrArray 2 8).trace .init fiveGuards n).Counted (fiveGuards n) := by
  intro h
  have hexact := ((guardsCounted_iff (Machine.isRun_trace _ _) rfl).2 h 6).exact
  exact absurd hexact (by decide +kernel)

/-- The forced clear leaves the counter at five. -/
theorem not_guardsCounted :
    ¬ ∀ s, (mshrArray 2 8).Reachable (fun _ _ => True) s → s.wbgCounter.toNat = s.waiting := by
  intro h
  have hrun : (mshrArray 2 8).IsRun ((mshrArray 2 8).trace .init fiveGuards) fiveGuards :=
    Machine.isRun_trace _ _
  have hreach : ∀ n, (mshrArray 2 8).Reachable (fun _ _ => True)
      ((mshrArray 2 8).trace .init fiveGuards n) :=
    fun n => hrun.reachable (Machine.Reachable.init rfl) (fun _ => trivial) n
  exact absurd (h _ (hreach 6)) (by decide +kernel)

end Piton.L2
