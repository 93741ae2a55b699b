import Mathlib.Algebra.GroupWithZero.Nat
import Piton.Lib.Machine
import Piton.Lib.MaskedWrite
import Piton.Lib.Sizes

/-! `l2_state`: the state array of the L2 with the bypass for a read and a write of one index in one
cycle. The bypass is generated for the width that the template names, and the ports have the width
of the configured associativity. -/

namespace Piton.L2

open Hw

/-- `L2_STATE_ARRAY_WIDTH` of the header: 15 bits for each way, `L2_RB_BITS` and `L2_LRU_BITS`. -/
def l2StateArrayWidth (ways : Nat) : Nat := 15 * ways + Nat.log2 ways + ways

/-- `L2_STATE_ARRAY_WIDTH` of the template that generates the bypass. -/
def bypassWidth : Nat := 66

variable {w k : Nat}

/-- The inputs of one cycle; `undef` is what the array returns on the masked bits when a read and a
write meet. -/
structure StateArrayInput (w k : Nat) where
  rdEn : Bool
  rdAddr : BitVec k
  wrEn : Bool
  wrAddr : BitVec k
  dataIn : BitVec w
  dataMaskIn : BitVec w
  undef : BitVec w

/-- The array, its output register `DOUTA` and the registers of the bypass. The bits of `data_out`
that the bypass does not assign hold what they had: `held`. -/
structure StateArray (w k : Nat) where
  cache : BitVec k → BitVec w
  douta : BitVec w
  dataInBuf : BitVec w
  dataMaskInBuf : BitVec w
  bypassF : Bool
  held : BitVec w

namespace StateArray

/-- The word written is the one read. -/
def bypassNext (i : StateArrayInput w k) : Bool := i.rdEn && i.wrEn && i.rdAddr == i.wrAddr

/-- `data_out`: with the bypass, the bits that the template generates take the written value under
the mask, and no other bit is assigned. -/
def dataOut (s : StateArray w k) : BitVec w :=
  if s.bypassF then
    maskedWrite s.held (maskedWrite s.douta s.dataInBuf s.dataMaskInBuf)
      ((BitVec.allOnes bypassWidth).setWidth w)
  else s.douta

/-- A clock edge; port A reads and port B writes. -/
def step (s : StateArray w k) (i : StateArrayInput w k) : StateArray w k where
  cache :=
    if i.wrEn then
      Function.update s.cache i.wrAddr (maskedWrite (s.cache i.wrAddr) i.dataIn i.dataMaskIn)
    else s.cache
  douta :=
    if i.rdEn then
      if i.wrEn && i.rdAddr == i.wrAddr then
        maskedWrite (s.cache i.rdAddr) i.undef i.dataMaskIn
      else s.cache i.rdAddr
    else s.douta
  dataInBuf := i.dataIn
  dataMaskInBuf := i.dataMaskIn
  bypassF := bypassNext i
  held := dataOut s

/-- The array starts with zeros and the registers with anything. -/
def machine (w k : Nat) : Machine (StateArray w k) (StateArrayInput w k) where
  init s := s.cache = fun _ => 0
  step := step

/-- The array with the inputs of the past cycles, the latest first. -/
def traced (w k : Nat) :
    Machine (StateArray w k × List (StateArrayInput w k)) (StateArrayInput w k) :=
  (machine w k).withHistory [] fun h _ i => i :: h

/-- The value of bit `b` at index `a` from the latest write whose mask covers it. -/
def latestWrite : List (StateArrayInput w k) → BitVec k → Nat → Bool
  | [], _, _ => false
  | i :: h, a, b =>
    if i.wrEn = true ∧ i.wrAddr = a ∧ i.dataMaskIn.getLsbD b = true then i.dataIn.getLsbD b
    else latestWrite h a b

/-- A read in the cycle `i` returns for every bit the latest write, that of the cycle included. -/
def ReadsLatest (s : StateArray w k) (h : List (StateArrayInput w k)) (i : StateArrayInput w k) :
    Prop :=
  ∀ b < w, (dataOut (step s i)).getLsbD b = latestWrite (i :: h) i.rdAddr b

/-- Every read of every run returns the latest writes. -/
def TraceLaw (w k : Nat) : Prop :=
  ∀ z, (traced w k).Reachable (fun _ _ => True) z → ∀ i, i.rdEn = true → ReadsLatest z.1 z.2 i

variable {s : StateArray w k} {h : List (StateArrayInput w k)} {i : StateArrayInput w k}

/-- The array holds the latest write of every bit. -/
def Current (s : StateArray w k) (h : List (StateArrayInput w k)) : Prop :=
  ∀ a, ∀ b < w, (s.cache a).getLsbD b = latestWrite h a b

theorem Current.step (hc : Current s h) : Current (step s i) (i :: h) := by
  intro a b hb
  have hold := hc a b hb
  unfold StateArray.step latestWrite
  cases hw : i.wrEn with
  | false => simpa using hold
  | true =>
    by_cases ha : i.wrAddr = a
    · subst ha
      simp only [if_true, Function.update_self, maskedWrite_getLsbD, true_and]
      rw [hold]
    · simp only [if_true, Function.update_of_ne (Ne.symm ha), true_and, ha, false_and, if_false]
      exact hold

theorem current_of_reachable {z : StateArray w k × List (StateArrayInput w k)}
    (hz : (traced w k).Reachable (fun _ _ => True) z) : Current z.1 z.2 := by
  refine hz.invariant (fun z hinit a b _ => ?_) (fun z i hc _ => Current.step hc)
  obtain ⟨hcache, hnil⟩ := hinit
  change z.1.cache = _ at hcache
  rw [hcache, hnil]
  simp [latestWrite]

/-- What a read returns without a write of its index in its cycle. -/
theorem dataOut_of_not_bypass (hrd : i.rdEn = true) (hb : bypassNext i = false) :
    dataOut (step s i) = s.cache i.rdAddr := by
  unfold bypassNext at hb
  rw [hrd, Bool.true_and] at hb
  unfold dataOut step
  simp only [bypassNext, hrd, Bool.true_and, hb, if_true, if_neg Bool.false_ne_true]

/-- What a read returns with a write of its index in its cycle. -/
theorem dataOut_of_bypass (hb : bypassNext i = true) (b : Nat) :
    (dataOut (step s i)).getLsbD b =
      if b < bypassWidth ∧ b < w then
        if i.dataMaskIn.getLsbD b then i.dataIn.getLsbD b else (s.cache i.rdAddr).getLsbD b
      else (dataOut s).getLsbD b := by
  have hb' := hb
  unfold bypassNext at hb'
  rw [Bool.and_eq_true, Bool.and_eq_true] at hb'
  unfold dataOut step
  simp only [hb, hb'.1.1, hb'.1.2, hb'.2, if_true, Bool.and_true, maskedWrite_getLsbD,
    BitVec.getLsbD_setWidth, BitVec.getLsbD_allOnes]
  by_cases hlt : b < bypassWidth ∧ b < w
  · rw [if_pos hlt, decide_eq_true hlt.1, decide_eq_true hlt.2, Bool.and_true, if_pos rfl]
    cases i.dataMaskIn.getLsbD b <;> simp
  · rw [if_neg hlt, if_neg]
    · rfl
    · simpa [and_comm] using hlt

/-- Bits within the generated bypass are read right. -/
theorem getLsbD_dataOut (hc : Current s h) (hrd : i.rdEn = true) {b : Nat} (hw : b < w)
    (hb : b < bypassWidth ∨ bypassNext i = false) :
    (dataOut (step s i)).getLsbD b = latestWrite (i :: h) i.rdAddr b := by
  have hold := hc i.rdAddr b hw
  cases hbyp : bypassNext i with
  | false =>
    rw [dataOut_of_not_bypass hrd hbyp, hold, latestWrite, if_neg]
    rintro ⟨hwr, ha, -⟩
    unfold bypassNext at hbyp
    rw [hrd, hwr, ha] at hbyp
    simp at hbyp
  | true =>
    have hlt : b < bypassWidth := by
      obtain hlt | hno := hb
      · exact hlt
      · rw [hbyp] at hno
        cases hno
    rw [dataOut_of_bypass hbyp, if_pos ⟨hlt, hw⟩, latestWrite, hold]
    unfold bypassNext at hbyp
    rw [Bool.and_eq_true, Bool.and_eq_true, beq_iff_eq] at hbyp
    simp only [hbyp.1.2, hbyp.2, true_and]

/-- All bits are zero. -/
def zero (w k : Nat) : StateArray w k := ⟨fun _ => 0, 0, 0, 0, false, 0⟩

/-- A read and a write of ones meet at index 0. -/
def meeting (w k : Nat) : StateArrayInput w k :=
  ⟨true, 0, true, 0, BitVec.allOnes w, BitVec.allOnes w, 0⟩

theorem zero_reachable (w k : Nat) :
    (traced w k).Reachable (fun _ _ => True) (zero w k, []) := .init ⟨rfl, rfl⟩

/-- A bit above the generated bypass is not read from the write that meets the read. -/
theorem not_readsLatest_meeting (h : bypassWidth < w) :
    ¬ReadsLatest (zero w k) [] (meeting w k) := by
  intro hread
  have hbyp : bypassNext (meeting w k) = true := by simp [bypassNext, meeting]
  have hbit := hread bypassWidth h
  rw [dataOut_of_bypass hbyp, if_neg fun hlt => Nat.lt_irrefl _ hlt.1] at hbit
  have hold : (dataOut (zero w k)).getLsbD bypassWidth = false := by
    simp [dataOut, zero]
  have hnew : latestWrite [meeting w k] (meeting w k).rdAddr bypassWidth = true := by
    simp [latestWrite, meeting, h]
  rw [hold, hnew] at hbit
  cases hbit

theorem traceLaw_iff (w k : Nat) : TraceLaw w k ↔ w ≤ bypassWidth := by
  constructor
  · intro hlaw
    apply Nat.le_of_not_lt
    intro hlt
    exact not_readsLatest_meeting hlt (hlaw _ (zero_reachable w k) (meeting w k) rfl)
  · intro hle z hz i hrd b hb
    exact getLsbD_dataOut (current_of_reachable hz) hrd hb (.inl (Nat.lt_of_lt_of_le hb hle))

theorem l2StateArrayWidth_le_iff (ways : Nat) :
    l2StateArrayWidth ways ≤ bypassWidth ↔ ways ≤ 4 := by
  unfold l2StateArrayWidth bypassWidth
  constructor
  · intro hle
    by_contra hlt
    have hlog : 2 ≤ Nat.log2 ways := (Nat.le_log2 (by omega)).2 (by omega)
    omega
  · intro hle
    have hlog : Nat.log2 ways ≤ 2 := by
      by_cases h0 : ways = 0
      · rw [h0]
        decide
      · have hlt : Nat.log2 ways < 3 := (Nat.log2_lt h0).2 (by omega)
        omega
    omega

end StateArray

/-- The reads of an associativity all return the latest writes exactly when it has at most four
ways, and with any number of ways those that no write of the same index meets. -/
theorem stateArray_traceLaw (ways k : Nat) :
    (StateArray.TraceLaw (l2StateArrayWidth ways) k ↔ ways ≤ 4) ∧
    ∀ z, (StateArray.traced (l2StateArrayWidth ways) k).Reachable (fun _ _ => True) z →
      ∀ i, i.rdEn = true → StateArray.bypassNext i = false → StateArray.ReadsLatest z.1 z.2 i := by
  refine ⟨(StateArray.traceLaw_iff _ k).trans (StateArray.l2StateArrayWidth_le_iff ways), ?_⟩
  intro z hz i hrd hbyp b hb
  exact StateArray.getLsbD_dataOut (StateArray.current_of_reachable hz) hrd hb (.inr hbyp)

/-- With eight ways and 128 sets, the read that meets a write of ones loses bit 66. -/
theorem not_stateArray_traceLaw : ¬∀ ways k, StateArray.TraceLaw (l2StateArrayWidth ways) k := by
  intro hlaw
  have hwidth : bypassWidth < l2StateArrayWidth 8 := by decide
  exact StateArray.not_readsLatest_meeting hwidth
    (hlaw 8 7 _ (StateArray.zero_reachable _ 7) (StateArray.meeting _ 7) rfl)

end Piton.L2
