import Piton.Mc.Pointers

/-! The entries of the memory bridge after a clock edge: each holds its request's flits and stands
where the pointers say. -/

namespace Piton.Mc

open Hw Piton.Noc

section EntriesStep

variable {p : Config} {y : State p × History p} {e : Input p} {n : Nat}

/-! ### The flits of a request -/

/-- The flit that the parser takes. -/
def taken (s : State p) (e : Input p) : List Flit :=
  if s.accState = .stalled then [] else e.flitIn.toList

/-- The packet that comes in grows by the flit that is taken. -/
theorem pkt_incoming (h : RingInv y) (ho : Obeys y e) (hc : Clear y.1 e) :
    pkt ((recorded p).step y e).2.accepted y.2.nIn = cur y.2.accepted ++ taken y.1 e := by
  have hparse := parse_step h.parse ho hc
  cases hcomp : completes y.1 e with
  | true =>
    have hns := filling_ne_stalled (filling_of_completes hcomp)
    rw [pkt_completed h.parse ho hc hcomp, taken, if_neg hns]
  | false =>
    have hn : ((recorded p).step y e).2.nIn = y.2.nIn := by
      rw [nIn_next, hcomp]
      rfl
    rw [← hn, pkt_nIn hparse]
    by_cases hs : y.1.accState = .stalled
    · rw [accepted_stalled hs, taken, if_pos hs, List.append_nil]
    · rw [taken, if_neg hs]
      cases he : e.flitIn with
      | none =>
        rw [accepted_none he]
        exact (List.append_nil _).symm
      | some f =>
        have hacc := accepted_some hc he hs
        rw [hacc]
        refine cur_snoc ?_
        obtain hf | hw | hs' := filling_or y.1
        · have h1 : due Flit.len y.2.accepted ≠ 1 := by
            intro h1
            rw [(completes_iff h.parse he).2 ⟨hf, h1⟩] at hcomp
            cases hcomp
          have hd := (h.parse.inside hf).1
          rw [due_snoc, if_neg hd]
          omega
        · have hd := h.parse.between (.inl hw)
          have hh := ho.header f he (by simp [flitInRdy, hw, hc.calibrated, he]) hd
          have := hh.len_eq
          rw [due_snoc, if_pos hd]
          omega
        · exact absurd hs' hs

theorem cur_completed (h : RingInv y) (ho : Obeys y e) (hc : Clear y.1 e)
    (hcomp : completes y.1 e = true) :
    pkt ((recorded p).step y e).2.accepted (y.2.nIn + 1) = [] := by
  have hn : ((recorded p).step y e).2.nIn = y.2.nIn + 1 := by rw [nIn_next, if_pos hcomp]
  have hparse := parse_step h.parse ho hc
  rw [← hn, pkt_nIn hparse]
  obtain ⟨f, he⟩ : ∃ f, e.flitIn = some f := by
    cases he : e.flitIn with
    | none => rw [completes_none he] at hcomp; cases hcomp
    | some f => exact ⟨f, rfl⟩
  obtain ⟨hf, h1⟩ := (completes_iff h.parse he).1 hcomp
  refine cur_eq_nil ?_
  rw [accepted_some hc he (filling_ne_stalled hf), due_snoc, if_neg (h.parse.inside hf).1, h1]

/-- A register array that is written with flit `k` of each packet. -/
theorem field_step (h : RingInv y) (ho : Obeys y e) (hc : Clear y.1 e) {α : Type}
    {reg : BitVec 4 → α} {g : Flit → α} {st : AccState} {k : Nat} (hst : st ≠ .stalled)
    (hk : y.1.accState ≠ .stalled → (y.1.accState = st ↔ (cur y.2.accepted).length = k))
    (hreg : ∀ n, y.2.nOut ≤ n → n ≤ y.2.nIn → k < (pkt y.2.accepted n).length →
      reg (idx n) = g ((pkt y.2.accepted n).getD k 0)) :
    ∀ n, ((recorded p).step y e).2.nOut ≤ n → n ≤ ((recorded p).step y e).2.nIn →
      k < (pkt ((recorded p).step y e).2.accepted n).length →
      writeFlit y.1 e reg st y.1.bufCurrentIn g (idx n) =
        g ((pkt ((recorded p).step y e).2.accepted n).getD k 0) := by
  intro n hlo hhi hlen
  have hp := h.pointers
  have hlo' : y.2.nOut ≤ n := by
    rw [nOut_next] at hlo
    split at hlo <;> omega
  have hin := Nat.le_trans hp.out_le_cmd hp.cmd_le_in
  rw [hp.in_eq]
  obtain hlt | rfl | hgt := Nat.lt_trichotomy n y.2.nIn
  · -- an entry that is complete is not written
    have hne : idx n ≠ idx y.2.nIn := fun heq =>
      absurd (idx_inj hlo' (by have := hp.in_le; omega) hin hp.in_le heq) (by omega)
    rw [pkt_next h.parse ho hc hlt] at hlen ⊢
    rw [← hreg n hlo' (Nat.le_of_lt hlt) hlen]
    cases he : e.flitIn <;> simp [writeFlit, he, hne]
  · rw [pkt_incoming h ho hc] at hlen ⊢
    have hpk := pkt_nIn h.parse
    by_cases hs : y.1.accState = .stalled
    · rw [taken, if_pos hs, List.append_nil] at hlen ⊢
      rw [← hpk] at hlen ⊢
      rw [← hreg _ hlo' (Nat.le_refl _) hlen]
      cases he : e.flitIn <;> simp [writeFlit, he, hs, hst.symm]
    · rw [taken, if_neg hs] at hlen ⊢
      cases he : e.flitIn with
      | none =>
        rw [he] at hlen
        rw [Option.toList_none, List.append_nil] at hlen ⊢
        rw [← hpk] at hlen ⊢
        rw [← hreg _ hlo' (Nat.le_refl _) hlen]
        simp [writeFlit, he]
      | some f =>
        rw [he] at hlen
        by_cases hw : y.1.accState = st
        · have hl := (hk hs).1 hw
          simp [writeFlit, he, hw, List.getD_eq_getElem?_getD, ← hl]
        · have hl := mt (hk hs).2 hw
          have hlt : k < (cur y.2.accepted).length := by
            simp at hlen
            omega
          have hlt' := hlt
          rw [← hpk] at hlt'
          rw [List.getD_eq_getElem?_getD, List.getElem?_append_left hlt,
            ← List.getD_eq_getElem?_getD, ← hpk, ← hreg _ hlo' (Nat.le_refl _) hlt']
          simp [writeFlit, he, hw]
  · have hcomp : completes y.1 e = true := by
      by_contra hcomp
      rw [nIn_next, if_neg hcomp] at hhi
      omega
    have hn : n = y.2.nIn + 1 := by
      rw [nIn_next, if_pos hcomp] at hhi
      omega
    rw [hn, cur_completed h ho hc hcomp] at hlen
    exact absurd hlen (Nat.not_lt_zero _)

theorem Parse.length_iff (h : Parse y) (hs : y.1.accState ≠ .stalled) :
    (y.1.accState = .acceptW1 ↔ (cur y.2.accepted).length = 0) ∧
      (y.1.accState = .acceptW2 ↔ (cur y.2.accepted).length = 1) ∧
      (y.1.accState = .acceptW3 ↔ (cur y.2.accepted).length = 2) := by
  cases ha : y.1.accState with
  | acceptW1 => simp [cur_eq_nil (h.between (.inl ha))]
  | acceptW2 => simp [h.w2 ha]
  | acceptW3 => simp [h.w3 ha]
  | acceptData =>
    have h3 := h.data ha
    refine ⟨?_, ?_, ?_⟩ <;> simp only [reduceCtorEq, false_iff] <;> omega
  | stalled => exact absurd ha hs

theorem entries_step (h : RingInv y) (ho : Obeys y e) (hc : Clear y.1 e) :
    Entries ((recorded p).step y e) := by
  have hlen := h.parse.length_iff
  have hcmd := field_step h ho hc (by decide) (fun hs => (hlen hs).1)
    (fun n h1 h2 h3 => (h.entries.first n h1 h2 h3).1)
  have hw1 := field_step h ho hc (by decide) (fun hs => (hlen hs).1)
    (g := id) (fun n h1 h2 h3 => (h.entries.first n h1 h2 h3).2)
  have hw2 := field_step h ho hc (by decide) (fun hs => (hlen hs).2.1) (g := id) h.entries.second
  have hw3 := field_step h ho hc (by decide) (fun hs => (hlen hs).2.2) (g := id) h.entries.third
  exact
    { first := fun n h1 h2 h3 => ⟨hcmd n h1 h2 h3, hw1 n h1 h2 h3⟩
      second := hw2
      third := hw3 }

/-! ### The write pipeline -/

theorem wrenR_next (h : RingInv y) :
    ((recorded p).step y e).1.appWdfWrenR = (appWdfWren y.1 && appWdfRdyTrans y.1 e) := by
  show (if appWdfRdyTrans y.1 e then appWdfWren y.1 else y.1.appWdfWrenR) = _
  cases ht : appWdfRdyTrans y.1 e with
  | true => simp
  | false =>
    have hr : y.1.appWdfWrenR = false := by
      rw [← Bool.not_eq_true]
      intro hr
      rw [rdyTrans_of_idle h (h.pipeline.r hr).2] at ht
      cases ht
    simp [hr]

theorem wrenRR_next (h : RingInv y) :
    ((recorded p).step y e).1.appWdfWrenRR = y.1.appWdfWrenR := by
  show (if appWdfRdyTrans y.1 e then y.1.appWdfWrenR else y.1.appWdfWrenRR) = _
  cases ht : appWdfRdyTrans y.1 e with
  | true => rfl
  | false =>
    cases hr : y.1.appWdfWrenR with
    | true =>
      rw [rdyTrans_of_idle h (h.pipeline.r hr).2] at ht
      cases ht
    | false =>
      rw [if_neg Bool.false_ne_true, ← Bool.not_eq_true]
      intro hrr
      rw [rdyTrans_of_idle h (h.pipeline.rr hrr)] at ht
      cases ht

/-- The pointer waits for a store that is offered or in the first register. -/
theorem wdfMoves_of_wren (h : RingInv y) (hc : Clear y.1 e)
    (hw : appWdfWren y.1 = true ∨ y.1.appWdfWrenR = true) : wdfMoves y.1 e = false := by
  rw [← Bool.not_eq_true]
  intro hm
  have hs : y.1.appWdfWrenRR = false ∧ isStore (kind (pkt y.2.accepted y.2.nWdf)) = true := by
    obtain hw | hr := hw
    · obtain ⟨-, hk, -, hrr⟩ := wren_at h hw
      exact ⟨hrr, hk⟩
    · exact ⟨(h.pipeline.r hr).1, (h.pipeline.store (.inl hr)).2⟩
  obtain ⟨-, hrr⟩ | ⟨-, hk⟩ := wdfMoves_at h hc hm
  · rw [hs.1] at hrr
    cases hrr
  · rw [isLoad_not_isStore hk] at hs
    exact absurd hs.2 Bool.false_ne_true

theorem captured_iff : captured y n = true ↔
    n < y.2.nWdf ∨ (n = y.2.nWdf ∧ (y.1.appWdfWrenR = true ∨ y.1.appWdfWrenRR = true)) := by
  simp [captured]

/-- A store is captured when its data is offered and taken. -/
theorem captured_next (h : RingInv y) (hc : Clear y.1 e)
    (hk : isStore (kind (pkt y.2.accepted n)) = true) :
    captured ((recorded p).step y e) n = true ↔ captured y n = true ∨
      (n = y.2.nWdf ∧ appWdfWren y.1 = true ∧ appWdfRdyTrans y.1 e = true) := by
  rw [captured_iff, captured_iff, wrenR_next h, wrenRR_next h, nWdf_next]
  cases hw : appWdfWren y.1 with
  | true =>
    obtain ⟨-, -, hr, hrr⟩ := wren_at h hw
    rw [wdfMoves_of_wren h hc (.inl hw)]
    simp [hr, hrr]
  | false =>
    cases hr : y.1.appWdfWrenR with
    | true =>
      rw [wdfMoves_of_wren h hc (.inr hr)]
      simp
    | false =>
      cases hm : wdfMoves y.1 e with
      | true =>
        obtain ⟨-, hrr⟩ | ⟨-, hl⟩ := wdfMoves_at h hc hm
        · simp [hrr]
          omega
        · have hne : n ≠ y.2.nWdf := by
            rintro rfl
            rw [isLoad_not_isStore hl] at hk
            cases hk
          simp [hne]
          omega
      | false =>
        have hrr : y.1.appWdfWrenRR = false := by
          rw [← Bool.not_eq_true]
          intro hrr
          rw [wdfMoves_of_rr h hrr] at hm
          cases hm
        simp [hrr]

/-- The pointer for read data passes a load when its line is there. -/
theorem rcv_next (h : RingInv y) (hc : Clear y.1 e)
    (hk : isStore (kind (pkt y.2.accepted n)) = false) :
    n < ((recorded p).step y e).2.nRcv ↔
      n < y.2.nRcv ∨ (n = y.2.nRcv ∧ y.1.appRdDataValidReg = true) := by
  rw [nRcv_next]
  cases hm : rcvMoves y.1 with
  | true =>
    rw [if_pos rfl]
    obtain ⟨-, -, -, hv⟩ | ⟨-, hs⟩ := rcvMoves_at h hc hm
    · simp only [hv, and_true]
      omega
    · have hne : n ≠ y.2.nRcv := by
        rintro rfl
        rw [hk] at hs
        cases hs
      simp only [hne, false_and, or_false]
      omega
  | false =>
    have hv : y.1.appRdDataValidReg = false := by
      rw [← Bool.not_eq_true]
      intro hv
      simp [rcvMoves, hv, h.lineEnd] at hm
    simp [hv]

theorem cmd_next : n < ((recorded p).step y e).2.nCmd ↔
    n < y.2.nCmd ∨ (n = y.2.nCmd ∧ cmdMoves y.1 e = true) := by
  rw [nCmd_next]
  cases hm : cmdMoves y.1 e with
  | true => simp; omega
  | false => simp

/-! ### The states of the entries -/

theorem idx_iff {a m n : Nat} (hm : a ≤ m ∧ m ≤ a + 15) (hn : a ≤ n ∧ n ≤ a + 15) :
    idx n = idx m ↔ n = m := by
  constructor
  · exact idx_inj hn.1 hn.2 hm.1 hm.2
  · rintro rfl
    rfl

theorem in_window (h : RingInv y) : y.2.nOut ≤ y.2.nIn ∧ y.2.nIn ≤ y.2.nOut + 15 :=
  ⟨Nat.le_trans h.pointers.out_le_cmd h.pointers.cmd_le_in, h.pointers.in_le⟩

/-- An entry with a request changes with the pointer that stands there. -/
theorem state_pending (h : RingInv y) (hlo : y.2.nOut ≤ n) (hlt : n < y.2.nIn) :
    ((recorded p).step y e).1.pktStateBuf (idx n) =
      if n = y.2.nRcv ∧ y.1.appRdDataValidReg = true then .ready
      else if n = y.2.nCmd ∧ cmdMoves y.1 e = true then
        if isStore (kind (pkt y.2.accepted n)) then .ready else .waitingData
      else if n = y.2.nWdf ∧ appWdfWren y.1 = true ∧ appWdfRdyTrans y.1 e = true then .waitingCmd
      else expected y n := by
  have hp := h.pointers
  have hn : y.2.nOut ≤ n ∧ n ≤ y.2.nOut + 15 := ⟨hlo, by have := hp.in_le; omega⟩
  have hin : idx n ≠ idx y.2.nIn := fun heq => by
    have := (idx_iff (in_window h) hn).1 heq
    omega
  have hout : idx n ≠ idx (y.2.nOut + 15) := fun heq => by
    have := (idx_iff ⟨by omega, Nat.le_refl _⟩ hn).1 heq
    have := hp.in_le
    omega
  show pktStateBufNext y.1 e (idx n) = _
  rw [pktStateBufNext, hp.in_eq, hp.out_eq, hp.rcv_eq, hp.cmd_eq, hp.wdf_eq,
    if_neg (fun hx => hin hx.1), if_neg (fun hx => hout hx.1), cmdBuf_eq h hlo (.inl hlt),
    h.states.pending n hlo hlt, h.lineEnd]
  simp only [idx_iff (rcv_window h) hn, idx_iff (cmd_window h) hn, idx_iff (wdf_window h) hn,
    and_self]

theorem cmdMoves_at (h : RingInv y) (hm : cmdMoves y.1 e = true) :
    y.2.nCmd < y.2.nIn ∧ expected y y.2.nCmd = .waitingCmd := by
  simp only [cmdMoves, Bool.and_eq_true] at hm
  obtain ⟨hlt, hst, -⟩ := h.pipeline.app hm.1
  exact ⟨hlt, by rw [← h.states.pending _ (cmd_window h).1 hlt, hst]⟩

/-- An entry without a request is cleared when it has been sent. -/
theorem state_vacant (h : RingInv y) (hc : Clear y.1 e) (hn : y.2.nIn ≤ n)
    (hn' : n ≤ y.2.nOut + 15) (hf : n = y.2.nIn → e.flitIn = none) :
    ((recorded p).step y e).1.pktStateBuf (idx n) =
      if n = y.2.nOut + 15 ∧ y.1.remainingFltOut = 0 then .inactive
      else y.1.pktStateBuf (idx n) := by
  have hp := h.pointers
  have hw : y.2.nOut ≤ n ∧ n ≤ y.2.nOut + 15 := ⟨Nat.le_trans (in_window h).1 hn, hn'⟩
  have hin : ¬ (n = y.2.nIn ∧ e.flitIn.isSome = true) := by
    rintro ⟨heq, hs⟩
    rw [hf heq] at hs
    cases hs
  have hrcv : ¬ (n = y.2.nRcv ∧ y.1.appRdDataValidReg = true ∧
      y.1.appRdDataEndReg = true) := by
    rintro ⟨heq, hv, -⟩
    have := (line_at h hc hv).1
    omega
  have hcmd : ¬ (n = y.2.nCmd ∧ cmdMoves y.1 e = true) := by
    rintro ⟨heq, hm⟩
    have := (cmdMoves_at h hm).1
    omega
  have hwdf : ¬ (n = y.2.nWdf ∧ appWdfWren y.1 = true ∧ appWdfRdyTrans y.1 e = true) := by
    rintro ⟨heq, hv, -⟩
    have := (wren_at h hv).1
    omega
  have hout : n = y.2.nOut + 15 →
      (y.1.pktStateBuf (idx n) = .ready ∨ y.1.pktStateBuf (idx n) = .inactive) := by
    rintro rfl
    exact h.states.out
  show pktStateBufNext y.1 e (idx n) = _
  rw [pktStateBufNext, hp.in_eq, hp.out_eq, hp.rcv_eq, hp.cmd_eq, hp.wdf_eq]
  simp only [idx_iff (in_window h) hw, idx_iff (rcv_window h) hw, idx_iff (cmd_window h) hw,
    idx_iff (wdf_window h) hw, if_neg hin, if_neg hrcv, if_neg hcmd, if_neg hwdf,
    idx_iff (a := y.2.nOut) ⟨Nat.le_add_right _ _, Nat.le_refl _⟩ hw]
  by_cases heq : n = y.2.nOut + 15
  · simp only [heq, true_and]
    rw [heq] at hout
    simp only [hout rfl, true_and]
  · simp only [heq, false_and]

/-- The entry of the packet that comes in. -/
theorem state_incoming (h : RingInv y) (he : e.flitIn.isSome = true) :
    ((recorded p).step y e).1.pktStateBuf (idx y.2.nIn) =
      if y.1.accState = .acceptW1 then .filling
      else if y.1.accState = .acceptW3 ∧ y.1.remainingFlits = 0 then .waitingCmd
      else if y.1.accState = .acceptData ∧ y.1.remainingFlits = 0 then .waitingWdf
      else if y.1.accState = .stalled ∧ y.2.nIn ≠ y.2.nOut + 15 then .filling
      else y.1.pktStateBuf (idx y.2.nIn) := by
  have hp := h.pointers
  show pktStateBufNext y.1 e (idx y.2.nIn) = _
  rw [pktStateBufNext, hp.in_eq, hp.out_eq, if_pos ⟨rfl, he⟩]
  simp only [ne_eq, idx_iff (a := y.2.nOut) ⟨Nat.le_add_right _ _, Nat.le_refl _⟩ (in_window h)]

theorem expected_store (hk : isStore (kind (pkt y.2.accepted n)) = true) :
    expected y n = if captured y n then if n < y.2.nCmd then .ready else .waitingCmd
      else .waitingWdf := by
  rw [expected, if_pos hk]

theorem expected_load (hk : isStore (kind (pkt y.2.accepted n)) = false) :
    expected y n = if n < y.2.nRcv then .ready
      else if n < y.2.nCmd then .waitingData else .waitingCmd := by
  rw [expected, hk]
  rfl

/-- The entry of a request stands where the pointers say, after the step too. -/
theorem state_expected (h : RingInv y) (ho : Obeys y e) (hc : Clear y.1 e) (hlo : y.2.nOut ≤ n)
    (hlt : n < y.2.nIn) :
    ((recorded p).step y e).1.pktStateBuf (idx n) = expected ((recorded p).step y e) n := by
  have hpk := pkt_next h.parse ho hc hlt
  rw [state_pending h hlo hlt]
  cases hk : isStore (kind (pkt y.2.accepted n)) with
  | true =>
    rw [expected_store (y := (recorded p).step y e) (by rw [hpk, hk])]
    have hrcv : ¬ (n = y.2.nRcv ∧ y.1.appRdDataValidReg = true) := by
      rintro ⟨rfl, hv⟩
      rw [(line_at h hc hv).2.1] at hk
      cases hk
    rw [if_neg hrcv]
    simp only [captured_next h hc hk, cmd_next]
    by_cases hcmd : n = y.2.nCmd ∧ cmdMoves y.1 e = true
    · have hexp := (cmdMoves_at h hcmd.2).2
      rw [← hcmd.1] at hexp
      obtain ⟨-, ⟨-, hcap⟩ | ⟨hl, -⟩⟩ := expected_waitingCmd hexp
      · simp [hcmd, hcmd.1 ▸ hcap]
      · rw [hk] at hl
        cases hl
    · rw [if_neg hcmd]
      by_cases hwdf : n = y.2.nWdf ∧ appWdfWren y.1 = true ∧ appWdfRdyTrans y.1 e = true
      · have hn : ¬ n < y.2.nCmd := by
          have := h.pointers.cmd_le_wdf
          omega
        have hn' : ¬ (n < y.2.nCmd ∨ (n = y.2.nCmd ∧ cmdMoves y.1 e = true)) := by
          rintro (hx | hx)
          · exact hn hx
          · exact hcmd hx
        rw [if_pos hwdf, if_pos (.inr hwdf), if_neg hn']
      · rw [if_neg hwdf, expected_store hk]
        simp only [hwdf, or_false, hcmd]
  | false =>
    rw [expected_load (y := (recorded p).step y e) (by rw [hpk, hk])]
    have hwdf : ¬ (n = y.2.nWdf ∧ appWdfWren y.1 = true ∧ appWdfRdyTrans y.1 e = true) := by
      rintro ⟨rfl, hw, -⟩
      rw [(wren_at h hw).2.1] at hk
      cases hk
    simp only [rcv_next h hc hk, cmd_next, if_neg hwdf]
    by_cases hrcv : n = y.2.nRcv ∧ y.1.appRdDataValidReg = true
    · rw [if_pos hrcv, if_pos (.inr hrcv)]
    · rw [if_neg hrcv]
      by_cases hcmd : n = y.2.nCmd ∧ cmdMoves y.1 e = true
      · have hn : ¬ n < y.2.nRcv := fun hx => by
          have := h.pointers.rcv_cmd n hx hlt ((whole_pkt h.parse hlt).isLoad_iff.2 hk)
          omega
        have hn' : ¬ (n < y.2.nRcv ∨ (n = y.2.nRcv ∧ y.1.appRdDataValidReg = true)) := by
          rintro (hx | hx)
          · exact hn hx
          · exact hrcv hx
        simp only [if_pos hcmd, if_neg hn', if_pos (Or.inr hcmd : n < y.2.nCmd ∨ _)]
        rfl
      · rw [if_neg hcmd]
        simp only [hrcv, hcmd, or_false]
        exact expected_load hk

/-- The pointer for read data does not pass a load that comes in. -/
theorem not_rcv_incoming (h : RingInv y) (hc : Clear y.1 e)
    (hk : isStore (kind (cur y.2.accepted)) = false) :
    ¬ y.2.nIn < ((recorded p).step y e).2.nRcv := by
  rw [rcv_next h hc (by rw [pkt_nIn h.parse, hk])]
  rintro (hx | ⟨hx, hv⟩)
  · obtain hr | ⟨-, -, hr⟩ := h.pointers.rcv_le
    · omega
    · rw [hk] at hr
      cases hr
  · have := (line_at h hc hv).1
    omega

/-- A request that is complete waits for its first pointer. -/
theorem state_completed (h : RingInv y) (ho : Obeys y e) (hc : Clear y.1 e)
    (hcomp : completes y.1 e = true) :
    ((recorded p).step y e).1.pktStateBuf (idx y.2.nIn) =
      expected ((recorded p).step y e) y.2.nIn := by
  have hf := filling_of_completes hcomp
  have hpk : kind (pkt ((recorded p).step y e).2.accepted y.2.nIn) = kind (cur y.2.accepted) := by
    rw [pkt_completed h.parse ho hc hcomp, kind, hdr_append (h.parse.cur_ne_nil hf)]
    rfl
  have hnc : ¬ y.2.nIn < ((recorded p).step y e).2.nCmd := by
    rw [cmd_next]
    rintro (hx | ⟨hx, hm⟩)
    · have := h.pointers.cmd_le_in
      omega
    · have := (cmdMoves_at h hm).1
      omega
  have he : e.flitIn.isSome = true := by
    simp only [completes, Bool.and_eq_true] at hcomp
    exact hcomp.1.1
  obtain ⟨f, hef⟩ := Option.isSome_iff_exists.1 he
  have hrem : y.1.remainingFlits = 0 :=
    (h.parse.remaining_eq_zero hf).2 ((completes_iff h.parse hef).1 hcomp).2
  have h1 := ((completes_iff h.parse hef).1 hcomp).2
  have hacc3 := (h.parse.length_iff (filling_ne_stalled hf)).2.2
  rw [state_incoming h he]
  obtain ⟨hk, hl⟩ | ⟨hk, hl⟩ := h.parse.lacks hf
  · have ha : y.1.accState = .acceptW3 := hacc3.2 (by omega)
    have hks := isLoad_not_isStore hk
    have hnr := not_rcv_incoming h hc hks
    have hexp : expected ((recorded p).step y e) y.2.nIn = .waitingCmd := by
      rw [expected_load (by rw [hpk, hks]), if_neg hnr, if_neg hnc]
    rw [hexp, ha, hrem]
    rfl
  · have ha : y.1.accState = .acceptData := by
      obtain ha | ha : y.1.accState = .acceptW3 ∨ y.1.accState = .acceptData := by
        simp only [completes, Bool.and_eq_true, Bool.or_eq_true, decide_eq_true_iff] at hcomp
        exact hcomp.1.2
      · have := hacc3.1 ha
        omega
      · exact ha
    have hks : isStore (kind (pkt y.2.accepted y.2.nIn)) = true := by rw [pkt_nIn h.parse, hk]
    have hcap : ¬ captured ((recorded p).step y e) y.2.nIn = true := by
      rw [captured_next h hc hks, captured_iff]
      rintro ((hx | ⟨hx, hr⟩) | ⟨hx, hw, -⟩)
      · obtain hw | ⟨-, -, hw⟩ := h.pointers.wdf_le
        · omega
        · rw [isLoad_not_isStore hw] at hk
          cases hk
      · have := (h.pipeline.store hr).1
        omega
      · have := (wren_at h hw).1
        omega
    have hexp : expected ((recorded p).step y e) y.2.nIn = .waitingWdf := by
      rw [expected_store (by rw [hpk, hk]), if_neg hcap]
    rw [hexp, ha, hrem]
    rfl

/-- An entry between the last request and the one being sent is not touched. -/
theorem state_untouched (h : RingInv y) (hc : Clear y.1 e) (hn : y.2.nIn ≤ n)
    (hn' : n < y.2.nOut + 15) (hf : n = y.2.nIn → e.flitIn = none) :
    ((recorded p).step y e).1.pktStateBuf (idx n) = y.1.pktStateBuf (idx n) := by
  rw [state_vacant h hc hn (Nat.le_of_lt hn') hf, if_neg (fun hx => by omega)]

/-- The entry that has been sent is cleared. -/
theorem state_cleared (h : RingInv y) (hc : Clear y.1 e) (hl : loadsNext y.1 = true)
    (hf : y.2.nIn = y.2.nOut + 15 → e.flitIn = none) :
    ((recorded p).step y e).1.pktStateBuf (idx (y.2.nOut + 15)) = .inactive := by
  have hrem := (loadsNext_at h hl).2.2
  rw [state_vacant h hc (in_window h).2 (Nat.le_refl _) (fun heq => hf heq.symm),
    if_pos ⟨rfl, hrem⟩]

theorem nOut_of_loads (hl : loadsNext y.1 = true) :
    ((recorded p).step y e).2.nOut = y.2.nOut + 1 := by
  rw [nOut_next, if_pos hl]

theorem stalled_of_full (h : RingInv y) (hn : y.2.nIn = y.2.nOut + 15) :
    y.1.accState = .stalled := by
  by_contra hs
  have := h.pointers.in_lt hs
  omega

theorem incoming_step (h : RingInv y) (hc : Clear y.1 e)
    (hf : Filling ((recorded p).step y e).1) :
    ((recorded p).step y e).1.pktStateBuf (idx ((recorded p).step y e).2.nIn) = .filling := by
  have hns := room_of_not_stalled (filling_ne_stalled hf)
  have hcomp : completes y.1 e = false := by
    rw [← Bool.not_eq_true]
    intro hcomp
    obtain ⟨f, he⟩ : ∃ f, e.flitIn = some f := by
      cases he : e.flitIn with
      | none => rw [completes_none he] at hcomp; cases hcomp
      | some f => exact ⟨f, rfl⟩
    obtain ⟨hf', h1⟩ := (completes_iff h.parse he).1 hcomp
    obtain ⟨-, hnf⟩ | ⟨h1', -⟩ := accState_some h.parse he hf'
    · exact hnf hf
    · exact h1' h1
  have hn : ((recorded p).step y e).2.nIn = y.2.nIn := by
    rw [nIn_next, hcomp]
    rfl
  rw [hn]
  have hlt : y.1.accState ≠ .stalled → y.2.nIn < y.2.nOut + 15 := h.pointers.in_lt
  cases he : e.flitIn with
  | none =>
    have ha : ((recorded p).step y e).1.accState = y.1.accState := by
      rw [accState_next, accStateNext, he]
      rfl
    have hf' : Filling y.1 := by
      unfold Filling at hf ⊢
      rwa [ha] at hf
    rw [state_untouched h hc (Nat.le_refl _) (hlt (filling_ne_stalled hf')) (fun _ => he)]
    exact h.states.incoming hf'
  | some f =>
    have hs : e.flitIn.isSome = true := by rw [he]; rfl
    rw [state_incoming h hs]
    obtain hf' | hw | hst := filling_or y.1
    · have h1 : ¬ y.1.remainingFlits = 0 := by
        intro hr
        rw [(completes_iff h.parse he).2 ⟨hf', (h.parse.remaining_eq_zero hf').1 hr⟩] at hcomp
        cases hcomp
      simp only [h1, and_false, if_false, filling_ne_stalled hf', false_and,
        h.states.incoming hf', ite_self]
    · rw [if_pos hw]
    · -- a stalled parser does not start on a packet
      refine absurd hf (not_filling ?_)
      rw [accState_next, accStateNext, he, hst]
      by_cases hi : y.1.bufCurrentIn = y.1.bufCurrentOut <;> simp [hi]

theorem next_step (h : RingInv y) (hc : Clear y.1 e)
    (ha : ((recorded p).step y e).1.accState = .acceptW1) :
    ((recorded p).step y e).1.pktStateBuf (idx ((recorded p).step y e).2.nIn) = .filling ∨
      ((recorded p).step y e).1.pktStateBuf (idx ((recorded p).step y e).2.nIn) = .inactive := by
  have hp := h.pointers
  have hns : accStateNext y.1 e ≠ .stalled := by
    rw [← accState_next, ha]
    simp
  obtain ⟨hfull, hleft⟩ := room_of_not_stalled hns
  rw [hp.in_eq, hp.out_eq] at hfull hleft
  rw [nIn_next]
  cases hcomp : completes y.1 e with
  | true =>
    have h1 := hp.in_lt (filling_ne_stalled (filling_of_completes hcomp))
    have h2 : y.2.nIn + 1 ≠ y.2.nOut + 15 := fun heq => hfull hcomp (by rw [idx_succ, heq])
    rw [if_pos rfl, state_untouched h hc (Nat.le_succ _) (by omega) (fun heq => by omega)]
    exact .inr (h.states.free _ (Nat.lt_succ_self _) (by omega))
  | false =>
    rw [if_neg Bool.false_ne_true]
    cases he : e.flitIn with
    | none =>
      have ha' : y.1.accState = .acceptW1 := by
        rw [accState_next, accStateNext, he] at ha
        exact ha
      rw [state_untouched h hc (Nat.le_refl _) (hp.in_lt (by simp [ha'])) (fun _ => he)]
      exact h.states.next ha'
    | some f =>
      refine .inl ?_
      rw [state_incoming h (by rw [he]; rfl)]
      by_cases hst : y.1.accState = .stalled
      · have hne : y.2.nIn ≠ y.2.nOut + 15 := fun heq => hleft hst (by rw [heq])
        simp [hst, hne]
      · -- the parser cannot come back to a header without completing a packet
        obtain hf | hw | hs := filling_or y.1
        · obtain ⟨h1, -⟩ | ⟨-, hst'⟩ := accState_some h.parse he hf
          · rw [(completes_iff h.parse he).2 ⟨hf, h1⟩] at hcomp
            cases hcomp
          · obtain ⟨-, hst'⟩ | ⟨-, hst'⟩ := hst' <;> rw [hst'] at ha <;> cases ha
        · rw [if_pos hw]
        · exact absurd hs hst

theorem stalled_step (h : RingInv y) (ho : Obeys y e) (hc : Clear y.1 e)
    (ha : ((recorded p).step y e).1.accState = .stalled)
    (hlt : ((recorded p).step y e).2.nIn < ((recorded p).step y e).2.nOut + 15) :
    ((recorded p).step y e).1.pktStateBuf (idx ((recorded p).step y e).2.nIn) = .inactive ∨
      (((recorded p).step y e).1.pktStateBuf (idx ((recorded p).step y e).2.nIn) = .ready ∧
        ((recorded p).step y e).2.held.isSome = true ∧
        ((recorded p).step y e).2.nIn = ((recorded p).step y e).2.nOut + 14) := by
  have hp := h.pointers
  -- a full ring has room again when the next response is loaded
  have hloads : ∀ m, ((recorded p).step y e).2.nIn = m → m = y.2.nOut + 15 →
      loadsNext y.1 = true := by
    intro m hm heq
    rw [hm, heq, nOut_next] at hlt
    by_contra hl
    rw [if_neg hl] at hlt
    omega
  rw [accState_next] at ha
  cases hcomp : completes y.1 e with
  | true =>
    have hn : ((recorded p).step y e).2.nIn = y.2.nIn + 1 := by rw [nIn_next, if_pos hcomp]
    have hf := filling_of_completes hcomp
    have hfull : y.2.nIn + 1 = y.2.nOut + 15 := by
      have hb : y.1.bufCurrentIn + 1 = y.1.bufCurrentOut := by
        by_contra hb
        simp only [completes, Bool.and_eq_true, Bool.or_eq_true, decide_eq_true_iff] at hcomp
        obtain ⟨⟨he, hs | hs⟩, hr⟩ := hcomp <;> simp [accStateNext, he, hs, hr] at ha <;>
          exact hb ha
      rw [hp.in_eq, hp.out_eq, idx_succ] at hb
      have := hp.in_lt (filling_ne_stalled hf)
      have := (in_window h).1
      exact (idx_iff (a := y.2.nOut) ⟨by omega, Nat.le_refl _⟩ ⟨by omega, by omega⟩).1 hb
    rw [hn, hfull, state_cleared h hc (hloads _ hn hfull) (fun heq => by omega)]
    exact .inl rfl
  | false =>
    have hn : ((recorded p).step y e).2.nIn = y.2.nIn := by rw [nIn_next, hcomp]; rfl
    have hst : y.1.accState = .stalled := by
      cases he : e.flitIn with
      | none => simpa [accStateNext, he] using ha
      | some f =>
        obtain hf | hw | hs := filling_or y.1
        · obtain ⟨h1, -⟩ | ⟨-, hst'⟩ := accState_some h.parse he hf
          · rw [(completes_iff h.parse he).2 ⟨hf, h1⟩] at hcomp
            cases hcomp
          · rw [accState_next] at hst'
            obtain ⟨-, hst'⟩ | ⟨-, hst'⟩ := hst' <;> rw [hst'] at ha <;> cases ha
        · simp [accStateNext, he, hw] at ha
        · exact hs
    rw [hn]
    cases he : e.flitIn with
    | none =>
      by_cases hfull : y.2.nIn = y.2.nOut + 15
      · rw [hfull, state_cleared h hc (hloads _ hn hfull) (fun _ => he)]
        exact .inl rfl
      · have hlt' : y.2.nIn < y.2.nOut + 15 := by
          have := hp.in_le
          omega
        rw [state_untouched h hc (Nat.le_refl _) hlt' (fun _ => he)]
        obtain hi | ⟨-, hheld, -⟩ := h.states.stalled hst hlt'
        · exact .inl hi
        · -- a flit that was offered is still offered
          obtain ⟨f, hf⟩ := Option.isSome_iff_exists.1 hheld
          rw [ho.held f hf] at he
          cases he
    | some f =>
      have hfull : y.2.nIn = y.2.nOut + 15 := by
        have hb : y.1.bufCurrentIn = y.1.bufCurrentOut := by
          by_contra hb
          simp [accStateNext, he, hst, hb] at ha
        rw [hp.in_eq, hp.out_eq] at hb
        exact (idx_iff (a := y.2.nOut) ⟨by omega, Nat.le_refl _⟩ (in_window h)).1 hb
      have hl := hloads _ hn hfull
      have hs : e.flitIn.isSome = true := by rw [he]; rfl
      have hsame : ((recorded p).step y e).1.pktStateBuf (idx y.2.nIn) =
          y.1.pktStateBuf (idx y.2.nIn) := by
        rw [state_incoming h hs]
        simp [hst, hfull]
      rw [hsame, nOut_of_loads hl, hfull]
      obtain hr | hi := h.states.out
      · refine .inr ⟨hr, ?_, by omega⟩
        show (History.update y.2 y.1 e).held.isSome = true
        simp [History.update, flitInRdy, hst, he]
      · exact .inl hi

theorem free_step (h : RingInv y) (hc : Clear y.1 e)
    (hn : ((recorded p).step y e).2.nIn < n) (hn' : n < ((recorded p).step y e).2.nOut + 15) :
    ((recorded p).step y e).1.pktStateBuf (idx n) = .inactive := by
  have hlt : y.2.nIn < n := Nat.lt_of_le_of_lt nIn_le_next hn
  by_cases hold : n < y.2.nOut + 15
  · rw [state_untouched h hc (Nat.le_of_lt hlt) hold (fun heq => by omega)]
    exact h.states.free n hlt hold
  · have hl : loadsNext y.1 = true := by
      by_contra hl
      rw [nOut_next, if_neg hl] at hn'
      exact hold hn'
    rw [nOut_of_loads hl] at hn'
    obtain rfl : n = y.2.nOut + 15 := by omega
    exact state_cleared h hc hl (fun heq => by omega)

theorem out_step (h : RingInv y) (ho : Obeys y e) (hc : Clear y.1 e) :
    ((recorded p).step y e).1.pktStateBuf (idx (((recorded p).step y e).2.nOut + 15)) = .ready ∨
      ((recorded p).step y e).1.pktStateBuf (idx (((recorded p).step y e).2.nOut + 15)) =
        .inactive := by
  cases hl : loadsNext y.1 with
  | true =>
    -- the entry that is sent now was ready
    obtain ⟨hlt, hexp, -⟩ := loadsNext_at h hl
    have hidx : idx (y.2.nOut + 1 + 15) = idx y.2.nOut := by
      apply BitVec.eq_of_toNat_eq
      simp only [idx, BitVec.toNat_ofNat]
      omega
    rw [nOut_of_loads hl, hidx, state_expected h ho hc (Nat.le_refl _) hlt]
    refine .inl ?_
    have hpk := pkt_next h.parse ho hc hlt
    obtain ⟨hk, hcmd⟩ | ⟨hk, hrcv⟩ := expected_ready hexp
    · have hcap : captured y y.2.nOut = true := by
        rw [expected_store hk] at hexp
        by_contra hcap
        rw [if_neg hcap] at hexp
        cases hexp
      rw [expected_store (by rw [hpk, hk]), if_pos ((captured_next h hc hk).2 (.inl hcap)),
        if_pos (cmd_next.2 (.inl hcmd))]
    · rw [expected_load (by rw [hpk, hk]), if_pos ((rcv_next h hc hk).2 (.inl hrcv))]
  | false =>
    have hn : ((recorded p).step y e).2.nOut = y.2.nOut := by rw [nOut_next, hl]; rfl
    rw [hn]
    by_cases hf : y.2.nOut + 15 = y.2.nIn ∧ e.flitIn.isSome = true
    · have hst := stalled_of_full h hf.1.symm
      have hsame : ((recorded p).step y e).1.pktStateBuf (idx y.2.nIn) =
          y.1.pktStateBuf (idx y.2.nIn) := by
        rw [state_incoming h hf.2]
        simp [hst, hf.1]
      have hout := h.states.out
      rw [hf.1] at hout ⊢
      rwa [hsame]
    · rw [state_vacant h hc (in_window h).2 (Nat.le_refl _)]
      · split
        · exact .inr rfl
        · exact h.states.out
      · intro heq
        cases he : e.flitIn with
        | none => rfl
        | some f => exact absurd ⟨heq, by rw [he]; rfl⟩ hf

theorem states_step (h : RingInv y) (ho : Obeys y e) (hc : Clear y.1 e) :
    States ((recorded p).step y e) where
  pending := by
    intro n hlo hlt
    have hlo' : y.2.nOut ≤ n := by
      rw [nOut_next] at hlo
      split at hlo <;> omega
    by_cases hold : n < y.2.nIn
    · exact state_expected h ho hc hlo' hold
    · have hcomp : completes y.1 e = true := by
        by_contra hcomp
        rw [nIn_next, if_neg hcomp] at hlt
        exact hold hlt
      rw [nIn_next, if_pos hcomp] at hlt
      obtain rfl : n = y.2.nIn := by omega
      exact state_completed h ho hc hcomp
  incoming := incoming_step h hc
  next := next_step h hc
  stalled := stalled_step h ho hc
  free := fun _ => free_step h hc
  out := out_step h ho hc

/-! ### All together -/

/-- The splitters of the bridge: write data, and commands. -/
def wdfSplitter (s : State p) : Splitter (BitVec 512) :=
  ⟨s.appWdfWrenReg, s.wdfPending, s.appWdfDataReg, s.wdfPart⟩

/-- The command register with its parts. -/
def cmdSplitter (s : State p) : Splitter Command :=
  ⟨s.appEnReg, s.cmdPending, (s.appCmdReg, s.clAddrReg), s.cmdPart⟩

theorem wdfSplitter_next (s : State p) (e : Input p) :
    wdfSplitter (next s e) =
      (wdfSplitter s).step p.ratio e.appWdfRdy s.appWdfWrenRR s.appWdfDataRR := rfl

theorem cmdSplitter_next (s : State p) (e : Input p) :
    cmdSplitter (next s e) =
      (cmdSplitter s).step p.ratio e.appRdy s.rAppEn (appCmd s, clAddr s) := by
  have hreg : (cmdSplitter (next s e)).reg =
      ((cmdSplitter s).step p.ratio e.appRdy s.rAppEn (appCmd s, clAddr s)).reg := by
    show (if appRdyTrans s e then appCmd s else s.appCmdReg,
      if appRdyTrans s e then clAddr s else s.clAddrReg) =
        if appRdyTrans s e then (appCmd s, clAddr s) else (s.appCmdReg, s.clAddrReg)
    cases appRdyTrans s e <;> rfl
  have hstep := congrArg (Splitter.mk (cmdSplitter (next s e)).busy
    (cmdSplitter (next s e)).pending · (cmdSplitter (next s e)).part) hreg
  exact hstep

/-- While the pointer to the write data stays, the store that it points at stays. -/
theorem store_kept (h : RingInv y) (ho : Obeys y e) (hc : Clear y.1 e)
    (hm : wdfMoves y.1 e = false) (hlt : y.2.nWdf < y.2.nIn)
    (hk : isStore (kind (pkt y.2.accepted y.2.nWdf)) = true) :
    ((recorded p).step y e).2.nWdf < ((recorded p).step y e).2.nIn ∧
      isStore (kind (pkt ((recorded p).step y e).2.accepted
        ((recorded p).step y e).2.nWdf)) = true := by
  have hn : ((recorded p).step y e).2.nWdf = y.2.nWdf := by rw [nWdf_next, hm]; rfl
  rw [hn, pkt_next h.parse ho hc hlt]
  exact ⟨Nat.lt_of_lt_of_le hlt nIn_le_next, hk⟩

/-- A command is in the register only for a request that waits for it, and whose turn it stays. -/
theorem command_kept (h : RingInv y) (happ : ((recorded p).step y e).1.rAppEn = true) :
    ((recorded p).step y e).2.nCmd = y.2.nCmd ∧ y.2.nCmd < y.2.nIn ∧
      expected y y.2.nCmd = .waitingCmd := by
  have happ' : (if cmdMoves y.1 e then false
    else if y.1.pktStateBuf y.1.bufCurrentCmd = .waitingCmd then true
    else y.1.rAppEn) = true := happ
  cases hm : cmdMoves y.1 e with
  | true =>
    rw [if_pos hm] at happ'
    cases happ'
  | false =>
    obtain ⟨hlo, hhi⟩ := cmd_window h
    refine ⟨by rw [nCmd_next, hm]; rfl, ?_⟩
    rw [hm, h.pointers.cmd_eq] at happ'
    simp only [Bool.false_eq_true, if_false] at happ'
    split at happ'
    next hst => exact pending_of_state h hlo hhi hst (.inr (.inl rfl))
    next =>
      obtain ⟨hlt, hst, -⟩ := h.pipeline.app happ'
      exact ⟨hlt, by rw [← h.states.pending _ hlo hlt, hst]⟩

/-- That request waits for its command after the edge too. -/
theorem waitingCmd_next (h : RingInv y) (ho : Obeys y e) (hc : Clear y.1 e)
    (hn : ((recorded p).step y e).2.nCmd = y.2.nCmd) (hlt : y.2.nCmd < y.2.nIn)
    (hexp : expected y y.2.nCmd = .waitingCmd) :
    ((recorded p).step y e).1.pktStateBuf (idx y.2.nCmd) = .waitingCmd := by
  have hpk := pkt_next h.parse ho hc hlt
  rw [state_expected h ho hc (cmd_window h).1 hlt]
  obtain ⟨-, ⟨hk, hcap⟩ | ⟨hk, -⟩⟩ := expected_waitingCmd hexp
  · rw [expected_store (by rw [hpk, hk]), if_pos ((captured_next h hc hk).2 (.inl hcap)),
      if_neg (by rw [hn]; exact Nat.lt_irrefl _)]
  · have hnr : ¬ y.2.nCmd < ((recorded p).step y e).2.nRcv := by
      intro hx
      have hcmd := (pointers_step h ho hc).rcv_cmd _ hx (Nat.lt_of_lt_of_le hlt nIn_le_next)
        (by rw [hpk]; exact (whole_pkt h.parse hlt).isLoad_iff.2 hk)
      omega
    rw [expected_load (by rw [hpk, hk]), if_neg hnr, if_neg (by rw [hn]; exact Nat.lt_irrefl _)]

/-- The write data of a store whose command is due comes from the first register into the second. -/
theorem wrenRR_of_waitingCmd (h : RingInv y)
    (heq : y.2.nCmd = ((recorded p).step y e).2.nWdf)
    (hexp : expected y y.2.nCmd = .waitingCmd)
    (hk : isStore (kind (pkt y.2.accepted y.2.nCmd)) = true) :
    ((recorded p).step y e).1.appWdfWrenRR = true := by
  have hmw : wdfMoves y.1 e = false := by
    rw [← Bool.not_eq_true]
    intro hmw
    rw [nWdf_next, if_pos hmw] at heq
    have hle := h.pointers.cmd_le_wdf
    omega
  have hw : y.2.nCmd = y.2.nWdf := by
    rwa [nWdf_next, hmw, if_neg Bool.false_ne_true] at heq
  obtain ⟨-, ⟨-, hcap⟩ | ⟨hl, -⟩⟩ := expected_waitingCmd hexp
  · rw [captured_iff] at hcap
    rw [wrenRR_next h]
    obtain hlt | ⟨-, hr | hrr⟩ := hcap
    · omega
    · exact hr
    · rw [wdfMoves_of_rr h hrr] at hmw
      cases hmw
  · rw [hk] at hl
    cases hl

theorem pipeline_step (h : RingInv y) (ho : Obeys y e) (hc : Clear y.1 e) :
    Pipeline ((recorded p).step y e) := by
  have hreg : appWdfRdyTrans y.1 e = true →
      ((recorded p).step y e).1.appWdfWrenReg = y.1.appWdfWrenRR := by
    intro ht
    show (if appWdfRdyTrans y.1 e then y.1.appWdfWrenRR else y.1.appWdfWrenReg) = _
    rw [if_pos ht]
  refine
    { r := ?_
      rr := ?_
      pend := ?_
      store := ?_
      app := ?_ }
  · intro hr
    rw [wrenR_next h, Bool.and_eq_true] at hr
    obtain ⟨-, -, hr0, hrr0⟩ := wren_at h hr.1
    rw [wrenRR_next h, hreg hr.2]
    exact ⟨hr0, hrr0⟩
  · intro hrr
    rw [wrenRR_next h] at hrr
    obtain ⟨hrr0, hreg0⟩ := h.pipeline.r hrr
    rw [hreg (rdyTrans_of_idle h hreg0), hrr0]
  · have hstep := Splitter.pending_step (s := wdfSplitter y.1) (r := p.ratio)
      (a := e.appWdfRdy) h.pipeline.pend y.1.appWdfWrenRR y.1.appWdfDataRR
    rwa [← wdfSplitter_next] at hstep
  · rintro (hr | hrr)
    · rw [wrenR_next h, Bool.and_eq_true] at hr
      obtain ⟨hlt, hk, -⟩ := wren_at h hr.1
      exact store_kept h ho hc (wdfMoves_of_wren h hc (.inl hr.1)) hlt hk
    · rw [wrenRR_next h] at hrr
      obtain ⟨hlt, hk⟩ := h.pipeline.store (.inl hrr)
      exact store_kept h ho hc (wdfMoves_of_wren h hc (.inr hrr)) hlt hk
  · intro happ
    obtain ⟨hn, hlt, hexp⟩ := command_kept h happ
    rw [hn, pkt_next h.parse ho hc hlt]
    exact ⟨Nat.lt_of_lt_of_le hlt nIn_le_next, waitingCmd_next h ho hc hn hlt hexp,
      fun heq hk => wrenRR_of_waitingCmd h heq hexp hk⟩

theorem ring_step (h : RingInv y) (ho : Obeys y e) (hc : Clear y.1 e) :
    RingInv ((recorded p).step y e) where
  parse := parse_step h.parse ho hc
  pointers := pointers_step h ho hc
  entries := entries_step h ho hc
  states := states_step h ho hc
  pipeline := pipeline_step h ho hc
  lineEnd := rfl

theorem ring_init {s : State p} (hs : Reset s) : RingInv (s, .init) := by
  have hf : ¬ Filling s := not_filling (y := (s, .init)) (.inl hs.accState)
  have hst : s.accState ≠ .stalled := by
    rw [hs.accState]
    simp
  have hd : due Flit.len ([] : List Flit) = 0 := rfl
  refine
    { parse := ⟨?_, rfl, fun _ => hd, fun hx => absurd hx hf, fun hx => ?_, fun hx => ?_,
        fun hx => ?_⟩
      pointers :=
        { in_eq := hs.bufCurrentIn
          out_eq := hs.bufCurrentOut
          cmd_eq := hs.bufCurrentCmd
          wdf_eq := hs.bufCurrentWdf
          rcv_eq := hs.bufCurrentDataRcv
          out_le_cmd := Nat.le_refl _
          cmd_le_wdf := Nat.le_refl _
          cmd_le_in := Nat.le_refl _
          out_le_rcv := Nat.le_refl _
          in_le := Nat.zero_le _
          in_lt := fun _ => by simp [History.init]
          wdf_le := .inl (Nat.le_refl _)
          rcv_le := .inl (Nat.le_refl _)
          rcv_cmd := fun n hn => absurd hn (Nat.not_lt_zero _) }
      entries := ?_
      states :=
        { pending := fun n _ hn => absurd hn (Nat.not_lt_zero _)
          incoming := fun hx => absurd hx hf
          next := fun _ => .inr (hs.pktStateBuf _)
          stalled := fun hx => absurd hx hst
          free := fun _ _ _ => hs.pktStateBuf _
          out := .inr (hs.pktStateBuf _) }
      pipeline :=
        { r := fun hx => ?_
          rr := fun hx => ?_
          pend := fun hx => ?_
          store := ?_
          app := fun hx => ?_ }
      lineEnd := by rw [hs.appRdDataEndReg, hs.appRdDataValidReg] }
  · intro q hq
    cases hq
  · exact absurd (.inl hx) hf
  · exact absurd (.inr (.inl hx)) hf
  · exact absurd (.inr (.inr hx)) hf
  · have hlen : ∀ n, n ≤ 0 → (pkt ([] : List Flit) n).length = 0 := by
      intro n hn
      obtain rfl := Nat.le_zero.1 hn
      rfl
    have hnone : ∀ n k, n ≤ 0 → k + 1 ≤ (pkt ([] : List Flit) n).length → False := by
      intro n k hn hl
      rw [hlen n hn] at hl
      omega
    exact ⟨fun n _ hn hl => (hnone n 0 hn hl).elim, fun n _ hn hl => (hnone n 1 hn hl).elim,
      fun n _ hn hl => (hnone n 2 hn hl).elim⟩
  · rw [hs.appWdfWrenR] at hx
    cases hx
  · rw [hs.appWdfWrenRR] at hx
    cases hx
  · rw [hs.wdfPending] at hx
    cases hx
  · rw [hs.appWdfWrenR, hs.appWdfWrenRR]
    simp
  · rw [hs.rAppEn] at hx
    cases hx

end EntriesStep

end Piton.Mc
