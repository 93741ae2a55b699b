import Piton.Mc.Ring

/-! The pointers of the memory bridge and the states of its entries. -/

namespace Piton.Mc

open Hw Piton.Noc

variable {p : Config}

/-- Store `n` has been handed to the write pipeline. -/
def captured (y : State p × History p) (n : Nat) : Bool :=
  n < y.2.nWdf || (n = y.2.nWdf && (y.1.appWdfWrenR || y.1.appWdfWrenRR))

/-- The state of the entry of request `n`, by the pointers that have passed it. -/
def expected (y : State p × History p) (n : Nat) : PktState :=
  if isStore (kind (pkt y.2.accepted n)) then
    if captured y n then if n < y.2.nCmd then .ready else .waitingCmd else .waitingWdf
  else if n < y.2.nRcv then .ready
  else if n < y.2.nCmd then .waitingData else .waitingCmd

/-- Each pointer is its count modulo 16, and the counts keep the order in which an entry goes
through the steps. -/
structure Pointers (y : State p × History p) : Prop where
  in_eq : y.1.bufCurrentIn = idx y.2.nIn
  out_eq : y.1.bufCurrentOut = idx (y.2.nOut + 15)
  cmd_eq : y.1.bufCurrentCmd = idx y.2.nCmd
  wdf_eq : y.1.bufCurrentWdf = idx y.2.nWdf
  rcv_eq : y.1.bufCurrentDataRcv = idx y.2.nRcv
  out_le_cmd : y.2.nOut ≤ y.2.nCmd
  cmd_le_wdf : y.2.nCmd ≤ y.2.nWdf
  cmd_le_in : y.2.nCmd ≤ y.2.nIn
  out_le_rcv : y.2.nOut ≤ y.2.nRcv
  in_le : y.2.nIn ≤ y.2.nOut + 15
  in_lt : y.1.accState ≠ .stalled → y.2.nIn < y.2.nOut + 15
  wdf_le : y.2.nWdf ≤ y.2.nIn ∨ (y.2.nWdf = y.2.nIn + 1 ∧ Filling y.1 ∧
    isLoad (kind (cur y.2.accepted)) = true)
  rcv_le : y.2.nRcv ≤ y.2.nIn ∨ (y.2.nRcv = y.2.nIn + 1 ∧ Filling y.1 ∧
    isStore (kind (cur y.2.accepted)) = true)
  rcv_cmd : ∀ n, n < y.2.nRcv → n < y.2.nIn → isLoad (kind (pkt y.2.accepted n)) = true →
    n < y.2.nCmd

/-- The flits of each request are in the registers of its entry. -/
structure Entries (y : State p × History p) : Prop where
  first : ∀ n, y.2.nOut ≤ n → n ≤ y.2.nIn → 1 ≤ (pkt y.2.accepted n).length →
    y.1.pktCmdBuf (idx n) = kind (pkt y.2.accepted n) ∧
      y.1.pktW1 (idx n) = hdr (pkt y.2.accepted n)
  second : ∀ n, y.2.nOut ≤ n → n ≤ y.2.nIn → 2 ≤ (pkt y.2.accepted n).length →
    y.1.pktW2 (idx n) = adr (pkt y.2.accepted n)
  third : ∀ n, y.2.nOut ≤ n → n ≤ y.2.nIn → 3 ≤ (pkt y.2.accepted n).length →
    y.1.pktW3 (idx n) = src (pkt y.2.accepted n)

/-- The states of the entries: those between the response and the parser wait for what the counts
say, the others are free or being filled. -/
structure States (y : State p × History p) : Prop where
  pending : ∀ n, y.2.nOut ≤ n → n < y.2.nIn → y.1.pktStateBuf (idx n) = expected y n
  incoming : Filling y.1 → y.1.pktStateBuf (idx y.2.nIn) = .filling
  next : y.1.accState = .acceptW1 →
    y.1.pktStateBuf (idx y.2.nIn) = .filling ∨ y.1.pktStateBuf (idx y.2.nIn) = .inactive
  stalled : y.1.accState = .stalled → y.2.nIn < y.2.nOut + 15 →
    y.1.pktStateBuf (idx y.2.nIn) = .inactive ∨
      (y.1.pktStateBuf (idx y.2.nIn) = .ready ∧ y.2.held.isSome = true ∧
        y.2.nIn = y.2.nOut + 14)
  free : ∀ n, y.2.nIn < n → n < y.2.nOut + 15 → y.1.pktStateBuf (idx n) = .inactive
  out : y.1.pktStateBuf (idx (y.2.nOut + 15)) = .ready ∨
    y.1.pktStateBuf (idx (y.2.nOut + 15)) = .inactive

/-- A store in the write pipeline passes through two registers that are otherwise empty. -/
structure Pipeline (y : State p × History p) : Prop where
  r : y.1.appWdfWrenR = true → y.1.appWdfWrenRR = false ∧ y.1.appWdfWrenReg = false
  rr : y.1.appWdfWrenRR = true → y.1.appWdfWrenReg = false
  pend : y.1.wdfPending = true → y.1.appWdfWrenReg = true
  store : y.1.appWdfWrenR = true ∨ y.1.appWdfWrenRR = true →
    y.2.nWdf < y.2.nIn ∧ isStore (kind (pkt y.2.accepted y.2.nWdf)) = true
  app : y.1.rAppEn = true → y.2.nCmd < y.2.nIn ∧
    y.1.pktStateBuf (idx y.2.nCmd) = .waitingCmd ∧
    (y.2.nCmd = y.2.nWdf → isStore (kind (pkt y.2.accepted y.2.nCmd)) = true →
      y.1.appWdfWrenRR = true)

/-- What holds of the ring in every reachable state. -/
structure RingInv (y : State p × History p) : Prop where
  parse : Parse y
  pointers : Pointers y
  entries : Entries y
  states : States y
  pipeline : Pipeline y
  lineEnd : y.1.appRdDataEndReg = y.1.appRdDataValidReg

/-! ### What the pointers stand at -/

section Events

variable {y : State p × History p} {e : Input p} {n : Nat}

theorem filling_ne_stalled {s : State p} (h : Filling s) : s.accState ≠ .stalled := by
  intro hs
  obtain h | h | h := h <;> rw [hs] at h <;> cases h

/-- A pointer's place in the ring. -/
theorem occupied_iff (h : RingInv y) (hn : y.2.nOut ≤ n) (hn' : n ≤ y.2.nOut + 15) :
    Occupied y.1 (idx n) ↔ n < y.2.nIn ∨ (n = y.2.nIn ∧ Filling y.1) := by
  have hp := h.pointers
  have hin := Nat.le_trans hp.out_le_cmd hp.cmd_le_in
  have ho : idx (y.2.nOut + 15) + 1 = idx y.2.nOut := by
    rw [idx_succ]
    apply BitVec.eq_of_toNat_eq
    simp only [idx, BitVec.toNat_ofNat]
    omega
  unfold Occupied
  rw [hp.in_eq, hp.out_eq, BitVec.sub_sub, BitVec.sub_sub, ho, toNat_idx_sub hn hn',
    toNat_idx_sub hin hp.in_le]
  constructor
  · rintro (hlt | ⟨heq, hf⟩)
    · exact .inl (by omega)
    · exact .inr ⟨idx_inj hn hn' hin hp.in_le heq, hf⟩
  · rintro (hlt | ⟨rfl, hf⟩)
    · exact .inl (by omega)
    · exact .inr ⟨rfl, hf⟩

theorem wdf_window (h : RingInv y) : y.2.nOut ≤ y.2.nWdf ∧ y.2.nWdf ≤ y.2.nOut + 15 := by
  have hp := h.pointers
  have h1 := hp.out_le_cmd
  have h2 := hp.cmd_le_wdf
  have h3 := hp.in_le
  obtain hw | ⟨hw, hf, -⟩ := hp.wdf_le
  · omega
  · have := hp.in_lt (filling_ne_stalled hf)
    omega

theorem rcv_window (h : RingInv y) : y.2.nOut ≤ y.2.nRcv ∧ y.2.nRcv ≤ y.2.nOut + 15 := by
  have hp := h.pointers
  have h1 := hp.out_le_rcv
  have h3 := hp.in_le
  obtain hw | ⟨hw, hf, -⟩ := hp.rcv_le
  · omega
  · have := hp.in_lt (filling_ne_stalled hf)
    omega

theorem cmd_window (h : RingInv y) : y.2.nOut ≤ y.2.nCmd ∧ y.2.nCmd ≤ y.2.nOut + 15 := by
  have hp := h.pointers
  have h1 := hp.out_le_cmd
  have h2 := hp.cmd_le_in
  have h3 := hp.in_le
  omega

/-- Entries that hold no request are filling, inactive or being sent. -/
theorem vacant_state (h : RingInv y) (hn : y.2.nIn ≤ n) (hn' : n ≤ y.2.nOut + 15) :
    y.1.pktStateBuf (idx n) = .filling ∨ y.1.pktStateBuf (idx n) = .inactive ∨
      y.1.pktStateBuf (idx n) = .ready := by
  have hs := h.states
  by_cases hout : n = y.2.nOut + 15
  · rw [hout]
    exact .inr hs.out.symm
  · obtain rfl | hlt := Nat.eq_or_lt_of_le hn
    · obtain hf | hw | hst := filling_or y.1
      · exact .inl (hs.incoming hf)
      · obtain h1 | h1 := hs.next hw
        · exact .inl h1
        · exact .inr (.inl h1)
      · obtain h1 | ⟨h1, -⟩ := hs.stalled hst (by omega)
        · exact .inr (.inl h1)
        · exact .inr (.inr h1)
    · exact .inr (.inl (hs.free n hlt (by omega)))

/-- An entry that waits holds a request. -/
theorem pending_of_state (h : RingInv y) {st : PktState} (hn : y.2.nOut ≤ n)
    (hn' : n ≤ y.2.nOut + 15) (hst : y.1.pktStateBuf (idx n) = st)
    (hw : st = .waitingWdf ∨ st = .waitingCmd ∨ st = .waitingData) :
    n < y.2.nIn ∧ expected y n = st := by
  by_cases hlt : n < y.2.nIn
  · exact ⟨hlt, by rw [← h.states.pending n hn hlt, hst]⟩
  · have hv := vacant_state h (Nat.le_of_not_lt hlt) hn'
    rw [hst] at hv
    obtain rfl | rfl | rfl := hw <;> simp at hv

theorem expected_waitingWdf (he : expected y n = .waitingWdf) :
    isStore (kind (pkt y.2.accepted n)) = true ∧ captured y n = false := by
  unfold expected at he
  cases hs : isStore (kind (pkt y.2.accepted n)) with
  | true =>
    rw [hs] at he
    cases hc : captured y n with
    | true =>
      rw [hc] at he
      simp only [if_true] at he
      split at he <;> cases he
    | false => exact ⟨rfl, rfl⟩
  | false =>
    rw [hs] at he
    simp only [Bool.false_eq_true, if_false] at he
    split at he
    · cases he
    · split at he <;> cases he

theorem expected_waitingData (he : expected y n = .waitingData) :
    isStore (kind (pkt y.2.accepted n)) = false ∧ y.2.nRcv ≤ n ∧ n < y.2.nCmd := by
  unfold expected at he
  cases hs : isStore (kind (pkt y.2.accepted n)) with
  | true =>
    rw [hs] at he
    simp only [if_true] at he
    split at he
    · split at he <;> cases he
    · cases he
  | false =>
    rw [hs] at he
    simp only [Bool.false_eq_true, if_false] at he
    split at he
    · cases he
    · split at he
      · exact ⟨rfl, by omega, by assumption⟩
      · cases he

theorem expected_waitingCmd (he : expected y n = .waitingCmd) :
    y.2.nCmd ≤ n ∧ (isStore (kind (pkt y.2.accepted n)) = true ∧ captured y n = true ∨
      isStore (kind (pkt y.2.accepted n)) = false ∧ y.2.nRcv ≤ n) := by
  unfold expected at he
  cases hs : isStore (kind (pkt y.2.accepted n)) with
  | true =>
    rw [hs] at he
    cases hc : captured y n with
    | true =>
      rw [hc] at he
      simp only [if_true] at he
      split at he
      · cases he
      · exact ⟨by omega, .inl ⟨rfl, rfl⟩⟩
    | false =>
      rw [hc] at he
      simp at he
  | false =>
    rw [hs] at he
    simp only [Bool.false_eq_true, if_false] at he
    split at he
    · cases he
    · split at he
      · cases he
      · exact ⟨by omega, .inr ⟨rfl, by omega⟩⟩

theorem expected_ready (he : expected y n = .ready) :
    (isStore (kind (pkt y.2.accepted n)) = true ∧ n < y.2.nCmd) ∨
      (isStore (kind (pkt y.2.accepted n)) = false ∧ n < y.2.nRcv) := by
  unfold expected at he
  cases hs : isStore (kind (pkt y.2.accepted n)) with
  | true =>
    rw [hs] at he
    simp only [if_true] at he
    split at he
    · split at he
      · exact .inl ⟨rfl, by assumption⟩
      · cases he
    · cases he
  | false =>
    rw [hs] at he
    simp only [Bool.false_eq_true, if_false] at he
    split at he
    · exact .inr ⟨rfl, by assumption⟩
    · split at he <;> cases he

theorem length_pkt_pos (h : RingInv y) (hn : n < y.2.nIn ∨ (n = y.2.nIn ∧ Filling y.1)) :
    1 ≤ (pkt y.2.accepted n).length := by
  obtain hn | ⟨rfl, hf⟩ := hn
  · obtain ⟨-, hl⟩ | ⟨-, hl⟩ := whole_pkt h.parse hn <;> omega
  · rw [pkt_nIn h.parse]
    exact List.length_pos_iff.2 (h.parse.cur_ne_nil hf)

/-- The command of an occupied entry is that of its request. -/
theorem cmdBuf_eq (h : RingInv y) (hn : y.2.nOut ≤ n)
    (ho : n < y.2.nIn ∨ (n = y.2.nIn ∧ Filling y.1)) :
    y.1.pktCmdBuf (idx n) = kind (pkt y.2.accepted n) := by
  refine (h.entries.first n hn ?_ (length_pkt_pos h ho)).1
  obtain ho | ⟨rfl, -⟩ := ho
  · exact Nat.le_of_lt ho
  · exact Nat.le_refl _

theorem wdfSkips_at (h : RingInv y) (hc : Clear y.1 e) (hs : wdfSkips y.1 = true) :
    (y.2.nWdf < y.2.nIn ∨ (y.2.nWdf = y.2.nIn ∧ Filling y.1)) ∧
      isLoad (kind (pkt y.2.accepted y.2.nWdf)) = true := by
  obtain ⟨hlo, hhi⟩ := wdf_window h
  have ho := hc.wdf hs
  rw [h.pointers.wdf_eq, occupied_iff h hlo hhi] at ho
  refine ⟨ho, ?_⟩
  rw [← cmdBuf_eq h hlo ho, ← h.pointers.wdf_eq]
  simp only [wdfSkips, Bool.and_eq_true] at hs
  exact hs.1

theorem rcvSkips_at (h : RingInv y) (hc : Clear y.1 e) (hs : rcvSkips y.1 = true) :
    (y.2.nRcv < y.2.nIn ∨ (y.2.nRcv = y.2.nIn ∧ Filling y.1)) ∧
      isStore (kind (pkt y.2.accepted y.2.nRcv)) = true := by
  obtain ⟨hlo, hhi⟩ := rcv_window h
  have ho := hc.rcv hs
  rw [h.pointers.rcv_eq, occupied_iff h hlo hhi] at ho
  refine ⟨ho, ?_⟩
  rw [← cmdBuf_eq h hlo ho, ← h.pointers.rcv_eq]
  simp only [rcvSkips, Bool.and_eq_true] at hs
  exact hs.1

/-- A line comes in for the request at the pointer. -/
theorem line_at (h : RingInv y) (hc : Clear y.1 e) (hv : y.1.appRdDataValidReg = true) :
    y.2.nRcv < y.2.nIn ∧ isStore (kind (pkt y.2.accepted y.2.nRcv)) = false ∧
      y.2.nRcv < y.2.nCmd := by
  obtain ⟨hlo, hhi⟩ := rcv_window h
  have hst := hc.line hv
  rw [h.pointers.rcv_eq] at hst
  obtain ⟨hlt, he⟩ := pending_of_state h hlo hhi hst (.inr (.inr rfl))
  obtain ⟨hk, -, hcmd⟩ := expected_waitingData he
  exact ⟨hlt, hk, hcmd⟩

/-- Write data is offered for a store that has not been captured. -/
theorem wren_at (h : RingInv y) (hw : appWdfWren y.1 = true) :
    y.2.nWdf < y.2.nIn ∧ isStore (kind (pkt y.2.accepted y.2.nWdf)) = true ∧
      y.1.appWdfWrenR = false ∧ y.1.appWdfWrenRR = false := by
  obtain ⟨hlo, hhi⟩ := wdf_window h
  have hst : y.1.pktStateBuf (idx y.2.nWdf) = .waitingWdf := by
    rw [← h.pointers.wdf_eq]
    simpa [appWdfWren] using hw
  obtain ⟨hlt, he⟩ := pending_of_state h hlo hhi hst (.inl rfl)
  obtain ⟨hk, hcap⟩ := expected_waitingWdf he
  refine ⟨hlt, hk, ?_⟩
  simpa [captured] using hcap

/-- The next response is that of a request whose work is done. -/
theorem loadsNext_at (h : RingInv y) (hl : loadsNext y.1 = true) :
    y.2.nOut < y.2.nIn ∧ expected y y.2.nOut = .ready ∧ y.1.remainingFltOut = 0 := by
  have hp := h.pointers
  simp only [loadsNext, Bool.and_eq_true, decide_eq_true_iff] at hl
  obtain ⟨⟨-, hrem⟩, hst⟩ := hl
  have ho : idx (y.2.nOut + 15) + 1 = idx y.2.nOut := by
    rw [idx_succ]
    apply BitVec.eq_of_toNat_eq
    simp only [idx, BitVec.toNat_ofNat]
    omega
  rw [hp.out_eq, ho] at hst
  have hlt : y.2.nOut < y.2.nIn := by
    obtain hlt | heq := Nat.lt_or_eq_of_le (Nat.le_trans hp.out_le_cmd hp.cmd_le_in)
    · exact hlt
    · rw [heq] at hst
      obtain hf | hw | hs := filling_or y.1
      · rw [h.states.incoming hf] at hst
        cases hst
      · obtain h1 | h1 := h.states.next hw <;> rw [h1] at hst <;> cases hst
      · obtain h1 | ⟨-, -, h1⟩ := h.states.stalled hs (by omega)
        · rw [h1] at hst
          cases hst
        · omega
  exact ⟨hlt, by rw [← h.states.pending _ (Nat.le_refl _) hlt, hst], hrem⟩

theorem rdyTrans_of_idle (h : RingInv y) (hr : y.1.appWdfWrenReg = false) :
    appWdfRdyTrans y.1 e = true := by
  have hpend : y.1.wdfPending = false := by
    rw [← Bool.not_eq_true]
    intro hp
    rw [h.pipeline.pend hp] at hr
    cases hr
  simp [appWdfRdyTrans, hr, hpend]

/-- A store in the second register leaves the pointer behind. -/
theorem wdfMoves_of_rr (h : RingInv y) (hr : y.1.appWdfWrenRR = true) :
    wdfMoves y.1 e = true := by
  simp [wdfMoves, hr, rdyTrans_of_idle h (h.pipeline.rr hr)]

theorem wdfMoves_at (h : RingInv y) (hc : Clear y.1 e) (hm : wdfMoves y.1 e = true) :
    (y.2.nWdf < y.2.nIn ∧ y.1.appWdfWrenRR = true) ∨
      ((y.2.nWdf < y.2.nIn ∨ (y.2.nWdf = y.2.nIn ∧ Filling y.1)) ∧
        isLoad (kind (pkt y.2.accepted y.2.nWdf)) = true) := by
  simp only [wdfMoves, Bool.or_eq_true, Bool.and_eq_true] at hm
  obtain hs | ⟨hr, -⟩ := hm
  · exact .inr (wdfSkips_at h hc hs)
  · exact .inl ⟨(h.pipeline.store (.inr hr)).1, hr⟩

theorem rcvMoves_at (h : RingInv y) (hc : Clear y.1 e) (hm : rcvMoves y.1 = true) :
    (y.2.nRcv < y.2.nIn ∧ isStore (kind (pkt y.2.accepted y.2.nRcv)) = false ∧
        y.2.nRcv < y.2.nCmd ∧ y.1.appRdDataValidReg = true) ∨
      ((y.2.nRcv < y.2.nIn ∨ (y.2.nRcv = y.2.nIn ∧ Filling y.1)) ∧
        isStore (kind (pkt y.2.accepted y.2.nRcv)) = true) := by
  simp only [rcvMoves, Bool.or_eq_true, Bool.and_eq_true] at hm
  obtain hs | ⟨hv, -⟩ := hm
  · exact .inr (rcvSkips_at h hc hs)
  · obtain ⟨h1, h2, h3⟩ := line_at h hc hv
    exact .inl ⟨h1, h2, h3, hv⟩

/-- The write pointer goes with the command pointer. -/
theorem wdfMoves_of_cmdMoves (h : RingInv y) (hm : cmdMoves y.1 e = true)
    (heq : y.2.nCmd = y.2.nWdf) : wdfMoves y.1 e = true := by
  simp only [cmdMoves, Bool.and_eq_true] at hm
  obtain ⟨hlt, hst, hrr⟩ := h.pipeline.app hm.1
  obtain ⟨hlo, -⟩ := cmd_window h
  have hw := whole_pkt h.parse hlt
  cases hk : isStore (kind (pkt y.2.accepted y.2.nCmd)) with
  | true => exact wdfMoves_of_rr h (hrr heq hk)
  | false =>
    have hl := hw.isLoad_iff.2 hk
    have hcb := cmdBuf_eq h hlo (.inl hlt)
    rw [heq] at hst hcb hl
    simp [wdfMoves, wdfSkips, h.pointers.wdf_eq, hst, hcb, hl]

/-- A packet that is not completed goes on. -/
theorem filling_next (h : Parse y) (hc : Clear y.1 e) (hf : Filling y.1)
    (hcomp : completes y.1 e = false) :
    Filling ((recorded p).step y e).1 ∧
      kind (cur ((recorded p).step y e).2.accepted) = kind (cur y.2.accepted) := by
  cases he : e.flitIn with
  | none =>
    rw [accepted_none he]
    refine ⟨?_, rfl⟩
    unfold Filling at hf ⊢
    rw [accState_next, accStateNext, he]
    exact hf
  | some f =>
    rw [accepted_some hc he (filling_ne_stalled hf)]
    obtain ⟨h1, -⟩ | ⟨h1, hst⟩ := accState_some h he hf
    · rw [(completes_iff h he).2 ⟨hf, h1⟩] at hcomp
      cases hcomp
    · have hne : due Flit.len (y.2.accepted ++ [f]) ≠ 0 := by
        have hd := (h.inside hf).1
        rw [due_snoc, if_neg hd]
        omega
      rw [cur_snoc hne, kind, hdr_append (h.cur_ne_nil hf)]
      refine ⟨?_, rfl⟩
      obtain ⟨-, hst⟩ | ⟨-, hst⟩ := hst
      · exact .inr (.inl hst)
      · exact .inr (.inr hst)

theorem filling_of_completes (hcomp : completes y.1 e = true) : Filling y.1 := by
  simp only [completes, Bool.and_eq_true, Bool.or_eq_true, decide_eq_true_iff] at hcomp
  exact .inr hcomp.1.2

end Events

/-! ### The pointers after a clock edge -/

section PointersStep

variable {y : State p × History p} {e : Input p} {n : Nat}

theorem nOut_next : ((recorded p).step y e).2.nOut =
    if loadsNext y.1 then y.2.nOut + 1 else y.2.nOut := rfl

theorem nCmd_next : ((recorded p).step y e).2.nCmd =
    if cmdMoves y.1 e then y.2.nCmd + 1 else y.2.nCmd := rfl

theorem nWdf_next : ((recorded p).step y e).2.nWdf =
    if wdfMoves y.1 e then y.2.nWdf + 1 else y.2.nWdf := rfl

theorem nRcv_next : ((recorded p).step y e).2.nRcv =
    if rcvMoves y.1 then y.2.nRcv + 1 else y.2.nRcv := rfl

theorem idx_next (b : Bool) (n : Nat) :
    (if b then idx n + 1 else idx n) = idx (if b then n + 1 else n) := by
  cases b
  · rfl
  · exact idx_succ n

/-- A pointer that passes requests of one kind stays behind the end of the stream. -/
theorem pointer_le (h : RingInv y) (hc : Clear y.1 e) {k : BitVec 8 → Bool} {n m : Nat}
    (hn : n ≤ y.2.nIn ∨ (n = y.2.nIn + 1 ∧ Filling y.1 ∧ k (kind (cur y.2.accepted)) = true))
    (hm : m = n ∨ (m = n + 1 ∧ (n < y.2.nIn ∨
      (n = y.2.nIn ∧ Filling y.1 ∧ k (kind (cur y.2.accepted)) = true)))) :
    m ≤ ((recorded p).step y e).2.nIn ∨ (m = ((recorded p).step y e).2.nIn + 1 ∧
      Filling ((recorded p).step y e).1 ∧
        k (kind (cur ((recorded p).step y e).2.accepted)) = true) := by
  rw [nIn_next]
  cases hcomp : completes y.1 e with
  | true =>
    refine .inl ?_
    rw [if_pos rfl]
    obtain rfl | ⟨rfl, hm⟩ := hm <;> omega
  | false =>
    rw [if_neg Bool.false_ne_true]
    by_cases hle : m ≤ y.2.nIn
    · exact .inl hle
    · have hfill : m = y.2.nIn + 1 ∧ Filling y.1 ∧ k (kind (cur y.2.accepted)) = true := by
        obtain rfl | ⟨rfl, hlt | ⟨hlt, hf, hk⟩⟩ := hm
        · obtain hn | hn := hn
          · exact absurd hn hle
          · exact hn
        · omega
        · exact ⟨by omega, hf, hk⟩
      obtain ⟨rfl, hf, hk⟩ := hfill
      obtain ⟨hf', hk'⟩ := filling_next h.parse hc hf hcomp
      exact .inr ⟨rfl, hf', by rw [hk']; exact hk⟩

/-- The parser goes on only with a free entry. -/
theorem room_of_not_stalled {s : State p} (hs : accStateNext s e ≠ .stalled) :
    (completes s e = true → s.bufCurrentIn + 1 ≠ s.bufCurrentOut) ∧
      (s.accState = .stalled → s.bufCurrentIn ≠ s.bufCurrentOut) := by
  unfold accStateNext at hs
  constructor
  · intro hc heq
    simp only [completes, Bool.and_eq_true, Bool.or_eq_true, decide_eq_true_iff] at hc
    obtain ⟨⟨he, ha | ha⟩, hr⟩ := hc <;> simp only [he, ha, hr, heq] at hs <;> simp at hs
  · intro ha heq
    cases he : e.flitIn.isSome <;> simp [he, ha, heq] at hs

/-- A response is loaded only for a request that has had its command, and whose line is there. -/
theorem passed_of_loadsNext (h : RingInv y) (hl : loadsNext y.1 = true) :
    y.2.nOut < y.2.nCmd ∧ (y.2.nOut = y.2.nRcv → rcvMoves y.1 = true) := by
  obtain ⟨hlt, hexp, -⟩ := loadsNext_at h hl
  have hw := whole_pkt h.parse hlt
  obtain ⟨hk, hcmd⟩ | ⟨hk, hrcv⟩ := expected_ready hexp
  · refine ⟨hcmd, fun heq => ?_⟩
    have hst := h.states.pending _ (Nat.le_refl _) hlt
    have hcb := cmdBuf_eq h (Nat.le_refl _) (.inl hlt)
    rw [hexp] at hst
    rw [heq] at hst hcb hk
    simp [rcvMoves, rcvSkips, h.pointers.rcv_eq, hst, hcb, hk]
  · exact ⟨h.pointers.rcv_cmd _ hrcv hlt (hw.isLoad_iff.2 hk), fun heq => by omega⟩

/-- The command pointer moves only over requests that have come in. -/
theorem nCmd_lt_of_cmdMoves (h : RingInv y) (hm : cmdMoves y.1 e = true) :
    y.2.nCmd < y.2.nIn := by
  simp only [cmdMoves, Bool.and_eq_true] at hm
  exact (h.pipeline.app hm.1).1

theorem out_le_cmd_next (h : RingInv y) :
    ((recorded p).step y e).2.nOut ≤ ((recorded p).step y e).2.nCmd := by
  rw [nOut_next, nCmd_next]
  have hle := h.pointers.out_le_cmd
  cases hl : loadsNext y.1 with
  | true =>
    have hlt := (passed_of_loadsNext h hl).1
    cases cmdMoves y.1 e <;> simp <;> omega
  | false => cases cmdMoves y.1 e <;> simp <;> omega

theorem cmd_le_wdf_next (h : RingInv y) :
    ((recorded p).step y e).2.nCmd ≤ ((recorded p).step y e).2.nWdf := by
  rw [nCmd_next, nWdf_next]
  have hle := h.pointers.cmd_le_wdf
  cases hm : cmdMoves y.1 e with
  | true =>
    by_cases heq : y.2.nCmd = y.2.nWdf
    · rw [wdfMoves_of_cmdMoves h hm heq]
      simp [heq]
    · cases wdfMoves y.1 e <;> simp <;> omega
  | false => cases wdfMoves y.1 e <;> simp <;> omega

theorem cmd_le_in_next (h : RingInv y) :
    ((recorded p).step y e).2.nCmd ≤ ((recorded p).step y e).2.nIn := by
  refine Nat.le_trans ?_ nIn_le_next
  rw [nCmd_next]
  split
  next hm => exact nCmd_lt_of_cmdMoves h hm
  next => exact h.pointers.cmd_le_in

theorem out_le_rcv_next (h : RingInv y) :
    ((recorded p).step y e).2.nOut ≤ ((recorded p).step y e).2.nRcv := by
  rw [nOut_next, nRcv_next]
  have hle := h.pointers.out_le_rcv
  cases hl : loadsNext y.1 with
  | true =>
    by_cases heq : y.2.nOut = y.2.nRcv
    · rw [(passed_of_loadsNext h hl).2 heq]
      simp [heq]
    · cases rcvMoves y.1 <;> simp <;> omega
  | false => cases rcvMoves y.1 <;> simp <;> omega

theorem in_le_next (h : RingInv y) :
    ((recorded p).step y e).2.nIn ≤ ((recorded p).step y e).2.nOut + 15 := by
  rw [nOut_next, nIn_next]
  have hle := h.pointers.in_le
  cases hcomp : completes y.1 e with
  | true =>
    have hlt := h.pointers.in_lt (filling_ne_stalled (filling_of_completes hcomp))
    cases loadsNext y.1 <;> simp <;> omega
  | false => cases loadsNext y.1 <;> simp <;> omega

theorem in_lt_next (h : RingInv y) (hs : ((recorded p).step y e).1.accState ≠ .stalled) :
    ((recorded p).step y e).2.nIn < ((recorded p).step y e).2.nOut + 15 := by
  obtain ⟨hfull, hleft⟩ := room_of_not_stalled hs
  rw [h.pointers.in_eq, h.pointers.out_eq] at hfull hleft
  rw [nOut_next, nIn_next]
  cases hcomp : completes y.1 e with
  | true =>
    have hlt := h.pointers.in_lt (filling_ne_stalled (filling_of_completes hcomp))
    have hne : y.2.nIn + 1 ≠ y.2.nOut + 15 := fun heq => hfull hcomp (by rw [idx_succ, heq])
    cases loadsNext y.1 <;> simp <;> omega
  | false =>
    have hlt : y.2.nIn < y.2.nOut + 15 := by
      by_cases hst : y.1.accState = .stalled
      · have hne : y.2.nIn ≠ y.2.nOut + 15 := fun heq => hleft hst (by rw [heq])
        have hle := h.pointers.in_le
        omega
      · exact h.pointers.in_lt hst
    cases loadsNext y.1 <;> simp <;> omega

theorem wdf_le_next (h : RingInv y) (hc : Clear y.1 e) :
    ((recorded p).step y e).2.nWdf ≤ ((recorded p).step y e).2.nIn ∨
      (((recorded p).step y e).2.nWdf = ((recorded p).step y e).2.nIn + 1 ∧
        Filling ((recorded p).step y e).1 ∧
          isLoad (kind (cur ((recorded p).step y e).2.accepted)) = true) := by
  refine pointer_le h hc h.pointers.wdf_le ?_
  rw [nWdf_next]
  cases hm : wdfMoves y.1 e with
  | false => exact .inl rfl
  | true =>
    refine .inr ⟨rfl, ?_⟩
    obtain ⟨hlt, -⟩ | ⟨hlt | ⟨heq, hf⟩, hk⟩ := wdfMoves_at h hc hm
    · exact .inl hlt
    · exact .inl hlt
    · rw [heq, pkt_nIn h.parse] at hk
      exact .inr ⟨heq, hf, hk⟩

theorem rcv_le_next (h : RingInv y) (hc : Clear y.1 e) :
    ((recorded p).step y e).2.nRcv ≤ ((recorded p).step y e).2.nIn ∨
      (((recorded p).step y e).2.nRcv = ((recorded p).step y e).2.nIn + 1 ∧
        Filling ((recorded p).step y e).1 ∧
          isStore (kind (cur ((recorded p).step y e).2.accepted)) = true) := by
  refine pointer_le h hc h.pointers.rcv_le ?_
  rw [nRcv_next]
  cases hm : rcvMoves y.1 with
  | false => exact .inl rfl
  | true =>
    refine .inr ⟨rfl, ?_⟩
    obtain ⟨hlt, -⟩ | ⟨hlt | ⟨heq, hf⟩, hk⟩ := rcvMoves_at h hc hm
    · exact .inl hlt
    · exact .inl hlt
    · rw [heq, pkt_nIn h.parse] at hk
      exact .inr ⟨heq, hf, hk⟩

/-- The line pointer passes a packet that is still coming in only if it is a store. -/
theorem isStore_of_passed (h : RingInv y) (hc : Clear y.1 e)
    (hrcv : y.2.nIn < ((recorded p).step y e).2.nRcv) :
    isStore (kind (cur y.2.accepted)) = true := by
  rw [nRcv_next] at hrcv
  cases hm : rcvMoves y.1 with
  | true =>
    rw [hm, if_pos rfl] at hrcv
    obtain ⟨hlt, -⟩ | ⟨hlt | ⟨heq, -⟩, hst⟩ := rcvMoves_at h hc hm
    · obtain hle | ⟨-, -, hst⟩ := h.pointers.rcv_le
      · omega
      · exact hst
    · omega
    · rwa [heq, pkt_nIn h.parse] at hst
  | false =>
    rw [hm, if_neg Bool.false_ne_true] at hrcv
    obtain hle | ⟨-, -, hst⟩ := h.pointers.rcv_le
    · omega
    · exact hst

/-- A load that is in and whose line has come had its command before. -/
theorem cmd_of_received (h : RingInv y) (hc : Clear y.1 e)
    (hrcv : n < ((recorded p).step y e).2.nRcv) (hlt : n < y.2.nIn)
    (hk : isLoad (kind (pkt y.2.accepted n)) = true) : n < y.2.nCmd := by
  rw [nRcv_next] at hrcv
  by_cases hold : n < y.2.nRcv
  · exact h.pointers.rcv_cmd n hold hlt hk
  · cases hm : rcvMoves y.1 with
    | false =>
      rw [hm, if_neg Bool.false_ne_true] at hrcv
      exact absurd hrcv hold
    | true =>
      rw [hm, if_pos rfl] at hrcv
      obtain rfl : n = y.2.nRcv := by omega
      obtain ⟨-, -, hcm, -⟩ | ⟨-, hst⟩ := rcvMoves_at h hc hm
      · exact hcm
      · rw [isLoad_not_isStore hk] at hst
        cases hst

theorem rcv_cmd_next (h : RingInv y) (ho : Obeys y e) (hc : Clear y.1 e)
    (hrcv : n < ((recorded p).step y e).2.nRcv) (hlt : n < ((recorded p).step y e).2.nIn)
    (hk : isLoad (kind (pkt ((recorded p).step y e).2.accepted n)) = true) :
    n < ((recorded p).step y e).2.nCmd := by
  rw [nCmd_next]
  suffices hn : n < y.2.nCmd by split <;> omega
  by_cases hnin : n < y.2.nIn
  · rw [pkt_next h.parse ho hc hnin] at hk
    exact cmd_of_received h hc hrcv hnin hk
  · -- the packet is completed while the pointer has passed it, so it is a store
    rw [nIn_next] at hlt
    cases hcomp : completes y.1 e with
    | false =>
      rw [hcomp, if_neg Bool.false_ne_true] at hlt
      exact absurd hlt hnin
    | true =>
      rw [hcomp, if_pos rfl] at hlt
      obtain rfl : n = y.2.nIn := by omega
      have hne := h.parse.cur_ne_nil (filling_of_completes hcomp)
      rw [pkt_completed h.parse ho hc hcomp, kind, hdr_append hne, ← kind] at hk
      have hst := isStore_of_passed h hc hrcv
      rw [isLoad_not_isStore hk] at hst
      cases hst

theorem pointers_step (h : RingInv y) (ho : Obeys y e) (hc : Clear y.1 e) :
    Pointers ((recorded p).step y e) where
  in_eq := by
    show (if completes y.1 e then y.1.bufCurrentIn + 1 else y.1.bufCurrentIn) = _
    rw [h.pointers.in_eq, idx_next, nIn_next]
  out_eq := by
    show (if loadsNext y.1 then y.1.bufCurrentOut + 1 else y.1.bufCurrentOut) = _
    rw [h.pointers.out_eq, idx_next, nOut_next]
    cases loadsNext y.1 <;> rfl
  cmd_eq := by
    show (if cmdMoves y.1 e then y.1.bufCurrentCmd + 1 else y.1.bufCurrentCmd) = _
    rw [h.pointers.cmd_eq, idx_next, nCmd_next]
  wdf_eq := by
    show (if wdfMoves y.1 e then y.1.bufCurrentWdf + 1 else y.1.bufCurrentWdf) = _
    rw [h.pointers.wdf_eq, idx_next, nWdf_next]
  rcv_eq := by
    show (if rcvMoves y.1 then y.1.bufCurrentDataRcv + 1 else y.1.bufCurrentDataRcv) = _
    rw [h.pointers.rcv_eq, idx_next, nRcv_next]
  out_le_cmd := out_le_cmd_next h
  cmd_le_wdf := cmd_le_wdf_next h
  cmd_le_in := cmd_le_in_next h
  out_le_rcv := out_le_rcv_next h
  in_le := in_le_next h
  in_lt := in_lt_next h
  wdf_le := wdf_le_next h hc
  rcv_le := rcv_le_next h hc
  rcv_cmd _ := rcv_cmd_next h ho hc

end PointersStep

end Piton.Mc
