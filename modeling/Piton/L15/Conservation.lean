import Piton.L15.Reserve

/-! Conservation of the NoC1 credits. It needs one condition: the second pass of a line flush, which
takes a command credit without the check that every other PCX request passes, finds one that is
neither held nor reserved. -/

namespace Piton.L15

open Hw

variable {y : State × Traffic} {s : State} {i : Inputs}

/-! ### The property -/

/-- The credits are where they belong: with the credit manager, in the pipeline or in the buffer;
and one is reserved for each fill under way. -/
structure CreditsConserved (y : State × Traffic) : Prop where
  commands : y.1.creditman.noc1Avail.toNat +
    y.1.creditsInFlight Noc1Op.credits Reqtype.passCredits + y.1.noc1buffer.occupied = 8
  words : y.1.creditman.noc1DataAvail.toNat +
    y.1.creditsInFlight Noc1Op.words Reqtype.passWords + y.1.noc1buffer.occupiedWords = 2
  reserved : y.1.creditman.noc1Reserve.toNat = sumEntries fun id t => y.1.fillsDue id t y.2

/-- The cycle takes no credit that is not there and overwrites nothing in the buffer. -/
structure CreditsRespected (s : State) (i : Inputs) : Prop where
  commands : s.creditsTaken i ≤ s.creditman.noc1Avail.toNat
  words : s.wordsTaken i ≤ s.creditman.noc1DataAvail.toNat
  slotFree : (s.noc1Request i).val = true →
    s.noc1buffer.commandBufferVal s.noc1buffer.commandWrindex = false
  wordsKept : ∀ k, s.noc1buffer.commandBufferVal k = true →
    ∀ j < (s.noc1buffer.commandBuffer k).reqtype.dataWords,
      (s.step i).noc1buffer.dataBuffer ((s.noc1buffer.commandBuffer k).dataIndex + Fin.ofNat 2 j) =
        s.noc1buffer.dataBuffer ((s.noc1buffer.commandBuffer k).dataIndex + Fin.ofNat 2 j)

/-- The second pass of a line flush leaves S1 only when the check for one credit, which it does not
make, holds. -/
def FlushCredited (s : State) (i : Inputs) : Prop :=
  s.s1Issues i = true → s.fetchState = .pcxWritebackDone → s.predecode.reqtype = .lineFlush →
    s.stallNoc1CommandBuffer1Unavail = false

instance (s : State) (i : Inputs) : Decidable (FlushCredited s i) :=
  inferInstanceAs (Decidable (_ → _ → _ → _))

/-- A conforming cycle without a flit between the passes of an instruction cache invalidation, in which a
line flush finds its credit. -/
structure CreditOk (y : State × Traffic) (i : Inputs) : Prop where
  conforming : Conforms y i ∧ IcacheUndisturbed y i
  flush : FlushCredited y.1 i

instance (y : State × Traffic) (i : Inputs) : Decidable (CreditOk y i) :=
  decidable_of_iff (InputOk y i ∧ FlushCredited y.1 i)
    ⟨fun h => ⟨h.1, h.2⟩, fun h => ⟨h.conforming, h.flush⟩⟩

/-! ### Data words -/

/-- The number of data words of commands. -/
def queueWords (q : List Noc1Command) : Nat := (q.map fun c => c.reqtype.dataWords).sum

/-- The data words of the commands follow each other up to the write index. -/
def DataChain : List Noc1Command → Fin 2 → Prop
  | [], _ => True
  | c :: q, w => c.dataIndex + Fin.ofNat 2 (queueWords (c :: q)) = w ∧ DataChain q w

theorem ofNat_add (m n : Nat) : Fin.ofNat 2 (m + n) = Fin.ofNat 2 m + Fin.ofNat 2 n := by
  ext
  simp [Fin.val_add, Nat.add_mod]

theorem queueWords_append (q : List Noc1Command) (c : Noc1Command) :
    queueWords (q ++ [c]) = queueWords q + c.reqtype.dataWords := by
  unfold queueWords
  simp

theorem DataChain.push {q : List Noc1Command} {w : Fin 2} {c : Noc1Command}
    (h : DataChain q w) (hc : c.dataIndex = w) :
    DataChain (q ++ [c]) (w + Fin.ofNat 2 c.reqtype.dataWords) := by
  induction q with
  | nil =>
    refine ⟨?_, trivial⟩
    rw [hc]
    simp [queueWords]
  | cons x q ih =>
    obtain ⟨hx, hq⟩ := h
    refine ⟨?_, ih hq⟩
    show x.dataIndex + Fin.ofNat 2 (queueWords ((x :: q) ++ [c])) = _
    rw [queueWords_append, ofNat_add, ← hx, add_assoc]

/-- The place of a command's words, by the number of words from it on. -/
theorem DataChain.index {q : List Noc1Command} {w : Fin 2} (h : DataChain q w)
    {c : Noc1Command} (hc : c ∈ q) :
    ∃ n, c.reqtype.dataWords ≤ n ∧ n ≤ queueWords q ∧ c.dataIndex + Fin.ofNat 2 n = w := by
  induction q with
  | nil => cases hc
  | cons x q ih =>
    obtain ⟨hx, hq⟩ := h
    have hsum : queueWords (x :: q) = x.reqtype.dataWords + queueWords q := by
      unfold queueWords
      rw [List.map_cons, List.sum_cons]
    rcases List.mem_cons.1 hc with rfl | hmem
    · exact ⟨_, by omega, le_refl _, hx⟩
    · obtain ⟨n, hlow, hhigh, hn⟩ := ih hq hmem
      exact ⟨n, hlow, by omega, hn⟩

/-- The data buffer changes only where a request's words are written. -/
theorem tick_dataBuffer_of_ne {b : Noc1Buffer} {r : Noc1Request} {ack : Bool} {x : Fin 2}
    (h : r.val = true → ∀ j < r.reqtype.dataWords, x ≠ b.dataWrindex + Fin.ofNat 2 j) :
    (b.tick r ack).dataBuffer x = b.dataBuffer x := by
  unfold Noc1Buffer.tick
  dsimp only
  cases hv : r.val with
  | false => rfl
  | true =>
    have hne := h hv
    have hzero : b.dataWrindex + Fin.ofNat 2 0 = b.dataWrindex := by
      rw [Fin.ofNat_zero, add_zero]
    rw [if_pos rfl]
    cases hr : r.reqtype <;> rw [hr] at hne <;> simp only []
    case casRequest =>
      have h0 := hne 0 (by decide)
      have h1 := hne 1 (by decide)
      rw [hzero] at h0
      change x ≠ b.dataWrindex + 1 at h1
      rw [Function.update_of_ne h1, Function.update_of_ne h0]
    all_goals
      have h0 := hne 0 (by decide)
      rw [hzero] at h0
      rw [Function.update_of_ne h0]

theorem tick_dataWrindex (b : Noc1Buffer) (r : Noc1Request) (ack : Bool) :
    (b.tick r ack).dataWrindex =
      if r.val then b.dataWrindex + Fin.ofNat 2 r.reqtype.dataWords else b.dataWrindex := by
  unfold Noc1Buffer.tick
  dsimp only
  cases r.val with
  | false => rfl
  | true =>
    rw [if_pos rfl, if_pos rfl]
    cases r.reqtype <;> simp [Noc1Reqtype.dataWords]

/-! ### The invariant -/

/-- What keeps the credits conserved. -/
structure CreditInv (y : State × Traffic) : Prop where
  conserved : CreditsConserved y
  staled : StaledSent y.1
  queue : ∃ q, y.1.noc1buffer.ring.Holds q ∧ DataChain q y.1.noc1buffer.dataWrindex
  idleNew : y.1.noc2Val = false → y.1.noc2IsMessageNew = true
  covered : (sumEntries fun id t => y.1.fillsOutside id t y.2) ≤ y.1.creditman.noc1Avail.toNat

theorem available1_iff (s : State) : s.stallNoc1CommandBuffer1Unavail = false ↔
    s.creditman.noc1Reserve.toNat < s.creditman.noc1Avail.toNat := by
  unfold State.stallNoc1CommandBuffer1Unavail State.stallTmpResult
  generalize s.creditman.noc1Avail = a
  generalize s.creditman.noc1Reserve = r
  revert a r
  decide +kernel

theorem available2_iff (s : State) : s.stallNoc1CommandBuffer2Unavail = false ↔
    s.creditman.noc1Reserve.toNat + 1 < s.creditman.noc1Avail.toNat := by
  unfold State.stallNoc1CommandBuffer2Unavail State.stallNoc1CommandBuffer1Unavail
    State.stallTmpResult
  generalize s.creditman.noc1Avail = a
  generalize s.creditman.noc1Reserve = r
  revert a r
  decide +kernel

/-- A PCX request in its first pass stalls until its credits and data words are there. -/
theorem firstPass_stalls (hi : y.1.s1Issues i = true) (hs : y.1.predecodeSource = .pcx)
    (hfs : y.1.fetchState = .normal) (hle : y.1.decode.creditmanNoc1Needed ≤ 2) :
    (y.1.decode.creditmanNoc1Needed = 0 ∨ y.1.creditman.noc1Reserve.toNat +
      y.1.decode.creditmanNoc1Needed ≤ y.1.creditman.noc1Avail.toNat) ∧
      y.1.decode.wordsNeeded ≤ y.1.creditman.noc1DataAvail.toNat := by
  have hbuf := (State.issues_iff.1 hi).2.2.2.2.2
  unfold State.stallPcxNoc1Buffer at hbuf
  simp only [hs, hfs, decide_true, Bool.and_true, Bool.or_eq_false_iff] at hbuf
  obtain ⟨hcmd, hdata⟩ := hbuf
  constructor
  · unfold State.stallNoc1CommandBufferUnavail at hcmd
    rw [Bool.or_eq_false_iff] at hcmd
    have havail1 := available1_iff y.1
    have havail2 := available2_iff y.1
    generalize y.1.decode.creditmanNoc1Needed = n at hle hcmd ⊢
    interval_cases n
    · exact .inl rfl
    · right
      have hlt := havail1.1 (by simpa using hcmd.1)
      omega
    · right
      have hlt := havail2.1 (by simpa using hcmd.2)
      omega
  · unfold State.stallNoc1DataBufferUnavail at hdata
    unfold Decoded.wordsNeeded
    cases h8 : y.1.decode.creditmanReq8B with
    | true =>
      rw [h8, if_pos rfl, decide_eq_false_iff_not] at hdata
      rw [if_pos rfl]
      have hpos : y.1.creditman.noc1DataAvail.toNat ≠ 0 := fun h0 =>
        hdata (BitVec.eq_of_toNat_eq h0)
      omega
    | false =>
      rw [h8, if_neg Bool.false_ne_true] at hdata
      rw [if_neg Bool.false_ne_true]
      cases h16 : y.1.decode.creditmanReq16B with
      | true =>
        rw [h16, if_pos rfl, decide_eq_false_iff_not, BitVec.lt_def] at hdata
        rw [if_pos rfl]
        exact Nat.le_of_not_lt hdata
      | false =>
        rw [if_neg Bool.false_ne_true]
        exact Nat.zero_le _

/-- A second pass takes a credit only for a line flush, and no data words. -/
theorem Inv.laterPass_credits (h : Inv y) (hok : CreditOk y i) (hi : y.1.s1Issues i = true)
    (hs : y.1.predecodeSource = .pcx) (hfs : y.1.fetchState = .pcxWritebackDone) :
    (y.1.decode.creditmanNoc1Needed = 0 ∨ y.1.creditman.noc1Reserve.toNat +
      y.1.decode.creditmanNoc1Needed ≤ y.1.creditman.noc1Avail.toNat) ∧
      y.1.decode.wordsNeeded ≤ y.1.creditman.noc1DataAvail.toNat := by
  have hrt : y.1.predecode.reqtype = y.1.predecodePcx.reqtype := by
    rw [State.predecode_pcx hs]
  have hpass := h.pcxPass hfs
  rw [← hrt] at hpass
  have hc := @secondPass_credits y.1.predecode.reqtype y.1.intVecDis y.1.hitStbuf
    y.1.predecode.isLastInval y.1.predecode.interruptBroadcast hpass
  rw [← hfs] at hc
  change SecondPassCredits _ y.1.decode at hc
  rw [hc.noWords]
  refine ⟨?_, Nat.zero_le _⟩
  by_cases hflush : y.1.predecode.reqtype = .lineFlush
  · right
    have hlt := (available1_iff y.1).1 (hok.flush hi hfs hflush)
    have hneeded := hc.needed
    have hone : y.1.decode.noc1Operation.credits ≤ 1 := by
      cases y.1.decode.noc1Operation <;> decide
    omega
  · exact .inl (hc.none hflush)

/-- A PCX request takes credits that are not reserved; a NoC2 message takes the one it gives back. -/
theorem Inv.creditsTaken_cases (h : Inv y) (hok : CreditOk y i) :
    (y.1.creditsTaken i ≤ (y.1.unreserves i).toNat ∧ y.1.wordsTaken i = 0) ∨
      (y.1.unreserves i = false ∧
        (y.1.creditsTaken i = 0 ∨ y.1.creditman.noc1Reserve.toNat + y.1.creditsTaken i ≤
          y.1.creditman.noc1Avail.toNat) ∧
        y.1.wordsTaken i ≤ y.1.creditman.noc1DataAvail.toNat) := by
  have hrow := neededRow y.1.predecode.reqtype y.1.fetchState y.1.intVecDis y.1.hitStbuf
    y.1.predecode.isLastInval y.1.predecode.interruptBroadcast
  change NeededRow _ _ y.1.decode at hrow
  unfold State.creditsTaken State.wordsTaken
  cases hi : y.1.s1Issues i with
  | false => exact .inl ⟨Nat.zero_le _, rfl⟩
  | true =>
    rw [if_pos rfl, if_pos rfl]
    rcases source_cases hi with ⟨hs, -⟩ | ⟨hs, hfs⟩
    · left
      obtain ⟨hneeded, hno⟩ := hrow.noc2 (h.noc2_fromPcx hs)
      refine ⟨?_, hno⟩
      unfold State.unreserves
      rw [hi, Bool.true_and]
      exact hneeded
    · right
      refine ⟨?_, ?_⟩
      · by_contra hne
        obtain ⟨hh, -⟩ := (h.unreserves_iff i).1 (by simpa using hne)
        rw [(new_of_noc2HeaderAck hh).2.2.2.2] at hs
        cases hs
      · rcases hfs with hfs | hfs
        · exact firstPass_stalls hi hs hfs hrow.needed_le
        · exact h.laterPass_credits hok hi hs hfs

/-- The reserved credits cover the fills outside. -/
theorem CreditInv.outside_le (hc : CreditInv y) :
    (sumEntries fun id t => y.1.fillsOutside id t y.2) ≤ y.1.creditman.noc1Reserve.toNat := by
  rw [hc.conserved.reserved]
  refine sumEntries_le fun id t => ?_
  unfold State.fillsOutside State.fillsDue
  cases y.1.cacheable id t with
  | false => exact le_refl _
  | true =>
    rw [if_pos rfl, if_pos rfl]
    exact Nat.le_add_left _ _

/-- An answer that gives its reserved credit back is outside. -/
theorem Inv.unreserves_le (h : Inv y) (i : Inputs) :
    (y.1.unreserves i).toNat ≤ sumEntries fun id t => y.1.fillsOutside id t y.2 := by
  rw [← h.sum_starts i]
  refine sumEntries_le fun id t => ?_
  unfold State.fillsOutside State.answerDue
  cases hst : y.1.starts i id t with
  | false => simp
  | true =>
    unfold State.starts at hst
    rw [Bool.and_eq_true] at hst
    obtain ⟨hv, hn, -⟩ := new_of_noc2HeaderAck hst.1
    have hnew : y.1.answerNew id t = true := by
      unfold State.answerNew
      rw [hv, hn, hst.2]
      rfl
    rw [hnew]
    cases y.1.cacheable id t <;> simp

theorem one_le_occupied (h : s.noc1encoderReqAck i = true) : 1 ≤ s.noc1buffer.occupied := by
  unfold State.noc1encoderReqAck at h
  rw [Bool.and_eq_true] at h
  exact s.noc1buffer.ring.le_weight (fun _ => 1) h.2

theorem reqDataSent_le (s : State) (i : Inputs) :
    s.noc1buffer.reqDataSent (s.noc1encoderReqAck i) ≤ s.noc1buffer.occupiedWords := by
  unfold Noc1Buffer.reqDataSent
  cases hack : s.noc1encoderReqAck i with
  | false => exact Nat.zero_le _
  | true =>
    unfold State.noc1encoderReqAck at hack
    rw [Bool.and_eq_true] at hack
    exact s.noc1buffer.ring.le_weight (fun c => c.reqtype.dataWords) hack.2

/-- A cycle takes only credits that are there and overwrites nothing. -/
theorem CreditInv.respected (hc : CreditInv y) (h : Inv y) (hok : CreditOk y i) :
    CreditsRespected y.1 i := by
  have hout := hc.outside_le
  have hun := h.unreserves_le i
  have hcov := hc.covered
  have hcommands := hc.conserved.commands
  have hwords := hc.conserved.words
  have hs3 := creditsS3_eq hc.staled i
  have hw3 := wordsS3_eq y.1 i
  obtain ⟨q, hq, hchain⟩ := hc.queue
  have hocc : y.1.noc1buffer.occupied = q.length := by
    unfold Noc1Buffer.occupied
    rw [hq.weight_eq]
    simp
  have hoccw : y.1.noc1buffer.occupiedWords = queueWords q := hq.weight_eq _
  unfold State.creditsInFlight at hcommands hwords
  refine ⟨?_, ?_, fun hv => ?_, fun k hk j hj => ?_⟩
  · rcases h.creditsTaken_cases hok with ⟨hle, -⟩ | ⟨-, hzero | hle, -⟩ <;> omega
  · rcases h.creditsTaken_cases hok with ⟨-, hno⟩ | ⟨-, -, hle⟩ <;> omega
  · refine hq.full_wr ?_
    rw [hv] at hs3
    have htrue : true.toNat = 1 := rfl
    omega
  · refine tick_dataBuffer_of_ne fun hv m hm heq => ?_
    change m < y.1.noc1Type.dataWords at hm
    have hmem : y.1.noc1buffer.commandBuffer k ∈ q := hq.mem_of_full hk
    obtain ⟨n, hlow, hhigh, hn⟩ := hchain.index hmem
    rw [hv, if_pos rfl] at hw3
    -- both words lie among the two, the held one before the written one
    have hn1 : n = 1 := by omega
    have hj0 : j = 0 := by omega
    have hm0 : m = 0 := by omega
    rw [← hn, hn1, hj0, hm0, add_assoc] at heq
    exact absurd (add_left_cancel heq) (by decide)

theorem toNat_eq_ite (b : Bool) : b.toNat = if b then 1 else 0 := by
  cases b <;> rfl

/-- At most one fill is under way for each data entry. -/
theorem Inv.sum_fillsDue_le (h : Inv y) :
    (sumEntries fun id t => y.1.fillsDue id t y.2) ≤ 4 := by
  refine (sumEntries_le (g := fun _ _ => 1) fun id t => ?_).trans (by decide)
  have htok := h.tokens id t
  have hval := Bool.toNat_le (y.1.mshr.val id t)
  have hnew : (y.1.answerNew id t).toNat ≤ (y.1.answerWaits id t).toNat := by
    unfold State.answerNew State.answerWaits
    cases y.1.noc2Val <;> cases y.1.noc2IsMessageNew <;> simp
  unfold State.tokens at htok
  unfold State.fillsDue State.answerDue
  split <;> omega

/-! ### Runs -/

/-- A command leaves the head of the queue and another enters its end. -/
theorem CreditInv.step_queue (hc : CreditInv y) (hr : CreditsRespected y.1 i) :
    ∃ q, (y.1.step i).noc1buffer.ring.Holds q ∧
      DataChain q (y.1.step i).noc1buffer.dataWrindex := by
  obtain ⟨q, hq, hchain⟩ := hc.queue
  have hwr : (y.1.step i).noc1buffer.dataWrindex =
      if (y.1.noc1Request i).val then
        y.1.noc1buffer.dataWrindex + Fin.ofNat 2 (y.1.noc1Request i).reqtype.dataWords
      else y.1.noc1buffer.dataWrindex := tick_dataWrindex _ _ _
  have hring : (y.1.step i).noc1buffer.ring =
      if (y.1.noc1Request i).val then
        (if y.1.noc1encoderReqAck i then y.1.noc1buffer.ring.pop else y.1.noc1buffer.ring).push
          (y.1.noc1buffer.command (y.1.noc1Request i))
      else if y.1.noc1encoderReqAck i then y.1.noc1buffer.ring.pop else y.1.noc1buffer.ring :=
    ring_tick _ _ _
  have hpopped : ∃ q', (if y.1.noc1encoderReqAck i then y.1.noc1buffer.ring.pop
      else y.1.noc1buffer.ring).Holds q' ∧ q'.length ≤ q.length ∧
        DataChain q' y.1.noc1buffer.dataWrindex := by
    cases hack : y.1.noc1encoderReqAck i with
    | false => exact ⟨q, hq, le_refl _, hchain⟩
    | true =>
      unfold State.noc1encoderReqAck at hack
      rw [Bool.and_eq_true] at hack
      have hhead : y.1.noc1buffer.ring.full y.1.noc1buffer.ring.rd = true := hack.2
      cases q with
      | nil =>
        rw [hq.full_rd] at hhead
        exact absurd hhead (by simp)
      | cons x q' => exact ⟨q', hq.pop, Nat.le_succ _, hchain.2⟩
  obtain ⟨q', hq', hlen, hchain'⟩ := hpopped
  rw [hring, hwr]
  cases hv : (y.1.noc1Request i).val with
  | false => exact ⟨q', hq', hchain'⟩
  | true =>
    have hlt : q.length < 8 := by
      by_contra hge
      have hfull := hq.full_pos 0 (by decide)
      have hlen8 : q.length = 8 := le_antisymm hq.length_le (by omega)
      have hwrap : y.1.noc1buffer.ring.wr = y.1.noc1buffer.ring.pos 0 := by
        rw [hq.wr_eq, hlen8]
        unfold Ring.pos
        rfl
      have hfree : y.1.noc1buffer.ring.full y.1.noc1buffer.ring.wr = false := hr.slotFree hv
      rw [hwrap, hfull, hlen8] at hfree
      exact absurd hfree (by decide)
    exact ⟨_, hq'.push (by omega) _, hchain'.push rfl⟩

theorem CreditInv.step (hc : CreditInv y) (h : Inv y) (hok : CreditOk y i) :
    CreditInv (system.step y i) := by
  have hr := hc.respected h hok
  have hs3 := creditsS3_eq hc.staled i
  have hw3 := wordsS3_eq y.1 i
  have hstages := creditsStages_step Noc1Op.credits y.1 i
  have hwstages := creditsStages_step Noc1Op.words y.1 i
  obtain ⟨htaken, hwtaken⟩ := h.creditsTaken_eq i
  have hhead : y.1.noc1encoderReqAck i = true → y.1.noc1buffer.headVal = true := fun hk => by
    unfold State.noc1encoderReqAck at hk
    rw [Bool.and_eq_true] at hk
    exact hk.2
  have hocc : (y.1.step i).noc1buffer.occupied + (y.1.noc1encoderReqAck i).toNat =
      y.1.noc1buffer.occupied + (y.1.noc1Request i).val.toNat := by
    have hw := weight_tick_eq y.1.noc1buffer (y.1.noc1Request i) (y.1.noc1encoderReqAck i)
      (fun _ => 1) hhead hr.slotFree
    rw [toNat_eq_ite, toNat_eq_ite]
    exact hw
  have hoccw : (y.1.step i).noc1buffer.occupiedWords +
        y.1.noc1buffer.reqDataSent (y.1.noc1encoderReqAck i) =
      y.1.noc1buffer.occupiedWords +
        (if (y.1.noc1Request i).val then y.1.noc1Type.dataWords else 0) :=
    weight_tick_eq y.1.noc1buffer (y.1.noc1Request i) (y.1.noc1encoderReqAck i)
      (fun c => c.reqtype.dataWords) hhead hr.slotFree
  have hcommands := hc.conserved.commands
  have hwords := hc.conserved.words
  unfold State.creditsInFlight at hcommands hwords
  have hsent : (y.1.noc1encoderReqAck i).toNat ≤ y.1.noc1buffer.occupied := by
    cases hack : y.1.noc1encoderReqAck i with
    | false => exact Nat.zero_le _
    | true => exact one_le_occupied hack
  have havail := noc1Avail_step y.1 i hr.commands (by omega)
  have hdata := noc1DataAvail_step y.1 i hr.words (by have := reqDataSent_le y.1 i; omega)
  have hdue := sumEntries_congr (h.fillsDue_step hok.conforming hc.idleNew hr.slotFree)
  have houtside := sumEntries_congr (h.fillsOutside_step hok.conforming hc.idleNew)
  rw [h.sum_starts, h.sum_pushes hc.staled] at hdue
  rw [h.sum_starts] at houtside
  have hsends := sum_sends_le y.1 i
  have hreserved := hc.conserved.reserved
  have hout := hc.outside_le
  have hun := h.unreserves_le i
  have hcov := hc.covered
  have hreserves : (y.1.reserves i).toNat ≤ 1 := Bool.toNat_le _
  have hfills := h.sum_fillsDue_le
  have hreserve := noc1Reserve_step y.1 i (by omega) (by omega)
  refine ⟨⟨?_, ?_, ?_⟩, h.step_staledSent i, hc.step_queue hr, ?_, ?_⟩
  · show (y.1.creditmanNext i).noc1Avail.toNat + _ + (y.1.step i).noc1buffer.occupied = 8
    unfold State.creditsInFlight
    show (y.1.creditmanNext i).noc1Avail.toNat + ((y.1.step i).creditsS2 _ +
      (y.1.step i).creditsS3 _ + (y.1.step i).creditsPass _) + _ = 8
    omega
  · show (y.1.creditmanNext i).noc1DataAvail.toNat + _ +
      (y.1.step i).noc1buffer.occupiedWords = 2
    unfold State.creditsInFlight
    show (y.1.creditmanNext i).noc1DataAvail.toNat + ((y.1.step i).creditsS2 _ +
      (y.1.step i).creditsS3 _ + (y.1.step i).creditsPass _) + _ = 2
    omega
  · show (y.1.creditmanNext i).noc1Reserve.toNat = sumEntries fun id t =>
      (y.1.step i).fillsDue id t (trafficNext y.2 y.1 i)
    omega
  · exact idleNew_step hc.idleNew i
  · show (sumEntries fun id t => (y.1.step i).fillsOutside id t (trafficNext y.2 y.1 i)) ≤
      (y.1.creditmanNext i).noc1Avail.toNat
    rcases h.creditsTaken_cases hok with ⟨hle, -⟩ | ⟨hno, hzero | hle, -⟩
    · omega
    · omega
    · rw [hno] at houtside
      have hfalse : false.toNat = 0 := rfl
      omega

theorem init_creditInv (hy : system.init y) : CreditInv y := by
  obtain ⟨hr, hg⟩ := hy
  change y.1.IsReset at hr
  have hnone : ∀ id t, y.2.outstanding id t = none := fun id t => by
    rw [hg]
    rfl
  have hempty : ∀ f, y.1.noc1buffer.ring.weight f = 0 := fun f =>
    Ring.weight_eq_zero hr.commandBufferVal f
  have hflight : ∀ f g, y.1.creditsInFlight f g = 0 := fun f g => by
    unfold State.creditsInFlight State.creditsS2 State.creditsS3 State.creditsPass
    simp [hr.valS2, hr.valS3, hr.fetchState]
  have hdue : ∀ id t, y.1.answerDue id t y.2 = 0 := fun id t => by
    unfold State.answerDue State.answerNew
    simp [hnone, hr.noc2Val]
  refine ⟨⟨?_, ?_, ?_⟩, fun hst => ?_, ⟨[], ?_, trivial⟩, fun _ => hr.noc2IsMessageNew, ?_⟩
  · rw [hflight, hr.creditman]
    exact congrArg (8 + ·) (hempty _)
  · rw [hflight, hr.creditman]
    exact congrArg (2 + ·) (hempty _)
  · rw [hr.creditman]
    refine (sumEntries_zero fun id t _ => ?_).symm
    unfold State.fillsDue State.reqBuffered
    rw [hdue, hempty]
    exact ite_self _
  · rw [hr.noc1encoderReqStaled] at hst
    exact absurd hst Bool.false_ne_true
  · refine ⟨Nat.zero_le _, ?_, fun k _ => hr.commandBufferVal _, fun k hk => absurd hk (by simp)⟩
    rw [List.length_nil, Ring.pos_zero]
    exact hr.commandWrindex.trans hr.commandRdindex.symm
  · refine (sumEntries_zero fun id t _ => ?_).le.trans (Nat.zero_le _)
    unfold State.fillsOutside
    rw [hdue]
    exact ite_self _

theorem reachable_creditInv (h : system.Reachable CreditOk y) : CreditInv y := by
  refine h.invariant_of (Q := Inv)
    (fun y hy => reachable_inv (hy.mono fun _ _ hok => hok.conforming))
    (fun y hy => init_creditInv hy) fun y i hinv hc hok => hc.step hinv hok

/-- As long as no line flush takes a credit that is not there, the credits are conserved, and no
cycle takes a missing credit or overwrites a slot or a data word. -/
theorem creditsConserved (h : system.Reachable CreditOk y) :
    CreditsConserved y ∧ ∀ i, CreditOk y i → CreditsRespected y.1 i :=
  ⟨(reachable_creditInv h).conserved, fun _ hok =>
    (reachable_creditInv h).respected (reachable_inv (h.mono fun _ _ hok => hok.conforming)) hok⟩

/-- The L1.5 and its traffic at the end of `fillRun`. -/
def fillTraffic : State × Traffic := system.run (State.reset, Traffic.empty) fillRun

set_option maxRecDepth 20000 in
theorem fillTraffic_reachable : system.Reachable CreditOk fillTraffic :=
  (Machine.Reachable.init system_init).run (by decide +kernel)

theorem creditsConserved_fillTraffic :
    CreditsConserved fillTraffic ∧ ∀ i, CreditOk fillTraffic i → CreditsRespected fillTraffic.1 i :=
  creditsConserved fillTraffic_reachable

/-- Eight requests fill the NoC1 buffer while the encoder takes none; a line flush follows. -/
def flushRun : List Inputs :=
  let wait (n : Nat) := List.replicate n Inputs.quiet
  let ifill (t : ThreadId) :=
    Inputs.ofPcx { PcxPacket.zero with rqtype := .ifill, threadid := t, address := 0x1000 }
  let interrupt (t : ThreadId) :=
    Inputs.ofPcx { PcxPacket.zero with rqtype := .interrupt, threadid := t }
  let loadNc (t : ThreadId) (a : Paddr) :=
    Inputs.ofPcx { PcxPacket.zero with nc := true, size := 3, threadid := t, address := a }
  ([ifill 0, ifill 1, interrupt 0] ++ wait 3 ++ [interrupt 1] ++ wait 3 ++ [loadNc 0 0x2000] ++
    wait 8 ++ [loadNc 1 0x3010] ++ wait 8 ++
    [Inputs.store 0 0x4020 false 1, Inputs.store 1 0x5030 false 2] ++ wait 5 ++
    [Inputs.lineFlush 0x40 0] ++ wait 2).map fun i => { i with noc1encoderAck := false }

/-- The L1.5 and its traffic at the end of `flushRun`. -/
def flushTraffic : State × Traffic := system.run (State.reset, Traffic.empty) flushRun

set_option maxRecDepth 20000 in
theorem flushTraffic_reachable : system.Reachable InputOk flushTraffic :=
  (Machine.Reachable.init system_init).run (by decide +kernel)

/-- The second pass of the line flush takes a ninth credit. -/
theorem flushTraffic_avail : flushTraffic.1.creditman.noc1Avail = 15 := by
  decide +kernel

theorem not_creditsConserved : ¬ ∀ y, system.Reachable InputOk y →
    CreditsConserved y ∧ ∀ i, InputOk y i → CreditsRespected y.1 i := by
  intro h
  have hc := (h flushTraffic flushTraffic_reachable).1.commands
  rw [flushTraffic_avail] at hc
  have hmany : (15 : BitVec 4).toNat = 15 := rfl
  omega

end Piton.L15
