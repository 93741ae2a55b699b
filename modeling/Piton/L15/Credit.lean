import Mathlib.Tactic.IntervalCases
import Piton.L15.Entries

/-! The credits of NoC1. Every command credit is held by the credit manager, by a request in the
pipeline or by a command in the NoC1 buffer, and every data credit likewise. -/

namespace Piton.L15

open Hw

variable {y : State × Traffic} {s : State} {i : Inputs} {id : MshrId} {t : ThreadId}

/-! ### Where the credits are -/

namespace Noc1Buffer

/-- The number of valid slots. -/
def occupied (b : Noc1Buffer) : Nat := b.ring.weight fun _ => 1

/-- The number of data words of the commands in the buffer. -/
def occupiedWords (b : Noc1Buffer) : Nat := b.ring.weight fun c => c.reqtype.dataWords

end Noc1Buffer

namespace State

variable (s : State) (f : Noc1Op → Nat) (g : Reqtype → Nat)

/-- The credits of the instruction in S2. -/
def creditsS2 : Nat := if s.valS2 then f s.s2.ops.noc1Operation else 0

/-- The credits of the instruction in S3, until its request is sent. -/
def creditsS3 : Nat :=
  if s.valS3 && !s.noc1encoderReqStaled then f s.s3.ops.noc1Operation else 0

/-- The credits held for the second pass of a PCX request. -/
def creditsPass : Nat :=
  if s.fetchState = .pcxWritebackDone then g s.predecodePcx.reqtype else 0

/-- The credits of the requests in the pipeline. -/
def creditsInFlight : Nat := s.creditsS2 f + s.creditsS3 f + s.creditsPass g

/-- The command credits that S1 takes. -/
def creditsTaken (i : Inputs) : Nat := if s.s1Issues i then s.decode.creditmanNoc1Needed else 0

/-- The data credits that S1 takes. -/
def wordsTaken (i : Inputs) : Nat := if s.s1Issues i then s.decode.wordsNeeded else 0

/-- S1 gives back the credit reserved for the fill of a request. -/
def unreserves (i : Inputs) : Bool := s.s1Issues i && s.decode.creditmanNoc1Unreserve

/-- S3 reserves a credit for the fill of its request. -/
def reserves (i : Inputs) : Bool := s.noc1ReserveS3 && !s.stallS3 i && s.valS3

end State

/-! ### The pipeline -/

/-- The stale bit of NoC1 tells that S3 was stalled. -/
theorem noc1encoderReqStaledNext_eq (s : State) (i : Inputs) :
    s.noc1encoderReqStaledNext i = (s.stallS3 i) := by
  unfold State.noc1encoderReqStaledNext State.stallS3
  cases s.noc1encoderReqStaled with
  | true => rfl
  | false =>
    cases hv : s.valS3 with
    | true => rfl
    | false =>
      unfold State.stallForCpx State.stallForNoc3 State.cpxencoderVal State.noc3Request
      simp [hv]

/-- Credits move from S1 to S2 and on to S3, whose first cycle gives them away. -/
theorem creditsStages_step (f : Noc1Op → Nat) (s : State) (i : Inputs) :
    (s.step i).creditsS2 f + (s.step i).creditsS3 f =
      s.creditsS2 f + (if s.s1Issues i then f s.decode.noc1Operation else 0) := by
  unfold State.creditsS2 State.creditsS3
  show (if (if s.stallS2 i then s.valS2 else s.s1Issues i) then
      f (if s.stallS2 i then s.s2 else s.s1Instr).ops.noc1Operation else 0) +
    (if (if s.stallS3 i then s.valS3 else s.valS2 && !s.stallS2 i) &&
        !s.noc1encoderReqStaledNext i then
      f (if s.stallS3 i then s.s3 else s.s2).ops.noc1Operation else 0) = _
  rw [noc1encoderReqStaledNext_eq]
  have hinstr : s.s1Instr.ops.noc1Operation = s.decode.noc1Operation := rfl
  rcases s.movement i with ⟨h3, h2, hv2, hv3, hi⟩ | ⟨h3, h2, hv2, hv3⟩ | ⟨h3, h2⟩
  · simp [h3, h2, hi]
  · simp [h3, h2, hv2, hinstr]
  · simp [h3, h2, hinstr, Nat.add_comm]

/-- An instruction whose NoC1 request was sent stays in S3 with a request. -/
def StaledSent (s : State) : Prop :=
  s.noc1encoderReqStaled = true →
    s.valS3 = true ∧ s.noc1Mispredicted = false ∧ s.s3.ops.noc1Operation.expects = false

theorem noc1Mispredicted_eq (s : State) : s.noc1Mispredicted =
    (s.valS3 && (s.s3.ops.noc1Operation ≠ .none) && !s.noc1Condition) := rfl

/-- A request that is not needed does not stall in S3. -/
theorem Inv.stallS3_of_mispredicted (h : Inv y) (hm : y.1.noc1Mispredicted = true) (i : Inputs) :
    y.1.stallS3 i = false := by
  rw [noc1Mispredicted_eq] at hm
  simp only [ne_eq, Bool.and_eq_true, decide_eq_true_eq, Bool.not_eq_true'] at hm
  obtain ⟨⟨hv, hop⟩, hc⟩ := hm
  have hdec := h.decodesS3 hv
  have hcpx : y.1.stallForCpx = false := by
    by_contra hno
    have htwo := (stallForCpx_eq_true (i := i) (by simpa using hno)).1
    exact hop (hdec.completionRow.1 (hdec.completionRow.2 htwo)).1
  have hnoc3 : y.1.noc3Req.1 = false := by
    have hrow := hdec.guardRow hop
    unfold State.noc1Condition at hc
    unfold State.noc3Req
    cases hn : y.1.s3.ops.noc1Operation <;> rw [hn] at hrow hc <;> rw [hrow] <;>
      first
      | rfl
      | exact hc
  unfold State.stallS3 State.stallForNoc3 State.noc3Request
  simp [hcpx, hnoc3]

theorem Inv.step_staledSent (h : Inv y) (i : Inputs) : StaledSent (y.1.step i) := by
  intro hst
  change y.1.noc1encoderReqStaledNext i = true at hst
  rw [noc1encoderReqStaledNext_eq] at hst
  have hv := State.valS3_of_stallS3 hst
  have hval : (y.1.step i).valS3 = true := by
    show (if y.1.stallS3 i then y.1.valS3 else y.1.valS2 && !y.1.stallS2 i) = true
    rw [hst, if_pos rfl, hv]
  have hs3 : (y.1.step i).s3 = y.1.s3 := by
    show (if y.1.stallS3 i then y.1.s3 else y.1.s2) = y.1.s3
    rw [hst, if_pos rfl]
  have hres : (y.1.step i).s3Result = y.1.s3Result := by
    show (if y.1.stallS3 i then y.1.s3Result else y.1.s2Result) = y.1.s3Result
    rw [hst, if_pos rfl]
  refine ⟨hval, ?_, ?_⟩
  · have hsame : (y.1.step i).noc1Mispredicted = y.1.noc1Mispredicted := by
      unfold State.noc1Mispredicted State.noc1Condition
      rw [hval, hs3, hres, hv]
    rw [hsame]
    by_contra hm
    rw [h.stallS3_of_mispredicted (by simpa using hm) i] at hst
    exact absurd hst Bool.false_ne_true
  · rw [hs3]
    by_contra he
    rw [h.stallS3_of_expects hv (by simpa using he)] at hst
    exact absurd hst Bool.false_ne_true

/-- The credit of the instruction in S3 goes to its command or back to the credit manager. -/
theorem creditsS3_eq (hs : StaledSent s) (i : Inputs) :
    s.creditsS3 Noc1Op.credits =
      (s.noc1Request i).val.toNat + s.noc1Mispredicted.toNat := by
  have hval : (s.noc1Request i).val = ((s.valS3 && s.noc1Condition) && !s.noc1encoderReqStaled) :=
    rfl
  cases hst : s.noc1encoderReqStaled with
  | true =>
    obtain ⟨-, hm, -⟩ := hs hst
    unfold State.creditsS3
    rw [hval, hm, hst]
    simp
  | false =>
    unfold State.creditsS3
    rw [hval, noc1Mispredicted_eq, hst]
    cases hv : s.valS3 with
    | false => rfl
    | true =>
      by_cases hop : s.s3.ops.noc1Operation = .none
      · have hc : s.noc1Condition = false := by
          unfold State.noc1Condition
          rw [hop]
        simp [hop, hc, Noc1Op.credits]
      · have hone : s.s3.ops.noc1Operation.credits = 1 := by
          cases hn : s.s3.ops.noc1Operation <;> first | rfl | exact absurd hn hop
        cases s.noc1Condition <;> simp [hop, hone]

/-- The data credits of the instruction in S3 go to its command. -/
theorem wordsS3_eq (s : State) (i : Inputs) :
    s.creditsS3 Noc1Op.words =
      if (s.noc1Request i).val then s.noc1Type.dataWords else 0 := by
  have hval : (s.noc1Request i).val = ((s.valS3 && s.noc1Condition) && !s.noc1encoderReqStaled) :=
    rfl
  have hwords : s.noc1Condition = true → s.noc1Type.dataWords = s.s3.ops.noc1Operation.words := by
    intro hc
    unfold State.noc1Type
    cases s.s3.ops.noc1Operation <;> simp only [] <;> first | rfl | (split <;> rfl)
  have hnone : s.noc1Condition = false → s.s3.ops.noc1Operation.words = 0 := by
    intro hc
    unfold State.noc1Condition at hc
    cases hop : s.s3.ops.noc1Operation <;> rw [hop] at hc <;>
      first
      | rfl
      | exact absurd hc.symm Bool.false_ne_true
  unfold State.creditsS3
  rw [hval]
  cases hc : s.noc1Condition with
  | true => cases s.valS3 <;> cases s.noc1encoderReqStaled <;> simp [hwords hc]
  | false => simp [hnone hc]

/-! ### Requests of S1 -/

/-- What S1 takes is what the issued instruction and the pass that follows hold. -/
theorem Inv.creditsTaken_eq (h : Inv y) (i : Inputs) :
    (if y.1.s1Issues i then y.1.decode.noc1Operation.credits else 0) +
        (y.1.step i).creditsPass Reqtype.passCredits =
      y.1.creditsPass Reqtype.passCredits + y.1.creditsTaken i ∧
    (if y.1.s1Issues i then y.1.decode.noc1Operation.words else 0) +
        (y.1.step i).creditsPass Reqtype.passWords =
      y.1.creditsPass Reqtype.passWords + y.1.wordsTaken i := by
  have hpass : ∀ g, (y.1.step i).creditsPass g =
      if (y.1.step i).fetchState = .pcxWritebackDone then g y.1.predecodePcx.reqtype else 0 := by
    intro g
    unfold State.creditsPass
    by_cases hfs : (y.1.step i).fetchState = .pcxWritebackDone
    · rw [(h.predecodePcx_kept hfs).1]
    · rw [if_neg hfs, if_neg hfs]
  rw [hpass, hpass]
  unfold State.creditsPass State.creditsTaken State.wordsTaken
  cases hi : y.1.s1Issues i with
  | false =>
    rw [fetchState_of_not_issues hi]
    simp
  | true =>
    rw [fetchState_of_issues hi]
    simp only [if_true]
    rcases source_cases hi with ⟨hs, hfs⟩ | ⟨hs, hfs | hfs⟩
    · have hrt := h.noc2_fromPcx hs
      have hnext := fetchStateNext_of_fromPcx (a := y.1.intVecDis) hrt hfs
      rw [if_neg hnext, if_neg hnext, if_neg hfs, if_neg hfs]
      by_cases hn : y.1.fetchState = .normal
      · rw [hn] at hnext
        have hc := firstPass_credits y.1.predecode.reqtype y.1.intVecDis y.1.hitStbuf
          y.1.predecode.isLastInval y.1.predecode.interruptBroadcast
        have hneeded := hc.needed
        have hwords := hc.words
        rw [if_neg hnext, Nat.add_zero, ← hn] at hneeded hwords
        change y.1.decode.creditmanNoc1Needed = y.1.decode.noc1Operation.credits at hneeded
        change y.1.decode.wordsNeeded = y.1.decode.noc1Operation.words at hwords
        omega
      · obtain ⟨hop, hneeded, hwords⟩ := @noc2Pass_credits y.1.predecode.reqtype y.1.intVecDis
          y.1.hitStbuf y.1.predecode.isLastInval y.1.predecode.interruptBroadcast _ hrt hn
        change y.1.decode.noc1Operation = .none at hop
        change y.1.decode.creditmanNoc1Needed = 0 at hneeded
        change y.1.decode.wordsNeeded = 0 at hwords
        rw [hop, hneeded, hwords]
        exact ⟨rfl, rfl⟩
    · have hrt : y.1.predecode.reqtype = y.1.predecodePcx.reqtype := by
        rw [State.predecode_pcx hs]
      have hc := firstPass_credits y.1.predecode.reqtype y.1.intVecDis y.1.hitStbuf
        y.1.predecode.isLastInval y.1.predecode.interruptBroadcast
      have hneeded := hc.needed
      have hwords := hc.words
      rw [← hfs] at hneeded hwords
      change y.1.decode.creditmanNoc1Needed = y.1.decode.noc1Operation.credits + _ at hneeded
      change y.1.decode.wordsNeeded = y.1.decode.noc1Operation.words + _ at hwords
      rw [← hrt, hneeded, hwords, hfs]
      simp
    · have hrt : y.1.predecode.reqtype = y.1.predecodePcx.reqtype := by
        rw [State.predecode_pcx hs]
      have hpass := h.pcxPass hfs
      rw [← hrt] at hpass ⊢
      have hc := @secondPass_credits y.1.predecode.reqtype y.1.intVecDis y.1.hitStbuf
        y.1.predecode.isLastInval y.1.predecode.interruptBroadcast
        (hpass.imp_right fun hp => hp)
      have hneeded := hc.needed
      have hwords := hc.words
      have hno := hc.noWords
      rw [← hfs] at hneeded hwords hno
      change y.1.decode.noc1Operation.credits = _ + y.1.decode.creditmanNoc1Needed at hneeded
      change y.1.decode.noc1Operation.words = _ at hwords
      change y.1.decode.wordsNeeded = 0 at hno
      have hnext : fetchStateNext y.1.fetchState y.1.predecode.reqtype y.1.intVecDis false =
          .normal := by
        rw [hfs]
        rfl
      rw [hnext, hneeded, hwords, hno, if_pos hfs, if_pos hfs]
      exact ⟨rfl, rfl⟩

/-! ### The credit manager -/

/-- The command credits after a cycle, as long as they neither run out nor overflow. -/
theorem noc1Avail_step (s : State) (i : Inputs)
    (hlow : s.creditsTaken i ≤ s.creditman.noc1Avail.toNat)
    (hhigh : s.creditman.noc1Avail.toNat + (s.noc1encoderReqAck i).toNat +
      s.noc1Mispredicted.toNat ≤ 15) :
    (s.creditmanNext i).noc1Avail.toNat + s.creditsTaken i =
      s.creditman.noc1Avail.toNat + (s.noc1encoderReqAck i).toNat + s.noc1Mispredicted.toNat := by
  have hle : s.decode.creditmanNoc1Needed ≤ 2 := (neededRow _ _ _ _ _ _).needed_le
  revert hlow hhigh
  unfold State.creditmanNext State.creditsTaken State.creditmanReq
  dsimp only
  generalize s.creditman.noc1Avail = a
  generalize s.decode.creditmanNoc1Needed = n at hle
  cases s.noc1encoderReqAck i <;> cases s.noc1Mispredicted <;> cases s.s1Issues i <;>
    interval_cases n <;> simp <;> omega

theorem dataWords_le (r : Noc1Reqtype) : r.dataWords ≤ 2 := by
  cases r <;> decide

/-- The data credits after a cycle, as long as they neither run out nor overflow. -/
theorem noc1DataAvail_step (s : State) (i : Inputs)
    (hlow : s.wordsTaken i ≤ s.creditman.noc1DataAvail.toNat)
    (hhigh : s.creditman.noc1DataAvail.toNat +
      s.noc1buffer.reqDataSent (s.noc1encoderReqAck i) ≤ 15) :
    (s.creditmanNext i).noc1DataAvail.toNat + s.wordsTaken i =
      s.creditman.noc1DataAvail.toNat + s.noc1buffer.reqDataSent (s.noc1encoderReqAck i) := by
  have hrow : NeededRow _ _ s.decode := neededRow _ _ _ _ _ _
  have hle := dataWords_le s.noc1buffer.head.reqtype
  have hreq : s.creditmanReq i = false → s.wordsTaken i = 0 := by
    intro hr
    unfold State.creditmanReq at hr
    unfold State.wordsTaken
    cases hi : s.s1Issues i with
    | false => rfl
    | true =>
      rw [hi, Bool.true_and, decide_eq_false_iff_not, not_not] at hr
      exact hrow.words hr
  have hissue : s.creditmanReq i = true → s.wordsTaken i = s.decode.wordsNeeded := by
    intro hr
    unfold State.creditmanReq at hr
    rw [Bool.and_eq_true] at hr
    unfold State.wordsTaken
    rw [if_pos hr.1]
  have h8 := hrow.words8
  revert hlow hhigh
  unfold State.creditmanNext Noc1Buffer.reqDataSent
  unfold Decoded.wordsNeeded at hissue
  dsimp only
  generalize s.creditman.noc1DataAvail = a
  generalize s.noc1buffer.head.reqtype.dataWords = w at hle
  cases hr : s.creditmanReq i with
  | false =>
    rw [hreq hr]
    cases s.noc1encoderReqAck i <;> interval_cases w <;> simp <;> omega
  | true =>
    rw [hissue hr]
    cases hb : s.decode.creditmanReq8B <;> cases hc : s.decode.creditmanReq16B <;>
      cases s.noc1encoderReqAck i <;> interval_cases w <;> simp_all <;> omega

/-- The reserved credits after a cycle. -/
theorem noc1Reserve_step (s : State) (i : Inputs)
    (hlow : (s.unreserves i).toNat ≤ s.creditman.noc1Reserve.toNat)
    (hhigh : s.creditman.noc1Reserve.toNat + (s.reserves i).toNat ≤ 15) :
    (s.creditmanNext i).noc1Reserve.toNat + (s.unreserves i).toNat =
      s.creditman.noc1Reserve.toNat + (s.reserves i).toNat := by
  have hnext : (s.creditmanNext i).noc1Reserve =
      if s.reserves i && !s.unreserves i then s.creditman.noc1Reserve + 1
      else if !s.reserves i && s.unreserves i then s.creditman.noc1Reserve - 1
      else s.creditman.noc1Reserve := rfl
  revert hlow hhigh
  rw [hnext]
  generalize s.creditman.noc1Reserve = a
  cases s.reserves i <;> cases s.unreserves i <;> simp <;> omega

end Piton.L15
