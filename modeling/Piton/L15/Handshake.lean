import Piton.Lib.Fork
import Piton.L15.Credit

/-! The requests of S3 to CPX, NoC1 and NoC3: each is taken exactly once before the instruction
leaves S3, whatever the consumers' timing. -/

namespace Piton.L15

open Hw

/-- The consumers of S3's requests. -/
inductive Channel where
  | cpx | noc1 | noc3
  deriving DecidableEq, Repr

namespace State

variable (s : State) (i : Inputs)

/-- The instruction in S3 owes a request to the consumer. -/
def owes : Channel → Bool
  | .cpx => s.cpxReq.1
  | .noc1 => s.noc1Condition
  | .noc3 => s.noc3Req.1

/-- The stale bit of a consumer. -/
def reqStaled : Channel → Bool
  | .cpx => s.cpxencoderReqStaled
  | .noc1 => s.noc1encoderReqStaled
  | .noc3 => s.noc3encoderReqStaled

/-- The valid bit of the request to a consumer. -/
def offers : Channel → Bool
  | .cpx => s.cpxencoderVal
  | .noc1 => s.noc1ReqVal && !s.noc1encoderReqStaled
  | .noc3 => s.noc3Request.val

/-- The consumer takes the request. `noc1buffer` takes every request it is offered. -/
def takes : Channel → Bool
  | .cpx => s.cpxencoder.reqAck s.cpxencoderVal s.cpxReq.2
  | .noc1 => (s.noc1Request i).val
  | .noc3 => s.noc3buffer.reqAck s.noc3Request.val (s.noc3encoderReqAck i)

end State

/-- Stage S3 and the consumers of its requests. -/
def s3Fork : Fork State Inputs Channel where
  held s := s.valS3
  stalls := State.stallS3
  owes := State.owes
  done := State.reqStaled
  issues := State.offers
  accepts := State.takes

/-! ### What an instruction owes -/

theorem Mesi.mes_iff {m : Mesi} : m.mes = true ↔ m ≠ .I := by
  cases m <;> decide

theorem Mesi.mes_eq_false_iff {m : Mesi} : m.mes = false ↔ m = .I := by
  cases m <;> decide

theorem Mesi.me_iff {m : Mesi} : m.me = true ↔ m = .E ∨ m = .M := by
  cases m <;> decide

/-- CPX is owed a message for every CPX operation, but for those about a way found in S2: these need
a valid line in the way (or one that may be written), and an invalidation also a way of the L1 cache
that the way-map table maps to it. -/
theorem owes_cpx_iff (s : State) : s.owes .cpx = true ↔
    s.s3.ops.cpxOperation ≠ .none ∧
    (s.s3.ops.cpxOperation ∈ [.genInvalidationIfTagcheckMesAndWaymapValid,
      .genLdResponseBogusDataIfTagcheckMes, .genLdResponseIfTagcheckMesFromDcache] →
        s.s3Result.tagcheckState ≠ .I) ∧
    (s.s3.ops.cpxOperation = .genStAckIfTagcheckMEWithPossibleInval →
        s.s3Result.tagcheckState = .E ∨ s.s3Result.tagcheckState = .M) ∧
    (s.s3.ops.cpxOperation = .genInvalidationIfLruMesAndWaymapValid → s.s3Result.lruState ≠ .I) ∧
    (s.s3.ops.cpxOperation = .genInvalidationIfFlushMesAndWaymapValid →
        s.s3Result.flushState ≠ .I) ∧
    (s.s3.ops.cpxOperation ∈ [.genInvalidationIfTagcheckMesAndWaymapValid,
      .genInvalidationIfLruMesAndWaymapValid, .genInvalidationIfFlushMesAndWaymapValid] →
        s.wmtCompareMatch = true) := by
  unfold State.owes State.cpxReq
  cases hop : s.s3.ops.cpxOperation <;> simp [Mesi.mes_iff, Mesi.me_iff]

/-- NoC1 is owed a message for every NoC1 operation, but for a write-back guard of a way that is not
modified, a load that hits and a store that needs no request. -/
theorem owes_noc1_iff (s : State) : s.owes .noc1 = true ↔
    s.s3.ops.noc1Operation ≠ .none ∧
    (s.s3.ops.noc1Operation = .genWritebackGuardIfLruM → s.s3Result.lruState = .M) ∧
    (s.s3.ops.noc1Operation = .genWritebackGuardIfFlushM → s.s3Result.flushState = .M) ∧
    (s.s3.ops.noc1Operation = .genWritebackGuardIfTagcheckM → s.s3Result.tagcheckState = .M) ∧
    (s.s3.ops.noc1Operation = .genDataLdRequestIfTagcheckMiss → s.s3Result.tagcheckState = .I) ∧
    (s.s3.ops.noc1Operation = .genDataStUpgradeIfTagcheckSElseStFillIfTagcheckI →
        s.s3Result.tagcheckState = .S ∨ s.s3Result.tagcheckState = .I) := by
  unfold State.owes State.noc1Condition
  cases hop : s.s3.ops.noc1Operation <;> simp [Mesi.mes_eq_false_iff]

/-- NoC3 is owed a message for every NoC3 operation, but for a write-back of a way that is not
modified and an acknowledgement that is sent of a modified line only. -/
theorem owes_noc3_iff (s : State) : s.owes .noc3 = true ↔
    s.s3.ops.noc3Operation ≠ .none ∧
    (s.s3.ops.noc3Operation ∈ [.genWritebackIfTagcheckMFromDcache,
      .genInvalAckIfTagcheckMFromDcache, .genDowngradeAckIfTagcheckMFromDcache] →
        s.s3Result.tagcheckState = .M) ∧
    (s.s3.ops.noc3Operation = .genWritebackIfLruMFromDcache → s.s3Result.lruState = .M) ∧
    (s.s3.ops.noc3Operation = .genWritebackIfFlushMFromDcache → s.s3Result.flushState = .M) := by
  unfold State.owes State.noc3Req
  cases hop : s.s3.ops.noc3Operation <;> simp

/-- The rows whose CPX request depends on the way-map table compare it with a way found in S2. -/
theorem Decodes.cpxCompareRow {rt : Reqtype} {d : Decoded} (h : Decodes rt d) :
    (d.cpxOperation = .genInvalidationIfTagcheckMesAndWaymapValid → d.wmtCompareOp = .tagcheck) ∧
    (d.cpxOperation = .genInvalidationIfLruMesAndWaymapValid → d.wmtCompareOp = .lru) ∧
    (d.cpxOperation = .genInvalidationIfFlushMesAndWaymapValid → d.wmtCompareOp = .flush) :=
  h.of_rows (P := fun _ d =>
    (d.cpxOperation = .genInvalidationIfTagcheckMesAndWaymapValid → d.wmtCompareOp = .tagcheck) ∧
    (d.cpxOperation = .genInvalidationIfLruMesAndWaymapValid → d.wmtCompareOp = .lru) ∧
    (d.cpxOperation = .genInvalidationIfFlushMesAndWaymapValid → d.wmtCompareOp = .flush))
    (by decide +kernel)

variable {s s' : State} {i : Inputs}

/-- The way-map comparison with a way found in S2 depends on S3 and the way-map output alone. -/
theorem wmtCompareMatch_congr (hs3 : s'.s3 = s.s3) (hres : s'.s3Result = s.s3Result)
    (hout : s'.wmt.dataOutF = s.wmt.dataOutF) (hop : s.s3.ops.wmtCompareOp ≠ .stbuf) :
    s'.wmtCompareMatch = s.wmtCompareMatch := by
  have hway : s'.wmtCompareWay = s.wmtCompareWay := by
    unfold State.wmtCompareWay
    rw [hs3, hres]
    cases hc : s.s3.ops.wmtCompareOp with
    | stbuf => exact absurd hc hop
    | _ => rfl
  have hmask : ∀ w, s'.wmtCompareMask w = s.wmtCompareMask w := by
    intro w
    unfold State.wmtCompareMask
    rw [hway, hout]
  unfold State.wmtCompareMatch
  rw [hmask, hmask, hmask, hmask]

theorem owes_congr (hs3 : s'.s3 = s.s3) (hres : s'.s3Result = s.s3Result)
    (hout : s'.wmt.dataOutF = s.wmt.dataOutF) (hd : Decodes s.s3.reqtype s.s3.ops) (c : Channel) :
    s'.owes c = s.owes c := by
  cases c with
  | noc1 =>
    show s'.noc1Condition = s.noc1Condition
    unfold State.noc1Condition
    rw [hs3, hres]
  | noc3 =>
    show s'.noc3Req.1 = s.noc3Req.1
    unfold State.noc3Req
    rw [hs3, hres]
    cases s.s3.ops.noc3Operation <;> rfl
  | cpx =>
    show s'.cpxReq.1 = s.cpxReq.1
    obtain ⟨htag, hlru, hflush⟩ := hd.cpxCompareRow
    unfold State.cpxReq
    rw [hs3, hres]
    cases hop : s.s3.ops.cpxOperation with
    | genInvalidationIfTagcheckMesAndWaymapValid =>
      have hmatch := wmtCompareMatch_congr hs3 hres hout (by rw [htag hop]; decide)
      simp only [hmatch]
    | genInvalidationIfLruMesAndWaymapValid =>
      have hmatch := wmtCompareMatch_congr hs3 hres hout (by rw [hlru hop]; decide)
      simp only [hmatch]
    | genInvalidationIfFlushMesAndWaymapValid =>
      have hmatch := wmtCompareMatch_congr hs3 hres hout (by rw [hflush hop]; decide)
      simp only [hmatch]
    | _ => rfl

/-- S2 does not read the way-map table while it is stalled. -/
theorem wmtReadVal_of_stallS3 (h : s.stallS3 i = true) : s.wmtReadVal i = false := by
  unfold State.wmtReadVal
  rw [State.stallS2_eq, h]
  cases s.valS2 <;> simp

/-- A stalled S3 keeps its instruction and what it owes. -/
theorem owes_step (h : s.stallS3 i = true) (hd : Decodes s.s3.reqtype s.s3.ops) (c : Channel) :
    (s.step i).owes c = s.owes c := by
  refine owes_congr ?_ ?_ ?_ hd c
  · show (if s.stallS3 i then s.s3 else s.s2) = s.s3
    rw [h, if_pos rfl]
  · show (if s.stallS3 i then s.s3Result else s.s2Result) = s.s3Result
    rw [h, if_pos rfl]
  · show (if s.wmtReadVal i then s.wmt.regfile s.wmtReadIndex else s.wmt.dataOutF) = s.wmt.dataOutF
    rw [wmtReadVal_of_stallS3 h, if_neg Bool.false_ne_true]

theorem valS3_step_of_stallS3 (h : s.stallS3 i = true) : (s.step i).valS3 = true := by
  show (if s.stallS3 i then s.valS3 else s.valS2 && !s.stallS2 i) = true
  rw [h, if_pos rfl, State.valS3_of_stallS3 h]

/-! ### The stale bits -/

/-- A consumer takes only what it is offered. -/
theorem offers_of_takes {c : Channel} (h : s.takes i c = true) : s.offers c = true := by
  cases c with
  | cpx => exact (Bool.and_eq_true _ _ ▸ h).1
  | noc1 => exact h
  | noc3 => exact (Bool.and_eq_true _ _ ▸ h).1

theorem offers_eq (s : State) (c : Channel) :
    s.offers c = (s.valS3 && s.owes c && !s.reqStaled c) := by
  cases c <;> rfl

/-- The stage is held by the consumers that have not taken what they are offered. -/
theorem stallForCpx_eq (s : State) (i : Inputs) :
    s.stallForCpx = (s.offers .cpx && !s.takes i .cpx) := rfl

theorem stallForNoc3_eq (s : State) (i : Inputs) :
    s.stallForNoc3 i = (s.offers .noc3 && !s.takes i .noc3) := rfl

/-- A stalled instruction is done with a consumer when it was or the consumer takes the request. -/
theorem reqStaled_step (h : s.stallS3 i = true) {c : Channel} (ho : s.owes c = true) :
    (s.step i).reqStaled c = (s.reqStaled c || s.takes i c) := by
  have hv := State.valS3_of_stallS3 h
  have hstall := h
  unfold State.stallS3 at hstall
  rw [hv, Bool.true_and] at hstall
  cases c with
  | cpx =>
    show s.cpxencoderReqStaledNext i = _
    unfold State.cpxencoderReqStaledNext
    cases hst : s.cpxencoderReqStaled with
    | true => simp [h, State.reqStaled, hst]
    | false =>
      have hoff : s.offers .cpx = true := by
        rw [offers_eq, hv, ho]
        simp [State.reqStaled, hst]
      rw [stallForCpx_eq s i, hoff] at hstall ⊢
      cases ht : s.takes i .cpx <;> simp_all [State.reqStaled]
  | noc1 =>
    show s.noc1encoderReqStaledNext i = _
    rw [noc1encoderReqStaledNext_eq, h]
    cases hst : s.noc1encoderReqStaled with
    | true => simp [State.reqStaled, hst]
    | false =>
      have htake : s.takes i .noc1 = true := by
        show s.offers .noc1 = true
        rw [offers_eq, hv, ho]
        simp [State.reqStaled, hst]
      rw [htake, Bool.or_true]
  | noc3 =>
    show s.noc3encoderReqStaledNext i = _
    unfold State.noc3encoderReqStaledNext
    cases hst : s.noc3encoderReqStaled with
    | true => simp [h, State.reqStaled, hst]
    | false =>
      have hoff : s.offers .noc3 = true := by
        rw [offers_eq, hv, ho]
        simp [State.reqStaled, hst]
      rw [stallForNoc3_eq s i, hoff] at hstall ⊢
      cases ht : s.takes i .noc3 <;> simp_all [State.reqStaled]

/-- The stale bits are clear when an instruction enters S3. -/
theorem reqStaled_of_not_stallS3 (h : s.stallS3 i = false) (c : Channel) :
    (s.step i).reqStaled c = false := by
  have hno : s.stallForCpx = false ∧ s.stallForNoc3 i = false := by
    cases hv : s.valS3 with
    | false => simp [State.stallForCpx, State.cpxencoderVal, State.stallForNoc3, State.noc3Request, hv]
    | true =>
      unfold State.stallS3 at h
      rwa [hv, Bool.true_and, Bool.or_eq_false_iff] at h
  cases c with
  | cpx =>
    show s.cpxencoderReqStaledNext i = false
    unfold State.cpxencoderReqStaledNext
    simp [h, hno.2]
  | noc1 =>
    show s.noc1encoderReqStaledNext i = false
    rw [noc1encoderReqStaledNext_eq, h]
  | noc3 =>
    show s.noc3encoderReqStaledNext i = false
    unfold State.noc3encoderReqStaledNext
    simp [h, hno.1]

/-- An instruction leaves S3 when each consumer is done or takes its request. -/
theorem done_of_leaves (h : s.stallS3 i = false) (hv : s.valS3 = true) {c : Channel}
    (ho : s.owes c = true) : s.reqStaled c = true ∨ s.takes i c = true := by
  unfold State.stallS3 at h
  rw [hv, Bool.true_and, Bool.or_eq_false_iff, stallForCpx_eq s i, stallForNoc3_eq] at h
  have hoff := offers_eq s c
  rw [hv, ho] at hoff
  cases hst : s.reqStaled c with
  | true => exact .inl rfl
  | false =>
    rw [hst] at hoff
    refine .inr ?_
    cases c with
    | cpx => simpa [hoff] using h.1
    | noc1 => exact hoff
    | noc3 => simpa [hoff] using h.2

/-! ### Exactly once -/

theorem s3Fork_eager (ok : State → Inputs → Prop) : s3Fork.Eager machine ok where
  done_init s c hs := by
    cases c with
    | cpx => exact hs.cpxencoderReqStaled
    | noc1 => exact hs.noc1encoderReqStaled
    | noc3 => exact hs.noc3encoderReqStaled
  issues_eq := offers_eq
  issues_of_accepts _ _ _ := offers_of_takes
  stays s i hr hst := by
    have hv := State.valS3_of_stallS3 hst
    refine ⟨hv, valS3_step_of_stallS3 hst, fun c => ⟨?_, reqStaled_step hst⟩⟩
    exact owes_step hst ((State.reachable_stagesDecode hr).s3 hv) c
  leaves s i hst c := ⟨reqStaled_of_not_stallS3 hst c, fun hv ho => done_of_leaves hst hv ho⟩

/-- In every run, each request that the instruction in S3 owes is taken exactly once before the
instruction leaves, and nothing else is offered to CPX, NoC1 or NoC3. What it owes is said by
`owes_cpx_iff`, `owes_noc1_iff` and `owes_noc3_iff`. -/
theorem requests_exactlyOnce {y : State × (Channel → Nat)}
    (h : (s3Fork.counted machine).Reachable (fun _ _ => True) y) (i : Inputs) :
    s3Fork.ExactlyOnce machine y i :=
  (s3Fork_eager fun _ _ => True).exactlyOnce h i

/-- Two lines are filled in state M and flushed, while the encoder of NoC3 takes nothing: after the
last cycle the write-back of the second one waits in S3 behind that of the first. -/
def flushesRun : List Inputs :=
  let fill (a : Paddr) := [Inputs.load 0 a] ++ List.replicate 6 Inputs.quiet ++
    [Inputs.dataAck .ld 0 .M 5] ++ List.replicate 5 Inputs.quiet
  fill 0x12345000 ++ fill 0x12345010 ++
    ([Inputs.lineFlush 0x345000 0] ++ List.replicate 5 Inputs.quiet ++
      [Inputs.lineFlush 0x345010 0] ++ List.replicate 5 Inputs.quiet).map
        fun i => { i with noc3encoderAck := false }

/-- The flush owes a request to each consumer; CPX and NoC1 have taken theirs, and NoC3 takes its own
in the cycle in which the encoder accepts. -/
theorem requests_exactlyOnce_flushes :
    (∀ c, (machine.run State.reset flushesRun).owes c = true ∧
      ((s3Fork.counted machine).run (State.reset, fun _ => 0) flushesRun).2 c =
        (decide (c ≠ .noc3)).toNat) ∧
    (machine.run State.reset flushesRun).stallS3 { Inputs.quiet with noc3encoderAck := false } =
      true ∧
    (machine.run State.reset flushesRun).stallS3 Inputs.quiet = false ∧
    s3Fork.ExactlyOnce machine ((s3Fork.counted machine).run (State.reset, fun _ => 0) flushesRun)
      Inputs.quiet :=
  ⟨fun c => by cases c <;> decide +kernel, by decide +kernel, by decide +kernel,
    requests_exactlyOnce (Machine.Reachable.run
      (.init (show (s3Fork.counted machine).init (State.reset, fun _ => 0) from
        ⟨State.reset_isReset, rfl⟩))
      (Machine.runOk_of_mem (fun _ _ => trivial) _)) _⟩

end Piton.L15
