import Piton.L15.Requests

/-! Where the request of an MSHR is: in S2, in S3, in the NoC1 buffer, outside, in the NoC2 buffer
or, as its completion, in S2 or S3. A valid entry has its request in at most one place, and an
invalid one in none. -/

namespace Piton.L15

open Hw

variable {y : State × Traffic} {s : State} {i : Inputs} {id : MshrId} {t : ThreadId}

/-! ### Stalls of S3 -/

/-- Only the first cycle of an acknowledgement that takes two stalls S3 for CPX. -/
theorem stallForCpx_eq_true (h : s.stallForCpx = true) :
    s.s3.ops.cpxOperation.twoCycles = true ∧ s.cpxencoder = .normal ∧
      (s.step i).cpxencoder = .secondhalf := by
  unfold State.stallForCpx at h
  rw [Bool.and_eq_true, Bool.not_eq_true'] at h
  obtain ⟨hv, hack⟩ := h
  unfold CpxState.reqAck at hack
  rw [hv, Bool.true_and, decide_eq_false_iff_not] at hack
  have htwo : s.cpxencoder.next true s.cpxReq.2 = .secondhalf := by
    cases hn : s.cpxencoder.next true s.cpxReq.2 with
    | normal => exact absurd hn hack
    | secondhalf => rfl
  refine ⟨?_, ?_, ?_⟩
  · by_contra hno
    refine hack ?_
    unfold State.cpxReq CpxState.next
    cases hop : s.s3.ops.cpxOperation <;> rw [hop] at hno <;>
      first | exact absurd rfl hno | (cases s.cpxencoder <;> rfl)
  · cases hst : s.cpxencoder with
    | normal => rfl
    | secondhalf =>
      rw [hst] at htwo
      unfold CpxState.next at htwo
      cases hrt : s.cpxReq.2 <;> rw [hrt] at htwo <;> cases htwo
  · show s.cpxencoder.next s.cpxencoderVal s.cpxReq.2 = .secondhalf
    rw [hv, htwo]

/-- The encoder is in its second cycle only after a stall. -/
theorem stallForCpx_of_secondhalf (h : (s.step i).cpxencoder = .secondhalf) :
    s.stallForCpx = true := by
  change s.cpxencoder.next s.cpxencoderVal s.cpxReq.2 = .secondhalf at h
  unfold State.stallForCpx CpxState.reqAck
  cases hv : s.cpxencoderVal with
  | false =>
    rw [hv] at h
    unfold CpxState.next at h
    cases h
  | true =>
    rw [hv] at h
    simp [h]

theorem stallForNoc3_of_none (h : s.s3.ops.noc3Operation = .none) : s.stallForNoc3 i = false := by
  unfold State.stallForNoc3 State.noc3Request State.noc3Req
  simp [h]

/-- A request that waits for an answer never stalls in S3. -/
theorem Inv.stallS3_of_expects (h : Inv y) (hv : y.1.valS3 = true)
    (he : y.1.s3.ops.noc1Operation.expects = true) : y.1.stallS3 i = false := by
  have hrow := (h.decodesS3 hv).requestRow he
  unfold State.stallS3
  rw [stallForNoc3_of_none hrow.noc3, Bool.or_false]
  cases hc : y.1.stallForCpx with
  | false => rw [Bool.and_false]
  | true =>
    have htwo := (stallForCpx_eq_true (i := i) hc).1
    rw [hrow.cpx] at htwo
    exact absurd htwo Bool.false_ne_true

/-- A completion stalls in S3 only for the second cycle of its acknowledgement. -/
theorem Inv.stallS3_of_completion (h : Inv y) (hv : y.1.valS3 = true)
    (hop : y.1.s3.ops.s3MshrOperation = .deallocation) (hst : y.1.stallS3 i = true) :
    y.1.stallForCpx = true := by
  have hrow := (h.decodesS3 hv).completionRow.1 hop
  unfold State.stallS3 at hst
  rw [stallForNoc3_of_none hrow.2.1, Bool.or_false, Bool.and_eq_true] at hst
  exact hst.2

/-! ### Requests to NoC1 -/

theorem noc1Type_expects (s : State) : s.noc1Type.expects = s.s3.ops.noc1Operation.expects := by
  unfold State.noc1Type
  cases s.s3.ops.noc1Operation with
  | genDataStUpgradeIfTagcheckSElseStFillIfTagcheckI =>
    by_cases hs : s.s3Result.tagcheckState = .S
    · simp only [hs, if_true]
      rfl
    · simp only [hs, if_false]
      rfl
  | _ => rfl

/-- A request that hits sends nothing. -/
theorem Inv.noc1Condition_of_expects (h : Inv y) (hv : y.1.valS3 = true)
    (he : y.1.s3.ops.noc1Operation.expects = true) :
    y.1.noc1Condition = !y.1.hitS3 := by
  obtain ⟨hld, hst, -⟩ := (h.decodesS3 hv).s3MshrRow
  unfold State.noc1Condition State.hitS3
  cases hop : y.1.s3.ops.noc1Operation <;> rw [hop] at he hld hst <;>
    first
    | exact absurd he Bool.false_ne_true
    | skip
  case genDataLdRequestIfTagcheckMiss =>
    simp [hld.2 rfl]
  case genDataStUpgradeIfTagcheckSElseStFillIfTagcheckI =>
    rw [hst.2 rfl]
    cases hs : y.1.s3Result.tagcheckState <;> simp [hs, Mesi.me]
  all_goals
    cases hm : y.1.s3.ops.s3MshrOperation <;> first | rfl | skip
    · exact absurd (hld.1 hm) Noc1Op.noConfusion
    · exact absurd (hst.1 hm) Noc1Op.noConfusion

/-- The command that S3 puts into the NoC1 buffer for an entry. -/
def State.pushes (s : State) (i : Inputs) (id : MshrId) (t : ThreadId) : Bool :=
  (s.noc1Request i).val && (s.noc1buffer.command (s.noc1Request i)).waits id t

theorem waits_command (s : State) (i : Inputs) :
    (s.noc1buffer.command (s.noc1Request i)).waits id t = s.s3.requests id t := by
  unfold Noc1Command.waits Instr.requests
  show (s.noc1Type.expects && s.s3.mshrid = id && s.s3.threadid = t) = _
  rw [noc1Type_expects]

/-- S3 sends a request for an entry or, on a hit, frees the entry. -/
theorem Inv.pushes_le (h : Inv y) (i : Inputs) (id : MshrId) (t : ThreadId) :
    (y.1.pushes i id t).toNat + (y.1.reqS3 id t && y.1.hitS3).toNat ≤ (y.1.reqS3 id t).toNat := by
  unfold State.pushes State.reqS3
  rw [waits_command]
  cases hr : y.1.s3.requests id t with
  | false => simp
  | true =>
    show (((y.1.valS3 && y.1.noc1Condition) && !y.1.noc1encoderReqStaled) && true).toNat + _ ≤ _
    cases hv : y.1.valS3 with
    | false => simp
    | true =>
      have he : y.1.s3.ops.noc1Operation.expects = true := by
        unfold Instr.requests at hr
        simp only [Bool.and_eq_true] at hr
        exact hr.1.1
      rw [h.noc1Condition_of_expects hv he]
      cases y.1.hitS3 <;> cases y.1.noc1encoderReqStaled <;> decide

/-- The ring of the command buffer after a cycle. -/
theorem ring_tick (b : Noc1Buffer) (r : Noc1Request) (ack : Bool) :
    (b.tick r ack).ring =
      if r.val then (if ack then b.ring.pop else b.ring).push (b.command r)
      else if ack then b.ring.pop else b.ring := by
  unfold Noc1Buffer.tick Noc1Buffer.ring Ring.push Ring.pop
  cases r.val <;> cases ack
  · simp
  · simp only [Bool.false_and, if_false, Bool.true_and, if_true, Bool.false_eq_true]
    congr 1
    funext k
    rw [Function.update_apply]
    by_cases hk : k = b.commandRdindex
    · simp [hk]
    · simp [hk, Ne.symm hk]
  · simp only [Bool.false_and, if_false, Bool.true_and, if_true, Bool.false_eq_true]
    congr 1
    funext k
    rw [Function.update_apply]
    by_cases hk : k = b.commandWrindex
    · simp [hk]
    · simp [hk, Ne.symm hk]
  · simp only [if_true, Bool.true_and]
    congr 1
    funext k
    rw [Function.update_apply, Function.update_apply]
    by_cases hk : k = b.commandWrindex
    · simp [hk]
    · by_cases hr : k = b.commandRdindex
      · subst hr
        simp [hk, Ne.symm hk]
      · simp [hk, hr, Ne.symm hk, Ne.symm hr]

/-- The weight of the command buffer after a cycle: what the encoder takes leaves it and what S3
sends enters it. -/
theorem weight_tick (b : Noc1Buffer) (r : Noc1Request) (ack : Bool) (f : Noc1Command → Nat)
    (hack : ack = true → b.headVal = true) :
    (b.tick r ack).ring.weight f + (if ack then f b.head else 0) ≤
      b.ring.weight f + (if r.val then f (b.command r) else 0) := by
  have hpop : (if ack then b.ring.pop else b.ring).weight f + (if ack then f b.head else 0) =
      b.ring.weight f := by
    cases hk : ack with
    | false => rfl
    | true => exact b.ring.weight_pop f (hack hk)
  rw [ring_tick]
  cases r.val with
  | false =>
    rw [if_neg Bool.false_ne_true, if_neg Bool.false_ne_true]
    omega
  | true =>
    have hpush := (if ack then b.ring.pop else b.ring).weight_push_le f (b.command r)
    rw [if_pos rfl, if_pos rfl]
    omega

/-! ### Events of a cycle -/

namespace State

/-- The encoder takes the request of an entry. -/
def sends (s : State) (i : Inputs) (id : MshrId) (t : ThreadId) : Bool :=
  (s.noc1Sent i).any fun c => c.waits id t

/-- The NoC2 buffer accepts the answer to an entry. -/
def accepts (s : State) (i : Inputs) (id : MshrId) (t : ThreadId) : Bool :=
  (s.noc2Accepts i).any fun m => m.answers id t

end State

theorem reqBuffered_step (s : State) (i : Inputs) (id : MshrId) (t : ThreadId) :
    (s.step i).reqBuffered id t + (s.sends i id t).toNat ≤
      s.reqBuffered id t + (s.pushes i id t).toNat := by
  have hw := weight_tick s.noc1buffer (s.noc1Request i) (s.noc1encoderReqAck i)
    (fun c => (c.waits id t).toNat) (fun hk => by
      unfold State.noc1encoderReqAck at hk
      rw [Bool.and_eq_true] at hk
      exact hk.2)
  have hsent : (s.sends i id t).toNat =
      if s.noc1encoderReqAck i then (s.noc1buffer.head.waits id t).toNat else 0 := by
    unfold State.sends State.noc1Sent
    cases s.noc1encoderReqAck i <;> rfl
  have hpush : (s.pushes i id t).toNat =
      if (s.noc1Request i).val then
        ((s.noc1buffer.command (s.noc1Request i)).waits id t).toNat else 0 := by
    unfold State.pushes
    cases (s.noc1Request i).val <;> rfl
  rw [hsent, hpush]
  exact hw

/-- An accepted answer belongs to a waiting request. -/
theorem InputOk.outstanding_of_accepts (hok : InputOk y i) (h : y.1.accepts i id t = true) :
    ∃ m c, y.1.noc2Accepts i = some m ∧ m.mshrid = id ∧ m.threadid = t ∧
      y.2.outstanding id t = some c ∧
      ((m.reqtype = .dataAck ∧ c.reqtype ≠ .writethroughRequest ∧
          (id = .st → m.ackState = .M)) ∨
        (m.reqtype = .nodataAck ∧ c.reqtype = .writethroughRequest)) := by
  unfold State.accepts at h
  have hconf := hok.noc2
  cases ha : y.1.noc2Accepts i with
  | none =>
    rw [ha] at h
    cases h
  | some m =>
    rw [ha] at h hconf
    change m.answers id t = true at h
    change conforming y.2 m = true at hconf
    unfold Noc2Message.answers at h
    simp only [Bool.and_eq_true, Bool.or_eq_true, decide_eq_true_eq, Bool.not_eq_true'] at h
    obtain ⟨⟨hk, hid⟩, ht⟩ := h
    rw [← hid, ← ht]
    rcases hk with ⟨hk, hm⟩ | ⟨hk, hst⟩
    · unfold conforming at hconf
      simp only [hk, hm, Bool.false_or] at hconf
      cases ho : y.2.outstanding m.mshrid m.threadid with
      | none =>
        rw [ho] at hconf
        cases hconf
      | some c =>
        rw [ho] at hconf
        simp only [Option.any_some, Bool.and_eq_true, Bool.or_eq_true, decide_eq_true_eq] at hconf
        refine ⟨m, c, rfl, rfl, rfl, rfl, .inl ⟨hk, hconf.1, fun hst => ?_⟩⟩
        exact hconf.2.resolve_left fun hne => hne hst
    · unfold conforming at hconf
      simp only [hk, hst, ne_eq, not_true_eq_false, decide_false, Bool.false_or] at hconf
      rw [hst]
      cases ho : y.2.outstanding .st m.threadid with
      | none =>
        rw [ho] at hconf
        cases hconf
      | some c =>
        rw [ho] at hconf
        exact ⟨m, c, rfl, hst, rfl, rfl, .inr ⟨hk, by simpa using hconf⟩⟩

theorem outstanding_step (hok : InputOk y i) (id : MshrId) (t : ThreadId) :
    ((trafficNext y.2 y.1 i).outstanding id t).isSome.toNat + (y.1.accepts i id t).toNat ≤
      (y.2.outstanding id t).isSome.toNat + (y.1.sends i id t).toNat := by
  show (if y.1.accepts i id t then none else if y.1.sends i id t then y.1.noc1Sent i
    else y.2.outstanding id t).isSome.toNat + _ ≤ _
  cases ha : y.1.accepts i id t with
  | true =>
    obtain ⟨-, c, -, -, -, ho, -⟩ := hok.outstanding_of_accepts ha
    rw [ho]
    exact Nat.le_add_right _ _
  | false =>
    cases y.1.sends i id t with
    | true =>
      have hle := Bool.toNat_le (y.1.noc1Sent i).isSome
      simp only [if_true, if_false, Bool.false_eq_true, Bool.toNat_false, Bool.toNat_true]
      omega
    | false => exact le_refl _

/-! ### Completions -/

/-- The messages that decode to an answer. -/
theorem message_of_isAck {m : Noc2Message} {c : Control} {st : TransState}
    (h : (noc2Reqtype m c st).isAck = true) :
    (m.reqtype = .dataAck ∧ m.hmcFill = false) ∨ (m.reqtype = .nodataAck ∧ m.mshrid = .st) := by
  unfold noc2Reqtype at h
  cases hk : m.reqtype with
  | dataAck =>
    cases hm : m.hmcFill with
    | false => exact .inl ⟨rfl, rfl⟩
    | true =>
      simp only [hk, hm, if_true] at h
      exact absurd h Bool.false_ne_true
  | nodataAck =>
    by_cases hst : m.mshrid = .st
    · exact .inr ⟨rfl, hst⟩
    · simp only [hk, hst, if_false] at h
      exact absurd h Bool.false_ne_true
  | storeFwd | invFwd | loadFwd =>
    simp only [hk] at h
    split at h <;> exact absurd h Bool.false_ne_true
  | interrupt | other =>
    simp only [hk] at h
    exact absurd h Bool.false_ne_true

/-- A forward is not an answer. -/
theorem isAck_of_isForward (hf : s.noc2.isForward = true) :
    s.predecodeNoc2.reqtype.isAck = false := by
  obtain ⟨hicache, hdata⟩ := forward_reqtype hf
  cases hic : s.noc2.icacheType with
  | true =>
    rw [hicache hic]
    rfl
  | false => rcases hdata hic with hr | hr <;> rw [hr] <;> rfl

/-- The NoC2 buffer holds the message whose pass is to follow. -/
theorem Inv.noc2Val_of_pass (h : Inv y) (hp : y.1.noc2PassUser = true) :
    y.1.noc2Val = true ∧ y.1.noc2IsMessageNew = false := by
  have hle := h.noc2Users
  unfold State.noc2Users at hle
  rw [hp] at hle
  have htrue : true.toNat = 1 := rfl
  have hheld : y.1.noc2Held = true := by
    have hb := Bool.toNat_le y.1.noc2Held
    exact Bool.toNat_eq_one.1 (by omega)
  unfold State.noc2Held at hheld
  rw [Bool.and_eq_true, Bool.not_eq_true'] at hheld
  exact hheld

/-- An issued completion is that of the answer in the NoC2 buffer. -/
theorem Inv.answerWaits_of_completes (h : Inv y) (hi : y.1.s1Issues i = true)
    (hc : y.1.s1Instr.completes id t = true) :
    y.1.answerWaits id t = true ∧ (y.1.step i).fetchState ≠ .noc2WritebackDone ∧
      (y.1.noc2HeaderAck i = true ∨ y.1.noc2IsMessageNew = false) := by
  unfold Instr.completes at hc
  simp only [Bool.and_eq_true, decide_eq_true_eq] at hc
  obtain ⟨⟨hop, hid⟩, ht⟩ := hc
  change y.1.decode.s3MshrOperation = .deallocation at hop
  have hs := source_of_completes hi hop
  have hfs : y.1.fetchState ≠ .pcxWritebackDone := by
    intro hp
    rw [State.source_pcxWritebackDone hp] at hs
    cases hs
  have hid' : y.1.noc2.mshrid = id := by
    rw [← hid]
    show _ = y.1.decoderMshrid
    unfold State.decoderMshrid
    rw [if_pos hs]
  have ht' : y.1.noc2.threadid = t := by
    rw [← ht]
    show _ = y.1.predecode.threadid
    rw [State.predecode_noc2 hs]
    rfl
  have hrt : y.1.predecode.reqtype = y.1.predecodeNoc2.reqtype := by
    rw [State.predecode_noc2 hs]
  unfold State.decode at hop
  rw [hrt] at hop
  obtain ⟨hack, hfill⟩ := completion_pass hop
  have hmsg := message_of_isAck hack
  have hnext := fetchState_of_issues hi
  have hanswers : y.1.noc2.answers id t = true := by
    unfold Noc2Message.answers
    rcases hmsg with ⟨hk, hm⟩ | ⟨hk, hst⟩
    · simp [hk, hm, hid', ht']
    · simp [hk, hst, ← hid', ht']
  have hnot : y.1.noc2.isForward = true → False := by
    intro hf
    rw [isAck_of_isForward hf] at hack
    exact absurd hack Bool.false_ne_true
  unfold State.answerWaits
  rw [hanswers, hnext]
  cases hf : y.1.fetchState with
  | normal =>
    rcases State.source_normal hi hf with ⟨-, hv, hn⟩ | ⟨hs', -⟩
    · refine ⟨by simp [hv, hn], fun hwb => ?_, .inl ?_⟩
      · rw [fetchStateNext_fill, hrt, hfill hf] at hwb
        exact absurd hwb Bool.false_ne_true
      · unfold State.noc2HeaderAck
        simp [hs, hi, hf]
    · rw [hs] at hs'
      cases hs'
  | pcxWritebackDone => exact absurd hf hfs
  | noc2WritebackDone =>
    obtain ⟨hv, hn⟩ := h.noc2Val_of_pass (by unfold State.noc2PassUser; rw [hf]; simp; rfl)
    exact ⟨by simp [hv], FetchState.noConfusion, .inr hn⟩
  | inval2 => exact (hnot (h.forwardPass (.inl hf)).1).elim
  | inval3 => exact (hnot (h.forwardPass (.inr (.inl hf))).1).elim
  | inval4 => exact (hnot (h.forwardPass (.inr (.inr hf))).1).elim
  | icacheInval2 => exact (hnot (h.icachePass hf).1).elim

/-- An answer that waits after a cycle waited before or was accepted in the cycle. -/
theorem answerWaits_cases (ha : (s.step i).answerWaits id t = true) :
    (s.answerWaits id t = true ∧ (s.step i).noc2 = s.noc2) ∨
      (s.accepts i id t = true ∧ s.noc2Accepts i = some (s.step i).noc2) := by
  unfold State.answerWaits at ha
  simp only [Bool.and_eq_true, Bool.or_eq_true, decide_eq_true_eq] at ha
  obtain ⟨⟨hv', hstage⟩, hans⟩ := ha
  cases hkept : (s.noc2Val && !s.noc2Ack i) with
  | false =>
    obtain ⟨hv, hm⟩ := noc2_accepted hkept
    cases hacc : s.noc2Accepts i with
    | none =>
      rw [hv, hacc] at hv'
      exact absurd hv' Bool.false_ne_true
    | some m =>
      rw [hm m hacc] at hans ⊢
      refine .inr ⟨?_, rfl⟩
      unfold State.accepts
      rw [hacc]
      exact hans
  | true =>
    rw [Bool.and_eq_true, Bool.not_eq_true'] at hkept
    obtain ⟨hv, hack⟩ := hkept
    have hm := (noc2_step hv hack).2
    have hnew : (s.step i).noc2IsMessageNew = true → s.noc2IsMessageNew = true := by
      intro hn
      change State.isMessageNewNext s.noc2IsMessageNew (s.noc2Ack i) (s.noc2HeaderAck i) = true
        at hn
      unfold State.isMessageNewNext at hn
      rw [hack] at hn
      cases hh : s.noc2HeaderAck i with
      | true => simp [hh] at hn
      | false => simpa [hh] using hn
    rw [hm] at hans
    refine .inl ⟨?_, hm⟩
    unfold State.answerWaits
    rw [hv, hans]
    rcases hstage with hn | hfs'
    · simp [hnew hn]
    · rcases fetchState_fill hfs' with ⟨hfs, -⟩ | ⟨-, -, -, -, hn, -⟩
      · simp [hfs]
      · simp [hn]

/-- The answer in the NoC2 buffer after a cycle: it was accepted in the cycle or was there before,
and an issued completion consumes it. -/
theorem Inv.answerWaits_step (h : Inv y) (i : Inputs) (id : MshrId) (t : ThreadId) :
    ((y.1.step i).answerWaits id t).toNat + (y.1.s1Issues i && y.1.s1Instr.completes id t).toNat ≤
      (y.1.answerWaits id t).toNat + (y.1.accepts i id t).toNat := by
  have hle := Bool.toNat_le ((y.1.step i).answerWaits id t)
  have htrue : true.toNat = 1 := rfl
  have hfalse : false.toNat = 0 := rfl
  cases hc : (y.1.s1Issues i && y.1.s1Instr.completes id t) with
  | false =>
    cases ha : (y.1.step i).answerWaits id t with
    | false => omega
    | true => rcases answerWaits_cases ha with ⟨hw, -⟩ | ⟨hacc, -⟩ <;> simp [*]
  | true =>
    rw [Bool.and_eq_true] at hc
    obtain ⟨hwait, hfs', hold'⟩ := h.answerWaits_of_completes hc.1 hc.2
    rw [hwait]
    cases ha : (y.1.step i).answerWaits id t with
    | false => omega
    | true =>
      -- the completion has used up the old answer, so this one is new
      have hacc : y.1.accepts i id t = true := by
        cases hkept : (y.1.noc2Val && !y.1.noc2Ack i) with
        | false =>
          obtain ⟨hv, hm⟩ := noc2_accepted hkept
          unfold State.answerWaits at ha
          rw [hv] at ha
          unfold State.accepts
          cases hacc : y.1.noc2Accepts i with
          | none =>
            rw [hacc] at ha
            exact absurd ha Bool.false_ne_true
          | some m =>
            rw [hm m hacc] at ha
            simp only [Bool.and_eq_true] at ha
            exact ha.2
        | true =>
          rw [Bool.and_eq_true, Bool.not_eq_true'] at hkept
          have hold : (y.1.step i).noc2IsMessageNew = false := by
            show State.isMessageNewNext y.1.noc2IsMessageNew (y.1.noc2Ack i)
              (y.1.noc2HeaderAck i) = false
            unfold State.isMessageNewNext
            rw [hkept.2]
            rcases hold' with hold' | hold' <;> simp [hold']
          unfold State.answerWaits at ha
          simp [hold, hfs'] at ha
      rw [hacc]

/-- Completions move from S2 to S3, where their first cycle ends them. -/
theorem Inv.acks_step (h : Inv y) (i : Inputs) (id : MshrId) (t : ThreadId) :
    ((y.1.step i).ackS2 id t).toNat + ((y.1.step i).ackS3 id t).toNat ≤
      (y.1.ackS2 id t).toNat + (y.1.s1Issues i && y.1.s1Instr.completes id t).toNat := by
  have h2 : (y.1.step i).ackS2 id t =
      if y.1.stallS2 i then y.1.ackS2 id t else y.1.s1Issues i && y.1.s1Instr.completes id t :=
    State.s2_step fun x => x.completes id t
  have h3 : ((y.1.step i).valS3 && (y.1.step i).s3.completes id t) =
      if y.1.stallS3 i then y.1.valS3 && y.1.s3.completes id t else y.1.ackS2 id t :=
    State.s3_step fun x => x.completes id t
  have hstalled : y.1.stallS3 i = true → (y.1.step i).ackS3 id t = false := by
    intro hst
    unfold State.ackS3
    rw [h3, if_pos hst]
    cases hc : (y.1.valS3 && y.1.s3.completes id t) with
    | false => rfl
    | true =>
      rw [Bool.and_eq_true] at hc
      have hop : y.1.s3.ops.s3MshrOperation = .deallocation := by
        have hc2 := hc.2
        unfold Instr.completes at hc2
        simp only [Bool.and_eq_true, decide_eq_true_eq] at hc2
        exact hc2.1.1
      have hcpx := h.stallS3_of_completion hc.1 hop hst
      rw [(stallForCpx_eq_true hcpx).2.2]
      rfl
  rcases y.1.movement i with ⟨hs3, hs2, -, -, -⟩ | ⟨hs3, hs2, hv2, -⟩ | ⟨hs3, hs2⟩
  · rw [h2, if_pos hs2, hstalled hs3]
    exact Nat.le_add_right _ _
  · have hno : y.1.ackS2 id t = false := by
      unfold State.ackS2
      rw [hv2, Bool.false_and]
    rw [h2, hs2, hstalled hs3, hno]
    exact (Nat.add_comm _ _).le
  · have hle : ((y.1.step i).ackS3 id t).toNat ≤ (y.1.ackS2 id t).toNat := by
      unfold State.ackS3
      rw [h3, hs3, if_neg Bool.false_ne_true]
      cases y.1.ackS2 id t <;> cases decide ((y.1.step i).cpxencoder = .normal) <;> decide
    rw [h2, hs2, if_neg Bool.false_ne_true]
    omega

/-- Requests move from S1 to S2 and S3, where they do not stall. -/
theorem Inv.reqs_step (h : Inv y) (i : Inputs) (id : MshrId) (t : ThreadId) :
    ((y.1.step i).reqS2 id t).toNat + ((y.1.step i).reqS3 id t).toNat =
      (y.1.reqS2 id t).toNat + (y.1.s1Issues i && y.1.s1Instr.requests id t).toNat := by
  refine State.s2_s3_step (fun x => x.requests id t) fun hv hr => h.stallS3_of_expects hv ?_
  unfold Instr.requests at hr
  simp only [Bool.and_eq_true] at hr
  exact hr.1.1

/-- What S3 frees is a completion or a request that hits. -/
theorem Inv.freed_cases (h : Inv y)
    (hf : (y.1.valS3 && (y.1.s3.ops.s3MshrOperation = .deallocation || y.1.hitS3) &&
      y.1.s3.mshrid = id && y.1.s3.threadid = t) = true) :
    (y.1.valS3 = true ∧ y.1.s3.completes id t = true) ∨
      (y.1.reqS3 id t && y.1.hitS3) = true := by
  simp only [Bool.and_eq_true, Bool.or_eq_true, decide_eq_true_eq] at hf
  obtain ⟨⟨⟨hv, hop⟩, hid⟩, ht⟩ := hf
  rcases hop with hop | hhit
  · refine .inl ⟨hv, ?_⟩
    unfold Instr.completes
    simp [hop, hid, ht]
  · right
    have he : y.1.s3.ops.noc1Operation.expects = true := by
      obtain ⟨hld, hst, -⟩ := (h.decodesS3 hv).s3MshrRow
      have hhit' := hhit
      unfold State.hitS3 at hhit'
      cases hm : y.1.s3.ops.s3MshrOperation with
      | deallocationIfTagcheckMes =>
        rw [hld.1 hm]
        rfl
      | deallocationIfTagcheckMEElseUpdateStateStmshr =>
        rw [hst.1 hm]
        rfl
      | none | deallocation | updateStMshrImIfIndexTagcheckWayMatches
      | updateStMshrImIfIndexLruWayMatches | updateStMshrWaitAck =>
        rw [hm] at hhit'
        exact absurd hhit' Bool.false_ne_true
    unfold State.reqS3 Instr.requests
    simp [hv, he, hid, ht, hhit]

theorem Inv.step_tokens (h : Inv y) (hok : InputOk y i) (id : MshrId) (t : ThreadId) :
    (y.1.step i).tokens id t (trafficNext y.2 y.1 i) ≤
      ((y.1.step i).mshr.val id t).toNat := by
  have hreqs := h.reqs_step i id t
  have hbuf := reqBuffered_step y.1 i id t
  have hpush := h.pushes_le i id t
  have hout := outstanding_step hok id t
  have hans := h.answerWaits_step i id t
  have hacks := h.acks_step i id t
  have htok := h.tokens id t
  have htrue : true.toNat = 1 := rfl
  have hfalse : false.toNat = 0 := rfl
  unfold State.tokens at htok ⊢
  cases hiss : (y.1.s1Issues i && y.1.s1Instr.requests id t) with
  | true =>
    rw [hiss] at hreqs
    have hiss' := hiss
    rw [Bool.and_eq_true] at hiss'
    have hfree := h.val_of_issues hiss'.1 hiss'.2
    have hnone := (h.issued_request hiss'.1 hiss'.2).ne_none
    rw [h.val_step i hnone, hiss, Bool.or_true]
    rw [hfree] at htok
    omega
  | false =>
    rw [hiss] at hreqs
    by_cases hnone : id = .none
    · subst hnone
      rw [step_val_none]
      change _ ≤ false.toNat at htok
      omega
    · rw [h.val_step i hnone, hiss, Bool.or_false]
      cases hfreed : (y.1.valS3 && (y.1.s3.ops.s3MshrOperation = .deallocation || y.1.hitS3) &&
          y.1.s3.mshrid = id && y.1.s3.threadid = t) with
      | false =>
        rw [Bool.not_false, Bool.and_true]
        omega
      | true =>
        rw [Bool.not_true, Bool.and_false]
        have hle := Bool.toNat_le (y.1.mshr.val id t)
        rcases h.freed_cases hfreed with ⟨hv, hc⟩ | hx
        · cases hcpx : y.1.cpxencoder with
          | normal =>
            have hk : y.1.ackS3 id t = true := by
              unfold State.ackS3
              simp [hv, hc, hcpx]
            rw [hk] at htok
            omega
          | secondhalf =>
            rw [h.cpxFreed hcpx id t hc] at htok
            omega
        · rw [hx] at hpush
          omega

end Piton.L15
