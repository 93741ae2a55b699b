import Piton.L15.Handshake
import Piton.L15.Lifecycle

/-! Invalidations and downgrades: a forward of the L2 is expanded into its sub-operations, taken
from the NoC2 buffer once, with its last sub-operation, and acknowledged on NoC3 once.

Messages are numbered in the order in which the NoC2 buffer accepts them, from 1 on, and the
instructions of a message carry its number; those of the core carry 0. -/

namespace Piton.L15

open Hw

/-! ### Sub-operations -/

/-- The place of a pass among the passes of its message. -/
def FetchState.pass : FetchState → Nat
  | .normal | .pcxWritebackDone => 0
  | .inval2 | .icacheInval2 | .noc2WritebackDone => 1
  | .inval3 => 2
  | .inval4 => 3

namespace Noc2Message

variable (m : Noc2Message)

/-- The number of sub-operations of a forward: one for each sub-line of 16 bytes, or for each half
of an instruction cache line. -/
def subOperations : Nat := if m.icacheType then 2 else 4

/-- The sub-operation of the highest sub-line in the vector. -/
def lastPass : Nat :=
  if m.icacheType then if m.fwdSubcachelineVector = 3 then 0 else 1
  else if m.fwdSubcachelineVector.getLsbD 3 then 3
  else if m.fwdSubcachelineVector.getLsbD 2 then 2
  else if m.fwdSubcachelineVector.getLsbD 1 then 1
  else 0

/-- The vectors of forwards: any sub-lines, or halves of an instruction cache line. -/
def vectorLegal : Bool :=
  if m.icacheType then
    m.fwdSubcachelineVector = 3 || m.fwdSubcachelineVector = 12 || m.fwdSubcachelineVector = 15
  else m.fwdSubcachelineVector ≠ 0

/-- A forward to the instruction cache of the low half alone. -/
def lowHalfAlone : Bool := m.isForward && m.icacheType && m.fwdSubcachelineVector = 3

/-- The NoC3 operation of a sub-operation. -/
def noc3Operation (p : Nat) : Noc3Op :=
  if m.icacheType then if p = m.lastPass then .genIcacheInvalAck else .none
  else if m.reqtype = .loadFwd then
    if p = m.lastPass then .genDowngradeAckFromDcache else .genDowngradeAckIfTagcheckMFromDcache
  else if p = m.lastPass then .genInvalAckFromDcache
  else .genInvalAckIfTagcheckMFromDcache

end Noc2Message

/-- The final acknowledgement of a forward; the others carry dirty data alone. -/
def Noc3Op.isFinal : Noc3Op → Bool
  | .genInvalAckFromDcache | .genDowngradeAckFromDcache | .genIcacheInvalAck => true
  | _ => false

/-- The sub-line of an instruction's address. -/
def Instr.subline (x : Instr) : Nat := (x.address.extractLsb' 4 2).toNat

/-- The instruction is sub-operation `p` of the forward `m`. -/
structure Instr.IsPass (x : Instr) (m : Noc2Message) (p : Nat) : Prop where
  noc3 : x.ops.noc3Operation = m.noc3Operation p
  vector : x.fwdSubcachelineVector = m.fwdSubcachelineVector
  reqtype : m.icacheType = false → x.reqtype = .invalidation ∨ x.reqtype = .downgrade
  subline : m.icacheType = false → x.subline = p

/-! ### Numbers -/

/-- The messages accepted so far, the sub-operations issued, the acknowledgements to the buffer and
those on NoC3, by the number of the message. -/
structure Forwards where
  current : Nat
  log : Nat → Noc2Message
  s2 : Nat
  s3 : Nat
  passes : Nat → Nat
  taken : Nat → Nat
  finals : Nat → Nat
  late : Nat → Bool

/-- No message was accepted. -/
def Forwards.zero : Forwards :=
  { current := 0, log := fun _ => Noc2Message.zero, s2 := 0, s3 := 0, passes := fun _ => 0,
    taken := fun _ => 0, finals := fun _ => 0, late := fun _ => false }

/-- S1 issues a pass of the NoC2 message. -/
def State.issuesNoc2 (s : State) (i : Inputs) : Bool := s.s1Issues i && s.predecodeSource = .noc2

/-- The numbers after a cycle. `late` marks the messages of which NoC3 takes something after the
final acknowledgement. -/
def forwardsNext (g : Forwards) (y : State × Traffic) (i : Inputs) : Forwards where
  current := g.current + (y.1.noc2Accepts i).isSome.toNat
  log :=
    match y.1.noc2Accepts i with
    | some m => Function.update g.log (g.current + 1) m
    | none => g.log
  s2 :=
    if y.1.stallS2 i then g.s2 else if y.1.predecodeSource = .noc2 then g.current else 0
  s3 := if y.1.stallS3 i then g.s3 else g.s2
  passes n := g.passes n + (y.1.issuesNoc2 i && g.current = n).toNat
  taken n := g.taken n + (y.1.noc2Ack i && g.current = n).toNat
  finals n :=
    g.finals n + (y.1.takes i .noc3 && g.s3 = n && y.1.s3.ops.noc3Operation.isFinal).toNat
  late n := g.late n || (y.1.takes i .noc3 && g.s3 = n && g.finals n ≠ 0)

/-- The L1.5, its traffic and the numbers of the NoC2 messages. -/
def forwardSystem : Machine ((State × Traffic) × Forwards) Inputs :=
  system.withHistory Forwards.zero forwardsNext

/-! ### The property -/

/-- An instruction of message `n` is in S2 or S3. -/
def inStages (s : State) (g : Forwards) (n : Nat) : Bool :=
  (s.valS2 && g.s2 = n) || (s.valS3 && g.s3 = n)

/-- Every sub-operation runs on its own message, which is in the buffer; the buffer is acknowledged
once, when the last sub-operation issues; and NoC3 takes one final acknowledgement, after which
nothing of the message follows. -/
structure ForwardsOnce (z : (State × Traffic) × Forwards) (i : Inputs) : Prop where
  held : z.1.1.issuesNoc2 i = true →
    z.1.1.noc2Val = true ∧ 0 < z.2.current ∧ z.1.1.noc2 = z.2.log z.2.current ∧
      z.2.passes z.2.current = z.1.1.fetchState.pass
  consumed : z.1.1.noc2Ack i = true → z.1.1.noc2Val = true
  lastUse : z.1.1.noc2Val = true → z.1.1.noc2.isForward = true →
    (z.1.1.noc2Ack i = true ↔ z.1.1.issuesNoc2 i = true ∧
      z.2.passes z.2.current + 1 = z.1.1.noc2.subOperations)
  expanded : ∀ n, 0 < n → n ≤ z.2.current → (z.2.log n).isForward = true →
    z.2.taken n = 1 → z.2.passes n = (z.2.log n).subOperations
  takenOnce : ∀ n, 0 < n → n ≤ z.2.current →
    z.2.taken n = if n = z.2.current ∧ z.1.1.noc2Val = true then 0 else 1
  finalOnce : ∀ n, 0 < n → n ≤ z.2.current → (z.2.log n).isForward = true →
    z.2.finals n ≤ 1 ∧ z.2.late n = false ∧
      (z.2.taken n = 1 → inStages z.1.1 z.2 n = false → z.2.finals n = 1)

/-- The vector of a forward covers what the L1.5 holds: a sub-line outside it is not found. -/
def State.Covered (s : State) : Prop :=
  s.valS2 = true → (s.s2.reqtype = .invalidation ∨ s.s2.reqtype = .downgrade) →
    s.s2.fwdSubcachelineVector.getLsbD s.s2.subline = false → s.tagcheck = none

instance (s : State) : Decidable s.Covered := inferInstanceAs (Decidable (_ → _ → _ → _))

/-- A conforming cycle with legal forwards. -/
structure ForwardLegal (y : State × Traffic) (i : Inputs) : Prop where
  conforms : Conforms y i
  legal : (y.1.noc2Accepts i).all (fun m => !m.isForward || m.vectorLegal) = true
  covered : y.1.Covered

instance (y : State × Traffic) (i : Inputs) : Decidable (ForwardLegal y i) :=
  decidable_of_iff (Conforms y i ∧
      (y.1.noc2Accepts i).all (fun m => !m.isForward || m.vectorLegal) = true ∧ y.1.Covered)
    ⟨fun h => ⟨h.1, h.2.1, h.2.2⟩, fun h => ⟨h.conforms, h.legal, h.covered⟩⟩

/-- A conforming cycle without a forward to the low half of an instruction cache line alone. -/
structure ForwardOk (y : State × Traffic) (i : Inputs) : Prop where
  legal : ForwardLegal y i
  split : (y.1.noc2Accepts i).all (fun m => !m.lowHalfAlone) = true

instance (y : State × Traffic) (i : Inputs) : Decidable (ForwardOk y i) :=
  decidable_of_iff (ForwardLegal y i ∧
      (y.1.noc2Accepts i).all (fun m => !m.lowHalfAlone) = true)
    ⟨fun h => ⟨h.1, h.2⟩, fun h => ⟨h.legal, h.split⟩⟩

/-! ### Rows -/

/-- The vector of a forward that is expanded while its message is held. -/
def Noc2Message.vectorOk (m : Noc2Message) : Prop :=
  m.vectorLegal = true ∧ m.lowHalfAlone = false

theorem lastPass_lt (m : Noc2Message) : m.lastPass < m.subOperations := by
  unfold Noc2Message.lastPass Noc2Message.subOperations
  (repeat' split) <;> decide

theorem isFinal_noc3Operation (m : Noc2Message) (p : Nat) :
    (m.noc3Operation p).isFinal = decide (p = m.lastPass) := by
  unfold Noc2Message.noc3Operation
  (repeat' split) <;> simp_all [Noc3Op.isFinal]

/-- The last invalidation of a data line, by its vector. -/
theorem isLastInval_data {fs : FetchState} (hfs : fs ≠ .pcxWritebackDone)
    (hic : fs ≠ .icacheInval2) (hwb : fs ≠ .noc2WritebackDone) (v : BitVec 4) (hv : v ≠ 0) :
    isLastInval false fs v = decide (fs.pass =
      if v.getLsbD 3 then 3 else if v.getLsbD 2 then 2 else if v.getLsbD 1 then 1 else 0) := by
  revert v
  cases fs <;> first | contradiction | decide

/-- The last invalidation of an instruction cache line, by its vector. -/
theorem isLastInval_icache {fs : FetchState} (hfs : fs = .normal ∨ fs = .icacheInval2)
    (v : BitVec 4) (hv : v = 12 ∨ v = 15) :
    isLastInval true fs v = decide (fs.pass = 1) := by
  rcases hfs with rfl | rfl <;> rcases hv with rfl | rfl <;> decide

theorem extractLsb'_addressPlus (a : Paddr) (k : BitVec 2) :
    (addressPlus a k).extractLsb' 4 2 = k := by
  unfold addressPlus
  ext j hj
  simp only [BitVec.getElem_extractLsb', BitVec.getLsbD_append]
  have h4 : ¬ 4 + j < 4 := by omega
  simp [h4, BitVec.getLsbD_eq_getElem, hj]

/-! ### A sub-operation that issues -/

variable {y : State × Traffic} {g : Forwards} {i : Inputs} {s : State}

/-- The fetch states of the passes of a forward. -/
theorem Inv.fetchState_of_forward (h : Inv y) (hi : y.1.issuesNoc2 i = true)
    (hf : y.1.noc2.isForward = true) :
    if y.1.noc2.icacheType then y.1.fetchState = .normal ∨ y.1.fetchState = .icacheInval2
    else y.1.fetchState = .normal ∨ y.1.fetchState = .inval2 ∨ y.1.fetchState = .inval3 ∨
      y.1.fetchState = .inval4 := by
  unfold State.issuesNoc2 at hi
  rw [Bool.and_eq_true, decide_eq_true_eq] at hi
  cases hfs : y.1.fetchState with
  | normal => split <;> exact .inl rfl
  | pcxWritebackDone =>
    rw [State.source_pcxWritebackDone hfs] at hi
    exact absurd hi.2 PredecodeSource.noConfusion
  | inval2 =>
    rw [(h.forwardPass (.inl hfs)).2]
    exact .inr (.inl rfl)
  | inval3 =>
    rw [(h.forwardPass (.inr (.inl hfs))).2]
    exact .inr (.inr (.inl rfl))
  | inval4 =>
    rw [(h.forwardPass (.inr (.inr hfs))).2]
    exact .inr (.inr (.inr rfl))
  | icacheInval2 =>
    rw [(h.icachePass hfs).2.1]
    exact .inr rfl
  | noc2WritebackDone =>
    have hfill := h.fillPass hfs
    have hack := isAck_of_isForward hf
    cases hrt : y.1.predecodeNoc2.reqtype <;> rw [hrt] at hfill hack <;>
      first | exact absurd hfill Bool.false_ne_true | exact absurd hack.symm Bool.false_ne_true

/-- The type of a forward's request, and when the sub-operation is the last of its vector. -/
theorem Inv.forward_predecode (h : Inv y) (hi : y.1.issuesNoc2 i = true)
    (hf : y.1.noc2.isForward = true) (hv : y.1.noc2.vectorOk) :
    y.1.predecode.reqtype = y.1.predecodeNoc2.reqtype ∧
      y.1.predecode.isLastInval = decide (y.1.fetchState.pass = y.1.noc2.lastPass) := by
  have hfs := h.fetchState_of_forward hi hf
  have hs : y.1.predecodeSource = .noc2 := by
    unfold State.issuesNoc2 at hi
    rw [Bool.and_eq_true, decide_eq_true_eq] at hi
    exact hi.2
  rw [State.predecode_noc2 hs]
  refine ⟨rfl, ?_⟩
  show isLastInval y.1.noc2.icacheType y.1.fetchState y.1.noc2.fwdSubcachelineVector = _
  obtain ⟨hlegal, hlow⟩ := hv
  unfold Noc2Message.lastPass
  unfold Noc2Message.vectorLegal at hlegal
  unfold Noc2Message.lowHalfAlone at hlow
  cases hic : y.1.noc2.icacheType with
  | true =>
    rw [hic, if_pos rfl] at hfs
    simp only [hic, hf, if_true, Bool.true_and, Bool.or_eq_true, decide_eq_true_eq,
      decide_eq_false_iff_not] at hlegal hlow
    have hvec : y.1.noc2.fwdSubcachelineVector = 12 ∨ y.1.noc2.fwdSubcachelineVector = 15 := by
      rcases hlegal with (hl | hl) | hl
      · exact absurd hl hlow
      · exact .inl hl
      · exact .inr hl
    rw [if_pos rfl, if_neg hlow]
    exact isLastInval_icache hfs _ hvec
  | false =>
    rw [hic, if_neg Bool.false_ne_true] at hfs
    simp only [hic, Bool.false_eq_true, if_false, ne_eq, decide_eq_true_eq] at hlegal
    rw [if_neg Bool.false_ne_true]
    refine isLastInval_data ?_ ?_ ?_ _ (by simpa using hlegal) <;>
      rcases hfs with hfs | hfs | hfs | hfs <;> rw [hfs] <;> exact FetchState.noConfusion

/-- What the issue of a sub-operation does: it goes on to the next one or, after the last, takes
the message away. -/
structure ForwardIssue (s : State) (i : Inputs) : Prop where
  isPass : s.s1Instr.IsPass s.noc2 s.fetchState.pass
  lt : s.fetchState.pass < s.noc2.subOperations
  next : s.fetchState.pass + 1 ≠ s.noc2.subOperations →
    (s.step i).fetchState.noc2Pass = true ∧
      (s.step i).fetchState.pass = s.fetchState.pass + 1
  last : s.fetchState.pass + 1 = s.noc2.subOperations → (s.step i).fetchState = .normal
  ack : s.decode.noc2AckStage =
    if s.fetchState.pass + 1 = s.noc2.subOperations then .s1 else .never

theorem noc3Operation_icache (fs : FetchState) (a b c e : Bool) :
    (decoder .icacheInvalidation fs a b c e).noc3Operation =
      if c then .genIcacheInvalAck else .none := rfl

theorem noc3Operation_invalidation (fs : FetchState) (a b c e : Bool) :
    (decoder .invalidation fs a b c e).noc3Operation =
      if c then .genInvalAckFromDcache else .genInvalAckIfTagcheckMFromDcache := rfl

theorem noc3Operation_downgrade (fs : FetchState) (a b c e : Bool) :
    (decoder .downgrade fs a b c e).noc3Operation =
      if c then .genDowngradeAckFromDcache else .genDowngradeAckIfTagcheckMFromDcache := rfl

/-- The requests of data forwards. -/
theorem forward_data_reqtype (hf : s.noc2.isForward = true) (hic : s.noc2.icacheType = false) :
    s.predecodeNoc2.reqtype =
      if s.noc2.reqtype = .loadFwd then .downgrade else .invalidation := by
  unfold Noc2Message.isForward at hf
  simp only [Bool.or_eq_true, decide_eq_true_eq] at hf
  show noc2Reqtype _ _ _ = _
  unfold noc2Reqtype
  rcases hf with (hf | hf) | hf <;> simp [hf, hic]

theorem Inv.forward_noc3 (h : Inv y) (hi : y.1.issuesNoc2 i = true)
    (hf : y.1.noc2.isForward = true) (hv : y.1.noc2.vectorOk) :
    y.1.decode.noc3Operation = y.1.noc2.noc3Operation y.1.fetchState.pass := by
  obtain ⟨hrt, hlast⟩ := h.forward_predecode hi hf hv
  unfold State.decode Noc2Message.noc3Operation
  rw [hrt, hlast]
  cases hic : y.1.noc2.icacheType with
  | true =>
    rw [(forward_reqtype hf).1 hic, noc3Operation_icache, if_pos rfl]
    simp
  | false =>
    rw [forward_data_reqtype hf hic, if_neg Bool.false_ne_true]
    by_cases hl : y.1.noc2.reqtype = .loadFwd
    · rw [if_pos hl, if_pos hl, noc3Operation_downgrade]
      simp
    · rw [if_neg hl, if_neg hl, noc3Operation_invalidation]
      simp

theorem Inv.forward_isPass (h : Inv y) (hi : y.1.issuesNoc2 i = true)
    (hf : y.1.noc2.isForward = true) (hv : y.1.noc2.vectorOk) :
    y.1.s1Instr.IsPass y.1.noc2 y.1.fetchState.pass := by
  obtain ⟨hrt, -⟩ := h.forward_predecode hi hf hv
  have hfs := h.fetchState_of_forward hi hf
  have hs : y.1.predecodeSource = .noc2 := by
    unfold State.issuesNoc2 at hi
    rw [Bool.and_eq_true, decide_eq_true_eq] at hi
    exact hi.2
  refine ⟨h.forward_noc3 hi hf hv, ?_, fun hic => ?_, fun hic => ?_⟩
  · show y.1.predecode.fwdSubcachelineVector = _
    rw [State.predecode_noc2 hs]
    rfl
  · show y.1.predecode.reqtype = _ ∨ y.1.predecode.reqtype = _
    rw [hrt]
    exact (forward_reqtype hf).2 hic
  · have haddr : y.1.predecode.address =
        addressPlus y.1.noc2.address (invalSubline y.1.fetchState) := by
      rw [State.predecode_noc2 hs]
      show noc2Address _ _ _ _ = _
      unfold Noc2Message.isForward at hf
      simp only [Bool.or_eq_true, decide_eq_true_eq] at hf
      unfold noc2Address
      rcases hf with (hf | hf) | hf <;> simp [hf, hic]
    show (y.1.predecode.address.extractLsb' 4 2).toNat = _
    rw [haddr, extractLsb'_addressPlus]
    rw [hic, if_neg Bool.false_ne_true] at hfs
    rcases hfs with hfs | hfs | hfs | hfs <;> rw [hfs] <;> rfl

/-- The fetch states of a data forward go through its four sub-lines. -/
theorem fetchStateNext_data {fs : FetchState} {rt : Reqtype} (a : Bool)
    (hrt : rt = .invalidation ∨ rt = .downgrade)
    (hfs : fs = .normal ∨ fs = .inval2 ∨ fs = .inval3 ∨ fs = .inval4) :
    fs.pass < 4 ∧
      (fs.pass + 1 ≠ 4 → (fetchStateNext fs rt a false).noc2Pass = true ∧
        (fetchStateNext fs rt a false).pass = fs.pass + 1) ∧
      (fs.pass + 1 = 4 → fetchStateNext fs rt a false = .normal) ∧
      ((if fs = .inval4 then AckStage.s1 else .never) = if fs.pass + 1 = 4 then .s1 else .never) := by
  rcases hrt with rfl | rfl <;> rcases hfs with rfl | rfl | rfl | rfl <;> cases a <;> decide

/-- Those of a forward to the instruction cache go through its two halves. -/
theorem fetchStateNext_icache {fs : FetchState} (a : Bool)
    (hfs : fs = .normal ∨ fs = .icacheInval2) :
    fs.pass < 2 ∧
      (fs.pass + 1 ≠ 2 → (fetchStateNext fs .icacheInvalidation a false).noc2Pass = true ∧
        (fetchStateNext fs .icacheInvalidation a false).pass = fs.pass + 1) ∧
      (fs.pass + 1 = 2 → fetchStateNext fs .icacheInvalidation a false = .normal) ∧
      ((if decide (fs.pass = 1) = true then AckStage.s1 else .never) =
        if fs.pass + 1 = 2 then .s1 else .never) := by
  rcases hfs with rfl | rfl <;> cases a <;> decide

theorem Noc2Message.vectorOk.lastPass_icache {m : Noc2Message} (hv : m.vectorOk)
    (hf : m.isForward = true) (hic : m.icacheType = true) : m.lastPass = 1 := by
  have hlow := hv.2
  unfold Noc2Message.lowHalfAlone at hlow
  simp only [hf, hic, Bool.true_and, decide_eq_false_iff_not] at hlow
  unfold Noc2Message.lastPass
  rw [hic, if_pos rfl, if_neg hlow]

theorem Inv.forward_issue (h : Inv y) (hi : y.1.issuesNoc2 i = true)
    (hf : y.1.noc2.isForward = true) (hv : y.1.noc2.vectorOk) : ForwardIssue y.1 i := by
  obtain ⟨hrt, hlast⟩ := h.forward_predecode hi hf hv
  have hpass := h.forward_isPass hi hf hv
  have hfs := h.fetchState_of_forward hi hf
  have hissue : y.1.s1Issues i = true := by
    unfold State.issuesNoc2 at hi
    rw [Bool.and_eq_true] at hi
    exact hi.1
  have hnext := fetchState_of_issues hissue
  have hack : y.1.decode.noc2AckStage = (decoder y.1.predecodeNoc2.reqtype y.1.fetchState
      y.1.intVecDis y.1.hitStbuf (decide (y.1.fetchState.pass = y.1.noc2.lastPass))
      y.1.predecode.interruptBroadcast).noc2AckStage := by
    unfold State.decode
    rw [hrt, hlast]
  rw [hrt] at hnext
  cases hic : y.1.noc2.icacheType with
  | true =>
    have hsub : y.1.noc2.subOperations = 2 := by
      unfold Noc2Message.subOperations
      rw [hic, if_pos rfl]
    rw [hic, if_pos rfl] at hfs
    rw [(forward_reqtype hf).1 hic] at hnext hack
    rw [hv.lastPass_icache hf hic, icachePass_noc2AckStage] at hack
    obtain ⟨hlt, hmore, hdone, hstage⟩ := fetchStateNext_icache y.1.intVecDis hfs
    rw [← hnext, ← hsub] at hmore hdone
    rw [hstage, ← hsub] at hack
    exact ⟨hpass, by rw [hsub]; exact hlt, hmore, hdone, hack⟩
  | false =>
    have hsub : y.1.noc2.subOperations = 4 := by
      unfold Noc2Message.subOperations
      rw [hic, if_neg Bool.false_ne_true]
    rw [hic, if_neg Bool.false_ne_true] at hfs
    have hdata := (forward_reqtype hf).2 hic
    rw [forwardPass_noc2AckStage hdata] at hack
    obtain ⟨hlt, hmore, hdone, hstage⟩ := fetchStateNext_data y.1.intVecDis hdata hfs
    rw [← hnext, ← hsub] at hmore hdone
    rw [hstage, ← hsub] at hack
    exact ⟨hpass, by rw [hsub]; exact hlt, hmore, hdone, hack⟩

/-! ### The invariant -/

/-- An instruction of message `n` is in S2. -/
def inS2 (s : State) (g : Forwards) (n : Nat) : Nat := (s.valS2 && g.s2 = n).toNat

/-- An instruction of message `n` is in S3 and not done with NoC3. -/
def inS3 (s : State) (g : Forwards) (n : Nat) : Nat :=
  (s.valS3 && g.s3 = n && !s.reqStaled .noc3).toNat

/-- A pass of message `n` issues. -/
def issueOf (s : State) (g : Forwards) (i : Inputs) (n : Nat) : Nat :=
  (s.issuesNoc2 i && g.current = n).toNat

/-- The sub-operations of a forward enter the pipeline in order, while its message is held; those
that have left it have sent the final acknowledgement if it was among them. -/
structure ForwardInv (z : (State × Traffic) × Forwards) : Prop where
  idleNew : z.1.1.noc2Val = false → z.1.1.noc2IsMessageNew = true
  registered : z.1.1.noc2Val = true → 0 < z.2.current ∧ z.2.log z.2.current = z.1.1.noc2
  vectorOk : ∀ n, 0 < n → n ≤ z.2.current → (z.2.log n).isForward = true → (z.2.log n).vectorOk
  icacheHeld : z.1.1.fetchState = .icacheInval2 → z.1.1.noc2Val = true
  passNew : z.1.1.noc2Val = true → z.1.1.noc2IsMessageNew = true → z.2.passes z.2.current = 0
  passOf : z.1.1.fetchState.noc2Pass = true → z.2.passes z.2.current = z.1.1.fetchState.pass
  passKind : z.1.1.noc2Val = true → z.1.1.noc2IsMessageNew = false →
    z.1.1.noc2.isForward = true → z.1.1.fetchState.noc2Pass = true
  expanded : ∀ n, 0 < n → n ≤ z.2.current → (z.2.log n).isForward = true →
    ¬ (n = z.2.current ∧ z.1.1.noc2Val = true) → z.2.passes n = (z.2.log n).subOperations
  fresh : ∀ n, z.2.current < n → z.2.passes n = 0 ∧ z.2.taken n = 0 ∧ z.2.finals n = 0 ∧
    z.2.late n = false
  taken : ∀ n, 0 < n → n ≤ z.2.current →
    z.2.taken n = if n = z.2.current ∧ z.1.1.noc2Val = true then 0 else 1
  numberS2 : z.1.1.valS2 = true → z.2.s2 ≤ z.2.current
  numberS3 : z.1.1.valS3 = true → z.2.s3 ≤ z.2.current
  passS2 : z.1.1.valS2 = true → 0 < z.2.s2 → (z.2.log z.2.s2).isForward = true →
    0 < z.2.passes z.2.s2 ∧ z.1.1.s2.IsPass (z.2.log z.2.s2) (z.2.passes z.2.s2 - 1)
  passS3 : z.1.1.valS3 = true → 0 < z.2.s3 → (z.2.log z.2.s3).isForward = true →
    inS2 z.1.1 z.2 z.2.s3 < z.2.passes z.2.s3 ∧
      z.1.1.s3.IsPass (z.2.log z.2.s3) (z.2.passes z.2.s3 - 1 - inS2 z.1.1 z.2 z.2.s3)
  coveredS3 : z.1.1.valS3 = true →
    (z.1.1.s3.reqtype = .invalidation ∨ z.1.1.s3.reqtype = .downgrade) →
      z.1.1.s3.fwdSubcachelineVector.getLsbD z.1.1.s3.subline = false →
        z.1.1.s3Result.tagcheckState = .I
  finals : ∀ n, 0 < n → n ≤ z.2.current → (z.2.log n).isForward = true →
    z.2.finals n =
      if (z.2.log n).lastPass < z.2.passes n - inS2 z.1.1 z.2 n - inS3 z.1.1 z.2 n then 1 else 0
  late : ∀ n, 0 < n → (z.2.log n).isForward = true → z.2.late n = false

theorem forwardInv_init {z : (State × Traffic) × Forwards} (h : forwardSystem.init z) :
    ForwardInv z := by
  obtain ⟨⟨hs, -⟩, hg⟩ := h
  have hcur : z.2.current = 0 := by rw [hg]; rfl
  have hnone : ∀ n, 0 < n → ¬ n ≤ z.2.current := by
    intro n hn
    rw [hcur]
    omega
  have hv2 : z.1.1.valS2 ≠ true := by rw [hs.valS2]; exact Bool.false_ne_true
  have hv3 : z.1.1.valS3 ≠ true := by rw [hs.valS3]; exact Bool.false_ne_true
  have hnv : z.1.1.noc2Val ≠ true := by rw [hs.noc2Val]; exact Bool.false_ne_true
  refine
    { idleNew := fun _ => hs.noc2IsMessageNew
      registered := fun hv => absurd hv hnv
      vectorOk := fun n hn hle => absurd hle (hnone n hn)
      icacheHeld := fun hf => ?_
      passNew := fun hv => absurd hv hnv
      passOf := fun hf => ?_
      passKind := fun hv => absurd hv hnv
      expanded := fun n hn hle => absurd hle (hnone n hn)
      fresh := fun n _ => ?_
      taken := fun n hn hle => absurd hle (hnone n hn)
      numberS2 := fun hv => absurd hv hv2
      numberS3 := fun hv => absurd hv hv3
      passS2 := fun hv => absurd hv hv2
      passS3 := fun hv => absurd hv hv3
      coveredS3 := fun hv => absurd hv hv3
      finals := fun n hn hle => absurd hle (hnone n hn)
      late := fun n _ _ => ?_ }
  · rw [hs.fetchState] at hf
    cases hf
  · rw [hs.fetchState] at hf
    exact absurd hf Bool.false_ne_true
  · rw [hg]
    exact ⟨rfl, rfl, rfl, rfl⟩
  · rw [hg]
    rfl

/-! ### The buffer -/

/-- A pass that issues finds its message in the buffer. -/
theorem ForwardInv.held (hF : ForwardInv (y, g)) (h : Inv y) (hi : y.1.issuesNoc2 i = true) :
    y.1.noc2Val = true ∧ g.passes g.current = y.1.fetchState.pass ∧
      ((y.1.fetchState = .normal ∧ y.1.noc2IsMessageNew = true) ∨
        (y.1.fetchState.noc2Pass = true ∧ y.1.noc2IsMessageNew = false)) := by
  unfold State.issuesNoc2 at hi
  rw [Bool.and_eq_true, decide_eq_true_eq] at hi
  obtain ⟨hi, hs⟩ := hi
  have hpass : y.1.fetchState.noc2Pass = true →
      (y.1.fetchState = .icacheInval2 → y.1.noc2Val = true) →
      y.1.noc2Val = true ∧ y.1.noc2IsMessageNew = false := by
    intro hp hheld
    refine h.noc2Val_of_pass ?_
    unfold State.noc2PassUser
    rw [hp, Bool.true_and]
    by_cases hic : y.1.fetchState = .icacheInval2
    · rw [hheld hic, Bool.true_or]
    · simp [hic]
  cases hfs : y.1.fetchState with
  | normal =>
    rcases State.source_normal hi hfs with ⟨-, hv, hn⟩ | ⟨hs', -⟩
    · exact ⟨hv, hF.passNew hv hn, .inl ⟨rfl, hn⟩⟩
    · rw [hs] at hs'
      cases hs'
  | pcxWritebackDone =>
    rw [State.source_pcxWritebackDone hfs] at hs
    cases hs
  | inval2 | inval3 | inval4 | icacheInval2 | noc2WritebackDone =>
    have hp : y.1.fetchState.noc2Pass = true := by rw [hfs]; rfl
    obtain ⟨hv, hn⟩ := hpass hp hF.icacheHeld
    have hpass := hF.passOf hp
    change g.passes g.current = y.1.fetchState.pass at hpass
    rw [hfs] at hpass
    exact ⟨hv, hpass, .inr ⟨rfl, hn⟩⟩

/-- Only a pass of the NoC2 message acknowledges it in S1. -/
theorem noc2AckStage_of_issues {d : AckStage} (hd : d ≠ .never)
    (hst : y.1.decode.noc2AckStage = d) (hi : y.1.s1Issues i = true) :
    y.1.issuesNoc2 i = true := by
  rcases source_cases hi with ⟨hs, -⟩ | ⟨hs, -⟩
  · unfold State.issuesNoc2
    simp [hi, hs]
  · rw [(pcx_signals hs).1] at hst
    exact absurd hst.symm hd

/-- Only a message in the buffer is acknowledged. -/
theorem ForwardInv.noc2Val_of_ack (hF : ForwardInv (y, g)) (h : Inv y)
    (hack : y.1.noc2Ack i = true) : y.1.noc2Val = true := by
  have hle := h.noc2AckStages_le i
  have hheld : y.1.noc2Held = true → y.1.noc2Val = true := by
    intro hh
    unfold State.noc2Held at hh
    rw [Bool.and_eq_true] at hh
    exact hh.1
  have hone := Bool.toNat_le y.1.noc2Held
  unfold State.noc2Ack at hack
  simp only [Bool.or_eq_true] at hack
  rcases hack with (hack | hack) | hack
  · rw [Bool.and_eq_true, decide_eq_true_eq] at hack
    exact (hF.held h (noc2AckStage_of_issues (by decide) hack.2 hack.1)).1
  · rw [hack, Bool.toNat_true] at hle
    exact hheld (Bool.toNat_eq_one.1 (by omega))
  · rw [hack, Bool.toNat_true] at hle
    exact hheld (Bool.toNat_eq_one.1 (by omega))

theorem ForwardInv.vectorOk_noc2 (hF : ForwardInv (y, g)) (hv : y.1.noc2Val = true)
    (hf : y.1.noc2.isForward = true) : y.1.noc2.vectorOk := by
  obtain ⟨hpos, hlog⟩ := hF.registered hv
  have hok := hF.vectorOk g.current hpos le_rfl
  change g.log g.current = y.1.noc2 at hlog
  change (g.log g.current).isForward = true → (g.log g.current).vectorOk at hok
  rw [hlog] at hok
  exact hok hf

/-- A forward leaves the buffer exactly when its last sub-operation issues. -/
theorem ForwardInv.noc2Ack_forward (hF : ForwardInv (y, g)) (h : Inv y)
    (hv : y.1.noc2Val = true) (hf : y.1.noc2.isForward = true) :
    y.1.noc2Ack i = true ↔
      y.1.issuesNoc2 i = true ∧ y.1.fetchState.pass + 1 = y.1.noc2.subOperations := by
  have hstage : y.1.noc2Ack i = (y.1.s1Issues i && y.1.decode.noc2AckStage = .s1) := by
    refine h.noc2Ack_eq i ?_
    cases hn : y.1.noc2IsMessageNew with
    | true =>
      right
      unfold State.noc2Held
      rw [hn]
      simp
    | false =>
      left
      unfold State.noc2PassUser
      rw [hF.passKind hv hn hf, hv]
      rfl
  rw [hstage, Bool.and_eq_true, decide_eq_true_eq]
  constructor
  · rintro ⟨hi, hst⟩
    have hi' := noc2AckStage_of_issues (by decide) hst hi
    refine ⟨hi', ?_⟩
    have hrow := (h.forward_issue hi' hf (hF.vectorOk_noc2 hv hf)).ack
    rw [hst] at hrow
    by_contra hne
    rw [if_neg hne] at hrow
    cases hrow
  · rintro ⟨hi', hlast⟩
    have hrow := (h.forward_issue hi' hf (hF.vectorOk_noc2 hv hf)).ack
    rw [if_pos hlast] at hrow
    unfold State.issuesNoc2 at hi'
    rw [Bool.and_eq_true] at hi'
    exact ⟨hi'.1, hrow⟩

/-- The first pass of a forward to the instruction cache is issued from the NoC2 buffer. -/
theorem Inv.issuesNoc2_of_icache (hi : y.1.s1Issues i = true)
    (hrt : y.1.predecode.reqtype = .icacheInvalidation) :
    y.1.issuesNoc2 i = true ∧ y.1.noc2.isForward = true ∧ y.1.noc2.icacheType = true := by
  have hs : y.1.predecodeSource = .noc2 := by
    refine source_of_forward hi ?_ ?_ <;> rw [hrt] <;> decide
  rw [State.predecode_noc2 hs] at hrt
  refine ⟨?_, message_of_forward.2 hrt⟩
  unfold State.issuesNoc2
  simp [hi, hs]

/-- Before the second pass of a forward to the instruction cache its message stays. -/
theorem ForwardInv.icache_kept (hF : ForwardInv (y, g)) (h : Inv y)
    (hfs : (y.1.step i).fetchState = .icacheInval2) :
    y.1.noc2Val = true ∧ y.1.noc2Ack i = false := by
  rcases fetchState_icache hfs with ⟨hwait, hi⟩ | ⟨hi, hn, hrt⟩
  · have hv := hF.icacheHeld hwait
    refine ⟨hv, ?_⟩
    by_contra hack
    have hissue := ((hF.noc2Ack_forward h hv (h.icachePass hwait).1).1 (by simpa using hack)).1
    unfold State.issuesNoc2 at hissue
    rw [hi, Bool.false_and] at hissue
    exact absurd hissue Bool.false_ne_true
  · obtain ⟨hissue, hf, hic⟩ := Inv.issuesNoc2_of_icache hi hrt
    obtain ⟨hv, -, -⟩ := hF.held h hissue
    refine ⟨hv, ?_⟩
    by_contra hack
    have hlast := ((hF.noc2Ack_forward h hv hf).1 (by simpa using hack)).2
    unfold Noc2Message.subOperations at hlast
    rw [hn, hic, if_pos rfl] at hlast
    cases hlast

/-- While every forward is expanded before it is acknowledged, no flit arrives in between. -/
theorem ForwardInv.inputOk (hF : ForwardInv (y, g)) (h : Inv y) (hok : ForwardOk y i) :
    InputOk y i := by
  refine ⟨hok.legal.conforms, fun hfs => ?_⟩
  unfold State.noc2Flit
  rw [(hF.icache_kept h hfs).1, if_pos rfl]

/-! ### The numbers after a cycle -/

/-- The buffer accepts nothing, or a message into the empty buffer. -/
theorem accepts_cases (s : State) (i : Inputs) :
    s.noc2Accepts i = none ∨ ∃ m, s.noc2Accepts i = some m ∧ s.noc2Val = false ∧
      (s.step i).noc2Val = true ∧ (s.step i).noc2 = m := by
  cases ha : s.noc2Accepts i with
  | none => exact .inl rfl
  | some m =>
    have hv : s.noc2Val = false := by
      by_contra hv
      unfold State.noc2Accepts at ha
      rw [if_pos (by simpa using hv)] at ha
      cases ha
    obtain ⟨hv', hm⟩ := noc2_accepted (s := s) (i := i) (by rw [hv]; rfl)
    rw [ha] at hv'
    exact .inr ⟨m, rfl, hv, hv', hm m ha⟩

theorem current_of_none (ha : y.1.noc2Accepts i = none) :
    (forwardsNext g y i).current = g.current ∧ (forwardsNext g y i).log = g.log := by
  refine ⟨?_, ?_⟩
  · show g.current + (y.1.noc2Accepts i).isSome.toNat = _
    rw [ha]
    rfl
  · show (match y.1.noc2Accepts i with
      | some m => Function.update g.log (g.current + 1) m
      | none => g.log) = _
    rw [ha]

theorem current_of_some {m : Noc2Message} (ha : y.1.noc2Accepts i = some m) :
    (forwardsNext g y i).current = g.current + 1 ∧
      (forwardsNext g y i).log = Function.update g.log (g.current + 1) m := by
  refine ⟨?_, ?_⟩
  · show g.current + (y.1.noc2Accepts i).isSome.toNat = _
    rw [ha]
    rfl
  · show (match y.1.noc2Accepts i with
      | some m => Function.update g.log (g.current + 1) m
      | none => g.log) = _
    rw [ha]

/-- The messages accepted before stay in the log. -/
theorem log_of_le {n : Nat} (hn : n ≤ g.current) : (forwardsNext g y i).log n = g.log n := by
  rcases accepts_cases y.1 i with ha | ⟨m, ha, -⟩
  · rw [(current_of_none ha).2]
  · rw [(current_of_some ha).2, Function.update_of_ne (by omega)]

theorem current_le (g : Forwards) (y : State × Traffic) (i : Inputs) :
    g.current ≤ (forwardsNext g y i).current := Nat.le_add_right _ _

/-- An empty buffer issues nothing and is not acknowledged. -/
theorem ForwardInv.quiet (hF : ForwardInv (y, g)) (h : Inv y) (hv : y.1.noc2Val = false)
    (i : Inputs) : y.1.issuesNoc2 i = false ∧ y.1.noc2Ack i = false := by
  refine ⟨?_, ?_⟩
  · by_contra hi
    rw [(hF.held h (by simpa using hi)).1] at hv
    exact absurd hv.symm Bool.false_ne_true
  · by_contra hack
    rw [hF.noc2Val_of_ack h (by simpa using hack)] at hv
    exact absurd hv.symm Bool.false_ne_true

theorem passes_step (g : Forwards) (y : State × Traffic) (i : Inputs) (n : Nat) :
    (forwardsNext g y i).passes n = g.passes n + issueOf y.1 g i n := rfl

theorem issueOf_of_stallS2 {n : Nat} (hst : s.stallS2 i = true) : issueOf s g i n = 0 := by
  unfold issueOf State.issuesNoc2
  rw [State.s1Issues_of_stallS2 hst]
  rfl

theorem issueOf_of_not {n : Nat} (hi : s.issuesNoc2 i = false) : issueOf s g i n = 0 := by
  unfold issueOf
  rw [hi]
  rfl

/-- The passes of a message in S2 after a cycle. -/
theorem inS2_step (g : Forwards) (y : State × Traffic) (i : Inputs) {n : Nat} (hn : 0 < n) :
    inS2 (y.1.step i) (forwardsNext g y i) n =
      if y.1.stallS2 i then inS2 y.1 g n else issueOf y.1 g i n := by
  unfold inS2 issueOf State.issuesNoc2
  show ((if y.1.stallS2 i then y.1.valS2 else y.1.s1Issues i) && decide ((if y.1.stallS2 i then g.s2
    else if y.1.predecodeSource = .noc2 then g.current else 0) = n)).toNat = _
  cases y.1.stallS2 i with
  | true => rfl
  | false =>
    by_cases hs : y.1.predecodeSource = .noc2
    · simp [hs]
    · have hne : (0 : Nat) ≠ n := by omega
      simp [hs, hne]

/-! ### Each part of the invariant -/

/-- A message that a pass has processed is not new. -/
theorem isMessageNew_step (hack : s.noc2Ack i = false) :
    (s.step i).noc2IsMessageNew = (s.noc2IsMessageNew && !s.noc2HeaderAck i) := by
  show State.isMessageNewNext s.noc2IsMessageNew (s.noc2Ack i) (s.noc2HeaderAck i) = _
  unfold State.isMessageNewNext
  rw [hack]
  cases s.noc2IsMessageNew <;> cases s.noc2HeaderAck i <;> rfl

theorem headerAck_of_issuesNoc2 (hi : s.issuesNoc2 i = true) (hfs : s.fetchState = .normal) :
    s.noc2HeaderAck i = true := by
  unfold State.issuesNoc2 at hi
  rw [Bool.and_eq_true, decide_eq_true_eq] at hi
  unfold State.noc2HeaderAck
  simp [hi.1, hi.2, hfs]

theorem issuesNoc2_of_headerAck (hh : s.noc2HeaderAck i = true) : s.issuesNoc2 i = true := by
  obtain ⟨-, -, hi, -, hs⟩ := new_of_noc2HeaderAck hh
  unfold State.issuesNoc2
  simp [hi, hs]

/-- The buffer after a cycle holds the message it had, or the one that it accepted. -/
theorem noc2Val_step_cases (hv' : (s.step i).noc2Val = true) :
    (s.noc2Accepts i = none ∧ s.noc2Val = true ∧ s.noc2Ack i = false ∧
        (s.step i).noc2 = s.noc2) ∨
      ∃ m, s.noc2Accepts i = some m ∧ s.noc2Val = false ∧ (s.step i).noc2 = m := by
  rcases noc2_cases s i with ⟨hk, -, hm⟩ | ⟨-, ⟨m, ha, -, hm⟩ | ⟨-, hv⟩⟩
  · refine .inl ⟨?_, hk.1, hk.2, hm⟩
    unfold State.noc2Accepts
    rw [hk.1, if_pos rfl]
  · rcases accepts_cases s i with hnone | ⟨m', ha', hv, -, hm'⟩
    · rw [hnone] at ha
      cases ha
    · exact .inr ⟨m', ha', hv, hm'⟩
  · rw [hv] at hv'
    exact absurd hv' Bool.false_ne_true

theorem ForwardInv.step_registered (hF : ForwardInv (y, g)) (hv' : (y.1.step i).noc2Val = true) :
    0 < (forwardsNext g y i).current ∧
      (forwardsNext g y i).log (forwardsNext g y i).current = (y.1.step i).noc2 := by
  rcases noc2Val_step_cases hv' with ⟨ha, hv, -, hm⟩ | ⟨m, ha, -, hm⟩
  · rw [(current_of_none ha).1, (current_of_none ha).2, hm]
    exact hF.registered hv
  · rw [(current_of_some ha).1, (current_of_some ha).2, hm]
    exact ⟨Nat.succ_pos _, Function.update_self ..⟩

theorem ForwardInv.step_vectorOk (hF : ForwardInv (y, g)) (hok : ForwardOk y i) {n : Nat}
    (hn : 0 < n) (hle : n ≤ (forwardsNext g y i).current)
    (hf : ((forwardsNext g y i).log n).isForward = true) :
    ((forwardsNext g y i).log n).vectorOk := by
  by_cases hold : n ≤ g.current
  · rw [log_of_le hold] at hf ⊢
    exact hF.vectorOk n hn hold hf
  · rcases accepts_cases y.1 i with ha | ⟨m, ha, -⟩
    · rw [(current_of_none ha).1] at hle
      exact absurd hle hold
    · rw [(current_of_some ha).1] at hle
      have heq : n = g.current + 1 := by omega
      rw [(current_of_some ha).2, heq, Function.update_self] at hf ⊢
      have hlegal := hok.legal.legal
      have hsplit := hok.split
      rw [ha] at hlegal hsplit
      change (!m.isForward || m.vectorLegal) = true at hlegal
      change (!m.lowHalfAlone) = true at hsplit
      rw [hf] at hlegal
      exact ⟨hlegal, by simpa using hsplit⟩

theorem ForwardInv.step_passNew (hF : ForwardInv (y, g)) (h : Inv y)
    (hv' : (y.1.step i).noc2Val = true) (hn' : (y.1.step i).noc2IsMessageNew = true) :
    (forwardsNext g y i).passes (forwardsNext g y i).current = 0 := by
  rw [passes_step]
  rcases noc2Val_step_cases hv' with ⟨ha, hv, hack, -⟩ | ⟨m, ha, hv, -⟩
  · rw [(current_of_none ha).1]
    rw [isMessageNew_step hack, Bool.and_eq_true, Bool.not_eq_true'] at hn'
    have hno : y.1.issuesNoc2 i = false := by
      by_contra hi
      rcases (hF.held h (by simpa using hi)).2.2 with ⟨hfs, -⟩ | ⟨-, hold⟩
      · rw [headerAck_of_issuesNoc2 (by simpa using hi) hfs] at hn'
        exact absurd hn'.2.symm Bool.false_ne_true
      · rw [hold] at hn'
        exact absurd hn'.1 Bool.false_ne_true
    rw [issueOf_of_not hno, Nat.add_zero]
    exact hF.passNew hv hn'.1
  · rw [(current_of_some ha).1, issueOf_of_not (hF.quiet h hv i).1, Nat.add_zero]
    exact (hF.fresh (g.current + 1) (Nat.lt_succ_self _)).1

/-- A pass that is followed by another goes on to the next place. -/
theorem fetchStateNext_pass (fs : FetchState) (rt : Reqtype) (a : Bool)
    (hp : (fetchStateNext fs rt a false).noc2Pass = true) :
    (fetchStateNext fs rt a false).pass = fs.pass + 1 := by
  revert hp
  cases fs with
  | normal => cases rt <;> cases a <;> decide
  | inval2 | inval3 => exact fun _ => rfl
  | pcxWritebackDone | inval4 | noc2WritebackDone | icacheInval2 =>
    exact fun hp => absurd hp Bool.false_ne_true

theorem ForwardInv.step_passOf (hF : ForwardInv (y, g)) (h : Inv y) (hok : ForwardOk y i)
    (hp' : (y.1.step i).fetchState.noc2Pass = true) :
    (forwardsNext g y i).passes (forwardsNext g y i).current = (y.1.step i).fetchState.pass := by
  have hkept : y.1.noc2Val = true ∧ y.1.noc2Ack i = false := by
    by_cases hic : (y.1.step i).fetchState = .icacheInval2
    · exact hF.icache_kept h hic
    · obtain ⟨hv, hack, -⟩ := h.noc2_kept (hF.inputOk h hok) (noc2PassUser_of_ne hp' hic)
      exact ⟨hv, hack⟩
  have hnone : y.1.noc2Accepts i = none := by
    unfold State.noc2Accepts
    rw [hkept.1, if_pos rfl]
  rw [(current_of_none hnone).1, passes_step]
  cases hi : y.1.s1Issues i with
  | false =>
    have hno : y.1.issuesNoc2 i = false := by
      unfold State.issuesNoc2
      rw [hi, Bool.false_and]
    rw [fetchState_of_not_issues hi] at hp' ⊢
    rw [issueOf_of_not hno, Nat.add_zero]
    exact hF.passOf hp'
  | true =>
    have hnext := fetchState_of_issues hi
    rcases source_cases hi with ⟨hs, -⟩ | ⟨hs, hfs⟩
    · have hissue : y.1.issuesNoc2 i = true := by
        unfold State.issuesNoc2
        simp [hi, hs]
      have hone : issueOf y.1 g i g.current = 1 := by
        unfold issueOf
        simp [hissue]
      rw [hone, (hF.held h hissue).2.1]
      rw [hnext] at hp' ⊢
      exact (fetchStateNext_pass _ _ _ hp').symm
    · have hrt : y.1.predecode.reqtype.fromPcx = true ∨ y.1.predecode.reqtype = .none := by
        rw [State.predecode_pcx hs]
        exact pcxReqtype_fromPcx y.1.pcx y.1.specialAccess
      rw [hnext, fetchStateNext_pcx hrt hfs] at hp'
      exact absurd hp' Bool.false_ne_true

theorem ForwardInv.step_passKind (hF : ForwardInv (y, g)) (h : Inv y)
    (hv' : (y.1.step i).noc2Val = true) (hn' : (y.1.step i).noc2IsMessageNew = false)
    (hf' : (y.1.step i).noc2.isForward = true) : (y.1.step i).fetchState.noc2Pass = true := by
  rcases noc2Val_step_cases hv' with ⟨-, hv, hack, hm⟩ | ⟨m, -, hv, -⟩
  · rw [hm] at hf'
    have hgoes : y.1.issuesNoc2 i = true → (y.1.step i).fetchState.noc2Pass = true := by
      intro hi
      refine ((h.forward_issue hi hf' (hF.vectorOk_noc2 hv hf')).next fun hlast => ?_).1
      rw [(hF.noc2Ack_forward h hv hf').2 ⟨hi, hlast⟩] at hack
      exact absurd hack.symm Bool.false_ne_true
    rw [isMessageNew_step hack, Bool.and_eq_false_iff] at hn'
    rcases hn' with hold | hhead
    · have hp := hF.passKind hv hold hf'
      cases hi : y.1.s1Issues i with
      | false =>
        rw [fetchState_of_not_issues hi]
        exact hp
      | true =>
        have hs : y.1.predecodeSource = .noc2 := by
          refine State.source_noc2 ?_ ?_ <;> intro hfs <;> rw [hfs] at hp <;>
            exact absurd hp Bool.false_ne_true
        refine hgoes ?_
        unfold State.issuesNoc2
        simp [hi, hs]
    · exact hgoes (issuesNoc2_of_headerAck (by simpa using hhead))
  · have hnew : (y.1.step i).noc2IsMessageNew = true := by
      rw [isMessageNew_step (hF.quiet h hv i).2, hF.idleNew hv]
      have hno : y.1.noc2HeaderAck i = false := by
        by_contra hh
        have hi := issuesNoc2_of_headerAck (by simpa using hh)
        rw [(hF.quiet h hv i).1] at hi
        exact absurd hi Bool.false_ne_true
      rw [hno]
      rfl
    rw [hnew] at hn'
    exact absurd hn'.symm Bool.false_ne_true

/-- A message that is not in the buffer after a cycle was not there before, or its last
sub-operation issued. -/
theorem ForwardInv.step_expanded (hF : ForwardInv (y, g)) (h : Inv y) {n : Nat} (hn : 0 < n)
    (hle : n ≤ (forwardsNext g y i).current)
    (hf : ((forwardsNext g y i).log n).isForward = true)
    (hgone : ¬ (n = (forwardsNext g y i).current ∧ (y.1.step i).noc2Val = true)) :
    (forwardsNext g y i).passes n = ((forwardsNext g y i).log n).subOperations := by
  rw [passes_step]
  rcases accepts_cases y.1 i with ha | ⟨m, ha, hv, hv', -⟩
  · rw [(current_of_none ha).1] at hle hgone
    rw [log_of_le hle] at hf ⊢
    by_cases hcur : n = g.current ∧ y.1.noc2Val = true
    · obtain ⟨rfl, hv⟩ := hcur
      have hlog := (hF.registered hv).2
      change g.log g.current = y.1.noc2 at hlog
      rw [hlog] at hf ⊢
      have hack : y.1.noc2Ack i = true := by
        by_contra hack
        exact hgone ⟨rfl, (noc2_step hv (by simpa using hack)).1⟩
      obtain ⟨hi, hlast⟩ := (hF.noc2Ack_forward h hv hf).1 hack
      have hone : issueOf y.1 g i g.current = 1 := by
        unfold issueOf
        simp [hi]
      rw [hone, (hF.held h hi).2.1]
      exact hlast
    · have hno : issueOf y.1 g i n = 0 := by
        unfold issueOf
        cases hi : y.1.issuesNoc2 i with
        | false => rfl
        | true =>
          by_cases hc : g.current = n
          · exact absurd ⟨hc.symm, (hF.held h hi).1⟩ hcur
          · simp [hc]
      rw [hno, Nat.add_zero]
      exact hF.expanded n hn hle hf hcur
  · rw [(current_of_some ha).1] at hle hgone
    have hlt : n ≤ g.current := by
      by_contra hlt
      exact hgone ⟨by omega, hv'⟩
    rw [log_of_le hlt] at hf ⊢
    rw [issueOf_of_not (hF.quiet h hv i).1, Nat.add_zero]
    refine hF.expanded n hn hlt hf fun hc => ?_
    change n = g.current ∧ y.1.noc2Val = true at hc
    rw [hv] at hc
    exact absurd hc.2 Bool.false_ne_true

/-- What NoC3 takes belongs to the instruction in S3. -/
theorem valS3_of_takes (ht : s.takes i .noc3 = true) :
    s.valS3 = true ∧ s.owes .noc3 = true ∧ s.reqStaled .noc3 = false := by
  have hoff := offers_of_takes ht
  rw [offers_eq] at hoff
  simp only [Bool.and_eq_true, Bool.not_eq_true'] at hoff
  exact ⟨hoff.1.1, hoff.1.2, hoff.2⟩

theorem ForwardInv.step_fresh (hF : ForwardInv (y, g)) {n : Nat} (hlt : g.current < n) :
    (forwardsNext g y i).passes n = 0 ∧ (forwardsNext g y i).taken n = 0 ∧
      (forwardsNext g y i).finals n = 0 ∧ (forwardsNext g y i).late n = false := by
  have hne : ¬ g.current = n := by omega
  obtain ⟨hp, ht, hfin, hlate⟩ := hF.fresh n hlt
  change g.passes n = 0 at hp
  change g.taken n = 0 at ht
  change g.finals n = 0 at hfin
  change g.late n = false at hlate
  have hno : (y.1.takes i .noc3 && decide (g.s3 = n)) = false := by
    by_contra hno
    rw [Bool.not_eq_false, Bool.and_eq_true, decide_eq_true_eq] at hno
    have hle := hF.numberS3 (valS3_of_takes hno.1).1
    change g.s3 ≤ g.current at hle
    omega
  refine ⟨?_, ?_, ?_, ?_⟩
  · show g.passes n + (y.1.issuesNoc2 i && decide (g.current = n)).toNat = 0
    rw [hp]
    simp [hne]
  · show g.taken n + (y.1.noc2Ack i && decide (g.current = n)).toNat = 0
    rw [ht]
    simp [hne]
  · show g.finals n + (y.1.takes i .noc3 && decide (g.s3 = n) && _).toNat = 0
    rw [hfin, hno]
    rfl
  · show (g.late n || (y.1.takes i .noc3 && decide (g.s3 = n) && _)) = false
    rw [hlate, hno]
    rfl

theorem ForwardInv.step_taken (hF : ForwardInv (y, g)) (h : Inv y) {n : Nat} (hn : 0 < n)
    (hle : n ≤ (forwardsNext g y i).current) :
    (forwardsNext g y i).taken n =
      if n = (forwardsNext g y i).current ∧ (y.1.step i).noc2Val = true then 0 else 1 := by
  show g.taken n + (y.1.noc2Ack i && decide (g.current = n)).toNat = _
  rcases accepts_cases y.1 i with ha | ⟨m, ha, hv, hv', -⟩
  · rw [(current_of_none ha).1] at hle ⊢
    have hold := hF.taken n hn hle
    change g.taken n = if n = g.current ∧ y.1.noc2Val = true then 0 else 1 at hold
    rw [hold]
    by_cases hc : n = g.current
    · subst hc
      cases hv : y.1.noc2Val with
      | false =>
        rw [(hF.quiet h hv i).2]
        have hv' : (y.1.step i).noc2Val = false := by
          rw [(noc2_accepted (by rw [hv]; rfl)).1, ha]
          rfl
        simp [hv']
      | true =>
        cases hack : y.1.noc2Ack i with
        | false => simp [(noc2_step hv hack).1]
        | true =>
          have hv' : (y.1.step i).noc2Val = false := by
            rw [(noc2_accepted (by rw [hack]; simp)).1, ha]
            rfl
          simp [hv']
    · have hc' : ¬ g.current = n := fun he => hc he.symm
      simp [hc, hc']
  · rw [(current_of_some ha).1] at hle ⊢
    rw [(hF.quiet h hv i).2, Bool.false_and, Bool.toNat_false, Nat.add_zero, hv']
    by_cases hlt : n ≤ g.current
    · have hold := hF.taken n hn hlt
      change g.taken n = if n = g.current ∧ y.1.noc2Val = true then 0 else 1 at hold
      have hne : ¬ n = g.current + 1 := by omega
      rw [hold, hv]
      simp [hne]
    · have heq : n = g.current + 1 := by omega
      have hnew := (hF.fresh n (by show g.current < n; omega)).2.1
      change g.taken n = 0 at hnew
      rw [hnew]
      simp [heq]

/-! ### The stages -/

theorem number_s2 (g : Forwards) (y : State × Traffic) (i : Inputs) :
    (forwardsNext g y i).s2 =
      if y.1.stallS2 i then g.s2 else if y.1.predecodeSource = .noc2 then g.current else 0 := rfl

theorem number_s3 (g : Forwards) (y : State × Traffic) (i : Inputs) :
    (forwardsNext g y i).s3 = if y.1.stallS3 i then g.s3 else g.s2 := rfl

theorem ForwardInv.step_numberS2 (hF : ForwardInv (y, g)) (hv' : (y.1.step i).valS2 = true) :
    (forwardsNext g y i).s2 ≤ (forwardsNext g y i).current := by
  refine le_trans ?_ (current_le g y i)
  rw [number_s2]
  rcases State.s2_cases hv' with ⟨hst, hv, -⟩ | ⟨hst, -, -⟩
  · rw [hst, if_pos rfl]
    exact hF.numberS2 hv
  · rw [hst, if_neg Bool.false_ne_true]
    split
    · exact le_rfl
    · exact Nat.zero_le _

theorem ForwardInv.step_numberS3 (hF : ForwardInv (y, g)) (hv' : (y.1.step i).valS3 = true) :
    (forwardsNext g y i).s3 ≤ (forwardsNext g y i).current := by
  refine le_trans ?_ (current_le g y i)
  rw [number_s3]
  rcases State.s3_cases hv' with ⟨hst, hv, -, -⟩ | ⟨hst, hv, -, -⟩
  · rw [hst, if_pos rfl]
    exact hF.numberS3 hv
  · rw [hst, if_neg Bool.false_ne_true]
    exact hF.numberS2 hv

theorem ForwardInv.step_passS2 (hF : ForwardInv (y, g)) (h : Inv y)
    (hv' : (y.1.step i).valS2 = true) (hn : 0 < (forwardsNext g y i).s2)
    (hf : ((forwardsNext g y i).log (forwardsNext g y i).s2).isForward = true) :
    0 < (forwardsNext g y i).passes (forwardsNext g y i).s2 ∧
      (y.1.step i).s2.IsPass ((forwardsNext g y i).log (forwardsNext g y i).s2)
        ((forwardsNext g y i).passes (forwardsNext g y i).s2 - 1) := by
  rw [passes_step]
  rw [number_s2] at hn hf ⊢
  rcases State.s2_cases hv' with ⟨hst, hv, hs⟩ | ⟨hst, hi, hs⟩
  · rw [hst, if_pos rfl] at hn hf ⊢
    have hle := hF.numberS2 hv
    change g.s2 ≤ g.current at hle
    rw [log_of_le hle] at hf ⊢
    rw [issueOf_of_stallS2 hst, Nat.add_zero, hs]
    exact hF.passS2 hv hn hf
  · rw [hst, if_neg Bool.false_ne_true] at hn hf ⊢
    have hsource : y.1.predecodeSource = .noc2 := by
      by_contra hne
      rw [if_neg hne] at hn
      exact absurd hn (Nat.lt_irrefl 0)
    rw [if_pos hsource] at hn hf ⊢
    have hissue : y.1.issuesNoc2 i = true := by
      unfold State.issuesNoc2
      simp [hi, hsource]
    obtain ⟨hv, hp, -⟩ := hF.held h hissue
    have hlog := (hF.registered hv).2
    change g.log g.current = y.1.noc2 at hlog
    have hone : issueOf y.1 g i g.current = 1 := by
      unfold issueOf
      simp [hissue]
    rw [log_of_le le_rfl, hlog] at hf ⊢
    rw [hone, hp, hs]
    exact ⟨Nat.succ_pos _, (h.forward_issue hissue hf (hF.vectorOk_noc2 hv hf)).isPass⟩

/-- What S2 holds of the message that S3 holds, after a cycle, is what has issued since. -/
theorem ForwardInv.step_passS3 (hF : ForwardInv (y, g)) (hv' : (y.1.step i).valS3 = true)
    (hn : 0 < (forwardsNext g y i).s3)
    (hf : ((forwardsNext g y i).log (forwardsNext g y i).s3).isForward = true) :
    inS2 (y.1.step i) (forwardsNext g y i) (forwardsNext g y i).s3 <
        (forwardsNext g y i).passes (forwardsNext g y i).s3 ∧
      (y.1.step i).s3.IsPass ((forwardsNext g y i).log (forwardsNext g y i).s3)
        ((forwardsNext g y i).passes (forwardsNext g y i).s3 - 1 -
          inS2 (y.1.step i) (forwardsNext g y i) (forwardsNext g y i).s3) := by
  rw [inS2_step g y i hn, passes_step]
  rw [number_s3] at hn hf ⊢
  rcases State.s3_cases hv' with ⟨hst, hv, hs, -⟩ | ⟨hst, hv, hs, -⟩
  · rw [hst, if_pos rfl] at hn hf ⊢
    have hle := hF.numberS3 hv
    change g.s3 ≤ g.current at hle
    rw [log_of_le hle] at hf ⊢
    obtain ⟨hlt, hpass⟩ := hF.passS3 hv hn hf
    change inS2 y.1 g g.s3 < g.passes g.s3 at hlt
    change y.1.s3.IsPass (g.log g.s3) (g.passes g.s3 - 1 - inS2 y.1 g g.s3) at hpass
    rw [hs]
    cases hst2 : y.1.stallS2 i with
    | true =>
      rw [if_pos rfl, issueOf_of_stallS2 hst2, Nat.add_zero]
      exact ⟨hlt, hpass⟩
    | false =>
      have hno : inS2 y.1 g g.s3 = 0 := by
        unfold inS2
        rw [State.stallS2_eq, hst, Bool.and_true] at hst2
        rw [hst2, Bool.false_and]
        rfl
      rw [hno] at hlt hpass
      rw [if_neg Bool.false_ne_true]
      refine ⟨by omega, ?_⟩
      have heq : g.passes g.s3 + issueOf y.1 g i g.s3 - 1 - issueOf y.1 g i g.s3 =
          g.passes g.s3 - 1 - 0 := by omega
      rw [heq]
      exact hpass
  · rw [hst, if_neg Bool.false_ne_true] at hn hf ⊢
    have hle := hF.numberS2 hv
    change g.s2 ≤ g.current at hle
    rw [log_of_le hle] at hf ⊢
    obtain ⟨hpos, hpass⟩ := hF.passS2 hv hn hf
    change 0 < g.passes g.s2 at hpos
    change y.1.s2.IsPass (g.log g.s2) (g.passes g.s2 - 1) at hpass
    have hst2 : y.1.stallS2 i = false := by rw [State.stallS2_eq, hst, Bool.and_false]
    rw [hs, hst2, if_neg Bool.false_ne_true]
    refine ⟨by omega, ?_⟩
    have heq : g.passes g.s2 + issueOf y.1 g i g.s2 - 1 - issueOf y.1 g i g.s2 =
        g.passes g.s2 - 1 := by omega
    rw [heq]
    exact hpass

theorem ForwardInv.step_coveredS3 (hF : ForwardInv (y, g)) (hok : ForwardOk y i)
    (hv' : (y.1.step i).valS3 = true)
    (hrt : (y.1.step i).s3.reqtype = .invalidation ∨ (y.1.step i).s3.reqtype = .downgrade)
    (hbit : (y.1.step i).s3.fwdSubcachelineVector.getLsbD (y.1.step i).s3.subline = false) :
    (y.1.step i).s3Result.tagcheckState = .I := by
  rcases State.s3_cases hv' with ⟨-, hv, hs, hres⟩ | ⟨-, hv, hs, hres⟩
  · rw [hs] at hrt hbit
    rw [hres]
    exact hF.coveredS3 hv hrt hbit
  · rw [hs] at hrt hbit
    rw [hres]
    show y.1.tagcheckStateS2 = .I
    unfold State.tagcheckStateS2
    rw [hok.legal.covered hv hrt hbit]

/-! ### NoC3 -/

/-- The final acknowledgements are always owed. -/
theorem owes_of_isFinal (h : s.s3.ops.noc3Operation.isFinal = true) : s.owes .noc3 = true := by
  show s.noc3Req.1 = true
  unfold State.noc3Req
  cases hop : s.s3.ops.noc3Operation <;> rw [hop] at h <;>
    first | rfl | exact absurd h Bool.false_ne_true

/-- The sub-lines above the last one of the vector are not in it. -/
theorem vector_of_lastPass_lt {m : Noc2Message} {p : Nat} (hic : m.icacheType = false)
    (hp : m.lastPass < p) : m.fwdSubcachelineVector.getLsbD p = false := by
  unfold Noc2Message.lastPass at hp
  rw [hic, if_neg Bool.false_ne_true] at hp
  by_cases hlarge : 4 ≤ p
  · exact BitVec.getLsbD_of_ge _ _ hlarge
  · have hcases : p = 0 ∨ p = 1 ∨ p = 2 ∨ p = 3 := by omega
    rcases hcases with rfl | rfl | rfl | rfl <;> (repeat' split at hp) <;> simp_all

/-- A sub-operation after the last one of the vector sends nothing. -/
theorem ForwardInv.not_owes (hF : ForwardInv (y, g)) (hv : y.1.valS3 = true) {m : Noc2Message}
    {p : Nat} (hpass : y.1.s3.IsPass m p) (hp : m.lastPass < p) : y.1.owes .noc3 = false := by
  have hne : p ≠ m.lastPass := by omega
  have hop := hpass.noc3
  unfold Noc2Message.noc3Operation at hop
  show y.1.noc3Req.1 = false
  unfold State.noc3Req
  cases hic : m.icacheType with
  | true =>
    rw [hic, if_pos rfl, if_neg hne] at hop
    rw [hop]
  | false =>
    rw [hic, if_neg Bool.false_ne_true] at hop
    have hstate := hF.coveredS3 hv (hpass.reqtype hic)
    change y.1.s3.fwdSubcachelineVector.getLsbD y.1.s3.subline = false →
      y.1.s3Result.tagcheckState = .I at hstate
    rw [hpass.vector, hpass.subline hic] at hstate
    have hI := hstate (vector_of_lastPass_lt hic hp)
    split at hop <;> rw [hop] <;> simp [hI]

/-- The sub-operations of a message that have entered S3, after a cycle. -/
theorem passes_sub_step (g : Forwards) (y : State × Traffic) (i : Inputs) {n : Nat} (hn : 0 < n) :
    (forwardsNext g y i).passes n - inS2 (y.1.step i) (forwardsNext g y i) n =
      if y.1.stallS3 i then g.passes n - inS2 y.1 g n else g.passes n := by
  rw [passes_step, inS2_step g y i hn]
  cases hst : y.1.stallS3 i with
  | false =>
    have hst2 : y.1.stallS2 i = false := by rw [State.stallS2_eq, hst, Bool.and_false]
    rw [hst2, if_neg Bool.false_ne_true, if_neg Bool.false_ne_true]
    omega
  | true =>
    rw [if_pos rfl]
    cases hst2 : y.1.stallS2 i with
    | true => rw [if_pos rfl, issueOf_of_stallS2 hst2, Nat.add_zero]
    | false =>
      have hno : inS2 y.1 g n = 0 := by
        unfold inS2
        rw [State.stallS2_eq, hst, Bool.and_true] at hst2
        rw [hst2, Bool.false_and]
        rfl
      rw [if_neg Bool.false_ne_true, hno]
      omega

/-- The sub-operation in S3 that NoC3 has still to serve, after a cycle. -/
theorem inS3_step (g : Forwards) (y : State × Traffic) (i : Inputs) (n : Nat) :
    inS3 (y.1.step i) (forwardsNext g y i) n =
      if y.1.stallS3 i then
        (y.1.valS3 && g.s3 = n && !(y.1.step i).reqStaled .noc3).toNat
      else inS2 y.1 g n := by
  unfold inS3 inS2
  show ((if y.1.stallS3 i then y.1.valS3 else y.1.valS2 && !y.1.stallS2 i) &&
    decide ((if y.1.stallS3 i then g.s3 else g.s2) = n) &&
      !(y.1.step i).reqStaled .noc3).toNat = _
  cases hst : y.1.stallS3 i with
  | true => rfl
  | false =>
    have hst2 : y.1.stallS2 i = false := by rw [State.stallS2_eq, hst, Bool.and_false]
    rw [reqStaled_of_not_stallS3 hst .noc3, hst2]
    simp

/-- NoC3 takes the final acknowledgement of message `n`. -/
def finalTaken (s : State) (g : Forwards) (i : Inputs) (n : Nat) : Nat :=
  (s.takes i .noc3 && g.s3 = n && s.s3.ops.noc3Operation.isFinal).toNat

/-- Without a sub-operation of message `n` in S3 that NoC3 has not taken yet, nothing happens to it. -/
theorem finalTaken_none {n : Nat}
    (hb : (y.1.valS3 && decide (g.s3 = n) && !y.1.reqStaled .noc3) = false) :
    inS3 y.1 g n = 0 ∧ finalTaken y.1 g i n = 0 ∧
      (y.1.stallS3 i = true →
        (y.1.valS3 && decide (g.s3 = n) && !(y.1.step i).reqStaled .noc3) = false) := by
  refine ⟨?_, ?_, fun hst => ?_⟩
  · unfold inS3
    rw [hb]
    rfl
  · unfold finalTaken
    cases ht : y.1.takes i .noc3 with
    | false => rfl
    | true =>
      obtain ⟨hv, -, hst⟩ := valS3_of_takes ht
      rw [hv, hst] at hb
      simp at hb
      simp [hb]
  · cases hold : y.1.reqStaled .noc3 with
    | false =>
      rw [hold, Bool.not_false, Bool.and_true] at hb
      rw [hb, Bool.false_and]
    | true =>
      have hnew : (y.1.step i).reqStaled .noc3 = true := by
        show y.1.noc3encoderReqStaledNext i = true
        unfold State.noc3encoderReqStaledNext
        rw [show y.1.noc3encoderReqStaled = true from hold, if_pos rfl, hst]
      rw [hnew, Bool.not_true, Bool.and_false]

/-- The sub-operation in S3 that NoC3 has not taken yet is the last one exactly when all others are
done. -/
theorem ForwardInv.isFinal_iff (hF : ForwardInv (y, g)) (hn : 0 < g.s3)
    (hf : (g.log g.s3).isForward = true) (hv : y.1.valS3 = true)
    (hstaled : y.1.reqStaled .noc3 = false) :
    inS3 y.1 g g.s3 = 1 ∧ inS2 y.1 g g.s3 < g.passes g.s3 ∧
      (y.1.s3.ops.noc3Operation.isFinal = true ↔
        (g.log g.s3).lastPass = g.passes g.s3 - inS2 y.1 g g.s3 - inS3 y.1 g g.s3) := by
  have hone : inS3 y.1 g g.s3 = 1 := by
    unfold inS3
    rw [hv, hstaled]
    simp
  obtain ⟨hlt, hpass⟩ := hF.passS3 hv hn hf
  change inS2 y.1 g g.s3 < g.passes g.s3 at hlt
  change y.1.s3.IsPass (g.log g.s3) (g.passes g.s3 - 1 - inS2 y.1 g g.s3) at hpass
  have hplace : g.passes g.s3 - 1 - inS2 y.1 g g.s3 =
      g.passes g.s3 - inS2 y.1 g g.s3 - inS3 y.1 g g.s3 := by omega
  refine ⟨hone, hlt, ?_⟩
  rw [hpass.noc3, isFinal_noc3Operation, decide_eq_true_eq, hplace]
  exact eq_comm

/-- The sub-operation of the message in S3: it is done when S3 moves on, or when NoC3 has taken it. -/
theorem ForwardInv.finalTaken_held (hF : ForwardInv (y, g)) (hn : 0 < g.s3)
    (hf : (g.log g.s3).isForward = true) (hv : y.1.valS3 = true)
    (hstaled : y.1.reqStaled .noc3 = false) :
    ∃ left : Bool,
      (forwardsNext g y i).passes g.s3 - inS2 (y.1.step i) (forwardsNext g y i) g.s3 -
          inS3 (y.1.step i) (forwardsNext g y i) g.s3 =
        g.passes g.s3 - inS2 y.1 g g.s3 - inS3 y.1 g g.s3 + left.toNat ∧
      finalTaken y.1 g i g.s3 =
        if left = true ∧ (g.log g.s3).lastPass = g.passes g.s3 - inS2 y.1 g g.s3 - inS3 y.1 g g.s3
        then 1 else 0 := by
  obtain ⟨hone, hlt, hfinal⟩ := hF.isFinal_iff hn hf hv hstaled
  rw [passes_sub_step g y i hn, inS3_step]
  have htaken : finalTaken y.1 g i g.s3 =
      if y.1.takes i .noc3 = true ∧ y.1.s3.ops.noc3Operation.isFinal = true then 1 else 0 := by
    unfold finalTaken
    cases y.1.takes i .noc3 <;> cases y.1.s3.ops.noc3Operation.isFinal <;> simp
  cases hst : y.1.stallS3 i with
  | false =>
    refine ⟨true, ?_, ?_⟩
    · rw [if_neg Bool.false_ne_true, if_neg Bool.false_ne_true, hone, Bool.toNat_true]
      omega
    · rw [htaken]
      refine if_congr ?_ rfl rfl
      constructor
      · exact fun hx => ⟨rfl, hfinal.1 hx.2⟩
      · rintro ⟨-, hx⟩
        refine ⟨?_, hfinal.2 hx⟩
        exact (done_of_leaves hst hv (owes_of_isFinal (hfinal.2 hx))).resolve_left
          (by rw [hstaled]; exact Bool.false_ne_true)
  | true =>
    refine ⟨(y.1.step i).reqStaled .noc3, ?_, ?_⟩
    · rw [if_pos rfl, if_pos rfl, hone, hv]
      cases (y.1.step i).reqStaled .noc3 with
      | false => simp
      | true =>
        simp only [Bool.not_true, Bool.and_false, Bool.toNat_false, Bool.toNat_true]
        omega
    · rw [htaken]
      refine if_congr ?_ rfl rfl
      constructor
      · rintro ⟨ht, hx⟩
        refine ⟨?_, hfinal.1 hx⟩
        rw [reqStaled_step hst (owes_of_isFinal hx), ht, Bool.or_true]
      · rintro ⟨hnew, hx⟩
        have hx' := hfinal.2 hx
        rw [reqStaled_step hst (owes_of_isFinal hx'), hstaled, Bool.false_or] at hnew
        exact ⟨hnew, hx'⟩

/-- NoC3 serves what the instruction in S3 owes: one sub-operation more is done, and the final
acknowledgement is taken with that of the vector's last sub-line. -/
theorem ForwardInv.finalTaken_eq (hF : ForwardInv (y, g)) {n : Nat} (hn : 0 < n)
    (hf : (g.log n).isForward = true) :
    ∃ left : Bool,
      (forwardsNext g y i).passes n - inS2 (y.1.step i) (forwardsNext g y i) n -
          inS3 (y.1.step i) (forwardsNext g y i) n =
        g.passes n - inS2 y.1 g n - inS3 y.1 g n + left.toNat ∧
      finalTaken y.1 g i n =
        if left = true ∧ (g.log n).lastPass = g.passes n - inS2 y.1 g n - inS3 y.1 g n
        then 1 else 0 := by
  cases hb : (y.1.valS3 && decide (g.s3 = n) && !y.1.reqStaled .noc3) with
  | false =>
    obtain ⟨hzero, hno, hstays⟩ := finalTaken_none (i := i) hb
    rw [passes_sub_step g y i hn, inS3_step]
    refine ⟨false, ?_, by rw [hno]; simp⟩
    rw [hzero]
    cases hst : y.1.stallS3 i with
    | false =>
      rw [if_neg Bool.false_ne_true, if_neg Bool.false_ne_true]
      rfl
    | true =>
      rw [if_pos rfl, if_pos rfl, hstays hst]
      rfl
  | true =>
    simp only [Bool.and_eq_true, decide_eq_true_eq, Bool.not_eq_true'] at hb
    obtain ⟨⟨hv, rfl⟩, hstaled⟩ := hb
    exact hF.finalTaken_held hn hf hv hstaled

theorem finals_step (g : Forwards) (y : State × Traffic) (i : Inputs) (n : Nat) :
    (forwardsNext g y i).finals n = g.finals n + finalTaken y.1 g i n := rfl

theorem ForwardInv.step_finals (hF : ForwardInv (y, g)) {n : Nat} (hn : 0 < n)
    (hf : ((forwardsNext g y i).log n).isForward = true) (hle : n ≤ g.current) :
    (forwardsNext g y i).finals n =
      if ((forwardsNext g y i).log n).lastPass <
          (forwardsNext g y i).passes n - inS2 (y.1.step i) (forwardsNext g y i) n -
            inS3 (y.1.step i) (forwardsNext g y i) n
      then 1 else 0 := by
  rw [log_of_le hle] at hf ⊢
  obtain ⟨left, hsent, htaken⟩ := hF.finalTaken_eq (i := i) hn hf
  have hold := hF.finals n hn hle hf
  change g.finals n = if (g.log n).lastPass < g.passes n - inS2 y.1 g n - inS3 y.1 g n
    then 1 else 0 at hold
  rw [finals_step, hsent, htaken, hold]
  generalize g.passes n - inS2 y.1 g n - inS3 y.1 g n = sent
  cases left <;> simp only [Bool.toNat_true, Bool.toNat_false, true_and, false_and, if_false,
    Bool.false_eq_true] <;> (repeat' split) <;> omega

theorem ForwardInv.step_late (hF : ForwardInv (y, g)) {n : Nat} (hn : 0 < n) (hle : n ≤ g.current)
    (hf : ((forwardsNext g y i).log n).isForward = true) : (forwardsNext g y i).late n = false := by
  rw [log_of_le hle] at hf
  have hlate := hF.late n hn hf
  change g.late n = false at hlate
  show (g.late n || (y.1.takes i .noc3 && decide (g.s3 = n) && decide (g.finals n ≠ 0))) = false
  rw [hlate, Bool.false_or]
  by_contra hx
  simp only [Bool.not_eq_false, Bool.and_eq_true, decide_eq_true_eq] at hx
  obtain ⟨⟨ht, hs3⟩, hfin⟩ := hx
  subst hs3
  obtain ⟨hv, howes, hstaled⟩ := valS3_of_takes ht
  obtain ⟨hlt, hpass⟩ := hF.passS3 hv hn hf
  change inS2 y.1 g g.s3 < g.passes g.s3 at hlt
  change y.1.s3.IsPass (g.log g.s3) (g.passes g.s3 - 1 - inS2 y.1 g g.s3) at hpass
  have hone : inS3 y.1 g g.s3 = 1 := by
    unfold inS3
    rw [hv, hstaled]
    simp
  have hold := hF.finals g.s3 hn hle hf
  change g.finals g.s3 = if (g.log g.s3).lastPass <
    g.passes g.s3 - inS2 y.1 g g.s3 - inS3 y.1 g g.s3 then 1 else 0 at hold
  have hafter : (g.log g.s3).lastPass < g.passes g.s3 - inS2 y.1 g g.s3 - inS3 y.1 g g.s3 := by
    by_contra hno
    rw [if_neg hno] at hold
    exact hfin hold
  rw [hF.not_owes hv hpass (by omega)] at howes
  exact absurd howes Bool.false_ne_true

theorem ForwardInv.step (hF : ForwardInv (y, g)) (h : Inv y) (hok : ForwardOk y i) :
    ForwardInv (forwardSystem.step (y, g) i) where
  idleNew := idleNew_step hF.idleNew i
  registered := hF.step_registered
  vectorOk _ hn hle hf := hF.step_vectorOk hok hn hle hf
  icacheHeld hfs := by
    obtain ⟨hv, hack⟩ := hF.icache_kept h hfs
    exact (noc2_step hv hack).1
  passNew := hF.step_passNew h
  passOf := hF.step_passOf h hok
  passKind := hF.step_passKind h
  expanded _ hn hle hf hgone := hF.step_expanded h hn hle hf hgone
  fresh n hn := hF.step_fresh (lt_of_le_of_lt (current_le g y i) hn)
  taken _ hn hle := hF.step_taken h hn hle
  numberS2 := hF.step_numberS2
  numberS3 := hF.step_numberS3
  passS2 := hF.step_passS2 h
  passS3 := hF.step_passS3
  coveredS3 := hF.step_coveredS3 hok
  finals n hn _ hf := by
    by_cases hlt : n ≤ g.current
    · exact hF.step_finals hn hf hlt
    · obtain ⟨hp, -, hfin, -⟩ := hF.step_fresh (i := i) (n := n) (by omega)
      show (forwardsNext g y i).finals n = if ((forwardsNext g y i).log n).lastPass <
        (forwardsNext g y i).passes n - inS2 (y.1.step i) (forwardsNext g y i) n -
          inS3 (y.1.step i) (forwardsNext g y i) n then 1 else 0
      rw [hfin, hp, Nat.zero_sub, Nat.zero_sub, if_neg (Nat.not_lt_zero _)]
  late n hn hf := by
    by_cases hlt : n ≤ g.current
    · exact hF.step_late hn hlt hf
    · exact (hF.step_fresh (i := i) (n := n) (by omega)).2.2.2

theorem reachable_forwardInv {z : (State × Traffic) × Forwards}
    (hz : forwardSystem.Reachable (fun z i => ForwardOk z.1 i) z) : Inv z.1 ∧ ForwardInv z := by
  induction hz with
  | init hinit => exact ⟨init_inv hinit.1, forwardInv_init hinit⟩
  | step _ hok ih => exact ⟨ih.1.step (ih.2.inputOk ih.1 hok), ih.2.step ih.1 hok⟩

/-- In every run without a forward to the low half of an instruction cache line alone, every forward
is expanded from the buffer, taken away once and acknowledged once on NoC3. -/
theorem forwardsOnce {z : (State × Traffic) × Forwards}
    (hz : forwardSystem.Reachable (fun z i => ForwardOk z.1 i) z) (i : Inputs) :
    ForwardsOnce z i := by
  obtain ⟨y, g⟩ := z
  obtain ⟨h, hF⟩ := reachable_forwardInv hz
  change Inv y at h
  have hpass : y.1.noc2Val = true → y.1.issuesNoc2 i = true →
      g.passes g.current = y.1.fetchState.pass := fun _ hi => (hF.held h hi).2.1
  refine ⟨fun hi => ?_, fun hack => hF.noc2Val_of_ack h hack, fun hv hf => ?_,
    fun n hn hle hf htaken => ?_, fun n hn hle => hF.taken n hn hle, fun n hn hle hf => ?_⟩
  · obtain ⟨hv, hp, -⟩ := hF.held h hi
    obtain ⟨hpos, hlog⟩ := hF.registered hv
    exact ⟨hv, hpos, hlog.symm, hp⟩
  · rw [show (((y, g) : (State × Traffic) × Forwards).1.1.noc2Ack i = true) = _ from
      propext (hF.noc2Ack_forward h hv hf)]
    constructor
    · rintro ⟨hi, hlast⟩
      exact ⟨hi, by rw [← hlast, ← hpass hv hi]⟩
    · rintro ⟨hi, hlast⟩
      exact ⟨hi, by rw [← hlast, ← hpass hv hi]⟩
  · refine hF.expanded n hn hle hf fun hc => ?_
    have hzero := hF.taken n hn hle
    rw [if_pos hc, htaken] at hzero
    exact absurd hzero Nat.one_ne_zero
  · have hfin := hF.finals n hn hle hf
    refine ⟨?_, hF.late n hn hf, fun htaken hout => ?_⟩
    · rw [hfin]
      split
      · exact le_rfl
      · exact Nat.zero_le 1
    · have hall : g.passes n = (g.log n).subOperations := by
        refine hF.expanded n hn hle hf fun hc => ?_
        have hzero := hF.taken n hn hle
        rw [if_pos hc, htaken] at hzero
        exact absurd hzero Nat.one_ne_zero
      unfold inStages at hout
      rw [Bool.or_eq_false_iff] at hout
      have h2 : inS2 y.1 g n = 0 := by
        unfold inS2
        rw [hout.1]
        rfl
      have h3 : inS3 y.1 g n = 0 := by
        unfold inS3
        rw [hout.2]
        rfl
      change g.finals n = if (g.log n).lastPass < g.passes n - inS2 y.1 g n - inS3 y.1 g n
        then 1 else 0 at hfin
      rw [h2, h3, hall, Nat.sub_zero, Nat.sub_zero, if_pos (lastPass_lt _)] at hfin
      exact hfin

/-! ### Runs -/

/-- What runs start from: the reset state without messages. -/
theorem forwardSystem_init : forwardSystem.init ((State.reset, Traffic.empty), Forwards.zero) :=
  ⟨⟨State.reset_isReset, rfl⟩, rfl⟩

/-- A forward of a message type to the line filled in `forwardsRun`. -/
def Inputs.forward (t : Noc2Msgtype) (icache : Bool) (v : BitVec 4) : Inputs :=
  ofNoc2 { Noc2Message.zero with
    reqtype := t, icacheType := icache, fwdSubcachelineVector := v, address := 0x12345000 }

/-- A line is filled in state M. While the encoder of NoC3 takes nothing for some cycles a downgrade of
all four sub-lines arrives, and later an invalidation of the upper half of an instruction cache line. -/
def forwardsRun : List Inputs :=
  [Inputs.load 0 0x12345000] ++ List.replicate 4 Inputs.quiet ++ [Inputs.dataAck .ld 0 .M 5] ++
    List.replicate 4 Inputs.quiet ++
    ([Inputs.forward .loadFwd false 15] ++ List.replicate 5 Inputs.quiet).map
      (fun i => { i with noc3encoderAck := false }) ++
    List.replicate 6 Inputs.quiet ++ [Inputs.forward .invFwd true 12] ++
    List.replicate 6 Inputs.quiet

/-- The end of `forwardsRun`. -/
def forwarded : (State × Traffic) × Forwards :=
  forwardSystem.run ((State.reset, Traffic.empty), Forwards.zero) forwardsRun

set_option maxRecDepth 20000 in

/-- All sub-operations of both forwards have left the pipeline, and each was acknowledged once. -/
theorem forwardsOnce_forwarded :
    (forwarded.2.current = 3 ∧ forwarded.2.passes 2 = 4 ∧ forwarded.2.finals 2 = 1 ∧
        forwarded.2.passes 3 = 2 ∧ forwarded.2.finals 3 = 1) ∧
      ForwardsOnce forwarded Inputs.quiet :=
  ⟨by decide +kernel,
    forwardsOnce (Machine.Reachable.run (.init forwardSystem_init) (by decide +kernel)) _⟩

/-- The second pass of a forward to the low half of an instruction cache line waits in S1 while the
next message, the answer to a fill, has taken the place of the forward. -/
def overtaken : (State × Traffic) × Forwards :=
  forwardSystem.run ((State.reset, Traffic.empty), Forwards.zero) (staleAnswerRun.take 19)

set_option maxRecDepth 20000 in
theorem overtaken_reachable :
    forwardSystem.Reachable (fun z i => ForwardLegal z.1 i) overtaken :=
  Machine.Reachable.run (.init forwardSystem_init) (by decide +kernel)

theorem overtaken_issues :
    overtaken.1.1.issuesNoc2 Inputs.quiet = true ∧ overtaken.1.1.fetchState = .icacheInval2 ∧
      overtaken.1.1.noc2.reqtype = .dataAck ∧ overtaken.2.passes overtaken.2.current = 0 := by
  decide +kernel

theorem not_forwardsOnce :
    ¬ ∀ z, forwardSystem.Reachable (fun z i => ForwardLegal z.1 i) z →
      ∀ i, ForwardsOnce z i := by
  intro h
  obtain ⟨hi, hfs, -, hp⟩ := overtaken_issues
  have hheld := ((h _ overtaken_reachable Inputs.quiet).held hi).2.2.2
  rw [hp, hfs] at hheld
  exact absurd hheld (by decide)

end Piton.L15
