import Mathlib.Data.Fintype.Basic
import Piton.L15.Decoder

/-! Facts about the rows of the decoder. Each is checked on every row. -/

namespace Piton.L15

instance : Fintype Reqtype where
  elems := ⟨([.none, .ignore, .ifill, .store, .cas, .swpLoadstub, .invalidation, .downgrade,
    .ackdtLdNc, .ackdtIfill, .ackdtLd, .ackdtStIm, .ackdtStSm, .ackWritethrough, .ackAtomic,
    .loadNc, .loadPrefetch, .writethrough, .icacheInvalidation, .pcxInterrupt, .l2Interrupt,
    .load, .writeConfigReg, .loadConfigReg, .diagLoad, .diagStore, .lineFlush, .hmcFill,
    .hmcDiagLoad, .hmcDiagStore, .hmcFlush, .ackPrefetch, .icacheSelfInvalidation,
    .dcacheSelfInvalidation] : List Reqtype), by decide⟩
  complete rt := by cases rt <;> decide

instance : Fintype FetchState where
  elems := ⟨([.normal, .pcxWritebackDone, .inval2, .inval3, .inval4, .noc2WritebackDone,
    .icacheInval2] : List FetchState), by decide⟩
  complete fs := by cases fs <;> decide

/-- The NoC1 operation sends, if its condition holds, a request that waits for a response. -/
def Noc1Op.expects : Noc1Op → Bool
  | .genDataLdRequest | .genDataLdRequestIfTagcheckMiss | .genInstructionLdRequest
  | .genDataStUpgradeIfTagcheckSElseStFillIfTagcheckI | .genDataWritethroughRequestFromPcx
  | .genDataCasRequestFromPcx | .genDataSwapRequestFromPcx => true
  | .none | .genWritebackGuardIfLruM | .genWritebackGuardIfTagcheckM | .genInterruptFwd
  | .genWritebackGuardIfFlushM => false

/-- The request waits for a response. -/
def Noc1Reqtype.expects : Noc1Reqtype → Bool
  | .ldRequest | .ifillRequest | .writethroughRequest | .stUpgradeRequest | .stFillRequest
  | .casRequest | .swapRequest => true
  | .none | .writebackGuard | .interruptFwd => false

/-- The acknowledgement takes two cycles in `l15_cpxencoder`. -/
def CpxOp.twoCycles : CpxOp → Bool
  | .genIfillResponseFromNoc2 | .genAtomicAckFromNoc2 => true
  | _ => false

/-- The request types of PCX packets that take two passes, but for line flushes. -/
def Reqtype.twoPasses : Reqtype → Bool
  | .loadNc | .writethrough | .cas | .swpLoadstub => true
  | _ => false

/-- The request types that PCX packets have. -/
def Reqtype.fromPcx : Reqtype → Bool
  | .ignore | .ifill | .store | .cas | .swpLoadstub | .loadNc | .loadPrefetch | .writethrough
  | .pcxInterrupt | .load | .writeConfigReg | .loadConfigReg | .diagLoad | .diagStore
  | .lineFlush | .hmcDiagLoad | .hmcDiagStore | .hmcFlush | .icacheSelfInvalidation
  | .dcacheSelfInvalidation => true
  | _ => false

/-- The request types that NoC2 messages have. -/
def Reqtype.fromNoc2 : Reqtype → Bool
  | .ignore | .invalidation | .downgrade | .ackdtLdNc | .ackdtIfill | .ackdtLd | .ackdtStIm
  | .ackdtStSm | .ackWritethrough | .ackAtomic | .icacheInvalidation | .l2Interrupt | .hmcFill
  | .ackPrefetch => true
  | _ => false

/-- A fetch state that follows a pass of a NoC2 message. -/
def FetchState.noc2Pass : FetchState → Bool
  | .inval2 | .inval3 | .inval4 | .noc2WritebackDone | .icacheInval2 => true
  | .normal | .pcxWritebackDone => false

/-- The request types whose first pass evicts a line. -/
def Reqtype.isFill : Reqtype → Bool
  | .ackdtLd | .ackdtStIm => true
  | _ => false

/-- The request types of the answers that free an MSHR. -/
def Reqtype.isAck : Reqtype → Bool
  | .ackdtLdNc | .ackdtIfill | .ackdtLd | .ackdtStIm | .ackdtStSm | .ackWritethrough
  | .ackAtomic => true
  | _ => false

/-- The MSHR that the second pass of a PCX request allocates. -/
def Reqtype.passMshrId : Reqtype → MshrId
  | .writethrough => .st
  | _ => .ld

/-- The control signals are a row of the decoder for the request type. -/
def Decodes (rt : Reqtype) (d : Decoded) : Prop :=
  ∃ fs intVecDis hitStbuf isLastInval interruptBroadcast,
    d = decoder rt fs intVecDis hitStbuf isLastInval interruptBroadcast

/-- What holds of every row holds of decoded signals. -/
theorem Decodes.of_rows {P : Reqtype → Decoded → Prop} {rt : Reqtype} {d : Decoded}
    (h : Decodes rt d)
    (hP : ∀ rt fs a b c e, P rt (decoder rt fs a b c e)) : P rt d := by
  obtain ⟨fs, a, b, c, e, rfl⟩ := h
  exact hP rt fs a b c e

/-- The kind of MSHR that a request's answer names. -/
def Noc1Op.mshrId : Noc1Op → MshrId
  | .genDataLdRequest | .genDataLdRequestIfTagcheckMiss | .genDataCasRequestFromPcx
  | .genDataSwapRequestFromPcx => .ld
  | .genInstructionLdRequest => .ifill
  | .genDataStUpgradeIfTagcheckSElseStFillIfTagcheckI | .genDataWritethroughRequestFromPcx => .st
  | .none | .genWritebackGuardIfLruM | .genWritebackGuardIfTagcheckM | .genInterruptFwd
  | .genWritebackGuardIfFlushM => .none

/-- The requests of cacheable loads and stores, which hold back a credit for their fills. -/
def Noc1Op.cacheable : Noc1Op → Bool
  | .genDataLdRequestIfTagcheckMiss | .genDataStUpgradeIfTagcheckSElseStFillIfTagcheckI => true
  | _ => false

/-- The command credits that an instruction with the operation holds. -/
def Noc1Op.credits : Noc1Op → Nat
  | .none => 0
  | _ => 1

/-- The data credits that an instruction with the operation holds. -/
def Noc1Op.words : Noc1Op → Nat
  | .genDataCasRequestFromPcx => 2
  | .genDataSwapRequestFromPcx | .genInterruptFwd | .genDataWritethroughRequestFromPcx => 1
  | _ => 0

/-- The command credits held for the second pass of a PCX request. A line flush takes its credit in
the second pass. -/
def Reqtype.passCredits : Reqtype → Nat
  | .lineFlush => 0
  | _ => 1

/-- The data credits held for the second pass of a PCX request. -/
def Reqtype.passWords : Reqtype → Nat
  | .cas => 2
  | .swpLoadstub | .writethrough => 1
  | _ => 0

/-- The data credits that a request takes in S1. -/
def Decoded.wordsNeeded (d : Decoded) : Nat :=
  if d.creditmanReq8B then 1 else if d.creditmanReq16B then 2 else 0

section Rows

variable {rt : Reqtype} {d : Decoded}

/-- A request that waits for a response is made by a single instruction that cannot stall in S3;
its operation tells its request type. -/
structure RequestRow (rt : Reqtype) (d : Decoded) : Prop where
  expects : d.noc1Operation.expects = true
  mshrId : d.noc1Operation.mshrId = d.mshrAllocationType
  noc3 : d.noc3Operation = .none
  cpx : d.cpxOperation.twoCycles = false
  noc2Ack : d.noc2AckStage = .never
  s3Mshr : d.s3MshrOperation ≠ .deallocation

/-- The instructions that allocate an MSHR are those that make its request. -/
theorem Decodes.allocate_iff (h : Decodes rt d) :
    d.s1MshrOperation = .allocate ↔ d.noc1Operation.expects = true :=
  h.of_rows (P := fun _ d => d.s1MshrOperation = .allocate ↔ d.noc1Operation.expects = true)
    (by decide +kernel)

theorem Decodes.requestRow (h : Decodes rt d) (he : d.noc1Operation.expects = true) :
    RequestRow rt d := by
  have hrow := h.of_rows (P := fun _ d => d.noc1Operation.expects = true →
    d.noc1Operation.mshrId = d.mshrAllocationType ∧ d.noc3Operation = .none ∧
      d.cpxOperation.twoCycles = false ∧ d.noc2AckStage = .never ∧
      d.s3MshrOperation ≠ .deallocation) (by decide +kernel) he
  obtain ⟨hid, hn3, hcpx, hack, hmshr⟩ := hrow
  exact ⟨he, hid, hn3, hcpx, hack, hmshr⟩

/-- The requests of data entries. -/
structure DataRequestRow (rt : Reqtype) (d : Decoded) : Prop where
  ld : d.noc1Operation.mshrId = .ld →
    (d.noc1Operation.cacheable = true ∧ rt = .load) ∨
      (d.noc1Operation.cacheable = false ∧ (rt = .loadNc ∨ rt = .cas ∨ rt = .swpLoadstub))
  st : d.noc1Operation.mshrId = .st →
    (d.noc1Operation.cacheable = true ∧ rt = .store) ∨
      (d.noc1Operation.cacheable = false ∧ rt = .writethrough)

theorem Decodes.dataRequestRow (h : Decodes rt d) (he : d.noc1Operation.expects = true) :
    DataRequestRow rt d := by
  refine ⟨?_, ?_⟩
  · exact h.of_rows (P := fun rt d => d.noc1Operation.expects = true →
      d.noc1Operation.mshrId = .ld → (d.noc1Operation.cacheable = true ∧ rt = .load) ∨
        (d.noc1Operation.cacheable = false ∧ (rt = .loadNc ∨ rt = .cas ∨ rt = .swpLoadstub)))
      (by decide +kernel) he
  · exact h.of_rows (P := fun rt d => d.noc1Operation.expects = true →
      d.noc1Operation.mshrId = .st → (d.noc1Operation.cacheable = true ∧ rt = .store) ∨
        (d.noc1Operation.cacheable = false ∧ rt = .writethrough))
      (by decide +kernel) he

/-- The request of an instruction fill entry. -/
theorem Decodes.ifillReqtype (h : Decodes rt d) (he : d.noc1Operation.expects = true)
    (hid : d.noc1Operation.mshrId = .ifill) : rt = .ifill :=
  h.of_rows (P := fun rt d => d.noc1Operation.expects = true →
    d.noc1Operation.mshrId = .ifill → rt = .ifill) (by decide +kernel) he hid

/-- A completion sends nothing on NoC1 and NoC3; the acknowledgements that take two cycles are
completions. -/
theorem Decodes.completionRow (h : Decodes rt d) :
    (d.s3MshrOperation = .deallocation → d.noc1Operation = .none ∧ d.noc3Operation = .none ∧
      d.pcxAckStage = .never ∧ rt.fromNoc2 = true) ∧
    (d.cpxOperation.twoCycles = true → d.s3MshrOperation = .deallocation) :=
  h.of_rows (P := fun rt d =>
    (d.s3MshrOperation = .deallocation → d.noc1Operation = .none ∧ d.noc3Operation = .none ∧
      d.pcxAckStage = .never ∧ rt.fromNoc2 = true) ∧
    (d.cpxOperation.twoCycles = true → d.s3MshrOperation = .deallocation)) (by decide +kernel)

/-- The rows of NoC2 messages allocate and merge nothing and leave the PCX packet alone; the rows of
PCX packets free no entry by a completion, write no tag and leave the NoC2 message alone. -/
structure SourceRow (rt : Reqtype) (d : Decoded) : Prop where
  noc2 : rt.fromPcx = false → d.s1MshrOperation = .none ∧ d.pcxAckStage = .never
  pcx : rt.fromPcx = true ∨ rt = .none →
    d.noc2AckStage = .never ∧ d.s3MshrOperation ≠ .deallocation ∧ d.dtagOperation ≠ .write

theorem Decodes.sourceRow (h : Decodes rt d) : SourceRow rt d := by
  obtain ⟨hnoc2, hpcx⟩ := h.of_rows (P := fun rt d =>
    (rt.fromPcx = false → d.s1MshrOperation = .none ∧ d.pcxAckStage = .never) ∧
      (rt.fromPcx = true ∨ rt = .none →
        d.noc2AckStage = .never ∧ d.s3MshrOperation ≠ .deallocation ∧ d.dtagOperation ≠ .write))
    (by decide +kernel)
  exact ⟨hnoc2, hpcx⟩

/-- The S3 operations that write the state of a store entry, or free an entry on a hit, belong to
requests. -/
theorem Decodes.s3MshrRow (h : Decodes rt d) :
    (d.s3MshrOperation = .deallocationIfTagcheckMes ↔
      d.noc1Operation = .genDataLdRequestIfTagcheckMiss) ∧
    (d.s3MshrOperation = .deallocationIfTagcheckMEElseUpdateStateStmshr ↔
      d.noc1Operation = .genDataStUpgradeIfTagcheckSElseStFillIfTagcheckI) ∧
    (d.s3MshrOperation = .updateStMshrWaitAck ↔
      d.noc1Operation = .genDataWritethroughRequestFromPcx) :=
  h.of_rows (P := fun _ d => (d.s3MshrOperation = .deallocationIfTagcheckMes ↔
      d.noc1Operation = .genDataLdRequestIfTagcheckMiss) ∧
    (d.s3MshrOperation = .deallocationIfTagcheckMEElseUpdateStateStmshr ↔
      d.noc1Operation = .genDataStUpgradeIfTagcheckSElseStFillIfTagcheckI) ∧
    (d.s3MshrOperation = .updateStMshrWaitAck ↔
      d.noc1Operation = .genDataWritethroughRequestFromPcx)) (by decide +kernel)

/-- The NoC3 operation with the same condition as a NoC1 operation. -/
def Noc1Op.noc3 : Noc1Op → Noc3Op
  | .genWritebackGuardIfLruM => .genWritebackIfLruMFromDcache
  | .genWritebackGuardIfFlushM => .genWritebackIfFlushMFromDcache
  | .genWritebackGuardIfTagcheckM => .genWritebackIfTagcheckMFromDcache
  | _ => .none

/-- The write-back guards go with their write-backs; the other requests send nothing on NoC3. -/
theorem Decodes.guardRow (h : Decodes rt d) (hop : d.noc1Operation ≠ .none) :
    d.noc3Operation = d.noc1Operation.noc3 :=
  h.of_rows (P := fun _ d => d.noc1Operation ≠ .none → d.noc3Operation = d.noc1Operation.noc3)
    (by decide +kernel) hop

end Rows

/-! ### Passes -/

section Passes

variable {rt : Reqtype} {a b c e : Bool}

/-- The first pass of a request with signals `d`: it leaves its message in the buffer, but for the
single pass of an instruction cache invalidation, and waits for the MSHR that it or the second pass
allocates. -/
structure FirstPassRow (rt : Reqtype) (a c : Bool) (d : Decoded) : Prop where
  pcx : fetchStateNext .normal rt a false = .pcxWritebackDone →
    d.pcxAckStage = .never ∧ (rt = .lineFlush ∨
      (rt.twoPasses = true ∧ (rt = .writethrough → a = false)))
  noc2 : (fetchStateNext .normal rt a false).noc2Pass = true →
    d.noc2AckStage = .never ∨ (fetchStateNext .normal rt a false = .icacheInval2 ∧
      d.noc2AckStage = .s1 ∧ c = true)
  allocates : d.s1MshrOperation = .allocate → d.stallOnMshrAllocation = true
  reserves : rt.twoPasses = true → (rt = .writethrough → a = false) →
    d.stallOnMshrAllocation = true ∧ d.mshrAllocationType = rt.passMshrId ∧
      d.s1MshrOperation = .none

theorem firstPassRow (rt : Reqtype) (a b c e : Bool) :
    FirstPassRow rt a c (decoder rt .normal a b c e) := by
  have hack : ∀ rt a b c e,
      (fetchStateNext .normal rt a false = .pcxWritebackDone →
        (decoder rt .normal a b c e).pcxAckStage = .never ∧ (rt = .lineFlush ∨
          (rt.twoPasses = true ∧ (rt = .writethrough → a = false)))) ∧
      ((fetchStateNext .normal rt a false).noc2Pass = true →
        (decoder rt .normal a b c e).noc2AckStage = .never ∨
          (fetchStateNext .normal rt a false = .icacheInval2 ∧
            (decoder rt .normal a b c e).noc2AckStage = .s1 ∧ c = true)) := by
    decide +kernel
  have hmshr : ∀ rt a b c e,
      ((decoder rt .normal a b c e).s1MshrOperation = .allocate →
        (decoder rt .normal a b c e).stallOnMshrAllocation = true) ∧
      (rt.twoPasses = true → (rt = .writethrough → a = false) →
        (decoder rt .normal a b c e).stallOnMshrAllocation = true ∧
          (decoder rt .normal a b c e).mshrAllocationType = rt.passMshrId ∧
          (decoder rt .normal a b c e).s1MshrOperation = .none) := by
    decide +kernel
  exact ⟨(hack rt a b c e).1, (hack rt a b c e).2, (hmshr rt a b c e).1, (hmshr rt a b c e).2⟩

/-- A NoC2 message is never followed by the second pass of a PCX request. -/
theorem fetchStateNext_of_fromPcx {fs : FetchState} (hrt : rt.fromPcx = false)
    (hfs : fs ≠ .pcxWritebackDone) :
    fetchStateNext fs rt a false ≠ .pcxWritebackDone := by
  cases fs with
  | pcxWritebackDone => exact absurd rfl hfs
  | normal =>
    cases rt <;>
      first
      | exact FetchState.noConfusion
      | exact absurd hrt.symm Bool.false_ne_true
  | inval2 | inval3 | inval4 | noc2WritebackDone | icacheInval2 => exact FetchState.noConfusion

/-- A PCX request is never followed by a pass of a NoC2 message. -/
theorem fetchStateNext_pcx {fs : FetchState} (hrt : rt.fromPcx = true ∨ rt = .none)
    (hfs : fs = .normal ∨ fs = .pcxWritebackDone) :
    (fetchStateNext fs rt a false).noc2Pass = false := by
  rcases hfs with rfl | rfl
  · cases rt <;>
      first
      | rfl
      | (cases a <;> rfl)
      | exact absurd hrt (by decide)
  · rfl

/-- The passes of an invalidation or a downgrade take the message away in the last one. -/
theorem forwardPass_noc2AckStage {fs : FetchState}
    (hrt : rt = .invalidation ∨ rt = .downgrade) :
    (decoder rt fs a b c e).noc2AckStage = if fs = .inval4 then .s1 else .never := by
  rcases hrt with rfl | rfl <;> cases fs <;> rfl

/-- The second pass of a fill takes the message away in S3. -/
theorem fillPass_noc2AckStage (hrt : rt.isFill = true) :
    (decoder rt .noc2WritebackDone a b c e).noc2AckStage = .s3 := by
  cases rt <;> first | rfl | exact absurd hrt Bool.false_ne_true

/-- An instruction cache invalidation takes the message away in the pass that is its last. -/
theorem icachePass_noc2AckStage {fs : FetchState} :
    (decoder .icacheInvalidation fs a b c e).noc2AckStage = if c then .s1 else .never := rfl

/-- The second pass of a PCX request allocates the MSHR its first pass waited for; a line flush
allocates none. -/
theorem secondPass_allocates
    (h : (decoder rt .pcxWritebackDone a b c e).s1MshrOperation = .allocate) :
    rt ≠ .lineFlush ∧ (rt.twoPasses = true →
      (decoder rt .pcxWritebackDone a b c e).mshrAllocationType = rt.passMshrId) := by
  revert h
  revert rt a b c e
  decide +kernel

/-- An answer frees its MSHR in its only pass or, for a fill, in the second one. -/
theorem completion_pass {fs : FetchState}
    (h : (decoder rt fs a b c e).s3MshrOperation = .deallocation) :
    rt.isAck = true ∧ (fs = .normal → rt.isFill = false) := by
  revert h
  revert rt fs a b c e
  decide +kernel

/-- Exactly the first pass of a fill is followed by the second one. -/
theorem fetchStateNext_fill :
    fetchStateNext .normal rt a false = .noc2WritebackDone ↔ rt.isFill = true := by
  cases rt <;> cases a <;> decide

/-! ### Credits -/

/-- The credits of a first pass: it takes those of the second one too. -/
structure FirstPassCredits (rt : Reqtype) (next : FetchState) (d : Decoded) : Prop where
  needed : d.creditmanNoc1Needed =
    d.noc1Operation.credits + (if next = .pcxWritebackDone then rt.passCredits else 0)
  words : d.wordsNeeded =
    d.noc1Operation.words + (if next = .pcxWritebackDone then rt.passWords else 0)

theorem firstPass_credits (rt : Reqtype) (a b c e : Bool) :
    FirstPassCredits rt (fetchStateNext .normal rt a false) (decoder rt .normal a b c e) := by
  have hneeded : ∀ rt a b c e, (decoder rt .normal a b c e).creditmanNoc1Needed =
      (decoder rt .normal a b c e).noc1Operation.credits +
        (if fetchStateNext .normal rt a false = .pcxWritebackDone then rt.passCredits else 0) := by
    decide +kernel
  have hwords : ∀ rt a b c e, (decoder rt .normal a b c e).wordsNeeded =
      (decoder rt .normal a b c e).noc1Operation.words +
        (if fetchStateNext .normal rt a false = .pcxWritebackDone then rt.passWords else 0) := by
    decide +kernel
  exact ⟨hneeded rt a b c e, hwords rt a b c e⟩

/-- The credits of the second pass of a PCX request: it holds those taken in the first one, and that
of a line flush takes one. -/
structure SecondPassCredits (rt : Reqtype) (d : Decoded) : Prop where
  needed : d.noc1Operation.credits = rt.passCredits + d.creditmanNoc1Needed
  words : d.noc1Operation.words = rt.passWords
  noWords : d.wordsNeeded = 0
  none : rt ≠ .lineFlush → d.creditmanNoc1Needed = 0

theorem secondPass_credits
    (hrt : rt = .lineFlush ∨ (rt.twoPasses = true ∧ (rt = .writethrough → a = false))) :
    SecondPassCredits rt (decoder rt .pcxWritebackDone a b c e) := by
  have hrow : ∀ rt a b c e,
      (rt = .lineFlush ∨ (rt.twoPasses = true ∧ (rt = .writethrough → a = false))) →
      (decoder rt .pcxWritebackDone a b c e).noc1Operation.credits =
        rt.passCredits + (decoder rt .pcxWritebackDone a b c e).creditmanNoc1Needed ∧
      (decoder rt .pcxWritebackDone a b c e).noc1Operation.words = rt.passWords ∧
      (decoder rt .pcxWritebackDone a b c e).wordsNeeded = 0 ∧
      (rt ≠ .lineFlush → (decoder rt .pcxWritebackDone a b c e).creditmanNoc1Needed = 0) := by
    decide +kernel
  obtain ⟨hneeded, hwords, hno, hnone⟩ := hrow rt a b c e hrt
  exact ⟨hneeded, hwords, hno, hnone⟩

/-- The later passes of NoC2 messages need no credits. -/
theorem noc2Pass_credits {fs : FetchState} (hrt : rt.fromPcx = false) (hfs : fs ≠ .normal) :
    (decoder rt fs a b c e).noc1Operation = .none ∧
      (decoder rt fs a b c e).creditmanNoc1Needed = 0 ∧
      (decoder rt fs a b c e).wordsNeeded = 0 := by
  revert hrt hfs
  revert rt a b c e fs
  decide +kernel

/-- What a request takes and gives back in S1. -/
structure NeededRow (rt : Reqtype) (fs : FetchState) (d : Decoded) : Prop where
  needed_le : d.creditmanNoc1Needed ≤ 2
  words8 : d.creditmanReq8B = true → d.creditmanReq16B = false
  words : d.creditmanNoc1Needed = 0 → d.wordsNeeded = 0
  unreserve : d.creditmanNoc1Unreserve = true ↔
    ((fs = .normal ∧ rt.isFill = true) ∨ rt = .ackdtStSm)
  noc2 : rt.fromPcx = false →
    d.creditmanNoc1Needed ≤ d.creditmanNoc1Unreserve.toNat ∧ d.wordsNeeded = 0

theorem neededRow (rt : Reqtype) (fs : FetchState) (a b c e : Bool) :
    NeededRow rt fs (decoder rt fs a b c e) := by
  have htaken : ∀ rt fs a b c e, (decoder rt fs a b c e).creditmanNoc1Needed ≤ 2 ∧
      ((decoder rt fs a b c e).creditmanReq8B = true →
        (decoder rt fs a b c e).creditmanReq16B = false) ∧
      ((decoder rt fs a b c e).creditmanNoc1Needed = 0 →
        (decoder rt fs a b c e).wordsNeeded = 0) := by
    decide +kernel
  have hgiven : ∀ rt fs a b c e, ((decoder rt fs a b c e).creditmanNoc1Unreserve = true ↔
        ((fs = .normal ∧ rt.isFill = true) ∨ rt = .ackdtStSm)) ∧
      (rt.fromPcx = false → (decoder rt fs a b c e).creditmanNoc1Needed ≤
        (decoder rt fs a b c e).creditmanNoc1Unreserve.toNat ∧
          (decoder rt fs a b c e).wordsNeeded = 0) := by
    decide +kernel
  obtain ⟨hle, h8, hwords⟩ := htaken rt fs a b c e
  obtain ⟨hun, hnoc2⟩ := hgiven rt fs a b c e
  exact ⟨hle, h8, hwords, hun, hnoc2⟩

end Passes

end Piton.L15
