import Piton.L15.Predecode

/-! The S1 decoder: the control signals of each request type, and the next fetch state.

Most requests take one pass through the pipeline. A non-cacheable access, an atomic and a line
flush take a second pass in fetch state `pcxWritebackDone`, a fill takes one in `noc2WritebackDone`,
and an invalidation or a downgrade one for each sub-line. -/

namespace Piton.L15

/-- The first pass of a non-cacheable access or an atomic: the line leaves the cache. -/
def writebackPass (allocationType : MshrId) : Decoded :=
  { stallOnMatchedBypassedIndex := true
    stallOnMatchedMshr := true
    stallOnMshrAllocation := true
    mshrAllocationType := allocationType
    dtagOperation := .read
    mesiReadOp := .read
    mesiWriteOp := .invalidateTagcheckWayIfMes
    wmtReadOp := .read
    wmtWriteOp := .demapTagcheckWayIfMes
    wmtCompareOp := .tagcheck
    dcacheOperation := .readTagcheckWayIfM
    lruarrayWriteOp := .invalidateIfTagcheckWayIsMes
    cpxOperation := .genInvalidationIfTagcheckMesAndWaymapValid
    noc1Operation := .genWritebackGuardIfTagcheckM
    creditmanNoc1Needed := 2
    noc3Operation := .genWritebackIfTagcheckMFromDcache }

/-- The first pass of a fill: the line of the LRU way is evicted. -/
def evictionPass : Decoded :=
  { stallOnMatchedBypassedIndex := true
    dtagOperation := .read
    mesiReadOp := .read
    dcacheOperation := .readLruWayIfM
    s3MshrOperation := .updateStMshrImIfIndexLruWayMatches
    wmtReadOp := .read
    wmtWriteOp := .demapLruWayIfMes
    wmtCompareOp := .lru
    lruarrayWriteOp := .eviction
    cpxOperation := .genInvalidationIfLruMesAndWaymapValid
    noc1Operation := .genWritebackGuardIfLruM
    creditmanNoc1Needed := 1
    noc3Operation := .genWritebackIfLruMFromDcache
    creditmanNoc1Unreserve := true }

/-- An acknowledgement that only frees its MSHR and answers the core. -/
def ackPass (ackStage : AckStage) (stallOnIndex : Bool) (cpx : CpxOp) : Decoded :=
  { noc2AckStage := ackStage
    stallOnMatchedBypassedIndex := stallOnIndex
    s3MshrOperation := .deallocation
    cpxOperation := cpx }

/-- The NoC2 acknowledgement stage of a pass of an invalidation or a downgrade. -/
def invalAckStage : FetchState → AckStage
  | .inval4 => .s1
  | _ => .never

/-- The control signals of a request (`decoder_*_s1`). -/
def decoder (reqtype : Reqtype) (fs : FetchState) (intVecDis hitStbuf isLastInval
    interruptBroadcast : Bool) : Decoded :=
  match reqtype with
  | .loadNc =>
    if fs = .normal then writebackPass .ld
    else
      { pcxAckStage := .s1
        s1MshrOperation := .allocate
        mshrAllocationType := .ld
        noc1Operation := .genDataLdRequest }
  | .loadPrefetch =>
    { pcxAckStage := .s1
      cpxOperation := .genLdResponseBogusData }
  | .load =>
    { pcxAckStage := .s1
      stallOnMatchedBypassedIndex := true
      stallOnMatchedMshr := true
      stallOnMshrAllocation := true
      mshrAllocationType := .ld
      s1MshrOperation := .allocate
      dtagOperation := .read
      mesiReadOp := .read
      dcacheOperation := .readTagcheckWayIfMes
      s3MshrOperation := .deallocationIfTagcheckMes
      cpxOperation := .genLdResponseIfTagcheckMesFromDcache
      wmtReadOp := .read
      wmtWriteOp := .updateTagcheckWayAndDedupEntryIfTagcheckWayIsMes
      wmtCompareOp := .tagcheck
      lruarrayWriteOp := .updateAccessBitsIfTagcheckWayIsMes
      noc1Operation := .genDataLdRequestIfTagcheckMiss
      creditmanNoc1Needed := 1 }
  | .diagLoad =>
    { pcxAckStage := .s1
      dcacheOperation := .diagRead
      cpxOperation := .genLdResponseFromDcache }
  | .ifill =>
    { pcxAckStage := .s1
      stallOnMshrAllocation := true
      mshrAllocationType := .ifill
      s1MshrOperation := .allocate
      noc1Operation := .genInstructionLdRequest
      creditmanNoc1Needed := 1 }
  | .writethrough =>
    if intVecDis then
      { pcxAckStage := .s3
        cpxOperation := .genStAck
        noc1Operation := .genInterruptFwd
        creditmanReq8B := true
        creditmanNoc1Needed := 1 }
    else if fs = .normal then { writebackPass .st with creditmanReq8B := true }
    else
      { pcxAckStage := .s3
        s1MshrOperation := .allocate
        mshrAllocationType := .st
        noc1Operation := .genDataWritethroughRequestFromPcx
        s3MshrOperation := .updateStMshrWaitAck }
  | .store =>
    if hitStbuf then
      { pcxAckStage := .s1
        stallOnMatchedBypassedIndex := true
        stallOnMshrAllocation := true
        mshrAllocationType := .st
        s1MshrOperation := .updateWritecache
        mesiReadOp := .read
        wmtReadOp := .read
        wmtCompareOp := .stbuf
        cpxOperation := .genStAckWithPossibleInval }
    else
      { pcxAckStage := .s1
        stallOnMatchedBypassedIndex := true
        stallOnMatchedMshr := true
        stallOnMshrAllocation := true
        s1MshrOperation := .allocate
        mshrAllocationType := .st
        dtagOperation := .read
        mesiReadOp := .read
        s2MshrOperation := .readWriteCache
        dcacheOperation := .writeTagcheckWayIfMeFromMshr
        wmtReadOp := .read
        wmtCompareOp := .tagcheck
        lruarrayWriteOp := .updateAccessBitsIfTagcheckWayIsMes
        s3MshrOperation := .deallocationIfTagcheckMEElseUpdateStateStmshr
        mesiWriteOp := .writeTagcheckWayMIfE
        cpxOperation := .genStAckIfTagcheckMEWithPossibleInval
        noc1Operation := .genDataStUpgradeIfTagcheckSElseStFillIfTagcheckI
        creditmanNoc1Needed := 1 }
  | .diagStore =>
    { pcxAckStage := .s2
      dcacheOperation := .diagWrite
      cpxOperation := .genStAck }
  | .lineFlush =>
    if fs = .normal then
      { stallOnMatchedBypassedIndex := true
        cpxOperation := .genStAck }
    else
      { pcxAckStage := .s1
        dtagOperation := .read
        mesiReadOp := .read
        dcacheOperation := .readFlushWayIfM
        mesiWriteOp := .invalidateFlushWayIfMes
        wmtReadOp := .read
        wmtWriteOp := .demapFlushWayIfMes
        wmtCompareOp := .flush
        lruarrayWriteOp := .invalidateIfFlushWayIsMes
        cpxOperation := .genInvalidationIfFlushMesAndWaymapValid
        noc1Operation := .genWritebackGuardIfFlushM
        creditmanNoc1Needed := 1
        noc3Operation := .genWritebackIfFlushMFromDcache }
  | .cas =>
    if fs = .normal then { writebackPass .ld with creditmanReq16B := true }
    else
      { pcxAckStage := .s3
        s1MshrOperation := .allocate
        mshrAllocationType := .ld
        noc1Operation := .genDataCasRequestFromPcx }
  | .swpLoadstub =>
    if fs = .normal then { writebackPass .ld with creditmanReq8B := true }
    else
      { pcxAckStage := .s3
        s1MshrOperation := .allocate
        mshrAllocationType := .ld
        noc1Operation := .genDataSwapRequestFromPcx }
  | .icacheInvalidation =>
    { cpxOperation := .genIcacheInvalidation
      noc2AckStage := if isLastInval then .s1 else .never
      noc3Operation := if isLastInval then .genIcacheInvalAck else .none }
  | .icacheSelfInvalidation =>
    { pcxAckStage := .s1
      cpxOperation := .genIcacheInvalidation }
  | .dcacheSelfInvalidation =>
    { pcxAckStage := .s1
      stallOnMatchedBypassedIndex := true
      dtagOperation := .read
      wmtReadOp := .read
      wmtWriteOp := .demapTagcheckWayIfMes
      wmtCompareOp := .tagcheck
      cpxOperation := .genDcacheInvalidation }
  | .invalidation =>
    { noc2AckStage := invalAckStage fs
      stallOnMatchedBypassedIndex := true
      dtagOperation := .read
      mesiReadOp := .read
      dcacheOperation := .readTagcheckWayIfM
      s3MshrOperation := .updateStMshrImIfIndexTagcheckWayMatches
      mesiWriteOp := .invalidateTagcheckWayIfMes
      wmtReadOp := .read
      wmtWriteOp := .demapTagcheckWayIfMes
      wmtCompareOp := .tagcheck
      lruarrayWriteOp := .invalidateIfTagcheckWayIsMes
      cpxOperation := .genInvalidationIfTagcheckMesAndWaymapValid
      noc3Operation :=
        if isLastInval then .genInvalAckFromDcache else .genInvalAckIfTagcheckMFromDcache }
  | .downgrade =>
    { noc2AckStage := invalAckStage fs
      stallOnMatchedBypassedIndex := true
      dtagOperation := .read
      mesiReadOp := .read
      dcacheOperation := .readTagcheckWayIfM
      mesiWriteOp := .writeTagcheckWaySIfMe
      noc3Operation :=
        if isLastInval then .genDowngradeAckFromDcache
        else .genDowngradeAckIfTagcheckMFromDcache }
  | .ackdtLd =>
    if fs = .normal then evictionPass
    else
      { noc2AckStage := .s3
        dtagOperation := .write
        dcacheOperation := .writeLruWayFromNoc2
        s3MshrOperation := .deallocation
        mesiWriteOp := .writeLruWayAckState
        wmtReadOp := .read
        wmtWriteOp := .updateLruWayAndDedupEntry
        wmtCompareOp := .lru
        lruarrayWriteOp := .replacement
        cpxOperation := .genLdResponseFromNoc2 }
  | .ackdtLdNc => ackPass .s3 true .genLdResponseFromNoc2
  | .ackdtIfill => ackPass .s3 false .genIfillResponseFromNoc2
  | .ackdtStIm =>
    if fs = .normal then evictionPass
    else
      { noc2AckStage := .s3
        dtagOperation := .write
        s2MshrOperation := .readWriteCache
        dcacheOperation := .writeLruWayFromNoc2AndMshr
        s3MshrOperation := .deallocation
        mesiWriteOp := .writeLruWayAckState
        lruarrayWriteOp := .replacement
        cpxOperation := .genStAck }
  | .ackdtStSm =>
    { noc2AckStage := .s1
      stallOnMatchedBypassedIndex := true
      s2MshrOperation := .readWriteCache
      dcacheOperation := .writeMshrWayFromMshr
      s3MshrOperation := .deallocation
      mesiWriteOp := .writeMshrWayAckState
      wmtReadOp := .read
      wmtCompareOp := .stbuf
      cpxOperation := .genStAckWithPossibleInval
      creditmanNoc1Unreserve := true }
  | .ackWritethrough => ackPass .s1 true .genStAck
  | .ackPrefetch => { noc2AckStage := .s1 }
  | .ackAtomic => ackPass .s3 true .genAtomicAckFromNoc2
  | .l2Interrupt =>
    { noc2AckStage := .s3
      cpxOperation := .genInterrupt }
  | .pcxInterrupt =>
    if interruptBroadcast then
      { pcxAckStage := .s1
        cpxOperation := .genBroadcastAck }
    else
      { pcxAckStage := .s3
        noc1Operation := .genInterruptFwd
        creditmanNoc1Needed := 1
        creditmanReq8B := true }
  | .loadConfigReg =>
    { pcxAckStage := .s1
      cpxOperation := .genLoadConfigRegResponse }
  | .writeConfigReg =>
    { pcxAckStage := .s2
      cpxOperation := .genStAck }
  | .hmcFill => { noc2AckStage := .s2 }
  | .hmcDiagLoad =>
    { pcxAckStage := .s1
      cpxOperation := .genLdResponseFromCsm }
  | .hmcDiagStore =>
    { pcxAckStage := .s2
      cpxOperation := .genStAck }
  | .hmcFlush =>
    { pcxAckStage := .s1
      cpxOperation := .genStAck }
  | .ignore => { pcxAckStage := .s1 }
  | .none => {}

/-- `fetch_state_next_s1`. -/
def fetchStateNext (fs : FetchState) (reqtype : Reqtype) (intVecDis stallS1 : Bool) : FetchState :=
  match fs with
  | .normal =>
    if stallS1 then .normal
    else
      match reqtype with
      | .cas | .swpLoadstub | .loadNc | .lineFlush => .pcxWritebackDone
      | .writethrough => if intVecDis then .normal else .pcxWritebackDone
      | .invalidation | .downgrade => .inval2
      | .icacheInvalidation => .icacheInval2
      | .ackdtLd | .ackdtStIm => .noc2WritebackDone
      | _ => .normal
  | .pcxWritebackDone => if stallS1 then .pcxWritebackDone else .normal
  | .noc2WritebackDone => if stallS1 then .noc2WritebackDone else .normal
  | .inval2 => if stallS1 then .inval2 else .inval3
  | .inval3 => if stallS1 then .inval3 else .inval4
  | .inval4 => if stallS1 then .inval4 else .normal
  | .icacheInval2 => if stallS1 then .icacheInval2 else .normal

namespace State

variable (s : State)

/-- The `decoder_*_s1` signals. -/
def decode : Decoded :=
  decoder s.predecode.reqtype s.fetchState s.intVecDis s.hitStbuf s.predecode.isLastInval
    s.predecode.interruptBroadcast

/-- `decoder_mshrid_s1`. -/
def decoderMshrid : MshrId :=
  if s.predecodeSource = .noc2 then s.noc2.mshrid else s.decode.mshrAllocationType

/-- `decoder_no_free_mshr_s1`. -/
def decoderNoFreeMshr : Bool := s.mshr.val s.decode.mshrAllocationType s.predecode.threadid

end State

end Piton.L15
