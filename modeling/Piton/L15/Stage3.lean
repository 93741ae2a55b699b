import Piton.L15.Decoder

/-! Stage S3: way-map comparison, MSHR updates, replacement and way-map writes, and the requests to
CPX, NoC1 and NoC3 with the stalls they cause. -/

namespace Piton.L15

/-- `tagcheck_state_mes_*`, and the same test of the LRU and flush states. -/
def Mesi.mes : Mesi → Bool
  | .I => false
  | .S | .E | .M => true

/-- `tagcheck_state_me_*`. -/
def Mesi.me : Mesi → Bool
  | .I | .S => false
  | .E | .M => true

/-- `1 << way`. -/
def wayMask (w : Way) : BitVec 4 := 1#4 <<< w.val

namespace State

variable (s : State) (i : Inputs)

/-- `cache_index_s3`. -/
def indexS3 : SetIndex := cacheIndex s.s3.address

/-- `lru_way_address_s3` or `flush_way_address_s3`. -/
def wayAddressS3 (tag : Tag) : Paddr := (tag ++ s.indexS3) ++ (0 : BitVec 4)

/-! ### Store buffer comparison -/

/-- `mshr_st_way_array[t]`, an array of one-bit elements. -/
def mshrStWay (t : ThreadId) : Way := Fin.ofNat 4 ((s.mshr.stWay t).val % 2)

/-- `stbuf_compare_match_s3[t]`. -/
def stbufCompareMatch (t : ThreadId) : Bool :=
  s.mshr.stVal t && s.mshr.stState t = .SM &&
    lineAddress (s.mshr.stAddress t) = lineAddress s.s3.address

/-- `stbuf_compare_lru_match_s3[t]`. -/
def stbufCompareLruMatch (t : ThreadId) : Bool :=
  s.stbufCompareMatch t && s.mshrStWay t = s.s3Result.lruWay

/-- `stbuf_compare_threadid_s3`. -/
def stbufCompareThreadid : ThreadId := if s.stbufCompareMatch 1 then 1 else 0

/-- `stbuf_compare_lru_threadid_s3`. -/
def stbufCompareLruThreadid : ThreadId := if s.stbufCompareLruMatch 1 then 1 else 0

/-- `stbuf_compare_match_val_s3`. -/
def stbufCompareMatchVal : Bool := s.stbufCompareMatch 0 || s.stbufCompareMatch 1

/-- `stbuf_compare_lru_match_val_s3`. -/
def stbufCompareLruMatchVal : Bool := s.stbufCompareLruMatch 0 || s.stbufCompareLruMatch 1

/-- `stbuf_way_s3`. -/
def stbufWay : Way := s.mshrStWay s.stbufCompareThreadid

/-! ### Way-map table -/

/-- `wmt_compare_way_s3`, which is also `wmt_compare_data_s3`. -/
def wmtCompareWay : Way :=
  match s.s3.ops.wmtCompareOp with
  | .lru => s.s3Result.lruWay
  | .tagcheck => s.s3Result.tagcheckWay
  | .flush => s.s3Result.flushWay
  | .stbuf => s.stbufWay
  | .none => 0

/-- `wmt_compare_mask_s3`. -/
def wmtCompareMask (w : Way) : Bool :=
  (s.wmt.dataOutF w).valid && (s.wmt.dataOutF w).way = s.wmtCompareWay

/-- `wmt_compare_match_s3`. -/
def wmtCompareMatch : Bool :=
  s.wmtCompareMask 0 || s.wmtCompareMask 1 || s.wmtCompareMask 2 || s.wmtCompareMask 3

/-- `wmt_compare_match_way_s3`: the lowest matching way. -/
def wmtCompareMatchWay : Way :=
  if s.wmtCompareMask 0 then 0
  else if s.wmtCompareMask 1 then 1
  else if s.wmtCompareMask 2 then 2
  else if s.wmtCompareMask 3 then 3
  else 0

/-- `wmt_write_val_s3` and `wmt_write_update_val_s3`, `wmt_write_update_way_s3`. Every write also
has `wmt_write_inval_val_s3`. -/
def wmtWriteControl : Bool × Bool × Way :=
  match s.s3.ops.wmtWriteOp with
  | .demapTagcheckWayIfMes => (s.s3Result.tagcheckState.mes, false, 0)
  | .demapLruWayIfMes => (s.s3Result.lruState.mes, false, 0)
  | .demapFlushWayIfMes => (s.valS3 && s.s3Result.flushState.mes, false, 0)
  | .updateLruWayAndDedupEntry => (true, true, s.s3Result.lruWay)
  | .updateTagcheckWayAndDedupEntryIfTagcheckWayIsMes =>
    (s.s3Result.tagcheckState.mes, true, s.s3Result.tagcheckWay)
  | .none => (false, false, 0)

/-- The write request to the way-map table. -/
def wmtWrite : WmtWrite :=
  let updateVal := s.wmtWriteControl.2.1
  let updateMask := fun w => updateVal && s.s3.l1ReplacementWay = w
  { valid := s.wmtWriteControl.1 && s.valS3
    index := s.indexS3
    mask := fun w => (s.s3.ops.wmtWriteOp ≠ .none && s.wmtCompareMask w) || updateMask w
    data := fun w =>
      if updateMask w then ⟨true, s.wmtWriteControl.2.2⟩ else ⟨false, 0⟩ }

/-! ### Replacement bits -/

/-- `tagcheck_way_mask_s3`: the condition of the second alternative is the constant `2'd1`. -/
def tagcheckWayMaskS3 : BitVec 4 := if s.s3Result.tagcheckWay = 0 then 1#4 else 2#4

/-- The write request to the replacement bits. -/
def lruWrite : LruWrite :=
  let used : BitVec 4 := s.lruDataS3.extractLsb' 0 4
  let turn : BitVec 2 := s.lruDataS3.extractLsb' 4 2
  let req : Bool × BitVec 6 :=
    match s.s3.ops.lruarrayWriteOp with
    | .updateAccessBitsIfTagcheckWayIsMes =>
      (s.s3Result.tagcheckState.mes,
        turn ++ (if used ||| s.tagcheckWayMaskS3 = 15#4 then 0#4 else used ||| s.tagcheckWayMaskS3))
    | .replacement => (true, (turn + 1) ++ (used ||| wayMask s.s3Result.lruWay))
    | .invalidateIfTagcheckWayIsMes =>
      (s.s3Result.tagcheckState.mes, turn ++ (used &&& ~~~s.tagcheckWayMaskS3))
    | .invalidateIfFlushWayIsMes =>
      (s.s3Result.flushState.mes, turn ++ (used &&& ~~~wayMask s.s3Result.flushWay))
    | .eviction | .none => (false, 0)
  { valid := req.1 && s.valS3, index := s.indexS3, mask := BitVec.allOnes 6, data := req.2 }

/-! ### MSHR update -/

/-- The S3 write request to the MSHRs. -/
def mshrS3Write : MshrS3Write :=
  let r := s.s3Result
  match s.s3.ops.s3MshrOperation with
  | .deallocation =>
    { val := s.valS3, op := .deallocation, mshrid := s.s3.mshrid, threadid := s.s3.threadid,
      updateState := .none, updateWay := 0 }
  | .deallocationIfTagcheckMes =>
    { val := s.valS3 && r.tagcheckState.mes, op := .deallocation, mshrid := s.s3.mshrid,
      threadid := s.s3.threadid, updateState := .none, updateWay := 0 }
  | .deallocationIfTagcheckMEElseUpdateStateStmshr =>
    { val := s.valS3
      op := if r.tagcheckState.me then .deallocation else .updateStState
      mshrid := s.s3.mshrid
      threadid := s.s3.threadid
      updateState := if r.tagcheckState.mes then .SM else .IM
      updateWay := r.tagcheckWay }
  | .updateStMshrImIfIndexTagcheckWayMatches =>
    { val := s.valS3 && s.stbufCompareMatchVal, op := .updateStState, mshrid := .none,
      threadid := s.stbufCompareThreadid, updateState := .IM, updateWay := 0 }
  | .updateStMshrImIfIndexLruWayMatches =>
    { val := s.valS3 && s.stbufCompareLruMatchVal, op := .updateStState, mshrid := .none,
      threadid := s.stbufCompareLruThreadid, updateState := .IM, updateWay := 0 }
  | .updateStMshrWaitAck =>
    { val := s.valS3, op := .updateStState, mshrid := .none, threadid := s.s3.threadid,
      updateState := .waitAck, updateWay := 0 }
  | .none =>
    { val := false, op := .deallocation, mshrid := .none, threadid := s.s3.threadid,
      updateState := .none, updateWay := 0 }

/-! ### CPX -/

/-- `cpx_req_val_s3`, `cpx_type_s3`. -/
def cpxReq : Bool × CpxRestype :=
  let r := s.s3Result
  match s.s3.ops.cpxOperation with
  | .none => (false, .load)
  | .genIcacheInvalidation | .genDcacheInvalidation => (true, .inval)
  | .genInvalidationIfTagcheckMesAndWaymapValid => (r.tagcheckState.mes && s.wmtCompareMatch, .inval)
  | .genInvalidationIfLruMesAndWaymapValid => (r.lruState.mes && s.wmtCompareMatch, .inval)
  | .genInvalidationIfFlushMesAndWaymapValid => (r.flushState.mes && s.wmtCompareMatch, .inval)
  | .genLdResponseBogusData => (true, .load)
  | .genLdResponseBogusDataIfTagcheckMes => (r.tagcheckState.mes, .load)
  | .genLdResponseIfTagcheckMesFromDcache => (r.tagcheckState.mes, .load)
  | .genLdResponseFromNoc2 => (true, .load)
  | .genStAck | .genStAckWithPossibleInval => (true, .storeAck)
  | .genStAckIfTagcheckMEWithPossibleInval => (r.tagcheckState.me, .storeAck)
  | .genIfillResponseFromNoc2 => (true, .ifill1)
  | .genAtomicAckFromNoc2 => (true, .atomicRes)
  | .genBroadcastAck | .genInterrupt => (true, .interrupt)
  | .genLoadConfigRegResponse | .genLdResponseFromDcache | .genLdResponseFromCsm => (true, .load)

/-- `cpx_invalidate_l1_s3`. -/
def cpxInvalidateL1 : Bool :=
  match s.s3.ops.cpxOperation with
  | .genDcacheInvalidation | .genInvalidationIfTagcheckMesAndWaymapValid
  | .genInvalidationIfLruMesAndWaymapValid | .genInvalidationIfFlushMesAndWaymapValid => true
  | .genStAckWithPossibleInval => s.wmtCompareMatch && s.stbufCompareMatchVal
  | .genStAckIfTagcheckMEWithPossibleInval => s.wmtCompareMatch
  | _ => false

/-- `cpx_inval_way_s3`. -/
def cpxInvalWay : Way :=
  match s.s3.ops.cpxOperation with
  | .genDcacheInvalidation | .genInvalidationIfTagcheckMesAndWaymapValid
  | .genInvalidationIfLruMesAndWaymapValid | .genInvalidationIfFlushMesAndWaymapValid
  | .genStAckWithPossibleInval | .genStAckIfTagcheckMEWithPossibleInval => s.wmtCompareMatchWay
  | _ => 0

/-- `cpx_data_source_s3`. -/
def cpxDataSource : CpxSource :=
  match s.s3.ops.cpxOperation with
  | .genLdResponseIfTagcheckMesFromDcache | .genLdResponseFromDcache => .dcache
  | .genLdResponseFromNoc2 | .genIfillResponseFromNoc2 | .genAtomicAckFromNoc2
  | .genInterrupt => .noc2Buffer
  | .genLoadConfigRegResponse => .configRegs
  | .genLdResponseFromCsm => .csm
  | _ => .bogus

/-- The high and the low word of the line that the data array delivers. -/
def dcacheDout : Word × Word := (s.udata.doutF.extractLsb' 64 64, s.udata.doutF.extractLsb' 0 64)

/-- `l15_cpxencoder_val`. -/
def cpxencoderVal : Bool := s.valS3 && s.cpxReq.1 && !s.cpxencoderReqStaled

/-- The request to `l15_cpxencoder`. -/
def cpxRequest : CpxRequest :=
  let notInterrupt := s.s3.ops.cpxOperation ≠ .genInterrupt
  let (d0, d1, d2, d3) : Word × Word × Word × Word :=
    match s.cpxDataSource with
    | .dcache => (s.dcacheDout.1, s.dcacheDout.2, 0, 0)
    | .noc2Buffer => (s.noc2.data0, s.noc2.data1, s.noc2.data2, s.noc2.data3)
    | .configRegs => (i.configReadData, 0, 0, 0)
    | .csm => (i.csmReadData, i.csmReadData, 0, 0)
    | .bogus => (0, 0, 0, 0)
  { val := s.cpxencoderVal
    returntype := s.cpxReq.2
    l2miss := notInterrupt && s.s3.l2Miss
    noncacheable := notInterrupt && s.s3.nonCacheable
    threadid := if notInterrupt then s.s3.threadid else 0
    prefetch := notInterrupt && s.s3.prefetch
    f4b := notInterrupt && s.s3.f4b
    atomic := s.s3.ops.cpxOperation = .genAtomicAckFromNoc2
    invalIcacheAllWay := s.s3.ops.cpxOperation = .genIcacheInvalidation
    invalAddress154 := if notInterrupt then s.s3.address.extractLsb' 4 12 else 0
    invalDcacheInval := s.cpxInvalidateL1
    invalWay := s.cpxInvalWay
    blockinitstore := notInterrupt && (s.s3.blockstore || s.s3.blockstoreinit)
    data0 := d0, data1 := d1, data2 := d2, data3 := d3 }

/-! ### NoC1 -/

/-- The operation is a conditional one, and its condition on the states found in S2. -/
def noc1Condition : Bool :=
  let r := s.s3Result
  match s.s3.ops.noc1Operation with
  | .genWritebackGuardIfLruM => r.lruState = .M
  | .genWritebackGuardIfFlushM => r.flushState = .M
  | .genWritebackGuardIfTagcheckM => r.tagcheckState = .M
  | .genDataLdRequestIfTagcheckMiss => !r.tagcheckState.mes
  | .genDataStUpgradeIfTagcheckSElseStFillIfTagcheckI =>
    r.tagcheckState = .S || r.tagcheckState = .I
  | .none => false
  | _ => true

/-- `noc1_req_val_s3`. -/
def noc1ReqVal : Bool := s.valS3 && s.noc1Condition

/-- `creditman_noc1_mispredicted_s3`. -/
def noc1Mispredicted : Bool :=
  s.valS3 && s.s3.ops.noc1Operation ≠ .none && !s.noc1Condition

/-- `creditman_noc1_reserve_s3`. -/
def noc1ReserveS3 : Bool :=
  s.noc1ReqVal &&
    (s.s3.ops.noc1Operation = .genDataLdRequestIfTagcheckMiss ||
      s.s3.ops.noc1Operation = .genDataStUpgradeIfTagcheckSElseStFillIfTagcheckI)

/-- `noc1_type_s3`. -/
def noc1Type : Noc1Reqtype :=
  match s.s3.ops.noc1Operation with
  | .genWritebackGuardIfLruM | .genWritebackGuardIfFlushM
  | .genWritebackGuardIfTagcheckM => .writebackGuard
  | .genDataLdRequest | .genDataLdRequestIfTagcheckMiss => .ldRequest
  | .genInstructionLdRequest => .ifillRequest
  | .genDataWritethroughRequestFromPcx => .writethroughRequest
  | .genDataStUpgradeIfTagcheckSElseStFillIfTagcheckI =>
    if s.s3Result.tagcheckState = .S then .stUpgradeRequest else .stFillRequest
  | .genDataCasRequestFromPcx => .casRequest
  | .genDataSwapRequestFromPcx => .swapRequest
  | .genInterruptFwd => .interruptFwd
  | .none => .none

/-- `l15_noc1buffer_req_address`. -/
def noc1Address : Paddr :=
  match s.s3.ops.noc1Operation with
  | .genWritebackGuardIfLruM => s.wayAddressS3 s.s3Result.lruWayTag
  | .genWritebackGuardIfFlushM => s.wayAddressS3 s.s3Result.flushWayTag
  | .genInterruptFwd | .none => 0
  | _ => s.s3.address

/-- `noc1_data_source_s3`. -/
def noc1DataSource : Noc1Source :=
  match s.s3.ops.noc1Operation with
  | .genDataWritethroughRequestFromPcx | .genDataStUpgradeIfTagcheckSElseStFillIfTagcheckI
  | .genDataSwapRequestFromPcx | .genInterruptFwd => .pcx64B
  | .genDataCasRequestFromPcx => .pcx128B
  | _ => .none

/-- The request to `noc1buffer`. -/
def noc1Request : Noc1Request :=
  { val := s.noc1ReqVal && !s.noc1encoderReqStaled
    reqtype := s.noc1Type
    mshrid := s.s3.mshrid
    threadid := s.s3.threadid
    address := s.noc1Address
    nonCacheable := s.s3.nonCacheable
    size := s.s3.size
    prefetch := s.s3.prefetch
    data0 := if s.noc1DataSource = .none then 0 else s.pcx.data
    data1 := if s.noc1DataSource = .pcx128B then i.pcxDataNextEntry else 0 }

/-! ### NoC3 -/

/-- `noc3_req_val_s3` but for `val_s3`, `noc3_type_s3`, `noc3_with_data_s3`, `noc3_address_s3`. -/
def noc3Req : Bool × Noc3Reqtype × Bool × Paddr :=
  let r := s.s3Result
  match s.s3.ops.noc3Operation with
  | .genWritebackIfTagcheckMFromDcache => (r.tagcheckState = .M, .writeback, true, s.s3.address)
  | .genWritebackIfLruMFromDcache =>
    (r.lruState = .M, .writeback, true, s.wayAddressS3 r.lruWayTag)
  | .genWritebackIfFlushMFromDcache =>
    (r.flushState = .M, .writeback, true, s.wayAddressS3 r.flushWayTag)
  | .genInvalAckFromDcache => (true, .invalAck, r.tagcheckState = .M, s.s3.address)
  | .genInvalAckIfTagcheckMFromDcache => (r.tagcheckState = .M, .invalAck, true, s.s3.address)
  | .genDowngradeAckFromDcache => (true, .downgradeAck, r.tagcheckState = .M, s.s3.address)
  | .genDowngradeAckIfTagcheckMFromDcache =>
    (r.tagcheckState = .M, .downgradeAck, true, s.s3.address)
  | .genIcacheInvalAck => (true, .icacheInvalAck, false, s.s3.address)
  | .none => (false, .none, false, 0)

/-- The request to `noc3buffer`. -/
def noc3Request : Noc3Request :=
  { val := s.valS3 && s.noc3Req.1 && !s.noc3encoderReqStaled
    reqtype := s.noc3Req.2.1
    data0 := s.dcacheDout.1
    data1 := s.dcacheDout.2
    mshrid := s.s3.mshrid
    sequenceid := s.indexS3.extractLsb' 0 2
    threadid := s.s3.threadid
    address := s.noc3Req.2.2.2
    withData := s.noc3Req.2.2.1
    wasInval := s.s3.noc2Inval
    fwdackVector := s.s3.fwdSubcachelineVector }

/-! ### Stalls -/

/-- `noc1encoder_noc1buffer_req_ack`: the encoder acknowledges only a command it is offered. -/
def noc1encoderReqAck : Bool := i.noc1encoderAck && s.noc1buffer.headVal

/-- `noc3encoder_noc3buffer_req_ack`: the encoder acknowledges only a request it is offered. -/
def noc3encoderReqAck : Bool := i.noc3encoderAck && s.noc3buffer.bufferVal

/-- `stall_for_cpx_s3`; `l15_cpxencoder_val` is low for a staled request. -/
def stallForCpx : Bool :=
  s.cpxencoderVal && !s.cpxencoder.reqAck s.cpxencoderVal s.cpxReq.2

/-- `stall_for_noc3_s3`; `l15_noc3encoder_req_val` is low for a staled request. -/
def stallForNoc3 : Bool :=
  s.noc3Request.val && !s.noc3buffer.reqAck s.noc3Request.val (s.noc3encoderReqAck i)

/-- `stall_s3`. -/
def stallS3 : Bool := s.valS3 && (s.stallForCpx || s.stallForNoc3 i)

/-- `pcx_ack_s3`. -/
def pcxAckS3 : Bool := s.valS3 && !s.stallS3 i && s.s3.ops.pcxAckStage = .s3

/-- `noc2_ack_s3`. -/
def noc2AckS3 : Bool := s.valS3 && !s.stallS3 i && s.s3.ops.noc2AckStage = .s3

/-- `cpxencoder_req_staled_s3_next`. -/
def cpxencoderReqStaledNext : Bool :=
  if s.cpxencoderReqStaled then s.stallS3 i else !s.stallForCpx && s.stallForNoc3 i

/-- `noc1encoder_req_staled_s3_next`. -/
def noc1encoderReqStaledNext : Bool :=
  if s.noc1encoderReqStaled then s.stallS3 i else s.stallForCpx || s.stallForNoc3 i

/-- `noc3encoder_req_staled_s3_next`. -/
def noc3encoderReqStaledNext : Bool :=
  if s.noc3encoderReqStaled then s.stallS3 i else !s.stallForNoc3 i && s.stallForCpx

end State

end Piton.L15
