import Piton.L15.Stage2

/-! Stage S1, the credit manager and one clock edge of the L1.5. -/

namespace Piton.L15

namespace State

variable (s : State) (i : Inputs)

/-! ### Stalls of S1 -/

/-- `stall_noc1_data_buffer_unavail_s1`. -/
def stallNoc1DataBufferUnavail : Bool :=
  if s.decode.creditmanReq8B then s.creditman.noc1DataAvail = 0
  else if s.decode.creditmanReq16B then s.creditman.noc1DataAvail < 2
  else false

/-- `stall_tmp_result`. -/
def stallTmpResult : BitVec 5 :=
  (1#1 ++ s.creditman.noc1Avail) - (0#1 ++ s.creditman.noc1Reserve)

/-- `stall_noc1_command_buffer_1_unavail_s1`. -/
def stallNoc1CommandBuffer1Unavail : Bool :=
  s.stallTmpResult.extractLsb' 0 4 = 0#4 || s.stallTmpResult.getLsbD 4 = false

/-- `stall_noc1_command_buffer_2_unavail_s1`. -/
def stallNoc1CommandBuffer2Unavail : Bool :=
  s.stallNoc1CommandBuffer1Unavail || s.stallTmpResult.extractLsb' 0 4 = 1#4

/-- `stall_noc1_command_buffer_unavail_s1`. -/
def stallNoc1CommandBufferUnavail : Bool :=
  (s.decode.creditmanNoc1Needed = 1 && s.stallNoc1CommandBuffer1Unavail) ||
    (s.decode.creditmanNoc1Needed = 2 && s.stallNoc1CommandBuffer2Unavail)

/-- `stall_pcx_noc1_buffer_s1`: only the first pass of a PCX request waits for credits. -/
def stallPcxNoc1Buffer : Bool :=
  (s.stallNoc1CommandBufferUnavail || s.stallNoc1DataBufferUnavail) &&
    s.predecodeSource = .pcx && s.fetchState = .normal

/-- `stall_tag_match_stall_s1`. -/
def stallTagMatch : Bool := s.tagcheckMatched && s.decode.stallOnMatchedMshr

/-- `stall_index_bypass_match_s1`. -/
def stallIndexBypassMatch : Bool :=
  (s.valS2 && s.indexS1 = s.indexS2) || (s.valS3 && s.indexS1 = s.indexS3)

/-- `stall_index_conflict_stall_s1`. -/
def stallIndexConflict : Bool :=
  s.decode.stallOnMatchedBypassedIndex && s.stallIndexBypassMatch

/-- `stall_mshr_allocation_busy_s1`. -/
def stallMshrAllocationBusy : Bool := s.decoderNoFreeMshr && s.decode.stallOnMshrAllocation

/-- `stall_s1`. -/
def stallS1 : Bool :=
  s.valS1 && (s.stallTagMatch || s.stallIndexConflict || s.stallS2 i || s.stallMshrAllocationBusy
    || s.stallPcxNoc1Buffer)

/-- S1 holds a request that moves to S2 at the edge. -/
def s1Issues : Bool := s.valS1 && !s.stallS1 i

/-! ### Tag array port -/

/-- The first port of the tag array. Nothing drives the victim fields. -/
def dtagPort : UtagPort :=
  let op := s.decode.dtagOperation
  let way := if op = .write then s.lruWayS2 else 0
  let tag : RawTag := if op = .write then (cacheTag s.predecode.address).setWidth 33 else 0
  { ce := op ≠ .none && s.s1Issues i
    rdwen := op = .read
    a := if op = .none then 0 else s.indexS1
    bw := fun w => if w = way then BitVec.allOnes 33 else 0
    din := fun _ => tag
    vbw := i.undriven.vtagWriteMask
    vin := i.undriven.vtagWriteData }

/-- `l15_mesi_read_val_s1`. -/
def mesiReadVal : Bool := s.decode.mesiReadOp = .read && s.s1Issues i

/-! ### MSHR port -/

/-- `mshr_control_bits_write_s1`. -/
def mshrControlBitsWrite : Control :=
  { size := s.predecode.size
    threadid := s.predecode.threadid
    l1ReplacementWay := s.predecode.l1ReplacementWay
    nc := s.predecode.nonCacheable
    blockstore := s.predecode.blockstore
    blockstoreinit := s.predecode.blockstoreinit
    prefetch := s.predecode.prefetch
    icache := s.predecode.icache
    load := s.predecode.dcacheLoad
    atomic := s.predecode.atomic }

/-- `unshifted_write_mask_s1`. -/
def unshiftedWriteMask : ByteMask :=
  if s.predecode.size = 0 then 0x8000
  else if s.predecode.size = 1 then 0xC000
  else if s.predecode.size = 2 then 0xF000
  else 0xFF00

/-- `write_mask_s1`. -/
def writeMask : ByteMask :=
  let offset : BitVec 4 := s.pcx.address.extractLsb' 0 4
  if s.predecode.size = 0 then s.unshiftedWriteMask >>> (offset &&& 15#4).toNat
  else if s.predecode.size = 1 then s.unshiftedWriteMask >>> (offset &&& 14#4).toNat
  else if s.predecode.size = 2 then s.unshiftedWriteMask >>> (offset &&& 12#4).toNat
  else if s.predecode.size = 3 then s.unshiftedWriteMask >>> (offset &&& 8#4).toNat
  else if s.predecode.size = 7 then BitVec.allOnes 16
  else 0

/-- The S1 write request to the MSHRs. -/
def mshrS1Write : MshrS1Write :=
  let line : Line := s.pcx.data ++ s.pcx.data
  match s.decode.s1MshrOperation with
  | .allocate =>
    { val := s.s1Issues i, op := .allocation, address := s.pcx.address,
      control := s.mshrControlBitsWrite, mshrid := s.decode.mshrAllocationType,
      threadid := s.predecode.threadid, data := line, byteMask := s.writeMask }
  | .updateWritecache =>
    { val := s.s1Issues i, op := .updateWriteCache, address := 0, control := Control.zero,
      mshrid := .none, threadid := s.hitStbufThreadid, data := line, byteMask := s.writeMask }
  | .none =>
    { val := false, op := .allocation, address := 0, control := Control.zero, mshrid := .none,
      threadid := 0, data := line, byteMask := s.writeMask }

/-! ### Acknowledgements -/

/-- `l15_pcxdecoder_ack`. -/
def pcxAck : Bool :=
  (s.s1Issues i && s.decode.pcxAckStage = .s1) || s.pcxAckS2 i || s.pcxAckS3 i

/-- `l15_noc2decoder_ack`. -/
def noc2Ack : Bool :=
  (s.s1Issues i && s.decode.noc2AckStage = .s1) || s.noc2AckS2 i || s.noc2AckS3 i

/-- `l15_pcxdecoder_header_ack`. -/
def pcxHeaderAck : Bool :=
  s.predecodeSource = .pcx && s.s1Issues i && s.fetchState = .normal

/-- `l15_noc2decoder_header_ack`. -/
def noc2HeaderAck : Bool :=
  s.predecodeSource = .noc2 && s.s1Issues i && s.fetchState = .normal

/-! ### Credit manager -/

/-- `creditman_noc1_req`. -/
def creditmanReq : Bool := s.s1Issues i && s.decode.creditmanNoc1Needed ≠ 0

/-- One clock edge of the credit counters. -/
def creditmanNext : Creditman :=
  let c := s.creditman
  let sent := s.noc1encoderReqAck i
  let words := s.noc1buffer.reqDataSent sent
  let req := s.creditmanReq i
  let up1 := sent ^^ s.noc1Mispredicted
  let upX := sent || s.noc1Mispredicted
  let up2 := sent && s.noc1Mispredicted
  let down1 := req && s.decode.creditmanNoc1Needed = 1
  let down2 := req && s.decode.creditmanNoc1Needed = 2
  let add2 := up2 && !req
  let add1 := (up2 && down1) || (up1 && !req)
  let minus1 := (down2 && up1) || (down1 && !upX)
  let minus2 := down2 && !upX
  let dataUp1 := sent && words = 1
  let dataUp2 := sent && words = 2
  let dataDown1 := req && s.decode.creditmanReq8B
  let dataDown2 := req && s.decode.creditmanReq16B
  let dataAdd2 := dataUp2 && !dataDown1 && !dataDown2
  let dataAdd1 := (dataUp1 && !dataDown1 && !dataDown2) || (dataUp2 && dataDown1)
  let dataMinus2 := dataDown2 && !dataUp1 && !dataUp2
  let dataMinus1 := (dataDown1 && !dataUp1 && !dataUp2) || (dataDown2 && dataUp1)
  let reserves := s.noc1ReserveS3 && !s.stallS3 i && s.valS3
  let unreserves := s.s1Issues i && s.decode.creditmanNoc1Unreserve
  { noc1Avail :=
      if add2 then c.noc1Avail + 2
      else if add1 then c.noc1Avail + 1
      else if minus1 then c.noc1Avail - 1
      else if minus2 then c.noc1Avail - 2
      else c.noc1Avail
    noc1DataAvail :=
      if dataAdd1 then c.noc1DataAvail + 1
      else if dataAdd2 then c.noc1DataAvail + 2
      else if dataMinus1 then c.noc1DataAvail - 1
      else if dataMinus2 then c.noc1DataAvail - 2
      else c.noc1DataAvail
    noc1Reserve :=
      if reserves && !unreserves then c.noc1Reserve + 1
      else if !reserves && unreserves then c.noc1Reserve - 1
      else c.noc1Reserve }

/-! ### The clock edge -/

/-- What S1 registers for S2. -/
def s1Instr : Instr :=
  { reqtype := s.predecode.reqtype
    threadid := s.predecode.threadid
    mshrid := s.decoderMshrid
    address := s.predecode.address
    nonCacheable := s.predecode.nonCacheable
    size := s.predecode.size
    prefetch := s.predecode.prefetch
    l1ReplacementWay := s.predecode.l1ReplacementWay
    l2Miss := s.predecode.l2Miss
    f4b := s.predecode.f4b
    noc2Inval := s.predecode.noc2Inval
    fwdSubcachelineVector := s.predecode.fwdSubcachelineVector
    blockstore := s.predecode.blockstore
    blockstoreinit := s.predecode.blockstoreinit
    noc2AckState := s.noc2.ackState
    ops := s.decode }

/-- The head of the PCX buffer after an edge: an acknowledged or absent packet makes room for the
offered one. -/
def pcxBufferNext : Bool × PcxPacket :=
  if s.pcxVal && !s.pcxAck i then (true, s.pcx)
  else
    match i.pcxOffer with
    | some p => (true, p)
    | none => (false, s.pcx)

/-- `simplenocbuffer` after an edge. It holds one message; the flits of the next one are taken from
the cycle after the acknowledgement on, and overwrite its contents. -/
def noc2BufferNext : Bool × Noc2Message :=
  if s.noc2Val then (!s.noc2Ack i, s.noc2)
  else
    match i.noc2Offer with
    | some m => (true, m)
    | none => (false, i.noc2Receiving.getD s.noc2)

/-- `is_message_new` after an edge. -/
def isMessageNewNext (isNew ack headerAck : Bool) : Bool :=
  if ack then true else if headerAck then false else isNew

/-- One clock edge of the L1.5. -/
def step : State where
  pcxVal := (s.pcxBufferNext i).1
  pcx := (s.pcxBufferNext i).2
  pcxIsMessageNew := isMessageNewNext s.pcxIsMessageNew (s.pcxAck i) (s.pcxHeaderAck i)
  noc2Val := (s.noc2BufferNext i).1
  noc2 := (s.noc2BufferNext i).2
  noc2IsMessageNew := isMessageNewNext s.noc2IsMessageNew (s.noc2Ack i) (s.noc2HeaderAck i)
  fetchState := fetchStateNext s.fetchState s.predecode.reqtype s.intVecDis (s.stallS1 i)
  creditman := s.creditmanNext i
  valS2 := if s.stallS2 i then s.valS2 else s.s1Issues i
  s2 := if s.stallS2 i then s.s2 else s.s1Instr
  valS3 := if s.stallS3 i then s.valS3 else s.valS2 && !s.stallS2 i
  s3 := if s.stallS3 i then s.s3 else s.s2
  s3Result := if s.stallS3 i then s.s3Result else s.s2Result
  cpxencoderReqStaled := s.cpxencoderReqStaledNext i
  noc1encoderReqStaled := s.noc1encoderReqStaledNext i
  noc3encoderReqStaled := s.noc3encoderReqStaledNext i
  lruDataS3 := s.lruarray.readData
  mshr := s.mshr.tick (s.mshrS1Write i) s.mshrS3Write
  utag := s.utag.tick (s.dtagPort i) (s.dtagMove i)
  udata := s.udata.tick (s.dcachePort i)
  mesi := s.mesi.tick (s.mesiReadVal i) s.indexS1 (s.mesiWrite i)
  lruarray := s.lruarray.tick (s.s1Issues i) s.indexS1 s.lruWrite
  wmt := s.wmt.tick (s.wmtReadVal i) s.wmtReadIndex s.wmtWrite
  vi :=
    s.vi.tick i.undriven.viReadVal i.undriven.viReadExt i.undriven.viWriteVal
      i.undriven.viWriteMask i.undriven.viWriteData
  cpxencoder := s.cpxencoder.next s.cpxencoderVal s.cpxReq.2
  noc1buffer := s.noc1buffer.tick (s.noc1Request i) (s.noc1encoderReqAck i)
  noc3buffer := s.noc3buffer.tick s.noc3Request (s.noc3encoderReqAck i)

end State

end Piton.L15
