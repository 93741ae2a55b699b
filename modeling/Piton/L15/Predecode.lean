import Piton.L15.State

/-! Predecode: the request of S1 and the comparisons with the MSHRs. -/

namespace Piton.L15

namespace State

variable (s : State)

/-- `pcxdecoder_l15_val`. -/
def pcxdecoderVal : Bool := s.pcxVal && s.pcxIsMessageNew

/-- `noc2decoder_l15_val`. -/
def noc2decoderVal : Bool := s.noc2Val && s.noc2IsMessageNew

/-- `predecode_source_s1`. -/
def predecodeSource : PredecodeSource :=
  match s.fetchState with
  | .normal =>
    if s.noc2decoderVal then .noc2 else if s.pcxdecoderVal then .pcx else .invalid
  | .pcxWritebackDone => .pcx
  | .noc2WritebackDone | .inval2 | .inval3 | .inval4 | .icacheInval2 => .noc2

/-- `val_s1`. -/
def valS1 : Bool := s.predecodeSource ≠ .invalid

/-- `predecode_mshr_read_control_s1`. -/
def mshrReadControl : Control := s.mshr.readControl s.noc2.mshrid s.noc2.threadid

/-- `pcxdecoder_l15_address[L15_ADDR_TYPE]`. -/
def specialAccess : BitVec 8 := s.pcx.address.extractLsb' 32 8

/-- `predecode_int_vec_dis_s1`: bits `39:32` and `11:8` of `L15_INT_VEC_DIS`. -/
def intVecDis : Bool :=
  s.pcx.address.extractLsb' 32 8 = (0x98 : BitVec 8) &&
    s.pcx.address.extractLsb' 8 4 = (0x8 : BitVec 4)

end State

/-- The address of sub-line `k` of the 64-byte line of `a` (`predecode_address_plusk_s1`). -/
def addressPlus (a : Paddr) (k : BitVec 2) : Paddr :=
  (a.extractLsb' 6 34 ++ k) ++ a.extractLsb' 0 4

/-- The sub-line that an invalidation or a downgrade of a data line addresses in a fetch state. -/
def invalSubline : FetchState → BitVec 2
  | .inval2 => 1
  | .inval3 => 2
  | .inval4 => 3
  | _ => 0

/-- The sub-line that an instruction cache invalidation addresses in a fetch state. -/
def icacheInvalSubline : FetchState → BitVec 2
  | .icacheInval2 => 2
  | _ => 0

/-- `predecode_is_last_inval_s1`. -/
def isLastInval (icacheType : Bool) (fs : FetchState) (v : BitVec 4) : Bool :=
  if icacheType then
    (fs = .icacheInval2 && v.extractLsb' 2 2 = 3#2) || (fs = .normal && v = 3#4)
  else
    (fs = .inval4 && v.getLsbD 3) || (fs = .inval3 && v.extractLsb' 2 2 = 1#2) ||
      (fs = .inval2 && v.extractLsb' 1 3 = 1#3) || (fs = .normal && v = 1#4)

/-- The request type of a data acknowledgement, from the control bits and the store state of the
MSHR it names. -/
def dataAckReqtype (c : Control) (stState : TransState) : Reqtype :=
  if c.nc then
    if c.icache then .ackdtIfill
    else if c.load then .ackdtLdNc
    else if c.atomic then .ackAtomic
    else .ignore
  else
    if c.icache then .ackdtIfill
    else if c.load then .ackdtLd
    else if stState = .IM then .ackdtStIm
    else if stState = .SM then .ackdtStSm
    else .ignore

/-- The request type of a NoC2 message. -/
def noc2Reqtype (m : Noc2Message) (c : Control) (stState : TransState) : Reqtype :=
  match m.reqtype with
  | .storeFwd | .invFwd => if m.icacheType then .icacheInvalidation else .invalidation
  | .loadFwd => if m.icacheType then .icacheInvalidation else .downgrade
  | .dataAck => if m.hmcFill then .hmcFill else dataAckReqtype c stState
  | .nodataAck => if m.mshrid = .st then .ackWritethrough else .ackPrefetch
  | .interrupt => .l2Interrupt
  | .other => .none

/-- The address of a NoC2 message. -/
def noc2Address (m : Noc2Message) (fs : FetchState) (ldAddress stAddress : Paddr) : Paddr :=
  match m.reqtype with
  | .storeFwd | .invFwd | .loadFwd =>
    if m.icacheType then addressPlus m.address (icacheInvalSubline fs)
    else addressPlus m.address (invalSubline fs)
  | .dataAck =>
    if m.hmcFill then 0
    else
      match m.mshrid with
      | .ld => ldAddress
      | .st => stAddress
      | _ => 0
  | .nodataAck => if m.mshrid = .st then stAddress else 0
  | .interrupt | .other => 0

/-- The instruction cache bit of a NoC2 message. -/
def noc2IcacheBit (m : Noc2Message) (c : Control) : Bool :=
  match m.reqtype with
  | .storeFwd | .invFwd | .loadFwd => m.icacheType
  | .dataAck | .nodataAck => c.icache
  | .interrupt | .other => false

/-- The request type of a PCX packet. -/
def pcxReqtype (p : PcxPacket) (special : BitVec 8) : Reqtype :=
  match p.rqtype with
  | .load =>
    if special = 0xba#8 then .loadConfigReg
    else if special = 0xb0#8 then .diagLoad
    else if special = 0xb2#8 then .hmcDiagLoad
    else if p.bit110 then .loadPrefetch
    else if p.nc then .loadNc
    else if p.invalidateCacheline then .dcacheSelfInvalidation
    else .load
  | .ifill => if p.invalidateCacheline then .icacheSelfInvalidation else .ifill
  | .store =>
    if special = 0xba#8 then .writeConfigReg
    else if special = 0xb0#8 then .diagStore
    else if special = 0xb3#8 then .lineFlush
    else if special = 0xb2#8 then .hmcDiagStore
    else if special = 0xb5#8 then .hmcFlush
    else if p.nc then .writethrough
    else .store
  | .cas1 => .cas
  | .swpLoadstub => .swpLoadstub
  | .interrupt => .pcxInterrupt
  | .cas2 | .fp1 | .fp2 | .streamLoad | .streamStore | .fwdReq | .fwdReply => .ignore
  | .other => .none

/-- The signals that predecode derives from the message at the head of a buffer. -/
structure Predecoded where
  reqtype : Reqtype
  address : Paddr
  size : BitVec 3
  threadid : ThreadId
  l1ReplacementWay : Way
  nonCacheable : Bool
  blockstore : Bool
  blockstoreinit : Bool
  prefetch : Bool
  l2Miss : Bool
  f4b : Bool
  icache : Bool
  dcacheLoad : Bool
  atomic : Bool
  noc2Inval : Bool
  fwdSubcachelineVector : BitVec 4
  interruptBroadcast : Bool
  isLastInval : Bool

namespace State

variable (s : State)

/-- Predecode of the NoC2 message. -/
def predecodeNoc2 : Predecoded :=
  let c := s.mshrReadControl
  let m := s.noc2
  { reqtype := noc2Reqtype m c (s.mshr.stState m.threadid)
    address := noc2Address m s.fetchState (s.mshr.ldAddress m.threadid)
      (s.mshr.stAddress m.threadid)
    size := c.size
    threadid := m.threadid
    l1ReplacementWay := c.l1ReplacementWay
    nonCacheable := c.nc
    blockstore := c.blockstore
    blockstoreinit := c.blockstoreinit
    prefetch := c.prefetch
    l2Miss := m.l2miss
    f4b := false
    icache := noc2IcacheBit m c
    dcacheLoad := c.load
    atomic := c.atomic
    noc2Inval := m.reqtype = .invFwd && !m.icacheType
    fwdSubcachelineVector := m.fwdSubcachelineVector
    interruptBroadcast := false
    isLastInval := isLastInval m.icacheType s.fetchState m.fwdSubcachelineVector }

/-- Predecode of the PCX packet. -/
def predecodePcx : Predecoded :=
  let p := s.pcx
  let reqtype := pcxReqtype p s.specialAccess
  { reqtype := reqtype
    address := p.address
    size := p.size
    threadid := p.threadid
    l1ReplacementWay := p.l1rplway
    nonCacheable := p.nc
    blockstore := p.bit110
    blockstoreinit := p.blockinitstore
    prefetch := p.bit110 && reqtype ≠ .writethrough
    l2Miss := false
    f4b := false
    icache := p.rqtype = .ifill
    dcacheLoad := p.rqtype = .load
    atomic := p.rqtype = .cas1 || p.rqtype = .swpLoadstub
    noc2Inval := false
    fwdSubcachelineVector := 0
    interruptBroadcast := p.rqtype = .interrupt && p.nc
    isLastInval := false }

/-- Predecode without a message. -/
def predecodeInvalid : Predecoded :=
  { reqtype := .none, address := 0, size := 0, threadid := 0, l1ReplacementWay := 0,
    nonCacheable := false, blockstore := false, blockstoreinit := false, prefetch := false,
    l2Miss := false, f4b := false, icache := false, dcacheLoad := false, atomic := false,
    noc2Inval := false, fwdSubcachelineVector := 0, interruptBroadcast := false,
    isLastInval := false }

/-- The `predecode_*_s1` signals. -/
def predecode : Predecoded :=
  match s.predecodeSource with
  | .noc2 => s.predecodeNoc2
  | .pcx => s.predecodePcx
  | .invalid => predecodeInvalid

/-- `predecode_cache_index_s1`. -/
def indexS1 : SetIndex := cacheIndex s.predecode.address

/-- `predecode_tagcheck_matched_t*ld_s1`: a part of the line address is compared. -/
def tagcheckMatchedLd (t : ThreadId) : Bool :=
  s.mshr.ldVal t && partialTag s.pcx.address = partialTag (s.mshr.ldAddress t)

/-- `predecode_tagcheck_matched_t*st_s1`. -/
def tagcheckMatchedSt (t : ThreadId) : Bool :=
  s.mshr.stVal t && lineAddress s.pcx.address = lineAddress (s.mshr.stAddress t)

/-- `predecode_tagcheck_matched_s1`. -/
def tagcheckMatched : Bool :=
  s.tagcheckMatchedLd 0 || s.tagcheckMatchedLd 1 || s.tagcheckMatchedSt 0 || s.tagcheckMatchedSt 1

/-- `predecode_hit_stbuf_s1`. -/
def hitStbuf : Bool := s.tagcheckMatchedSt 0 || s.tagcheckMatchedSt 1

/-- `predecode_hit_stbuf_threadid_s1`. -/
def hitStbufThreadid : ThreadId := if s.tagcheckMatchedSt 1 then 1 else 0

end State

end Piton.L15
