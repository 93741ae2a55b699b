import Piton.L15.Arrays
import Piton.L15.Mshr
import Piton.L15.Buffers

/-! The registers of the L1.5: the three-stage pipeline, its credit manager, the MSHRs, the storage
arrays and the buffers on both sides. -/

namespace Piton.L15

/-- The control signals that the S1 decoder generates from a request. -/
structure Decoded where
  pcxAckStage : AckStage := .never
  noc2AckStage : AckStage := .never
  stallOnMshrAllocation : Bool := false
  mshrAllocationType : MshrId := .none
  stallOnMatchedBypassedIndex : Bool := false
  stallOnMatchedMshr : Bool := false
  s1MshrOperation : S1MshrOp := .none
  dtagOperation : DtagOp := .none
  s2MshrOperation : S2MshrOp := .none
  mesiReadOp : S2MesiOp := .none
  dcacheOperation : DcacheOp := .none
  s3MshrOperation : S3MshrOp := .none
  mesiWriteOp : S3MesiOp := .none
  wmtReadOp : WmtReadOp := .none
  wmtWriteOp : WmtWriteOp := .none
  wmtCompareOp : WmtCompareOp := .none
  lruarrayWriteOp : LruWriteOp := .none
  cpxOperation : CpxOp := .none
  noc1Operation : Noc1Op := .none
  noc3Operation : Noc3Op := .none
  creditmanNoc1Needed : Nat := 0
  creditmanNoc1Unreserve : Bool := false
  creditmanReq8B : Bool := false
  creditmanReq16B : Bool := false
  deriving Repr

/-- What an instruction carries from S1 to S2 and from S2 to S3. The record of control signals is
carried whole; each stage reads the fields that the source registers for it. -/
structure Instr where
  reqtype : Reqtype
  threadid : ThreadId
  mshrid : MshrId
  address : Paddr
  nonCacheable : Bool
  size : BitVec 3
  prefetch : Bool
  l1ReplacementWay : Way
  l2Miss : Bool
  f4b : Bool
  noc2Inval : Bool
  fwdSubcachelineVector : BitVec 4
  blockstore : Bool
  blockstoreinit : Bool
  noc2AckState : Mesi
  ops : Decoded

/-- What S2 finds in the arrays and registers for S3. -/
structure S2Result where
  tagcheckWay : Way
  tagcheckState : Mesi
  flushWay : Way
  flushState : Mesi
  lruWay : Way
  lruState : Mesi
  lruWayTag : Tag
  flushWayTag : Tag

/-- The credit counters of NoC1, four bits each. -/
structure Creditman where
  noc1Avail : BitVec 4
  noc1DataAvail : BitVec 4
  noc1Reserve : BitVec 4

/-- The registers of the L1.5. The packet and the message of the input buffers have contents also when
they are not valid. -/
structure State where
  pcxVal : Bool
  pcx : PcxPacket
  pcxIsMessageNew : Bool
  noc2Val : Bool
  noc2 : Noc2Message
  noc2IsMessageNew : Bool
  fetchState : FetchState
  creditman : Creditman
  valS2 : Bool
  s2 : Instr
  valS3 : Bool
  s3 : Instr
  s3Result : S2Result
  cpxencoderReqStaled : Bool
  noc1encoderReqStaled : Bool
  noc3encoderReqStaled : Bool
  lruDataS3 : BitVec 6
  mshr : Mshr
  utag : Utag
  udata : Udata
  mesi : RfMesi
  lruarray : RfLru
  wmt : RfWmt
  vi : RfVi
  cpxencoder : CpxState
  noc1buffer : Noc1Buffer
  noc3buffer : Noc3Buffer

/-- The registers that reset (or an `initial` block) defines have their reset values; the others
are arbitrary. -/
structure State.IsReset (s : State) : Prop where
  pcxVal : s.pcxVal = false
  pcxIsMessageNew : s.pcxIsMessageNew = true
  noc2Val : s.noc2Val = false
  noc2IsMessageNew : s.noc2IsMessageNew = true
  fetchState : s.fetchState = .normal
  creditman : s.creditman = ⟨8, 2, 0⟩
  valS2 : s.valS2 = false
  valS3 : s.valS3 = false
  cpxencoderReqStaled : s.cpxencoderReqStaled = false
  noc1encoderReqStaled : s.noc1encoderReqStaled = false
  noc3encoderReqStaled : s.noc3encoderReqStaled = false
  mshrVal : ∀ id t, s.mshr.val id t = false
  ptags : s.utag.ptags = fun _ _ => 0
  vtags : s.utag.vtags = fun _ => 0
  pdata : s.udata.pdata = fun _ => 0
  vdata : s.udata.vdata = fun _ => 0
  mesi : s.mesi.regfile = fun _ _ => .I
  mesiWriteValidF : s.mesi.writeValidF = false
  mesiReadIndexF : s.mesi.readIndexF = 0
  lruarray : s.lruarray.regfile = fun _ => 0
  lruReadIndexF : s.lruarray.readIndexF = 0
  wmt : ∀ i w, (s.wmt.regfile i w).valid = false
  wmtWriteValidF : s.wmt.writeValidF = false
  vi : s.vi.vi = fun _ => false
  viWriteValidF : s.vi.writeValidF = false
  cpxencoder : s.cpxencoder = .normal
  commandBufferVal : ∀ i, s.noc1buffer.commandBufferVal i = false
  commandWrindex : s.noc1buffer.commandWrindex = 0
  commandRdindex : s.noc1buffer.commandRdindex = 0
  dataWrindex : s.noc1buffer.dataWrindex = 0
  noc3bufferVal : s.noc3buffer.bufferVal = false

end Piton.L15
