import Piton.L15.Types

/-! The units that take the requests of stage S3: `noc1buffer`, `l15_cpxencoder` and
`noc3buffer`. -/

namespace Piton.L15

/-! ### Requests -/

/-- A request to `noc1buffer`. -/
structure Noc1Request where
  val : Bool
  reqtype : Noc1Reqtype
  mshrid : MshrId
  threadid : ThreadId
  address : Paddr
  nonCacheable : Bool
  size : BitVec 3
  prefetch : Bool
  data0 : Word
  data1 : Word

/-- A request to `noc3buffer`. -/
structure Noc3Request where
  val : Bool
  reqtype : Noc3Reqtype
  data0 : Word
  data1 : Word
  mshrid : MshrId
  sequenceid : BitVec 2
  threadid : ThreadId
  address : Paddr
  withData : Bool
  wasInval : Bool
  fwdackVector : BitVec 4

/-- A request to `l15_cpxencoder`; the fields that the pipeline ties to zero are left out. -/
structure CpxRequest where
  val : Bool
  returntype : CpxRestype
  l2miss : Bool
  noncacheable : Bool
  threadid : ThreadId
  prefetch : Bool
  f4b : Bool
  atomic : Bool
  invalIcacheAllWay : Bool
  invalAddress154 : BitVec 12
  invalDcacheInval : Bool
  invalWay : Way
  blockinitstore : Bool
  data0 : Word
  data1 : Word
  data2 : Word
  data3 : Word

/-! ### NoC1 buffer -/

/-- A slot of the command buffer. -/
structure Noc1Command where
  reqtype : Noc1Reqtype
  mshrid : MshrId
  threadid : ThreadId
  address : Paddr
  nonCacheable : Bool
  size : BitVec 3
  prefetch : Bool
  dataIndex : Fin 2

/-- `noc1buffer`: a ring of eight commands and two data words. -/
structure Noc1Buffer where
  commandBuffer : Fin 8 → Noc1Command
  commandBufferVal : Fin 8 → Bool
  dataBuffer : Fin 2 → Word
  commandWrindex : Fin 8
  commandRdindex : Fin 8
  dataWrindex : Fin 2

/-- The number of data words a request puts into the data buffer. -/
def Noc1Reqtype.dataWords : Noc1Reqtype → Nat
  | .casRequest => 2
  | .swapRequest | .interruptFwd | .writethroughRequest => 1
  | _ => 0

namespace Noc1Buffer

/-- The command offered to `noc1encoder`. -/
def head (b : Noc1Buffer) : Noc1Command := b.commandBuffer b.commandRdindex

/-- `noc1buffer_noc1encoder_req_val`, but for the home identifier. -/
def headVal (b : Noc1Buffer) : Bool := b.commandBufferVal b.commandRdindex

/-- `noc1buffer_l15_req_data_sent`, as a number of words. -/
def reqDataSent (b : Noc1Buffer) (ack : Bool) : Nat := if ack then b.head.reqtype.dataWords else 0

/-- The slot written for a request. -/
def command (b : Noc1Buffer) (r : Noc1Request) : Noc1Command :=
  { reqtype := r.reqtype, mshrid := r.mshrid, threadid := r.threadid, address := r.address,
    nonCacheable := r.nonCacheable, size := r.size, prefetch := r.prefetch,
    dataIndex := b.dataWrindex }

/-- One clock edge of `noc1buffer`. -/
def tick (b : Noc1Buffer) (r : Noc1Request) (ack : Bool) : Noc1Buffer where
  commandBuffer :=
    if r.val then Function.update b.commandBuffer b.commandWrindex (b.command r)
    else b.commandBuffer
  commandBufferVal i :=
    if r.val && b.commandWrindex = i then true
    else if ack && b.commandRdindex = i then false
    else b.commandBufferVal i
  dataBuffer :=
    if r.val then
      match r.reqtype with
      | .casRequest =>
        Function.update (Function.update b.dataBuffer b.dataWrindex r.data0)
          (b.dataWrindex + 1) r.data1
      | .swapRequest | .interruptFwd | .writethroughRequest =>
        Function.update b.dataBuffer b.dataWrindex r.data0
      | _ => b.dataBuffer
    else b.dataBuffer
  commandWrindex := if r.val then b.commandWrindex + 1 else b.commandWrindex
  commandRdindex := if ack then b.commandRdindex + 1 else b.commandRdindex
  dataWrindex :=
    if r.val then
      match r.reqtype with
      | .casRequest => b.dataWrindex + 2
      | .swapRequest | .interruptFwd | .writethroughRequest => b.dataWrindex + 1
      | _ => b.dataWrindex
    else b.dataWrindex

end Noc1Buffer

/-! ### CPX encoder -/

/-- The state of `l15_cpxencoder`. -/
inductive CpxState where
  | normal | secondhalf
  deriving DecidableEq, Repr

/-- `next_state`: instruction fills and atomic results take two cycles. -/
def CpxState.next (st : CpxState) (val : Bool) (returntype : CpxRestype) : CpxState :=
  if val then
    match returntype, st with
    | .ifill1, .normal | .atomicRes, .normal => .secondhalf
    | _, _ => .normal
  else .normal

/-- `cpxencoder_l15_req_ack`. -/
def CpxState.reqAck (st : CpxState) (val : Bool) (returntype : CpxRestype) : Bool :=
  val && st.next val returntype = .normal

/-! ### NoC3 buffer -/

/-- `noc3buffer`: one request. -/
structure Noc3Buffer where
  bufferVal : Bool
  buffer : Noc3Request

namespace Noc3Buffer

/-- `noc3buffer_l15_req_ack`. -/
def reqAck (b : Noc3Buffer) (reqVal encoderAck : Bool) : Bool :=
  reqVal && (!b.bufferVal || encoderAck)

/-- One clock edge of `noc3buffer`. -/
def tick (b : Noc3Buffer) (r : Noc3Request) (encoderAck : Bool) : Noc3Buffer where
  bufferVal := if b.reqAck r.val encoderAck then true else if encoderAck then false else b.bufferVal
  buffer := if b.reqAck r.val encoderAck then r else b.buffer

end Noc3Buffer

end Piton.L15
