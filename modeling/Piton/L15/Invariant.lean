import Piton.L15.Flow

/-! The invariant of the control part: who holds the messages of the input buffers, which pass
comes next, what the MSHRs contain, and where the request of each MSHR is.

Its conjuncts need each other and are kept together; what keeps them is proved in the modules that
follow. -/

namespace Piton.L15

open Hw

/-! ### Contents of the MSHRs -/

/-- The control bits of the requests that allocate an entry of a kind. -/
def Control.Fits (c : Control) (id : MshrId) : Prop :=
  match id with
  | .none => True
  | .ifill => c.icache = true
  | .ld => c.icache = false ∧ (c.nc = false → c.load = true) ∧ (c.load = true ∨ c.atomic = true)
  | .st => c.icache = false ∧ c.load = false ∧ c.atomic = false

namespace Mshr

/-- The address of an entry; instruction fill entries have none. -/
def address (m : Mshr) (id : MshrId) (t : ThreadId) : Paddr :=
  match id with
  | .ld => m.ldAddress t
  | .st => m.stAddress t
  | .none | .ifill => 0

/-- The command is the request of the entry that it names. -/
def FitsCommand (m : Mshr) (c : Noc1Command) : Prop :=
  c.mshrid ≠ .ifill →
    c.nonCacheable = (m.readControl c.mshrid c.threadid).nc ∧
      (c.mshrid = .st → (c.reqtype = .writethroughRequest ↔ (m.stControl c.threadid).nc = true))

/-- The instruction is the request of the entry that it names. -/
def FitsRequest (m : Mshr) (x : Instr) : Prop :=
  x.mshrid = x.ops.noc1Operation.mshrId ∧
    (x.mshrid ≠ .ifill →
      x.nonCacheable = (m.readControl x.mshrid x.threadid).nc ∧
        x.ops.noc1Operation.cacheable = !(m.readControl x.mshrid x.threadid).nc ∧
          x.address = m.address x.mshrid x.threadid)

end Mshr

/-! ### The invariant -/

/-- The instruction takes the PCX packet away in S2 or S3. -/
def Instr.acksPcx (x : Instr) : Bool := x.ops.pcxAckStage = .s2 || x.ops.pcxAckStage = .s3

/-- The instruction takes the NoC2 message away in S2 or S3. -/
def Instr.acksNoc2 (x : Instr) : Bool := x.ops.noc2AckStage = .s2 || x.ops.noc2AckStage = .s3

namespace State

variable (s : State)

/-- The passes and instructions that still need the PCX packet. -/
def pcxUsers : Nat :=
  (s.valS2 && s.s2.acksPcx).toNat + (s.valS3 && s.s3.ops.pcxAckStage = .s3).toNat +
    (decide (s.fetchState = .pcxWritebackDone)).toNat

/-- The PCX packet is being processed. -/
def pcxHeld : Bool := s.pcxVal && !s.pcxIsMessageNew

/-- The pass of a NoC2 message that follows in the fetch state needs it. The second pass of an
instruction cache invalidation can come without its message. -/
def noc2PassUser : Bool :=
  s.fetchState.noc2Pass && (s.noc2Val || s.fetchState ≠ .icacheInval2)

/-- The passes and instructions that still need the NoC2 message. -/
def noc2Users : Nat :=
  (s.valS2 && s.s2.acksNoc2).toNat + (s.valS3 && s.s3.ops.noc2AckStage = .s3).toNat +
    s.noc2PassUser.toNat

/-- The NoC2 message is being processed. -/
def noc2Held : Bool := s.noc2Val && !s.noc2IsMessageNew

/-- The allocating store or write-through of thread `t` has left S3. -/
def stSettled (t : ThreadId) : Prop :=
  s.mshr.stVal t = true ∧ s.reqS2 .st t = false ∧ s.reqS3 .st t = false

end State

/-- The invariant of the control part. -/
structure Inv (y : State × Traffic) : Prop where
  decodesS2 : y.1.valS2 = true → Decodes y.1.s2.reqtype y.1.s2.ops
  decodesS3 : y.1.valS3 = true → Decodes y.1.s3.reqtype y.1.s3.ops
  cpxHalf : y.1.cpxencoder = .secondhalf →
    y.1.valS3 = true ∧ y.1.s3.ops.cpxOperation.twoCycles = true
  cpxFreed : y.1.cpxencoder = .secondhalf →
    ∀ id t, y.1.s3.completes id t = true → y.1.mshr.val id t = false
  pcxNc : y.1.pcxVal = true → y.1.pcx.atomicsNc = true
  pcxUsers : y.1.pcxUsers ≤ y.1.pcxHeld.toNat
  pcxPass : y.1.fetchState = .pcxWritebackDone →
    y.1.predecodePcx.reqtype = .lineFlush ∨
      (y.1.predecodePcx.reqtype.twoPasses = true ∧
        (y.1.predecodePcx.reqtype = .writethrough → y.1.intVecDis = false))
  pcxPassFree : y.1.fetchState = .pcxWritebackDone →
    y.1.predecodePcx.reqtype.twoPasses = true →
      y.1.mshr.val y.1.predecodePcx.reqtype.passMshrId y.1.pcx.threadid = false
  noc2Users : y.1.noc2Users ≤ y.1.noc2Held.toNat
  noc2Sane : y.1.noc2Val = true → y.1.noc2.reqtype ≠ .other
  fillPass : y.1.fetchState = .noc2WritebackDone → y.1.predecodeNoc2.reqtype.isFill = true
  forwardPass : y.1.fetchState = .inval2 ∨ y.1.fetchState = .inval3 ∨ y.1.fetchState = .inval4 →
    y.1.noc2.isForward = true ∧ y.1.noc2.icacheType = false
  icachePass : y.1.fetchState = .icacheInval2 →
    y.1.noc2.isForward = true ∧ y.1.noc2.icacheType = true ∧
      (y.1.noc2Val = false → y.1.noc2.fwdSubcachelineVector = 3)
  control : ∀ id t, y.1.mshr.val id t = true → (y.1.mshr.readControl id t).Fits id
  requestS2 : y.1.valS2 = true → y.1.s2.ops.noc1Operation.expects = true →
    y.1.mshr.FitsRequest y.1.s2
  requestS3 : y.1.valS3 = true → y.1.s3.ops.noc1Operation.expects = true →
    y.1.mshr.FitsRequest y.1.s3
  buffered : ∀ k, y.1.noc1buffer.commandBufferVal k = true →
    (y.1.noc1buffer.commandBuffer k).reqtype.expects = true →
      y.1.mshr.FitsCommand (y.1.noc1buffer.commandBuffer k)
  outstanding : ∀ id t c, y.2.outstanding id t = some c →
    c.waits id t = true ∧ y.1.mshr.FitsCommand c
  answer : ∀ t, y.1.answerWaits .st t = true →
    (y.1.noc2.reqtype = .nodataAck ↔ (y.1.mshr.stControl t).nc = true) ∧
      (y.1.noc2.reqtype = .dataAck → y.1.noc2.ackState = .M)
  settled : ∀ t, y.1.stSettled t →
    ((y.1.mshr.stControl t).nc = true → y.1.mshr.stState t = .waitAck) ∧
      ((y.1.mshr.stControl t).nc = false →
        y.1.mshr.stState t = .IM ∨ y.1.mshr.stState t = .SM)
  tokens : ∀ id t, y.1.tokens id t y.2 ≤ (y.1.mshr.val id t).toNat

end Piton.L15
