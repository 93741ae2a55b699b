import Piton.L15.Rows
import Piton.L15.Run
import Piton.Lib.Ring

/-! The L1.5 in its surroundings.

The outside of the L1.5 remembers which NoC1 requests the encoder has taken and not yet answered.
Its answers conform to the protocol: each belongs to one such request and is of its kind. -/

namespace Piton.L15

open Hw

/-! ### Traffic -/

/-- The NoC1 requests that wait for their answers, by MSHR. -/
structure Traffic where
  outstanding : MshrId → ThreadId → Option Noc1Command

/-- No request waits. -/
def Traffic.empty : Traffic := ⟨fun _ _ => none⟩

/-- The command waits for the answer to the entry `id` of thread `t`. -/
def Noc1Command.waits (c : Noc1Command) (id : MshrId) (t : ThreadId) : Bool :=
  c.reqtype.expects && c.mshrid = id && c.threadid = t

/-- The message answers the entry `id` of thread `t`. -/
def Noc2Message.answers (m : Noc2Message) (id : MshrId) (t : ThreadId) : Bool :=
  ((m.reqtype = .dataAck && !m.hmcFill) || (m.reqtype = .nodataAck && m.mshrid = .st)) &&
    m.mshrid = id && m.threadid = t

/-- The message is a forward of the L2. -/
def Noc2Message.isForward (m : Noc2Message) : Bool :=
  m.reqtype = .storeFwd || m.reqtype = .invFwd || m.reqtype = .loadFwd

namespace State

variable (s : State) (i : Inputs)

/-- The message that the NoC2 buffer accepts. -/
def noc2Accepts : Option Noc2Message := if s.noc2Val then none else i.noc2Offer

/-- The contents that a flit leaves in the NoC2 buffer. -/
def noc2Flit : Option Noc2Message := if s.noc2Val then none else i.noc2Offer <|> i.noc2Receiving

/-- The command that the encoder takes. -/
def noc1Sent : Option Noc1Command :=
  if s.noc1encoderReqAck i then some s.noc1buffer.head else none

/-- The next fetch state. -/
def fetchStateNextS1 : FetchState :=
  fetchStateNext s.fetchState s.predecode.reqtype s.intVecDis (s.stallS1 i)

end State

/-- The waiting requests after a cycle: an answer ends the wait, and a request that the encoder
takes starts it. -/
def trafficNext (g : Traffic) (s : State) (i : Inputs) : Traffic where
  outstanding id t :=
    if (s.noc2Accepts i).any fun m => m.answers id t then none
    else if (s.noc1Sent i).any fun c => c.waits id t then s.noc1Sent i
    else g.outstanding id t

/-- The L1.5 and its traffic. -/
def system : Machine (State × Traffic) Inputs := machine.withHistory Traffic.empty trafficNext

theorem system_init : system.init (State.reset, Traffic.empty) := ⟨State.reset_isReset, rfl⟩

/-! ### Conforming inputs -/

/-- A message that the protocol allows. A data acknowledgement answers a waiting request other than
a write-through, and an acknowledgement without data to a store entry answers a write-through; a
store's acknowledgement grants M. -/
def conforming (g : Traffic) (m : Noc2Message) : Bool :=
  match m.reqtype with
  | .dataAck =>
    m.hmcFill || ((g.outstanding m.mshrid m.threadid).any fun c =>
      c.reqtype ≠ .writethroughRequest && (m.mshrid ≠ .st || m.ackState = .M))
  | .nodataAck =>
    m.mshrid ≠ .st || (g.outstanding m.mshrid m.threadid).any fun c =>
      c.reqtype = .writethroughRequest
  | .storeFwd | .invFwd | .loadFwd | .interrupt => true
  | .other => false

/-- The core sends atomics as non-cacheable. -/
def PcxPacket.atomicsNc (p : PcxPacket) : Bool :=
  p.nc || (p.rqtype ≠ .cas1 && p.rqtype ≠ .swpLoadstub)

/-- The inputs of a conforming cycle: NoC2 sends messages that the protocol allows, and the core
sends atomics as non-cacheable. -/
structure Conforms (y : State × Traffic) (i : Inputs) : Prop where
  noc2 : (y.1.noc2Accepts i).all (conforming y.2) = true
  pcx : i.pcxOffer.all PcxPacket.atomicsNc = true

/-- No NoC2 flit arrives while the second pass of an instruction cache invalidation, whose message was
acknowledged in the first pass, still waits. -/
def IcacheUndisturbed (y : State × Traffic) (i : Inputs) : Prop :=
  y.1.fetchStateNextS1 i = .icacheInval2 → y.1.noc2Flit i = none

/-- A conforming cycle in which no flit arrives between the passes of an instruction cache
invalidation. -/
def InputOk (y : State × Traffic) (i : Inputs) : Prop := Conforms y i ∧ IcacheUndisturbed y i

theorem InputOk.noc2 {y : State × Traffic} {i : Inputs} (h : InputOk y i) :
    (y.1.noc2Accepts i).all (conforming y.2) = true := h.1.noc2

theorem InputOk.pcx {y : State × Traffic} {i : Inputs} (h : InputOk y i) :
    i.pcxOffer.all PcxPacket.atomicsNc = true := h.1.pcx

theorem InputOk.icache {y : State × Traffic} {i : Inputs} (h : InputOk y i) :
    y.1.fetchStateNextS1 i = .icacheInval2 → y.1.noc2Flit i = none := h.2

instance (y : State × Traffic) (i : Inputs) : Decidable (Conforms y i) :=
  decidable_of_iff
    ((y.1.noc2Accepts i).all (conforming y.2) = true ∧ i.pcxOffer.all PcxPacket.atomicsNc = true)
    ⟨fun h => ⟨h.1, h.2⟩, fun h => ⟨h.noc2, h.pcx⟩⟩

instance (y : State × Traffic) (i : Inputs) : Decidable (IcacheUndisturbed y i) :=
  decidable_of_iff (y.1.fetchStateNextS1 i = .icacheInval2 → (y.1.noc2Flit i).isNone = true)
    ⟨fun h hf => Option.isNone_iff_eq_none.1 (h hf), fun h hf => Option.isNone_iff_eq_none.2 (h hf)⟩

instance (y : State × Traffic) (i : Inputs) : Decidable (InputOk y i) :=
  inferInstanceAs (Decidable (_ ∧ _))

/-! ### Locations of a request -/

/-- The instruction makes a request for the entry `id` of thread `t`. -/
def Instr.requests (x : Instr) (id : MshrId) (t : ThreadId) : Bool :=
  x.ops.noc1Operation.expects && x.mshrid = id && x.threadid = t

/-- The instruction completes the request of the entry `id` of thread `t`. -/
def Instr.completes (x : Instr) (id : MshrId) (t : ThreadId) : Bool :=
  x.ops.s3MshrOperation = .deallocation && x.mshrid = id && x.threadid = t

namespace Noc1Buffer

/-- The command buffer as a ring. -/
def ring (b : Noc1Buffer) : Ring 8 Noc1Command :=
  { slot := b.commandBuffer, full := b.commandBufferVal, wr := b.commandWrindex,
    rd := b.commandRdindex }

end Noc1Buffer

namespace State

variable (s : State) (id : MshrId) (t : ThreadId)

/-- The request is in S2. -/
def reqS2 : Bool := s.valS2 && s.s2.requests id t

/-- The request is in S3. -/
def reqS3 : Bool := s.valS3 && s.s3.requests id t

/-- The number of requests in the NoC1 buffer. -/
def reqBuffered : Nat := s.noc1buffer.ring.weight fun c => (c.waits id t).toNat

/-- The answer waits in the NoC2 buffer, or between the two passes of a fill. -/
def answerWaits : Bool :=
  s.noc2Val && (s.noc2IsMessageNew || s.fetchState = .noc2WritebackDone) && s.noc2.answers id t

/-- The completion is in S2. -/
def ackS2 : Bool := s.valS2 && s.s2.completes id t

/-- The completion is in S3 and has not freed its entry. -/
def ackS3 : Bool := s.valS3 && s.s3.completes id t && s.cpxencoder = .normal

/-- How many times the request of an entry exists, from its allocation to its completion. -/
def tokens (g : Traffic) : Nat :=
  (s.reqS2 id t).toNat + (s.reqS3 id t).toNat + s.reqBuffered id t +
    (g.outstanding id t).isSome.toNat + (s.answerWaits id t).toNat + (s.ackS2 id t).toNat +
    (s.ackS3 id t).toNat

end State

end Piton.L15
