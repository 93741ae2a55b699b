import Mathlib.Data.Bool.Basic
import Piton.Lib.Machine
import Piton.Lib.Sizes

/-! The way of a PCX packet from the core to the L1.5: the queue monitor of the load-store unit and the
tests that decide when a request may be sent, the two-entry `pcx_buffer` and `pcx_decoder`. -/

namespace Piton.Pcx

open Hw

/-- The `PCX_WIDTH` bits of a packet and the `TLB_CSM_WIDTH` bits that come with it. -/
structure Packet where
  data : BitVec 124
  csmData : BitVec 33
deriving DecidableEq

/-- `PCX_VLD`. -/
def Packet.vld (p : Packet) : Bool := p.data.getLsbD 123

/-! ### The core -/

/-- What may ask to send a request: the store buffer of a thread, the floating-point unit, whose
requests are all atomic, or a load, an instruction miss, the stream unit, an interrupt or a forwarded
packet, with the banks that its `l2bnk_dest` names. -/
inductive Requester where
  | store (thread : Fin 4) (atomicVld : Bool)
  | fpop
  | other (l2bnkDest : BitVec 5)
deriving DecidableEq

namespace Requester

/-- `l2bnk_dest`; that of a store follows the head of the store buffer of its thread. -/
def l2bnkDest (st : Fin 4 → BitVec 5) : Requester → BitVec 5
  | store thread _ => st thread
  | fpop => 0b10000#5
  | other d => d

/-- The request is for two packets. -/
def atomic : Requester → Bool
  | store _ atomicVld => atomicVld
  | fpop => true
  | other _ => false

/-- An atomic store of the thread. -/
def isAtomicStore (t : Fin 4) : Requester → Bool
  | store thread atomicVld => thread == t && atomicVld
  | _ => false

end Requester

/-- The `lsu_pcx_qmon` of bank 0 and the request registers of `lsu_qctl1`. -/
structure Lsu where
  entry0Full : Bool
  entry1Full : Bool
  stAtomicPendD1 : Fin 4 → Bool
  fpopAtomicPendD1 : Bool
  mcycleMaskQwrD1 : BitVec 5
  spcPcxReqPq : Bool
  spcPcxAtomPq : Bool
  spcPcxReqUpdateW2 : Bool

namespace Lsu

variable (s : Lsu) (grant : Bool) (want : Option Requester) (st : Fin 4 → BitVec 5)

/-- `qwrite` of the monitor. -/
def qwrite : Bool := !s.entry1Full

/-- `sel_qentry0`: both entries are free and nothing is on its way. -/
def selQentry0 : Bool := !s.entry0Full && !s.spcPcxReqUpdateW2

/-- `pre_qwr`: every request is sent to bank 0 (`current_pkt_dest`), so the monitors of the other
banks stay empty. -/
def preQwr : BitVec 5 := 0b1111#4 ++ BitVec.ofBool s.qwrite

/-- `queue_write`. -/
def queueWrite : BitVec 5 := s.preQwr &&& ~~~s.mcycleMaskQwrD1

/-- The queues open to a request: `st_q_wr` and `fpop_q_wr` leave out the mask that the requester
itself has set. -/
def qWr : Requester → BitVec 5
  | .store thread _ => if s.stAtomicPendD1 thread then s.preQwr else s.queueWrite
  | .fpop => if s.fpopAtomicPendD1 then s.preQwr else s.queueWrite
  | .other _ => s.queueWrite

/-- `pcx_rq_for_stb_tmp`, `fpop_pcx_rq_sel_tmp` and their like: a queue of the request's own banks is
open, and no second packet of an atomic request is due. -/
def pcxRqSelTmp (r : Requester) : Bool := (s.qWr r &&& r.l2bnkDest st) != 0 && !s.spcPcxAtomPq

/-- The request of `want` that is picked; an atomic request needs both entries. -/
def picked : Option Requester :=
  want.filter fun r => s.pcxRqSelTmp st r && (!r.atomic || s.selQentry0)

/-- `pcx_rq_sel`. -/
def pcxRqSel : Bool := (s.picked want st).isSome

/-- `spc_pcx_atom_w`. -/
def spcPcxAtomW : Bool := (s.picked want st).any Requester.atomic

/-- `st_atomic_pend`: from the first try of an atomic store until both entries are free. -/
def stAtomicPend (t : Fin 4) : Bool :=
  (want.any (fun r => r.isAtomicStore t && s.pcxRqSelTmp st r) || s.stAtomicPendD1 t) &&
    !s.selQentry0

/-- `fpop_atomic_pend`. -/
def fpopAtomicPend : Bool :=
  (want.any (fun r => r == .fpop && s.pcxRqSelTmp st r) || s.fpopAtomicPendD1) && !s.selQentry0

/-- The bank that the waiting atomic store of a thread keeps from other requests. -/
def stMask (t : Fin 4) : BitVec 4 := if s.stAtomicPend want st t then (st t).setWidth 4 else 0

/-- `mcycle_mask_qwr`. -/
def mcycleMaskQwr : BitVec 5 :=
  BitVec.ofBool (s.fpopAtomicPend want st) ++
    (s.stMask want st 0 ||| s.stMask want st 1 ||| s.stMask want st 2 ||| s.stMask want st 3)

/-- `pcx_req_squash`: the request was made with the queue full and is not granted. -/
def pcxReqSquash : Bool := s.spcPcxReqPq && !s.qwrite && !grant

/-- The oldest packet moves down, or a packet comes into the empty queue. -/
def entry0En : Bool :=
  (s.entry1Full && grant) || (!(s.entry0Full && !grant) && s.spcPcxReqUpdateW2)

/-- A packet comes behind another one. -/
def entry1En : Bool := s.entry0Full && s.spcPcxReqUpdateW2 && !(grant && !s.entry1Full)

/-- A cycle; `grant` is that of bank 0. -/
def step : Lsu where
  entry0Full :=
    if grant && !s.entry0En grant then false else s.entry0En grant || s.entry0Full
  entry1Full :=
    if grant && !s.entry1En grant then false else s.entry1En grant || s.entry1Full
  stAtomicPendD1 := s.stAtomicPend want st
  fpopAtomicPendD1 := s.fpopAtomicPend want st
  mcycleMaskQwrD1 := s.mcycleMaskQwr want st
  spcPcxReqPq := s.pcxRqSel want st
  spcPcxAtomPq := s.spcPcxAtomW want st
  spcPcxReqUpdateW2 := if s.spcPcxAtomPq then s.spcPcxReqPq else s.pcxRqSel want st

end Lsu

/-! ### The buffer -/

/-- The registers of `pcx_buffer`; of the grants only bit 0 is ever set. -/
structure PcxBuffer where
  buffer : Bool → Packet
  bufferAtomic : Bool → Bool
  bufferAtomicNextNext : Bool
  bufferVal : Bool → Bool
  readPos : Bool
  writePos : Bool
  writeReq : Bool
  atomicReqSecondPacketComing : Bool
  atomicAckSecond : Bool
  uncoreSpcGrant : Bool

/-- What the core and the decoder drive into the buffer. -/
structure BufferInput where
  spcUncoreReq : Bool
  spcUncoreAtomicReq : Bool
  spcUncoreData : Packet
  pcxdecoderPcxbufAck : Bool

namespace PcxBuffer

variable (s : PcxBuffer) (i : BufferInput)

/-- `pcxbuf_pcxdecoder_data` and `pcxbuf_pcxdecoder_csm_data`. -/
def dataOut : Packet := s.buffer s.readPos

/-- `pcxbuf_pcxdecoder_data_buf1`. -/
def dataBuf1 : Packet := s.buffer (!s.readPos)

/-- `pcxbuf_pcxdecoder_valid`. -/
def valid : Bool := s.bufferVal s.readPos

/-- The write position after the packet of this cycle. -/
def writePosNext : Bool := if s.writeReq then !s.writePos else s.writePos

/-- `is_buffer_full`: the packet of this cycle takes the last entry and no grant is out. -/
def isBufferFull : Bool :=
  s.writePosNext == s.readPos && s.bufferVal s.readPos && !s.uncoreSpcGrant

/-- `is_req_squashed`. -/
def isReqSquashed : Bool := s.isBufferFull && i.spcUncoreReq

/-- The core puts the data one cycle after the request: an entry is written. -/
def write (d : Packet) : PcxBuffer :=
  if s.writeReq then
    { s with
      buffer := Function.update s.buffer s.writePos d
      bufferAtomic := Function.update s.bufferAtomic s.writePos s.bufferAtomicNextNext
      bufferVal := Function.update s.bufferVal s.writePos true
      writePos := !s.writePos }
  else s

/-- An acknowledged entry is freed; an atomic request frees both and keeps the read position. -/
def free (t : PcxBuffer) : PcxBuffer :=
  if s.bufferAtomic s.readPos then
    { t with bufferVal := fun _ => false, atomicAckSecond := true }
  else
    { t with
      bufferVal := Function.update t.bufferVal s.readPos false
      readPos := !s.readPos
      atomicAckSecond := false }

/-- A cycle of the buffer. -/
def step : PcxBuffer :=
  let t := s.write i.spcUncoreData
  let t := if i.pcxdecoderPcxbufAck then s.free t else { t with atomicAckSecond := false }
  { t with
    writeReq := (i.spcUncoreReq && !s.isReqSquashed i) || s.atomicReqSecondPacketComing
    bufferAtomicNextNext := i.spcUncoreAtomicReq && !s.isReqSquashed i
    atomicReqSecondPacketComing := i.spcUncoreAtomicReq && !s.isReqSquashed i
    uncoreSpcGrant := i.pcxdecoderPcxbufAck || s.atomicAckSecond }

end PcxBuffer

/-! ### The decoder -/

/-- What `pcx_decoder` takes out of a packet for the L1.5; `data_next_entry` is that of the other
entry. -/
structure Decoded where
  rqtype : BitVec 5
  nc : Bool
  threadid : BitVec 1
  prefetch : Bool
  blockstore : Bool
  invalidateCacheline : Bool
  blockinitstore : Bool
  l1rplway : BitVec 2
  size : BitVec 3
  address : BitVec 40
  data : BitVec 64
  dataNextEntry : BitVec 64
  csmData : BitVec 33
deriving DecidableEq

/-- The fields of the packet at the read position and the data of the entry after it. -/
def decode (p q : Packet) : Decoded where
  rqtype := p.data.extractLsb' 118 5
  nc := p.data.getLsbD 117
  threadid := p.data.extractLsb' 112 1
  prefetch := p.data.getLsbD 110
  blockstore := p.data.getLsbD 110
  invalidateCacheline := p.data.getLsbD 111
  blockinitstore := p.data.getLsbD 109
  l1rplway := p.data.extractLsb' 107 2
  size := p.data.extractLsb' 104 3
  address := p.data.extractLsb' 64 40
  data := p.data.extractLsb' 0 64
  dataNextEntry := q.data.extractLsb' 0 64
  csmData := p.csmData

/-! ### All together -/

/-- The registers of the core, of the buffer and of the decoder. -/
structure State where
  lsu : Lsu
  buf : PcxBuffer
  isMessageNew : Bool

/-- The request that the pickers of the core would send, the banks of the stores, what the core drives,
and what the L1.5 acknowledges. -/
structure Input where
  want : Option Requester
  stL2bnkDest : Fin 4 → BitVec 5
  pcxData : Packet
  l15PcxdecoderAck : Bool
  l15PcxdecoderHeaderAck : Bool

namespace State

variable (s : State) (i : Input)

/-- `pcxdecoder_l15_val`. -/
def l15Val : Bool := s.buf.valid && s.buf.dataOut.vld && s.isMessageNew

/-- What the L1.5 sees. -/
def l15Request : Decoded := decode s.buf.dataOut s.buf.dataBuf1

/-- `pcxdecoder_pcxbuf_ack`: a packet without the valid bit is acknowledged by the decoder. -/
def pcxbufAck : Bool := i.l15PcxdecoderAck || (s.buf.valid && !s.buf.dataOut.vld)

/-- The wires into the buffer. -/
def bufferInput : BufferInput where
  spcUncoreReq := s.lsu.spcPcxReqPq
  spcUncoreAtomicReq := s.lsu.spcPcxAtomPq
  spcUncoreData := i.pcxData
  pcxdecoderPcxbufAck := s.pcxbufAck i

/-- A cycle; a message is new again when the whole of the last one has been taken. -/
def step : State where
  lsu := s.lsu.step s.buf.uncoreSpcGrant i.want i.stL2bnkDest
  buf := s.buf.step (s.bufferInput i)
  isMessageNew :=
    if i.l15PcxdecoderAck then true
    else if i.l15PcxdecoderHeaderAck then false
    else s.isMessageNew

/-- The registers after a reset; `buffer_csm_data` has any contents. -/
structure IsReset : Prop where
  lsu : s.lsu = ⟨false, false, fun _ => false, false, 0, false, false, false⟩
  buffer : ∀ b, (s.buf.buffer b).data = 0
  bufferAtomic : s.buf.bufferAtomic = fun _ => false
  bufferVal : s.buf.bufferVal = fun _ => false
  bufferAtomicNextNext : s.buf.bufferAtomicNextNext = false
  readPos : s.buf.readPos = false
  writePos : s.buf.writePos = false
  writeReq : s.buf.writeReq = false
  atomicReqSecondPacketComing : s.buf.atomicReqSecondPacketComing = false
  atomicAckSecond : s.buf.atomicAckSecond = false
  uncoreSpcGrant : s.buf.uncoreSpcGrant = false
  isMessageNew : s.isMessageNew = true

/-- The L1.5 acknowledges a valid packet only. -/
def AckOk : Prop := i.l15PcxdecoderAck = true → s.buf.valid = true ∧ s.buf.dataOut.vld = true

instance : Decidable (s.AckOk i) := inferInstanceAs (Decidable (_ → _))

end State

/-- The core, the buffer and the decoder. -/
def machine : Machine State Input where
  init := State.IsReset
  step := State.step

end Piton.Pcx
