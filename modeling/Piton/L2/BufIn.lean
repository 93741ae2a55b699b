import Piton.Lib.Groups
import Piton.Lib.Machine
import Piton.Noc.Decoder

/-! The buffers between the networks and the pipelines of the L2: `l2_pipe1_buf_in` and
`l2_pipe2_buf_in`, which part the headers of the messages from their data, and `l2_pipe1_buf_out`. -/

namespace Piton.L2

open Hw
open Noc (Flit BufOutMode bufOut)

/-- `MSG_TYPE` of a header. -/
def msgType (f : Flit) : BitVec 8 := f.extractLsb' 14 8

/-- The inputs of a buffer in one cycle: `data_in` while `valid_in`, and what the pipeline takes. -/
structure BufInInput where
  dataIn : Option Flit
  msgHeaderReadyOut : Bool
  msgDataReadyOut : Bool

/-! ### The two queues -/

/-- What the two buffers differ in: the state that follows a message, and the flits of a header and of
a data word. -/
structure BufInCtrl (σ : Type) where
  init : σ
  /-- `msg_mux_sel` is `msg_mux_header`. -/
  muxHeader : σ → Bool
  /-- `int_stall`. -/
  stall : σ → Option Flit → Bool
  /-- The state after a cycle with `data_in` and `real_ready_in`. -/
  next : σ → Option Flit → Bool → σ
  headerFlits : Flit → Nat
  dataFlits : Flit → Nat

/-- The registers of a buffer, with queues of `2 ^ h` header flits and `2 ^ d` data flits. -/
structure BufIn (σ : Type) (h d : Nat) where
  ctrl : σ
  headerBuf : Fifo h Flit
  dataBuf : Fifo d Flit

namespace BufIn

variable {σ : Type} {h d : Nat} (c : BufInCtrl σ) (s : BufIn σ h d) (i : BufInInput)

/-- The registers after `reset`. -/
def init : BufIn σ h d where
  ctrl := c.init
  headerBuf := ⟨fun _ => 0, 0, 0, 0⟩
  dataBuf := ⟨fun _ => 0, 0, 0, 0⟩

/-- The queue that the next flit goes into has room. -/
def realReadyIn : Bool :=
  if c.muxHeader s.ctrl then !s.headerBuf.full else !s.dataBuf.full

/-- `ready_in`: the buffer takes a flit. -/
def readyIn : Bool := s.realReadyIn c && !c.stall s.ctrl i.dataIn

/-- The flit that goes into the header queue. -/
def headerEnter : Option Flit :=
  if c.muxHeader s.ctrl && !s.headerBuf.full then i.dataIn else none

/-- The flit that goes into the data queue. -/
def dataEnter : Option Flit :=
  if !c.muxHeader s.ctrl && !s.dataBuf.full then i.dataIn else none

/-- The flits of `msg_header_out` while `msg_header_valid_out`. -/
def header : Option (List Flit) := s.headerBuf.offer c.headerFlits

/-- The flits of `msg_data_out` while `msg_data_valid_out`. -/
def data : Option (List Flit) := s.dataBuf.offer c.dataFlits

/-- The pipeline takes a header. -/
def headerLeave : Bool := (s.header c).isSome && i.msgHeaderReadyOut

/-- The pipeline takes a data word. -/
def dataLeave : Bool := (s.data c).isSome && i.msgDataReadyOut

/-- One clock edge. -/
def step : BufIn σ h d where
  ctrl := c.next s.ctrl i.dataIn (s.realReadyIn c)
  headerBuf := s.headerBuf.stepGroup c.headerFlits (s.headerEnter c i) (s.headerLeave c i)
  dataBuf := s.dataBuf.stepGroup c.dataFlits (s.dataEnter c i) (s.dataLeave c i)

end BufIn

/-- `msg_header_out`: the flits of a header, the first one in the low bits. -/
def msgHeaderOut (g : List Flit) : BitVec 192 := g.getD 2 0 ++ g.getD 1 0 ++ g.getD 0 0

/-! ### Pipe 1 -/

/-- `msg_state_f`, `msg_data_state_f` and `msg_int_state_f` of `l2_pipe1_buf_in`. -/
structure Pipe1State where
  msgState : BitVec 3
  msgDataState : BitVec 2
  msgIntState : BitVec 3
  deriving DecidableEq

namespace Pipe1State

variable (s : Pipe1State)

/-- The header flit of an interrupt is taken three times. -/
def isInterrupt (f : Flit) : Bool := msgType f = Noc.MsgType.interruptFwd

/-- `msg_state_next`: back to the first flit after the last one of the message. -/
def msgStateNext (enters : Bool) : BitVec 3 :=
  if enters then
    if s.msgState = 2 ∧ s.msgDataState = 0 then 0
    else if s.msgState = 3 ∧ s.msgDataState = 1 then 0
    else if s.msgState = 4 then 0
    else s.msgState + 1
  else s.msgState

/-- `msg_data_state_next`: how many data flits the header announces. -/
def msgDataStateNext (dataIn : Option Flit) : BitVec 2 :=
  match dataIn with
  | some f =>
    if s.msgState = 0 then if isInterrupt f then 1 else (f.length - 2).setWidth 2
    else s.msgDataState
  | none => s.msgDataState

/-- `msg_int_state_next`: how often the flit of an interrupt has been taken. -/
def msgIntStateNext (dataIn : Option Flit) (realReadyIn : Bool) : BitVec 3 :=
  match dataIn with
  | some f =>
    if realReadyIn && isInterrupt f && s.msgState = 0 then 1
    else if realReadyIn && s.msgIntState = 1 then 2
    else if realReadyIn && s.msgIntState = 2 then 0
    else s.msgIntState
  | none => s.msgIntState

/-- `int_stall`. -/
def intStall (dataIn : Option Flit) : Bool :=
  dataIn.any isInterrupt && s.msgState = 0 || s.msgIntState = 1

end Pipe1State

/-- `l2_pipe1_buf_in`. -/
def pipe1Ctrl : BufInCtrl Pipe1State where
  init := ⟨0, 0, 0⟩
  muxHeader s := s.msgState = 0 || s.msgState = 1 || s.msgState = 2
  stall s dataIn := s.intStall dataIn
  next s dataIn realReadyIn :=
    { msgState := s.msgStateNext (dataIn.isSome && realReadyIn)
      msgDataState := s.msgDataStateNext dataIn
      msgIntState := s.msgIntStateNext dataIn realReadyIn }
  headerFlits _ := 3
  dataFlits _ := 1

/-! ### Pipe 2 -/

/-- `msg_data_state_0F`, `msg_data_state_2F` and `msg_data_state_8F`. -/
inductive Pipe2DataState where
  | s0F
  | s2F
  | s8F
  deriving DecidableEq, Repr

/-- `msg_state_f` and `msg_data_state_f` of `l2_pipe2_buf_in`. -/
structure Pipe2State where
  msgState : BitVec 4
  msgDataState : Pipe2DataState
  deriving DecidableEq

namespace Pipe2State

variable (s : Pipe2State)

/-- The header is that of a write-back, which alone has an address flit here. -/
def isWriteback (f : Flit) : Bool := msgType f = Noc.MsgType.wbReq

/-- `msg_state_next`: responses have one header flit, write-backs three. -/
def msgStateNext (dataIn : Option Flit) (readyIn : Bool) : BitVec 4 :=
  match dataIn with
  | some f =>
    if readyIn then
      if s.msgState = 0 ∧ isWriteback f = false then if f.length = 0 then 0 else 3
      else if s.msgState = 4 ∧ s.msgDataState = .s2F then 0
      else if s.msgState = 10 then 0
      else s.msgState + 1
    else s.msgState
  | none => s.msgState

/-- `msg_data_state_next`: how many data flits the header announces. -/
def msgDataStateNext (dataIn : Option Flit) : Pipe2DataState :=
  match dataIn with
  | some f =>
    if s.msgState = 0 then if f.length = 8 then .s8F else if f.length = 0 then .s0F else .s2F
    else s.msgDataState
  | none => s.msgDataState

end Pipe2State

/-- `l2_pipe2_buf_in`. -/
def pipe2Ctrl : BufInCtrl Pipe2State where
  init := ⟨0, .s0F⟩
  muxHeader s := s.msgState = 0 || s.msgState = 1 || s.msgState = 2
  stall _ _ := false
  next s dataIn readyIn :=
    { msgState := s.msgStateNext dataIn readyIn
      msgDataState := s.msgDataStateNext dataIn }
  headerFlits f := if Pipe2State.isWriteback f then 3 else 1
  dataFlits _ := 2

/-! ### Out of pipe 1 -/

/-- The inputs of `l2_pipe1_buf_out` in one cycle: `mode_in` and `data_in` while `valid_in`. -/
structure BufOutInput where
  dataIn : Option (BufOutMode × BitVec 320)
  readyOut : Bool

/-- The flits that a mode selects from `data_in`. -/
def selected (x : BufOutMode × BitVec 320) : List Flit :=
  bufOut x.1 (x.2.extractLsb' 0 192) (x.2.extractLsb' 192 64) (x.2.extractLsb' 256 64)

/-- `buf_rd_flits`. -/
def bufRdFlits : BufOutMode → Nat
  | .m0h0d => 0
  | .m1h0d => 1
  | .m1h1d | .m0h2d => 2
  | .m1h2d | .m3h0d => 3
  | .m3h1d => 4
  | .m3h2d => 5

/-- `l2_pipe1_buf_out`. -/
abbrev Pipe1BufOut := Fifo 4 Flit

namespace Pipe1BufOut

variable (s : Pipe1BufOut) (i : BufOutInput)

/-- The registers after `reset`. -/
def init : Pipe1BufOut := ⟨fun _ => 0, 0, 0, 0⟩

/-- There is room for all flits of a request of this mode. -/
def readyIn (mode : BufOutMode) : Bool := s.count.toNat ≤ 16 - bufRdFlits mode

/-- The request that is accepted in this cycle. -/
def accepts : Option (BufOutMode × BitVec 320) := i.dataIn.filter fun x => readyIn s x.1

/-- `data_out` while `valid_out`. -/
def dataOut : Option Flit := if s.nonempty then some s.front else none

/-- The flit that the network takes in this cycle. -/
def sends : Option Flit := if i.readyOut then dataOut s else none

/-- One clock edge. -/
def step : Pipe1BufOut :=
  s.shift (((accepts s i).map selected).getD []) (sends s i).toList.length

end Pipe1BufOut

end Piton.L2
