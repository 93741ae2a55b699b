import Piton.Noc.Encoder

/-! The L2's side of the messages, `l2_decoder` and `l2_encoder` with the buffers that take the
headers apart, and `noc2decoder` of the L1.5 with the buffer that puts a message together. -/

namespace Piton.Noc

open Hw

/-! ### From the L1.5 to the L2 -/

/-- The outputs of `l2_decoder`. -/
@[ext] structure L2Fields where
  msgType : BitVec 8
  msgLength : BitVec 8
  msgMshrid : BitVec 8
  msgDataSize : BitVec 3
  msgCacheType : BitVec 1
  msgSublineVector : BitVec 4
  msgMesi : BitVec 2
  msgL2Miss : BitVec 1
  msgSublineId : BitVec 2
  msgLastSubline : BitVec 1
  msgAddr : BitVec 40
  msgSrcChipid : BitVec 14
  msgSrcX : BitVec 8
  msgSrcY : BitVec 8
  msgSrcFbits : BitVec 4
  msgSdid : BitVec 10
  msgLsid : BitVec 6
  deriving DecidableEq

/-- `l2_decoder`. -/
def l2Decoder (h : BitVec 192) : L2Fields where
  msgType := h.extractLsb' 14 8
  msgLength := h.extractLsb' 22 8
  msgMshrid := h.extractLsb' 6 8
  msgDataSize := h.extractLsb' 72 3
  msgCacheType := h.extractLsb' 75 1
  msgSublineVector := h.extractLsb' 76 4
  msgMesi := h.extractLsb' 4 2
  msgL2Miss := h.extractLsb' 3 1
  msgSublineId := h.extractLsb' 1 2
  msgLastSubline := h.extractLsb' 0 1
  msgAddr := h.extractLsb' 80 40
  msgSrcChipid := h.extractLsb' 178 14
  msgSrcX := h.extractLsb' 170 8
  msgSrcY := h.extractLsb' 162 8
  msgSrcFbits := h.extractLsb' 158 4
  msgSdid := h.extractLsb' 148 10
  msgLsid := h.extractLsb' 142 6

/-- The header and the data flits of a message at pipe 1, whose buffer takes three header flits. -/
def pipe1BufIn : List Flit → Option (BitVec 192 × List Flit)
  | f0 :: f1 :: f2 :: data => some (f2 ++ f1 ++ f0, data)
  | _ => none

/-- The header and the data flits of a message at pipe 2: only a write-back has three header flits. -/
def pipe2BufIn : List Flit → Option (BitVec 192 × List Flit)
  | [] => none
  | f0 :: rest =>
    if f0.extractLsb' 14 8 = MsgType.wbReq then
      match rest with
      | f1 :: f2 :: data => some (f2 ++ f1 ++ f0, data)
      | _ => none
    else some (0#128 ++ f0, rest)

/-! ### From the L2 to the L1.5 -/

/-- The inputs of `l2_encoder`. -/
structure L2Msg where
  msgDstChipid : BitVec 14
  msgDstX : BitVec 8
  msgDstY : BitVec 8
  msgDstFbits : BitVec 4
  msgLength : BitVec 8
  msgType : BitVec 8
  msgMshrid : BitVec 8
  msgDataSize : BitVec 3
  msgCacheType : BitVec 1
  msgSublineVector : BitVec 4
  msgMesi : BitVec 2
  msgL2Miss : BitVec 1
  msgLastSubline : BitVec 1
  msgSublineId : BitVec 2
  msgAddr : BitVec 40
  msgSrcChipid : BitVec 14
  msgSrcX : BitVec 8
  msgSrcY : BitVec 8
  msgSrcFbits : BitVec 4
  msgSdid : BitVec 10
  msgLsid : BitVec 6

/-- `l2_encoder`. -/
def l2Encoder (m : L2Msg) : BitVec 192 :=
  m.msgSrcChipid ++ (m.msgSrcX ++ (m.msgSrcY ++ (m.msgSrcFbits ++ (m.msgSdid ++ (m.msgLsid ++
  (0#14 ++
  (0#8 ++ (m.msgAddr ++ (m.msgSublineVector ++ (m.msgCacheType ++ (m.msgDataSize ++ (0#8 ++
  (m.msgDstChipid ++ (m.msgDstX ++ (m.msgDstY ++ (m.msgDstFbits ++ (m.msgLength ++
  (m.msgType ++ (m.msgMshrid ++ (m.msgMesi ++ (m.msgL2Miss ++ (m.msgSublineId ++
  m.msgLastSubline))))))))))))))))))))))

/-- `L2_P1_BUF_OUT_MODE_*`. -/
inductive BufOutMode where
  | m0h0d
  | m1h0d
  | m1h1d
  | m1h2d
  | m3h0d
  | m3h1d
  | m3h2d
  | m0h2d
  deriving DecidableEq, Repr

/-- The flits that `l2_pipe1_buf_out` takes from the header and the two data words. -/
def bufOut (mode : BufOutMode) (header : BitVec 192) (data0 data1 : Flit) : List Flit :=
  let h0 : Flit := header.extractLsb' 0 64
  let h1 : Flit := header.extractLsb' 64 64
  let h2 : Flit := header.extractLsb' 128 64
  match mode with
  | .m0h0d => []
  | .m1h0d => [h0]
  | .m1h1d => [h0, data0]
  | .m1h2d => [h0, data0, data1]
  | .m3h0d => [h0, h1, h2]
  | .m3h1d => [h0, h1, h2, data0]
  | .m3h2d => [h0, h1, h2, data0, data1]
  | .m0h2d => [data0, data1]

/-- A message to the L1.5: what pipe 1 gives `l2_encoder`, and the data words of its passes. -/
structure L15Bound where
  msg : L2Msg
  data0 : Flit
  data1 : Flit
  data2 : Flit
  data3 : Flit

/-- The flits of a message to the L1.5, by its type: a forward has three header flits, a response
one; the data of an instruction fill come in two passes. -/
def L15Bound.flits (b : L15Bound) : List Flit :=
  let header := l2Encoder b.msg
  if b.msg.msgType = MsgType.loadFwd ∨ b.msg.msgType = MsgType.storeFwd ∨
      b.msg.msgType = MsgType.invFwd then
    bufOut .m3h0d header b.data0 b.data1
  else if b.msg.msgType = MsgType.nodataAck then bufOut .m1h0d header b.data0 b.data1
  else if b.msg.msgType = MsgType.interrupt then bufOut .m1h1d header b.data0 b.data1
  else if b.msg.msgType = MsgType.dataAck then
    if b.msg.msgLength = 2 then bufOut .m1h2d header b.data0 b.data1
    else bufOut .m1h2d header b.data0 b.data1 ++ bufOut .m0h2d header b.data2 b.data3
  else []

/-- `msg_send_length_S4` of the messages to the L1.5. -/
def L15Bound.lengthOk (b : L15Bound) : Prop :=
  (b.msg.msgType = MsgType.loadFwd ∨ b.msg.msgType = MsgType.storeFwd ∨
      b.msg.msgType = MsgType.invFwd) ∧ b.msg.msgLength = 2 ∨
    b.msg.msgType = MsgType.nodataAck ∧ b.msg.msgLength = 0 ∨
    b.msg.msgType = MsgType.interrupt ∧ b.msg.msgLength = 1 ∨
    b.msg.msgType = MsgType.dataAck ∧ (b.msg.msgLength = 2 ∨ b.msg.msgLength = 4)

instance (b : L15Bound) : Decidable b.lengthOk := inferInstanceAs (Decidable (_ ∨ _))

/-- `NOC2_STATE_*`. -/
inductive Noc2State where
  | idle
  | receiving
  | waitingAck
  deriving DecidableEq, Repr

/-- The registers of `simplenocbuffer`. -/
structure SimpleNocBuffer where
  index : Fin 8
  state : Noc2State
  buffer : Fin 8 → Flit

namespace SimpleNocBuffer

variable (b : SimpleNocBuffer)

/-- One clock edge; `noc_in` is the flit offered. -/
def step (nocIn : Option Flit) (msgAck : Bool) : SimpleNocBuffer :=
  match b.state with
  | .idle =>
    match nocIn with
    | some f =>
      if f.length = 0 then
        { b with state := .waitingAck, buffer := fun k => if k = 0 then f else b.buffer k }
      else
        { index := b.index + 1, state := .receiving
          buffer := fun k => if k = 0 then f else b.buffer k }
    | none => { b with state := .idle }
  | .receiving =>
    match nocIn with
    | some f =>
      if BitVec.ofNat 8 b.index = (b.buffer 0).length then
        { b with state := .waitingAck, buffer := fun k => if k = b.index then f else b.buffer k }
      else
        { index := b.index + 1, state := .receiving
          buffer := fun k => if k = b.index then f else b.buffer k }
    | none => b
  | .waitingAck => if msgAck then { b with index := 0, state := .idle } else b

/-- `noc_in_rdy`. -/
def nocInRdy : Bool := b.state ≠ .waitingAck

/-- `msg_val`. -/
def msgVal : Bool := b.state = .waitingAck

/-- `msg`. -/
def msg : BitVec 512 :=
  b.buffer 7 ++ (b.buffer 6 ++ (b.buffer 5 ++ (b.buffer 4 ++ (b.buffer 3 ++ (b.buffer 2 ++
  (b.buffer 1 ++ b.buffer 0))))))

end SimpleNocBuffer

/-- The outputs of `noc2decoder` that come from the message. -/
structure Noc2Fields where
  mshrid : BitVec 2
  threadid : BitVec 1
  hmcFill : Bool
  l2miss : BitVec 1
  icacheType : BitVec 1
  reqtype : BitVec 8
  ackState : BitVec 2
  data0 : Flit
  data1 : Flit
  data2 : Flit
  data3 : Flit
  address : BitVec 40
  fwdSubcachelineVector : BitVec 4
  csmMshrid : BitVec 3
  srcHomeid : BitVec 30

/-- `noc2decoder`. -/
def noc2decoder (m : BitVec 512) : Noc2Fields :=
  let mshrid : BitVec 8 := m.extractLsb' 6 8
  { mshrid := mshrid.extractLsb' 0 2
    threadid := mshrid.extractLsb' 2 1
    hmcFill := mshrid.getLsbD 7
    l2miss := m.extractLsb' 3 1
    icacheType := m.extractLsb' 75 1
    reqtype := m.extractLsb' 14 8
    ackState := m.extractLsb' 4 2
    data0 := m.extractLsb' 64 64
    data1 := m.extractLsb' 128 64
    data2 := m.extractLsb' 192 64
    data3 := m.extractLsb' 256 64
    address := m.extractLsb' 80 40
    fwdSubcachelineVector := m.extractLsb' 76 4
    csmMshrid := mshrid.extractLsb' 0 3
    srcHomeid :=
      setSlice
        (setSlice (setSlice 0 8 (m.extractLsb' 162 8)) 0 (m.extractLsb' 170 8))
        16 (m.extractLsb' 178 14) }

end Piton.Noc
