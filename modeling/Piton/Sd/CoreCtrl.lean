import Mathlib.Data.FinEnum
import Piton.Lib.Machine

/-! `piton_sd_core_ctrl`: the state machine towards the network and the one that moves data between
the message buffer and the cache. -/

namespace Piton.Sd

/-- A flit of the on-chip network. -/
abbrev Flit := BitVec 64

/-! ### Messages -/

/-- `MSG_TYPE_STORE_REQ`. -/
def msgTypeStoreReq : BitVec 8 := 2

/-- `MSG_TYPE_NC_LOAD_REQ`. -/
def msgTypeNcLoadReq : BitVec 8 := 14

/-- `MSG_TYPE_NC_STORE_REQ`. -/
def msgTypeNcStoreReq : BitVec 8 := 15

/-- `MSG_TYPE_LOAD_MEM`. -/
def msgTypeLoadMem : BitVec 8 := 19

/-- `MSG_TYPE_STORE_MEM`. -/
def msgTypeStoreMem : BitVec 8 := 20

/-- `MSG_TYPE_LOAD_MEM_ACK`. -/
def msgTypeLoadMemAck : BitVec 8 := 24

/-- `MSG_TYPE_STORE_MEM_ACK`. -/
def msgTypeStoreMemAck : BitVec 8 := 25

/-- `MSG_TYPE_NC_LOAD_MEM_ACK`. -/
def msgTypeNcLoadMemAck : BitVec 8 := 26

/-- `MSG_TYPE_NC_STORE_MEM_ACK`. -/
def msgTypeNcStoreMemAck : BitVec 8 := 27

/-- `MSG_TYPE_ERROR`. -/
def msgTypeError : BitVec 8 := 30

/-- `MSG_TYPE_LOAD_REQ`. -/
def msgTypeLoadReq : BitVec 8 := 31

namespace Flit

/-- The MSHR of a header. -/
def mshrid (f : Flit) : BitVec 8 := f.extractLsb' 6 8

/-- The message type of a header. -/
def type (f : Flit) : BitVec 8 := f.extractLsb' 14 8

/-- How many flits follow a header. -/
def length (f : Flit) : BitVec 8 := f.extractLsb' 22 8

/-- The size of the access, from the address flit. -/
def dataSize (f : Flit) : BitVec 3 := f.extractLsb' 8 3

/-- The chip of the source. -/
def srcChipid (f : Flit) : BitVec 14 := f.extractLsb' 50 14

/-- The column of the source. -/
def srcX (f : Flit) : BitVec 8 := f.extractLsb' 42 8

/-- The row of the source. -/
def srcY (f : Flit) : BitVec 8 := f.extractLsb' 34 8

/-- `addr_remapped`. -/
def addrRemapped (f : Flit) : BitVec 40 :=
  if f.extractLsb' 44 8 = 0xff#8 then (f.extractLsb' 16 28).setWidth 40
  else (f.extractLsb' 16 36).setWidth 40

end Flit

section Types

variable (type : BitVec 8) (sz : BitVec 3)

/-- A cacheable store. -/
def isStore : Bool := type = msgTypeStoreReq || type = msgTypeStoreMem

/-- A non-cacheable store. -/
def isNcStore : Bool := type = msgTypeNcStoreReq

/-- A store of either kind. -/
def isWr : Bool := isStore type || isNcStore type

/-- A cacheable load. -/
def isLoad : Bool := type = msgTypeLoadReq || type = msgTypeLoadMem

/-- A non-cacheable load. -/
def isNcLoad : Bool := type = msgTypeNcLoadReq

/-- A load of either kind. -/
def isRd : Bool := isLoad type || isNcLoad type

/-- Reads always return 64 bytes. -/
def respPayload : BitVec 8 := if isWr type then 0 else 8

/-- The words that a request of this size has, less one. -/
def actualRespPayloadMask : BitVec 3 :=
  if isWr type then 0
  else match sz with
    | 5 => 1
    | 6 => 3
    | 7 => 7
    | _ => 0

/-- `resp_msg_type`: the message type of the response. -/
def respMsgType : BitVec 8 :=
  if isStore type then msgTypeStoreMemAck
  else if isNcStore type then msgTypeNcStoreMemAck
  else if isLoad type then msgTypeLoadMemAck
  else if isNcLoad type then msgTypeNcLoadMemAck
  else msgTypeError

/-- The low part of the buffer address of a word. -/
def wordOffset (addr : BitVec 40) (offset : BitVec 3) : BitVec 9 :=
  match sz with
  | 1 => addr.extractLsb' 0 9
  | 2 => addr.extractLsb' 1 8 ++ 0#1
  | 3 => addr.extractLsb' 2 7 ++ 0#2
  | 4 => addr.extractLsb' 3 6 ++ 0#3
  | 5 => addr.extractLsb' 4 5 ++ offset.extractLsb' 0 1 ++ 0#3
  | 6 => addr.extractLsb' 5 4 ++ offset.extractLsb' 0 2 ++ 0#3
  | _ => addr.extractLsb' 6 3 ++ offset ++ 0#3

/-- `core_buffer_sz`. -/
def bufferSz : BitVec 2 :=
  match sz with
  | 1 => 0
  | 2 => 1
  | 3 => 2
  | _ => 3

end Types

/-! ### The registers -/

/-- The states towards the network: a message that comes in, the wait for its data, and its
response. -/
inductive NocState
  | rst | idle | inHeader1 | inHeader2 | inData | waiting | throwing | outHeader | outData
  deriving DecidableEq, Repr

/-- The states between the message buffer and the cache: one of the two directions, and the unlock.
-/
inductive CbState
  | idle | buffer2Cache | cache2Buffer | unlock
  deriving DecidableEq, Repr

/-- The registers of `piton_sd_core_ctrl`: both state machines, the message buffer, and the fields
of the request. -/
structure CoreCtrl where
  state : NocState
  counter : BitVec 8
  offset : BitVec 3
  msgDataVal : BitVec 3 → Bool
  msgDataBuf : BitVec 3 → Flit
  cacheRe : Bool
  offsetF : BitVec 3
  type : BitVec 8
  payload : BitVec 8
  mshr : BitVec 8
  addr : BitVec 40
  dataSz : BitVec 3
  chipid : BitVec 14
  srcx : BitVec 8
  srcy : BitVec 8
  cbState : CbState

/-- The wires into the controller; a cache entry has `n` bits. -/
structure CoreInput (n : Nat) where
  splitterVal : Bool
  splitterData : Flit
  splitterRdy : Bool
  bufferData : Flit
  lockStatus : Bool
  cacheRdy : Bool
  cacheEntry : BitVec n

namespace CoreCtrl

/-- The registers after `reset`. -/
def init : CoreCtrl where
  state := .rst
  counter := 0
  offset := 0
  msgDataVal := fun _ => false
  msgDataBuf := fun _ => 0
  cacheRe := false
  offsetF := 0
  type := 0
  payload := 0
  mshr := 0
  addr := 0
  dataSz := 0
  chipid := 0
  srcx := 0
  srcy := 0
  cbState := .idle

variable {n : Nat} (s : CoreCtrl) (e : CoreInput n)

/-! ### Towards the network -/

/-- The request is a store. -/
def wr : Bool := isWr s.type

/-- The request is a load. -/
def rd : Bool := isRd s.type

/-- The response repeats the words under this mask. -/
def respMask : BitVec 3 := actualRespPayloadMask s.type s.dataSz

/-- The controller takes a flit. -/
def bridgeRdy : Bool :=
  match s.state with
  | .idle | .inHeader2 | .inData | .throwing => true
  | .inHeader1 => s.rd || s.wr
  | _ => false

/-- A flit comes in. -/
def splitterGo : Bool := s.bridgeRdy && e.splitterVal

/-- The header of the response. -/
def respHeader : Flit :=
  s.chipid ++ s.srcx ++ s.srcy ++ 0#4 ++ respPayload s.type ++ respMsgType s.type ++ s.mshr ++ 0#6

/-- The index of the word in `NOC_OUT_DATA`. -/
def outIndex : BitVec 3 := s.counter.setWidth 3 &&& s.respMask

/-- A response flit is offered. -/
def bridgeVal : Bool :=
  match s.state with
  | .outHeader => true
  | .outData => s.msgDataVal s.outIndex
  | _ => false

/-- The response flit: the header, then the words. -/
def bridgeData : Flit :=
  match s.state with
  | .outHeader => s.respHeader
  | .outData => s.msgDataBuf s.outIndex
  | _ => 0

/-- A response flit leaves. -/
def bridgeGo : Bool := e.splitterRdy && s.bridgeVal

/-- `payload - 3`, in the width of the comparisons. -/
def lastData : BitVec 32 := s.payload.setWidth 32 - 3

/-- The lock is held and the entry may be used. -/
def locked : Bool := e.lockStatus && e.cacheRdy

/-- The state towards the network after the edge. -/
def stateNext : NocState :=
  match s.state with
  | .rst => .idle
  | .idle => if s.splitterGo e then .inHeader1 else .idle
  | .inHeader1 =>
    if s.rd || s.wr then if s.splitterGo e then .inHeader2 else .inHeader1
    else if s.payload = 0 then .idle else .throwing
  | .inHeader2 =>
    if s.splitterGo e then
      if s.wr then .inData else if locked e then .outHeader else .waiting
    else .inHeader2
  | .inData =>
    if s.splitterGo e && s.counter.setWidth 32 = s.lastData then .waiting else .inData
  | .waiting =>
    if locked e && ((s.wr && s.offset.setWidth 32 = s.lastData) || s.rd) then .outHeader
    else .waiting
  | .throwing =>
    if s.splitterGo e && s.counter.setWidth 32 = s.payload.setWidth 32 - 1 then .idle
    else .throwing
  | .outHeader =>
    if s.bridgeGo e then if respPayload s.type = 0 then .idle else .outData else .outHeader
  | .outData =>
    if s.bridgeGo e && s.counter.setWidth 32 = (respPayload s.type).setWidth 32 - 1 then .idle
    else .outData

/-- The flits of the current state that have passed. -/
def counterNext : BitVec 8 :=
  match s.state with
  | .idle | .inHeader1 | .inHeader2 | .waiting | .outHeader => 0
  | .inData | .throwing => if s.splitterGo e then s.counter + 1 else s.counter
  | .outData => if s.bridgeGo e then s.counter + 1 else s.counter
  | .rst => s.counter

/-! ### Towards the cache -/

/-- The lock is asked for, from the address flit on. -/
def lockAcquire : Bool :=
  match s.cbState with
  | .idle => s.state = .inHeader1 && s.splitterGo e
  | .buffer2Cache | .cache2Buffer => !e.lockStatus
  | .unlock => false

/-- The lock is given up. -/
def lockRelease : Bool := s.cbState = .unlock

/-- The address of the access: that of the flit at first, then that of the register. -/
def cacheAddr : BitVec 40 :=
  if s.state = .inHeader1 then Flit.addrRemapped e.splitterData else s.addr

/-- The cache buffer is accessed. -/
def bufferCe : Bool :=
  match s.cbState with
  | .buffer2Cache => locked e && s.msgDataVal s.offset
  | .cache2Buffer => locked e
  | _ => false

/-- The access writes. -/
def bufferWr : Bool := s.cbState = .buffer2Cache && locked e

/-- `offset_en`, which goes with every access. -/
def offsetEn : Bool := s.bufferCe e

/-- The word accessed, in the entry of the block. -/
def bufferAddr : BitVec 32 := (e.cacheEntry.setWidth 23 ++ wordOffset s.dataSz s.addr s.offset)

/-- The word written. -/
def coreBufferData : Flit := s.msgDataBuf s.offset

/-- The state towards the cache after the edge. -/
def cbStateNext : CbState :=
  match s.cbState with
  | .idle =>
    if s.lockAcquire e then if s.wr then .buffer2Cache else .cache2Buffer else .idle
  | .buffer2Cache =>
    if s.offset.setWidth 32 = s.lastData && s.bufferCe e then .unlock else .buffer2Cache
  | .cache2Buffer => if s.offset = s.respMask && s.bufferCe e then .unlock else .cache2Buffer
  | .unlock => if s.lockRelease && !e.lockStatus then .idle else .unlock

/-- The message buffer takes flits, else words read, else it is cleared. -/
def msgDataValNext (k : BitVec 3) : Bool :=
  if s.state = .inData && s.splitterGo e then k = s.counter.setWidth 3 || s.msgDataVal k
  else if s.cacheRe then k = s.offsetF || s.msgDataVal k
  else if s.state = .idle then false else s.msgDataVal k

/-- The message buffer after the edge: a flit that comes in, or a word read. -/
def msgDataBufNext (k : BitVec 3) : Flit :=
  if s.state = .inData && s.splitterGo e then
    if k = s.counter.setWidth 3 then e.splitterData else s.msgDataBuf k
  else if s.cacheRe then if k = s.offsetF then e.bufferData else s.msgDataBuf k
  else s.msgDataBuf k

/-- One clock edge. -/
def next : CoreCtrl where
  state := s.stateNext e
  counter := s.counterNext e
  offset := if s.cbState = .idle then 0 else if s.offsetEn e then s.offset + 1 else s.offset
  msgDataVal := s.msgDataValNext e
  msgDataBuf := s.msgDataBufNext e
  cacheRe := s.bufferCe e && !s.bufferWr e
  offsetF := s.offset
  type := if s.state = .idle && s.splitterGo e then e.splitterData.type else s.type
  payload := if s.state = .idle && s.splitterGo e then e.splitterData.length else s.payload
  mshr := if s.state = .idle && s.splitterGo e then e.splitterData.mshrid else s.mshr
  addr := if s.state = .inHeader1 && s.splitterGo e && (s.rd || s.wr)
    then e.splitterData.addrRemapped else s.addr
  dataSz := if s.state = .inHeader1 && s.splitterGo e && (s.rd || s.wr)
    then e.splitterData.dataSize else s.dataSz
  chipid := if s.state = .inHeader2 && s.splitterGo e then e.splitterData.srcChipid else s.chipid
  srcx := if s.state = .inHeader2 && s.splitterGo e then e.splitterData.srcX else s.srcx
  srcy := if s.state = .inHeader2 && s.splitterGo e then e.splitterData.srcY else s.srcy
  cbState := s.cbStateNext e

end CoreCtrl

end Piton.Sd
