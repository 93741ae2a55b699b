import Piton.Chipset.Splitter

/-! `noc_axilite_bridge`: loads and stores from the splitter become AXI-Lite transfers, and their
responses become messages for the splitter. -/

namespace Piton.Chipset

open Hw Noc

/-! ### Messages -/

/-- The message type of a header. -/
def msgType (f : Flit) : BitVec 8 := f.extractLsb' 14 8

/-- The MSHR of a header, which the response carries back. -/
def mshrId (f : Flit) : BitVec 8 := f.extractLsb' 6 8

/-- `MSG_SRC_CHIPID_`, `MSG_SRC_X_`, `MSG_SRC_Y_` and `MSG_SRC_FBITS_` of the third header flit. -/
def msgSrc (f : Flit) : BitVec 34 := f.extractLsb' 30 34

/-- `MSG_ADDR_` of the second header flit, padded. -/
def msgAddr (f : Flit) : BitVec 64 := (f.extractLsb' 16 40).setWidth 64

/-- `MSG_DATA_SIZE_`. -/
def msgDataSize (f : Flit) : BitVec 3 := f.extractLsb' 8 3

/-- `MSG_TYPE_LOAD_REQ`, `MSG_TYPE_NC_LOAD_REQ` and `MSG_TYPE_LOAD_MEM`. -/
def isLoad (f : Flit) : Bool := msgType f = 31 || msgType f = 14 || msgType f = 19

/-- `MSG_TYPE_STORE_REQ`, `MSG_TYPE_NC_STORE_REQ` and `MSG_TYPE_STORE_MEM`. -/
def isStore (f : Flit) : Bool := msgType f = 2 || msgType f = 15 || msgType f = 20

/-- A response header: destination, length, type and MSHR id, with the option bits zero. -/
def ackHeader (dst : BitVec 34) (length type mshr : BitVec 8) : Flit :=
  dst ++ length ++ type ++ mshr ++ 0#6

/-- `r_resp_buf_header0_next`, a `MSG_TYPE_LOAD_MEM_ACK`. -/
def loadAckHeader (header0 header2 : Flit) : Flit :=
  ackHeader (msgSrc header2) 8 24 (mshrId header0)

/-- `w_resp_buf_header0_next`, a `MSG_TYPE_NC_STORE_MEM_ACK`. -/
def storeAckHeader (header0 header2 : Flit) : Flit :=
  ackHeader (msgSrc header2) 0 27 (mshrId header0)

/-- `m_axi_wstrb`. -/
def wstrb (header1 : Flit) : BitVec 8 :=
  if msgDataSize header1 = 0 then 0b00000000
  else if msgDataSize header1 = 1 then 0b00000001
  else if msgDataSize header1 = 2 then 0b00000011
  else if msgDataSize header1 = 3 then 0b00001111
  else if msgDataSize header1 = 4 then 0b11111111
  else 0b11111111

/-- `a_axi_rdata_masked`. -/
def rdataMasked (rdata : BitVec 64) : Flit := BitVec.replicate 8 (rdata.extractLsb' 0 8)

/-! ### Registers -/

/-- The `MSG_TYPE_*` codes of the bridge. -/
inductive MsgType where
  | inval
  | load
  | store
  deriving DecidableEq, Repr

/-- The `BUF_STATUS_*` codes. -/
inductive BufStatus where
  | incomp
  | comp
  | waitresp
  | respsend
  deriving DecidableEq, Repr

/-- `LOAD_ACK` and `STORE_ACK`. -/
inductive Ack where
  | load
  | store
  deriving DecidableEq, Repr

/-- The registers of `noc_axilite_bridge`: the message that comes in, and the buffered load and
store with how far each has come on its AXI channels and towards the response. -/
structure AxiBridge where
  msgState : MsgState
  msgType : MsgType
  msgCounter : BitVec 8
  rReqHeader0 : Flit
  rReqHeader1 : Flit
  rReqHeader2 : Flit
  rReqStatus : BufStatus
  wReqHeader0 : Flit
  wReqHeader1 : Flit
  wReqHeader2 : Flit
  wReqData0 : Flit
  wAddrReqStatus : BufStatus
  wDataReqStatus : BufStatus
  wRespHeader0 : Flit
  wRespBresp : BitVec 2
  wAddrRespStatus : BufStatus
  wDataRespStatus : BufStatus
  rRespHeader0 : Flit
  rRespData0 : Flit
  rRespRresp : BitVec 2
  rRespStatus : BufStatus
  ackLoadCounter : BitVec 8
  arb : Ack

/-- What the bridge reads in a cycle: a request flit, the room for a response flit, and the
AXI-Lite side. -/
structure AxiInput where
  val : Bool
  data : Flit
  rdy : Bool
  awready : Bool
  wready : Bool
  arready : Bool
  rdata : BitVec 64
  rresp : BitVec 2
  rvalid : Bool
  bresp : BitVec 2
  bvalid : Bool

namespace AxiBridge

/-- The registers after `reset`. -/
def init : AxiBridge where
  msgState := .inval
  msgType := .inval
  msgCounter := 0
  rReqHeader0 := 0
  rReqHeader1 := 0
  rReqHeader2 := 0
  rReqStatus := .incomp
  wReqHeader0 := 0
  wReqHeader1 := 0
  wReqHeader2 := 0
  wReqData0 := 0
  wAddrReqStatus := .incomp
  wDataReqStatus := .incomp
  wRespHeader0 := 0
  wRespBresp := 0
  wAddrRespStatus := .incomp
  wDataRespStatus := .incomp
  rRespHeader0 := 0
  rRespData0 := 0
  rRespRresp := 0
  rRespStatus := .incomp
  ackLoadCounter := 0
  arb := .load

variable (s : AxiBridge) (i : AxiInput)

/-! ### Framing -/

/-- The store is free to be taken in when neither of its halves is in use. -/
def wReqStatus : BufStatus :=
  if s.wAddrReqStatus = .incomp ∧ s.wDataReqStatus = .incomp then .incomp else .comp

/-- `w_resp_status`: how far the store has come, by the slower of its address and its data. -/
def wRespStatus : BufStatus :=
  if s.wAddrRespStatus = .incomp ∨ s.wDataRespStatus = .incomp then .incomp
  else if s.wAddrRespStatus = .comp ∨ s.wDataRespStatus = .comp then .comp
  else if s.wAddrRespStatus = .waitresp ∨ s.wDataRespStatus = .waitresp then .waitresp
  else .respsend

/-- `msg_state_next`: three header flits, then as many data flits as the header said. -/
def msgStateNext : MsgState :=
  if s.msgState = .inval then .header0
  else if s.msgState = .header0 then .header1
  else if s.msgState = .header1 then .header2
  else if s.msgCounter = 0 then .header0
  else if s.msgState = .header2 then .data
  else if s.msgState = .data then .data
  else .inval

/-- `splitter_io_msg_type_mux_out`. -/
def msgTypeMuxOut (data : Flit) : MsgType :=
  if isLoad data then .load else if isStore data then .store else .inval

/-- `msg_type_next`: read from the first header, kept for the rest of the message. -/
def msgTypeNext : MsgType :=
  if s.msgStateNext = .inval then .inval
  else if s.msgStateNext = .header0 then msgTypeMuxOut i.data
  else s.msgType

/-- `bridge_splitter_rdy`. -/
def rdy : Bool :=
  s.msgTypeNext i = .inval || (s.msgTypeNext i = .load && s.rReqStatus = .incomp) ||
    (s.msgTypeNext i = .store && s.wReqStatus = .incomp)

/-- `splitter_io_go`. -/
def go : Bool := i.val && s.rdy i

/-- A flit of a load is taken in. -/
def goAndLoad : Bool :=
  s.go i && (s.msgTypeNext i = .load && i.val && s.rReqStatus = .incomp)

/-- A flit of a store is taken in. -/
def goAndStore : Bool :=
  s.go i && (s.msgTypeNext i = .store && i.val && s.wReqStatus = .incomp)

/-- `w_status_update`. -/
def wStatusUpdate : Bool := s.goAndStore i && s.msgStateNext = .data && s.msgCounter = 1

/-! ### AXI -/

/-- The store's address is offered. -/
def awvalid : Bool := s.wReqStatus = .comp && s.wAddrRespStatus = .incomp

/-- The store's data is offered. -/
def wvalid : Bool := s.wReqStatus = .comp && s.wDataRespStatus = .incomp

/-- The load's address is offered. -/
def arvalid : Bool := s.rReqStatus = .comp && s.rRespStatus = .incomp

/-- The bridge waits for the data of a load. -/
def rready : Bool := s.rRespStatus = .waitresp

/-- The bridge waits for the response to a store. -/
def bready : Bool := s.wRespStatus = .waitresp

/-- The store's address is transferred. -/
def awGo : Bool := s.awvalid && i.awready

/-- The store's data is transferred. -/
def wGo : Bool := s.wvalid && i.wready

/-- The load's address is transferred. -/
def arGo : Bool := s.arvalid && i.arready

/-- The load's data is transferred. -/
def rGo : Bool := s.rready && i.rvalid

/-- The response to the store is transferred. -/
def bGo : Bool := s.bready && i.bvalid

/-! ### Responses -/

/-- A load's response is ready to be sent. -/
def rRespVal : Bool := s.rRespStatus = .respsend

/-- A store's response is ready to be sent. -/
def wRespVal : Bool := s.wRespStatus = .respsend

/-- `io_splitter_ack_mux_sel`. -/
def ackMuxSel : Ack :=
  match s.rRespVal, s.wRespVal with
  | true, false => .load
  | false, true => .store
  | true, true => if s.ackLoadCounter = s.rRespHeader0.length then s.arb else .load
  | false, false => .load

/-- The flit of a load's response that is due: its header, then its data. -/
def ackLoad : Flit :=
  if s.ackLoadCounter = s.rRespHeader0.length then s.rRespHeader0 else s.rRespData0

/-- A flit of a load's response leaves. -/
def ackLoadGo : Bool := s.ackMuxSel = .load && s.rRespVal && i.rdy

/-- The response to a store leaves. -/
def ackStoreGo : Bool := s.ackMuxSel = .store && s.wRespVal && i.rdy

/-- `bridge_splitter_val`. -/
def val : Bool :=
  match s.ackMuxSel with
  | .load => s.rRespVal
  | .store => s.wRespVal

/-- `bridge_splitter_data`. -/
def data : Flit :=
  match s.ackMuxSel with
  | .load => s.ackLoad
  | .store => s.wRespHeader0

/-- One clock edge. -/
def next : AxiBridge where
  msgState := if s.go i then s.msgStateNext else s.msgState
  msgType := if s.go i then s.msgTypeNext i else s.msgType
  msgCounter :=
    if s.go i then
      if s.msgStateNext = .header0 then i.data.length else s.msgCounter - 1
    else s.msgCounter
  rReqHeader0 :=
    if s.goAndLoad i && s.msgStateNext = .header0 then i.data else s.rReqHeader0
  rReqHeader1 :=
    if s.goAndLoad i && s.msgStateNext = .header1 then i.data else s.rReqHeader1
  rReqHeader2 :=
    if s.goAndLoad i && s.msgStateNext = .header2 then i.data else s.rReqHeader2
  rReqStatus :=
    if s.goAndLoad i && s.msgStateNext = .header2 then .comp
    else if s.arGo i then .incomp
    else s.rReqStatus
  wReqHeader0 :=
    if s.goAndStore i && s.msgStateNext = .header0 then i.data else s.wReqHeader0
  wReqHeader1 :=
    if s.goAndStore i && s.msgStateNext = .header1 then i.data else s.wReqHeader1
  wReqHeader2 :=
    if s.goAndStore i && s.msgStateNext = .header2 then i.data else s.wReqHeader2
  wReqData0 := if s.goAndStore i && s.msgStateNext = .data then i.data else s.wReqData0
  wAddrReqStatus :=
    if s.wStatusUpdate i then .comp else if s.awGo i then .incomp else s.wAddrReqStatus
  wDataReqStatus :=
    if s.wStatusUpdate i then .comp else if s.wGo i then .incomp else s.wDataReqStatus
  wRespHeader0 :=
    if s.awGo i then storeAckHeader s.wReqHeader0 s.wReqHeader2 else s.wRespHeader0
  wRespBresp := if s.bGo i then i.bresp else s.wRespBresp
  wAddrRespStatus :=
    if s.awGo i then .waitresp
    else if s.bGo i then .respsend
    else if s.ackStoreGo i then .incomp
    else s.wAddrRespStatus
  wDataRespStatus :=
    if s.wGo i then .waitresp
    else if s.bGo i then .respsend
    else if s.ackStoreGo i then .incomp
    else s.wDataRespStatus
  rRespHeader0 := if s.arGo i then loadAckHeader s.rReqHeader0 s.rReqHeader2 else s.rRespHeader0
  rRespData0 := if s.rGo i then rdataMasked i.rdata else s.rRespData0
  rRespRresp := if s.rGo i then i.rresp else s.rRespRresp
  rRespStatus :=
    if s.arGo i then .waitresp
    else if s.rGo i then .respsend
    else if s.ackLoadGo i && s.ackLoadCounter = 0 && s.rRespStatus ≠ .waitresp then .incomp
    else s.rRespStatus
  ackLoadCounter :=
    if s.rRespStatus = .waitresp then s.rRespHeader0.length
    else if s.ackLoadGo i then
      if s.ackLoadCounter ≠ 0 then s.ackLoadCounter - 1 else s.ackLoadCounter
    else s.ackLoadCounter
  arb :=
    if s.wRespVal && s.rRespVal && s.ackLoadGo i then .store
    else if s.wRespVal && s.rRespVal && s.ackStoreGo i then .load
    else s.arb

end AxiBridge

/-- The bridge as a machine. -/
def axiBridge : Machine AxiBridge AxiInput where
  init s := s = .init
  step := AxiBridge.next

/-! ### What has passed -/

/-- The flits from the splitter, the transfers on the channels in order, and the flits to the splitter
with the kind of their response. -/
structure Transfers where
  accepted : List Flit
  ar : List (BitVec 64)
  aw : List (BitVec 64)
  w : List (BitVec 64 × BitVec 8)
  r : List (BitVec 64)
  b : List (BitVec 2)
  sent : List (Ack × Flit)

namespace Transfers

/-- No transfer yet. -/
def init : Transfers := ⟨[], [], [], [], [], [], []⟩

/-- What one cycle adds to the transfers. -/
def update (g : Transfers) (s : AxiBridge) (i : AxiInput) : Transfers where
  accepted := if i.val && s.rdy i then g.accepted ++ [i.data] else g.accepted
  ar := if s.arvalid && i.arready then g.ar ++ [msgAddr s.rReqHeader1] else g.ar
  aw := if s.awvalid && i.awready then g.aw ++ [msgAddr s.wReqHeader1] else g.aw
  w := if s.wvalid && i.wready then g.w ++ [(s.wReqData0, wstrb s.wReqHeader1)] else g.w
  r := if s.rready && i.rvalid then g.r ++ [i.rdata] else g.r
  b := if s.bready && i.bvalid then g.b ++ [i.bresp] else g.b
  sent := if s.val && i.rdy then g.sent ++ [(s.ackMuxSel, s.data)] else g.sent

end Transfers

/-- The bridge with the transfers it has made. -/
def bridgeTransfers : Machine (AxiBridge × Transfers) AxiInput :=
  axiBridge.withHistory .init Transfers.update

end Piton.Chipset
