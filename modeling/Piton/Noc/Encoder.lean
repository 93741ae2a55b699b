import Piton.L15.Types
import Piton.Lib.Slice
import Piton.Noc.Route

/-! The encoders of the L1.5: `noc1encoder` for requests to the L2 and `noc3encoder` for
acknowledgements and write-backs. -/

namespace Piton.Noc

open Hw
open L15 (Noc1Reqtype Noc3Reqtype)

/-! ### Message codes -/

/-! `MSG_TYPE_*`, the ones between the L1.5 and the L2. -/

namespace MsgType

/-- `MSG_TYPE_RESERVED`. -/
def reserved : BitVec 8 := 0

/-- `MSG_TYPE_PREFETCH_REQ`. -/
def prefetchReq : BitVec 8 := 1

/-- `MSG_TYPE_STORE_REQ`. -/
def storeReq : BitVec 8 := 2

/-- `MSG_TYPE_CAS_REQ`. -/
def casReq : BitVec 8 := 5

/-- `MSG_TYPE_SWAP_REQ`. -/
def swapReq : BitVec 8 := 9

/-- `MSG_TYPE_WB_REQ`. -/
def wbReq : BitVec 8 := 12

/-- `MSG_TYPE_WBGUARD_REQ`. -/
def wbguardReq : BitVec 8 := 13

/-- `MSG_TYPE_NC_LOAD_REQ`. -/
def ncLoadReq : BitVec 8 := 14

/-- `MSG_TYPE_NC_STORE_REQ`. -/
def ncStoreReq : BitVec 8 := 15

/-- `MSG_TYPE_LOAD_FWD`. -/
def loadFwd : BitVec 8 := 16

/-- `MSG_TYPE_STORE_FWD`. -/
def storeFwd : BitVec 8 := 17

/-- `MSG_TYPE_INV_FWD`. -/
def invFwd : BitVec 8 := 18

/-- `MSG_TYPE_LOAD_FWDACK`. -/
def loadFwdack : BitVec 8 := 21

/-- `MSG_TYPE_STORE_FWDACK`. -/
def storeFwdack : BitVec 8 := 22

/-- `MSG_TYPE_INV_FWDACK`. -/
def invFwdack : BitVec 8 := 23

/-- `MSG_TYPE_NODATA_ACK`. -/
def nodataAck : BitVec 8 := 28

/-- `MSG_TYPE_DATA_ACK`. -/
def dataAck : BitVec 8 := 29

/-- `MSG_TYPE_LOAD_REQ`. -/
def loadReq : BitVec 8 := 31

/-- `MSG_TYPE_INTERRUPT_FWD`. -/
def interruptFwd : BitVec 8 := 32

/-- `MSG_TYPE_INTERRUPT`. -/
def interrupt : BitVec 8 := 33

end MsgType

/-- `MSG_CACHE_TYPE_DATA`. -/
def cacheTypeData : BitVec 1 := 0

/-- `MSG_CACHE_TYPE_INS`. -/
def cacheTypeIns : BitVec 1 := 1

/-- The message's code for a PCX size. -/
def msgDataSize : BitVec 3 → BitVec 3
  | 0 => 1
  | 1 => 2
  | 2 => 3
  | 3 => 4
  | 7 => 5
  | _ => 0

/-- The position of the tile and the map from flat tile ids to coordinates. -/
structure Place where
  chipid : BitVec 14
  coreidX : BitVec 8
  coreidY : BitVec 8
  flatIdToXy : BitVec 6 → BitVec 8 × BitVec 8

/-- `PACKET_HOME_ID_X_MASK`. -/
def homeX (h : BitVec 30) : BitVec 8 := h.extractLsb' 0 8

/-- `PACKET_HOME_ID_Y_MASK`. -/
def homeY (h : BitVec 30) : BitVec 8 := h.extractLsb' 8 8

/-- `PACKET_HOME_ID_CHIP_MASK`. -/
def homeChip (h : BitVec 30) : BitVec 14 := h.extractLsb' 16 14

/-- The first header flit of a message. -/
def header1 (dstChipid : BitVec 14) (dstX dstY : BitVec 8) (dstFbits : BitVec 4)
    (length type mshrid : BitVec 8) (options : BitVec 6) : Flit :=
  let f := setSlice (0 : Flit) 50 dstChipid
  let f := setSlice f 42 dstX
  let f := setSlice f 34 dstY
  let f := setSlice f 30 dstFbits
  let f := setSlice f 22 length
  let f := setSlice f 14 type
  let f := setSlice f 6 mshrid
  setSlice f 0 options

/-- The third header flit of a message. -/
def header3 (srcChipid : BitVec 14) (srcX srcY : BitVec 8) (srcFbits : BitVec 4)
    (options3 : BitVec 30) : Flit :=
  let f := setSlice (0 : Flit) 50 srcChipid
  let f := setSlice f 42 srcX
  let f := setSlice f 34 srcY
  let f := setSlice f 30 srcFbits
  setSlice f 0 options3

/-- `msg_options_2`: data size, cache type and sub-line vector. -/
def msgOptions2 (dataSize : BitVec 3) (cacheType : BitVec 1) (sublineVector : BitVec 4) :
    BitVec 16 :=
  setSlice (setSlice (setSlice 0 8 dataSize) 11 cacheType) 12 sublineVector

/-! ### NoC1 -/

/-- A request of `noc1buffer`. -/
structure Noc1Req where
  reqType : Noc1Reqtype
  mshrid : BitVec 2
  threadid : BitVec 1
  address : BitVec 40
  nonCacheable : Bool
  size : BitVec 3
  prefetch : Bool
  homeid : BitVec 30
  csmSdid : BitVec 10
  csmLsid : BitVec 6
  data0 : Flit
  data1 : Flit

/-- A refill request of the CSM. -/
structure CsmReq where
  reqType : Noc1Reqtype
  mshrid : BitVec 3
  address : BitVec 40
  nonCacheable : Bool
  size : BitVec 3

/-- `req_*`: the request of the selected source. -/
structure SelectedReq where
  reqType : Noc1Reqtype
  prefetch : Bool
  nc : Bool
  data0 : Flit
  data1 : Flit
  address : BitVec 40
  mshrid : BitVec 8
  size : BitVec 3
  destX : BitVec 8
  destY : BitVec 8
  destChipid : BitVec 14
  csmLsid : BitVec 6
  csmSdid : BitVec 10
  deriving DecidableEq

/-- The request of `noc1buffer` as selected. -/
def Noc1Req.select (r : Noc1Req) : SelectedReq where
  reqType := r.reqType
  prefetch := r.prefetch
  nc := r.nonCacheable
  data0 := r.data0
  data1 := r.data1
  address := r.address
  mshrid := (r.threadid ++ r.mshrid).setWidth 8
  size := r.size
  destX := homeX r.homeid
  destY := homeY r.homeid
  destChipid := homeChip r.homeid
  csmLsid := if r.reqType ≠ .writebackGuard then r.csmLsid else 0
  csmSdid := if r.reqType ≠ .writebackGuard then r.csmSdid else 0

/-- The request of the CSM as selected: it goes to the L2 of the same tile. -/
def CsmReq.select (p : Place) (r : CsmReq) : SelectedReq where
  reqType := r.reqType
  prefetch := false
  nc := r.nonCacheable
  data0 := 0
  data1 := 0
  address := r.address
  mshrid := r.mshrid.setWidth 8 ||| 0x80
  size := r.size
  destX := p.coreidX
  destY := p.coreidY
  destChipid := p.chipid
  csmLsid := 0
  csmSdid := 0

/-- `msg_*`: what depends on the type of the request. -/
structure Noc1Msg where
  type : BitVec 8
  length : BitVec 8
  cacheType : BitVec 1
  rawDataFlit1 : Bool
  destX : BitVec 8
  destY : BitVec 8
  destChipid : BitVec 14

namespace SelectedReq

variable (p : Place) (q : SelectedReq)

/-- The message of a request that goes to its home. -/
def msgTo (type length : BitVec 8) (cacheType : BitVec 1) : Noc1Msg where
  type := type
  length := length
  cacheType := cacheType
  rawDataFlit1 := false
  destX := q.destX
  destY := q.destY
  destChipid := q.destChipid

/-- An interrupt goes to the tile that its data word names, in the new or in the old way. -/
def interruptMsg : Noc1Msg :=
  let new := q.data0.getLsbD 63
  let compat := p.flatIdToXy (q.data0.extractLsb' 9 6)
  { type := MsgType.interruptFwd
    length := 1
    cacheType := 0
    rawDataFlit1 := true
    destX := if new then q.data0.extractLsb' 18 8 else compat.1
    destY := if new then q.data0.extractLsb' 26 8 else compat.2
    destChipid := if new then q.data0.extractLsb' 34 14 else 0 }

/-- The translation of `req_type`. -/
def msg : Noc1Msg :=
  match q.reqType with
  | .writebackGuard => q.msgTo MsgType.wbguardReq 2 cacheTypeData
  | .ldRequest =>
    q.msgTo
      (if q.prefetch then MsgType.prefetchReq
        else if q.nc then MsgType.ncLoadReq else MsgType.loadReq)
      2 cacheTypeData
  | .ifillRequest =>
    q.msgTo (if q.nc then MsgType.ncLoadReq else MsgType.loadReq) 2 cacheTypeIns
  | .writethroughRequest =>
    q.msgTo (if q.nc then MsgType.ncStoreReq else MsgType.reserved) 3 cacheTypeData
  | .stUpgradeRequest | .stFillRequest => q.msgTo MsgType.storeReq 2 cacheTypeData
  | .casRequest => q.msgTo MsgType.casReq 4 cacheTypeData
  | .swapRequest => q.msgTo MsgType.swapReq 3 cacheTypeData
  | .interruptFwd => interruptMsg p q
  | .none => q.msgTo MsgType.reserved 0 0

/-- `flit` in each state of the encoder. -/
def flit (flitState : BitVec 4) : Flit :=
  let m := q.msg p
  match flitState with
  | 0 => header1 m.destChipid m.destX m.destY 0 m.length m.type q.mshrid 0
  | 1 =>
    if m.rawDataFlit1 then setSlice q.data0 9 (0 : BitVec 7)
    else
      let f := setSlice (0 : Flit) 16 q.address
      let f := setSlice f 11 m.cacheType
      setSlice f 0 (msgOptions2 (msgDataSize q.size) m.cacheType 0)
  | 2 =>
    header3 p.chipid p.coreidX p.coreidY 0 (setSlice (setSlice 0 20 q.csmSdid) 14 q.csmLsid)
  | 3 => q.data0
  | 4 => q.data1
  | _ => 0

/-- The flits of a message. -/
def flits : List Flit :=
  (List.range ((q.msg p).length.toNat + 1)).map fun k => q.flit p (BitVec.ofNat 4 k)

end SelectedReq

/-- `L15_NOC1ENCODER_SOURCE_*`. -/
inductive Noc1Source where
  | l15
  | csm
  deriving DecidableEq, Repr

/-- The registers of `noc1encoder`. -/
structure Noc1Encoder where
  flitState : BitVec 4
  lastReqSource : Noc1Source

/-- The inputs of `noc1encoder` in one cycle. -/
structure Noc1EncoderIn where
  noc1bufferVal : Bool
  noc1buffer : Noc1Req
  csmVal : Bool
  csm : CsmReq
  noc1outReady : Bool
  dmbrStall : Bool

namespace Noc1Encoder

variable (p : Place) (e : Noc1Encoder) (i : Noc1EncoderIn)

/-- `sending`: no stall in the middle of a message. -/
def sending : Bool :=
  (i.noc1bufferVal || i.csmVal) && !(i.dmbrStall && e.flitState = 0)

/-- `req_source`. -/
def reqSource : Noc1Source :=
  if (e.lastReqSource = .l15 && e.flitState ≠ 0) || !i.csmVal then .l15 else .csm

/-- The selected request. -/
def req : SelectedReq :=
  match e.reqSource i with
  | .l15 => i.noc1buffer.select
  | .csm => i.csm.select p

/-- The flit that the network takes in this cycle. -/
def taken : Option Flit :=
  if e.sending i && i.noc1outReady then some ((e.req p i).flit p e.flitState) else none

/-- `flit_state != msg_length` compares a state of four bits with a length of eight. -/
def last : Bool := e.flitState.setWidth 8 = ((e.req p i).msg p).length

/-- `noc1encoder_noc1buffer_req_ack`. -/
def noc1bufferAck : Bool :=
  i.noc1bufferVal && e.last p i && i.noc1outReady && e.reqSource i = .l15

/-- `noc1encoder_csm_req_ack`. -/
def csmAck : Bool := i.csmVal && e.last p i && i.noc1outReady && e.reqSource i = .csm

/-- One clock edge. -/
def step : Noc1Encoder where
  flitState :=
    if e.sending i then
      if i.noc1outReady then if e.last p i then 0 else e.flitState + 1
      else e.flitState
    else 0
  lastReqSource := e.reqSource i

end Noc1Encoder

/-! ### NoC3 -/

/-- A request to `noc3encoder`. -/
structure Noc3Req where
  reqType : Noc3Reqtype
  data0 : Flit
  data1 : Flit
  mshrid : BitVec 2
  threadid : BitVec 1
  sequenceid : BitVec 2
  address : BitVec 40
  withData : Bool
  wasInval : Bool
  fwdackVector : BitVec 4
  homeid : BitVec 30

namespace Noc3Req

variable (p : Place) (r : Noc3Req)

/-- `is_request`. -/
def isRequest : Bool := r.reqType = .writeback

/-- `last_subcacheline_id`. -/
def lastSubcachelineId : BitVec 2 :=
  if r.fwdackVector.getLsbD 3 then 3
  else if r.fwdackVector.getLsbD 2 then 2
  else if r.fwdackVector.getLsbD 1 then 1
  else 0

/-- `msg_mshrid`. -/
def msgMshrid : BitVec 8 := (r.threadid ++ r.mshrid).setWidth 8

/-- `msg_type`. -/
def msgType : BitVec 8 :=
  match r.reqType with
  | .writeback => MsgType.wbReq
  | .downgradeAck => MsgType.loadFwdack
  | .invalAck => if r.wasInval then MsgType.invFwdack else MsgType.storeFwdack
  | .icacheInvalAck => MsgType.invFwdack
  | .none => MsgType.reserved

/-- `msg_length`. -/
def msgLength : BitVec 8 :=
  match r.reqType with
  | .writeback => 4
  | .downgradeAck | .invalAck => if r.withData then 2 else 0
  | .icacheInvalAck | .none => 0

/-- `msg_data_size`: it is not sent with an acknowledgement. -/
def msgDataSize : BitVec 3 :=
  match r.reqType with
  | .downgradeAck | .invalAck => if r.withData then 6 else 0
  | .writeback | .icacheInvalAck | .none => 0

/-- `msg_options_4`: the last-sub-line flag and the sub-line id. -/
def msgOptions4 : BitVec 6 :=
  setSlice
    (setSlice 0 0
      (BitVec.ofBool (r.lastSubcachelineId = r.sequenceid || r.reqType = .icacheInvalAck)))
    1 r.sequenceid

/-- `flit` of a write-back, with the data register. -/
def requestFlit (dataF : Flit) (flitState : BitVec 4) : Flit :=
  match flitState with
  | 0 =>
    header1 (homeChip r.homeid) (homeX r.homeid) (homeY r.homeid) 0 r.msgLength r.msgType
      r.msgMshrid 0
  | 1 =>
    let size : BitVec 3 := if r.msgDataSize = 7 then 5 else r.msgDataSize
    let f := setSlice (0 : Flit) 16 r.address
    let f := setSlice f 0 (msgOptions2 size 0 0)
    setSlice f 8 size
  | 2 => header3 p.chipid p.coreidX p.coreidY 0 0
  | 3 | 4 => dataF
  | _ => 0

/-- `flit` of an acknowledgement, with the data register. -/
def responseFlit (dataF : Flit) (flitState : BitVec 4) : Flit :=
  match flitState with
  | 0 =>
    header1 (homeChip r.homeid) (homeX r.homeid) (homeY r.homeid) 0 r.msgLength r.msgType
      r.msgMshrid r.msgOptions4
  | 1 | 2 => dataF
  | _ => 0

/-- `flit` in each state of the encoder. -/
def flit (dataF : Flit) (flitState : BitVec 4) : Flit :=
  if r.isRequest then r.requestFlit p dataF flitState else r.responseFlit dataF flitState

end Noc3Req

/-- The registers of `noc3encoder`. -/
structure Noc3Encoder where
  flitState : BitVec 4
  dataF : Flit

/-- The inputs of `noc3encoder` in one cycle. -/
structure Noc3EncoderIn where
  val : Bool
  req : Noc3Req
  noc3outReady : Bool

namespace Noc3Encoder

variable (p : Place) (e : Noc3Encoder) (i : Noc3EncoderIn)

/-- The flit is the last one of its message. -/
def last : Bool := e.flitState.setWidth 8 = i.req.msgLength

/-- The flit that the network takes in this cycle. -/
def taken : Option Flit :=
  if i.val && i.noc3outReady then some (i.req.flit p e.dataF e.flitState) else none

/-- `noc3encoder_l15_req_ack`. -/
def reqAck : Bool := i.val && e.last i && i.noc3outReady

/-- `flit_state_next`. -/
def flitStateNext : BitVec 4 :=
  if i.val then
    if i.noc3outReady then if e.last i then 0 else e.flitState + 1
    else e.flitState
  else 0

/-- One clock edge: the data register takes the word of the next flit. -/
def step : Noc3Encoder where
  flitState := e.flitStateNext i
  dataF :=
    let next := e.flitStateNext i
    if i.val && i.req.isRequest && next = 3 then i.req.data0
    else if i.val && i.req.isRequest && next = 4 then i.req.data1
    else if i.val && !i.req.isRequest && next = 1 then i.req.data0
    else if i.val && !i.req.isRequest && next = 2 then i.req.data1
    else e.dataF

end Noc3Encoder

end Piton.Noc
