import Piton.Lib.Machine
import Piton.Lib.Slice
import Piton.Noc.Route

/-! The memory bridge, `pkt_trans_dp_wide`: packets from the network wait in a ring of 16 entries,
their data and commands go to the memory controller, and responses go back. -/

namespace Piton.Mc

open Piton.Noc

/-! ### Messages -/

/-- `MSG_TYPE_NC_LOAD_REQ`. -/
def msgTypeNcLoadReq : BitVec 8 := 14

/-- `MSG_TYPE_NC_STORE_REQ`. -/
def msgTypeNcStoreReq : BitVec 8 := 15

/-- `MSG_TYPE_LOAD_MEM`. -/
def msgTypeLoadMem : BitVec 8 := 19

/-- `MSG_TYPE_STORE_MEM`. -/
def msgTypeStoreMem : BitVec 8 := 20

/-- `MSG_TYPE_NC_LOAD_MEM_ACK`. -/
def msgTypeNcLoadMemAck : BitVec 8 := 26

/-- `MSG_TYPE_NC_STORE_MEM_ACK`. -/
def msgTypeNcStoreMemAck : BitVec 8 := 27

/-- `MSG_TYPE_LOAD_MEM_ACK`. -/
def msgTypeLoadMemAck : BitVec 8 := 24

/-- `MSG_TYPE_STORE_MEM_ACK`. -/
def msgTypeStoreMemAck : BitVec 8 := 25

/-- The message type of a header flit. -/
def msgType (f : Flit) : BitVec 8 := f.extractLsb' 14 8

/-- The request reads memory. -/
def isLoad (cmd : BitVec 8) : Bool := cmd = msgTypeNcLoadReq || cmd = msgTypeLoadMem

/-- The request writes memory. -/
def isStore (cmd : BitVec 8) : Bool := cmd = msgTypeNcStoreReq || cmd = msgTypeStoreMem

/-! ### State -/

/-- The states of the packet parser. -/
inductive AccState where
  | acceptW1
  | acceptW2
  | acceptW3
  | acceptData
  | stalled
  deriving DecidableEq, Repr

/-- The states of an entry. -/
inductive PktState where
  | filling
  | waitingWdf
  | waitingCmd
  | waitingData
  | ready
  | inactive
  deriving DecidableEq, Repr

/-- `app_cmd`. -/
inductive MigCmd where
  | wr
  | rd
  deriving DecidableEq, Repr

/-- A port of the memory controller: `RATIO` parts of `MIG_APP_DATA_WIDTH` bits make a line of 512
bits (the part counters have 6 bits), and the translation of addresses to lines. -/
structure Config where
  ratio : Nat
  width : Nat
  ratio_pos : 0 < ratio
  ratio_le : ratio ≤ 64
  line_eq : ratio * width = 512
  uartBootEn : Bool
  /-- `storage_addr_trans`, to a cache line. -/
  clAddrUartBoot : BitVec 48 → BitVec 24

variable (p : Config)

/-- The registers of the bridge: the ring of entries with a pointer for each step an entry goes
through, the parser of incoming flits, the response that is sent, and the registers towards the
memory controller. -/
structure State where
  pktW1 : BitVec 4 → Flit
  pktW2 : BitVec 4 → Flit
  pktW3 : BitVec 4 → Flit
  pktDataBuf : BitVec 4 → BitVec 512
  pktStateBuf : BitVec 4 → PktState
  pktCmdBuf : BitVec 4 → BitVec 8
  inDataBuf : BitVec 4 → Flit
  bufCurrentIn : BitVec 4
  bufCurrentOut : BitVec 4
  bufCurrentCmd : BitVec 4
  bufCurrentDataRcv : BitVec 4
  bufCurrentWdf : BitVec 4
  remainingFlits : BitVec 4
  accState : AccState
  rAppEn : Bool
  remainingFltOut : BitVec 4
  flitOutBuffer : BitVec 4 → Flit
  appWdfWrenR : Bool
  appWdfDataR : BitVec 512
  appWdfWrenRR : Bool
  appWdfDataRR : BitVec 512
  appWdfWrenReg : Bool
  appWdfDataReg : BitVec 512
  appEnReg : Bool
  clAddrReg : BitVec 24
  appCmdReg : MigCmd
  cmdPart : Nat
  cmdPending : Bool
  wdfPart : Nat
  wdfPending : Bool
  rdPart : Nat
  appRdDataPart : Nat → BitVec p.width
  appRdDataReg : BitVec 512
  appRdDataEndReg : Bool
  appRdDataValidReg : Bool

/-- What the bridge reads in a cycle, from the network and from the memory controller. -/
structure Input where
  flitIn : Option Flit
  flitOutRdy : Bool
  appRdy : Bool
  appWdfRdy : Bool
  appRdData : Option (BitVec p.width)
  phyInitDone : Bool

variable {p}

/-! ### Wires -/

section Wires

variable (s : State p) (e : Input p)

/-- The bridge takes a flit. -/
def flitInRdy : Bool := s.accState ≠ .stalled && e.phyInitDone

/-- The last part of a command is accepted. -/
def cmdSendEnd : Bool := s.appEnReg && s.cmdPart = p.ratio - 1 && e.appRdy

/-- A command may be loaded. -/
def appRdyTrans : Bool := (!s.cmdPending || cmdSendEnd s e) && !(s.appEnReg && !cmdSendEnd s e)

/-- The last part of a line of write data is accepted. -/
def wdfSendEnd : Bool := s.appWdfWrenReg && s.wdfPart = p.ratio - 1 && e.appWdfRdy

/-- A line of write data may be loaded. -/
def appWdfRdyTrans : Bool :=
  (!s.wdfPending || wdfSendEnd s e) && !(s.appWdfWrenReg && !wdfSendEnd s e)

/-- The part after this one. -/
def partNext (p : Config) (part : Nat) : Nat := if part = p.ratio - 1 then 0 else part + 1

/-- The last part of a line arrives. -/
def rdLast : Bool := s.rdPart = p.ratio - 1 && e.appRdData.isSome

/-- A line from its parts. -/
def joinParts {w : Nat} (f : Nat → BitVec w) : Nat → BitVec 512
  | 0 => 0
  | k + 1 => Hw.setSlice (joinParts f k) (k * w) (f k)

/-- The last part comes straight from the port. -/
def appRdDataTrans (d : BitVec p.width) : BitVec 512 :=
  joinParts (fun k => if k = p.ratio - 1 then d else s.appRdDataPart k) p.ratio

/-- The entry whose write data is due has it. -/
def appWdfWren : Bool := s.pktStateBuf s.bufCurrentWdf = .waitingWdf

/-- The write data of that entry. -/
def appWdfData : BitVec 512 := s.pktDataBuf s.bufCurrentWdf

/-- `app_wdf_data_out` is a part of the line. -/
def lineParts (p : Config) (d : BitVec 512) (k : Nat) : BitVec p.width :=
  d.extractLsb' (k * p.width) p.width

/-- The line address in an address flit. -/
def lineAddr (p : Config) (f : Flit) : BitVec 24 :=
  if p.uartBootEn then p.clAddrUartBoot (f.extractLsb' 16 48) else f.extractLsb' 22 24

/-- The line address of the entry whose command is due. -/
def clAddr : BitVec 24 := lineAddr p (s.pktW2 s.bufCurrentCmd)

/-- The command of the memory controller for a request. -/
def migCmd (cmd : BitVec 8) : MigCmd := if isStore cmd then .wr else .rd

/-- The command of the entry whose command is due. -/
def appCmd : MigCmd := migCmd (s.pktCmdBuf s.bufCurrentCmd)

/-- The last flit of a packet comes in. -/
def completes : Bool :=
  e.flitIn.isSome && (s.accState = .acceptW3 || s.accState = .acceptData) && s.remainingFlits = 0

/-- Read commands have no data to write. -/
def wdfSkips : Bool :=
  isLoad (s.pktCmdBuf s.bufCurrentWdf) && s.pktStateBuf s.bufCurrentWdf ≠ .inactive

/-- The pointer to the write data due moves on. -/
def wdfMoves : Bool := wdfSkips s || (s.appWdfWrenRR && appWdfRdyTrans s e)

/-- The pointer to the command due moves on. -/
def cmdMoves : Bool := s.rAppEn && appRdyTrans s e

/-- Write commands have no data to receive. -/
def rcvSkips : Bool :=
  isStore (s.pktCmdBuf s.bufCurrentDataRcv) && s.pktStateBuf s.bufCurrentDataRcv ≠ .inactive

/-- The pointer to the entry that waits for its line moves on. -/
def rcvMoves : Bool := rcvSkips s || (s.appRdDataValidReg && s.appRdDataEndReg)

/-- The response flit that is due, from the high end of the buffer. -/
def flitOut : Flit := s.flitOutBuffer (s.remainingFltOut - 1)

/-- A response flit is offered. -/
def flitOutVal : Bool := s.pktStateBuf s.bufCurrentOut = .ready && s.remainingFltOut ≠ 0

/-- The entry being sent is done and the next response is there. -/
def loadsNext : Bool :=
  (s.pktStateBuf s.bufCurrentOut = .ready || s.pktStateBuf s.bufCurrentOut = .inactive) &&
    s.remainingFltOut = 0 && s.pktStateBuf (s.bufCurrentOut + 1) = .ready

end Wires

/-! ### One clock edge -/

section Step

variable (s : State p) (e : Input p)

/-- `ACCEPT_PACKETS`: the parser. -/
def accStateNext : AccState :=
  if e.flitIn.isSome then
    match s.accState with
    | .acceptW1 => .acceptW2
    | .acceptW2 => .acceptW3
    | .acceptW3 =>
      if s.remainingFlits = 0 then
        if s.bufCurrentIn + 1 = s.bufCurrentOut then .stalled else .acceptW1
      else .acceptData
    | .acceptData =>
      if s.remainingFlits = 0 then
        if s.bufCurrentIn + 1 ≠ s.bufCurrentOut then .acceptW1 else .stalled
      else .acceptData
    | .stalled => if s.bufCurrentIn ≠ s.bufCurrentOut then .acceptW1 else .stalled
  else s.accState

/-- The flits that the incoming packet still lacks. -/
def remainingFlitsNext : BitVec 4 :=
  match e.flitIn with
  | none => s.remainingFlits
  | some f =>
    match s.accState with
    | .acceptW1 => (f.length - 1).setWidth 4
    | .acceptW2 => s.remainingFlits - 1
    | .acceptW3 => if s.remainingFlits = 0 then s.remainingFlits else s.remainingFlits - 1
    | .acceptData => s.remainingFlits - 1
    | .stalled => s.remainingFlits

/-- A register array written with the flit that comes in. -/
def writeFlit {n : Nat} {α : Type} (old : BitVec n → α) (st : AccState) (i : BitVec n)
    (f : Flit → α) : BitVec n → α := fun a =>
  match e.flitIn with
  | some x => if s.accState = st ∧ a = i then f x else old a
  | none => old a

/-- The data of a write packet: the first flit is the lowest word. -/
def inData (f : Flit) : BitVec 512 :=
  f ++ (s.inDataBuf 1 ++ (s.inDataBuf 2 ++ (s.inDataBuf 3 ++ (s.inDataBuf 4 ++ (s.inDataBuf 5 ++
    (s.inDataBuf 6 ++ s.inDataBuf 7))))))

/-- The line of entry `a`: collected from the packet, or read from memory. -/
def pktDataBufNext (a : BitVec 4) : BitVec 512 :=
  match e.flitIn with
  | some f =>
    if a = s.bufCurrentIn ∧ s.accState = .acceptData ∧ s.remainingFlits = 0 then inData s f
    else if a = s.bufCurrentDataRcv ∧ s.appRdDataValidReg then s.appRdDataReg
    else s.pktDataBuf a
  | none =>
    if a = s.bufCurrentDataRcv ∧ s.appRdDataValidReg then s.appRdDataReg else s.pktDataBuf a

/-- `IN_STATE`: the events that change an entry, by priority. -/
def pktStateBufNext (a : BitVec 4) : PktState :=
  if a = s.bufCurrentIn ∧ e.flitIn.isSome then
    if s.accState = .acceptW1 then .filling
    else if s.accState = .acceptW3 ∧ s.remainingFlits = 0 then .waitingCmd
    else if s.accState = .acceptData ∧ s.remainingFlits = 0 then .waitingWdf
    else if s.accState = .stalled ∧ s.bufCurrentIn ≠ s.bufCurrentOut then .filling
    else s.pktStateBuf a
  else if a = s.bufCurrentOut ∧ (s.pktStateBuf a = .ready ∨ s.pktStateBuf a = .inactive) ∧
      s.remainingFltOut = 0 then .inactive
  else if a = s.bufCurrentDataRcv ∧ s.appRdDataValidReg ∧ s.appRdDataEndReg then .ready
  else if a = s.bufCurrentCmd ∧ cmdMoves s e then
    if isStore (s.pktCmdBuf a) then .ready else .waitingData
  else if a = s.bufCurrentWdf ∧ appWdfWren s ∧ appWdfRdyTrans s e then .waitingCmd
  else s.pktStateBuf a

/-- The header of a response: the source of the request, its tag, a length and a type. -/
def ackHeader (w1 w3 : Flit) (length type : BitVec 8) : Flit :=
  w3.extractLsb' 50 14 ++ (w3.extractLsb' 42 8 ++ (w3.extractLsb' 34 8 ++ (w3.extractLsb' 30 4 ++
    (length ++ (type ++ (w1.extractLsb' 6 8 ++ (0 : BitVec 6)))))))

/-- The type of the response to a load. -/
def loadAck (cmd : BitVec 8) : BitVec 8 :=
  if cmd = msgTypeNcLoadReq then msgTypeNcLoadMemAck else msgTypeLoadMemAck

/-- The type of the response to a store; other commands leave the bits of `old`. -/
def storeAck (cmd : BitVec 8) (old : Flit) : BitVec 8 :=
  if cmd = msgTypeNcStoreReq then msgTypeNcStoreMemAck
  else if cmd = msgTypeStoreMem then msgTypeStoreMemAck else old.extractLsb' 14 8

/-- The flits of a load's response, at their places in the buffer. -/
def loadResponse (w1 w3 : Flit) (cmd : BitVec 8) (d : BitVec 512) (old : BitVec 4 → Flit)
    (a : BitVec 4) : Flit :=
  if a = 8 then ackHeader w1 w3 8 (loadAck cmd)
  else if a.toNat < 8 then d.extractLsb' ((7 - a.toNat) * 64) 64
  else old a

/-- The response in the buffer: the one of the next entry once it is loaded. -/
def flitOutBufferNext (a : BitVec 4) : Flit :=
  let n := s.bufCurrentOut + 1
  if loadsNext s then
    if isLoad (s.pktCmdBuf n) then
      loadResponse (s.pktW1 n) (s.pktW3 n) (s.pktCmdBuf n) (s.pktDataBuf n) s.flitOutBuffer a
    else if a = 0 then
      ackHeader (s.pktW1 n) (s.pktW3 n) 0 (storeAck (s.pktCmdBuf n) (s.flitOutBuffer 0))
    else s.flitOutBuffer a
  else s.flitOutBuffer a

/-- The response flits that are left: nine for a load and one for a store. -/
def remainingFltOutNext : BitVec 4 :=
  if loadsNext s then if isLoad (s.pktCmdBuf (s.bufCurrentOut + 1)) then 9 else 1
  else if flitOutVal s ∧ e.flitOutRdy then s.remainingFltOut - 1
  else s.remainingFltOut

/-- One clock edge. -/
def next : State p where
  pktW1 := writeFlit s e s.pktW1 .acceptW1 s.bufCurrentIn id
  pktW2 := writeFlit s e s.pktW2 .acceptW2 s.bufCurrentIn id
  pktW3 := writeFlit s e s.pktW3 .acceptW3 s.bufCurrentIn id
  pktDataBuf := pktDataBufNext s e
  pktStateBuf := pktStateBufNext s e
  pktCmdBuf := writeFlit s e s.pktCmdBuf .acceptW1 s.bufCurrentIn msgType
  inDataBuf := writeFlit s e s.inDataBuf .acceptData s.remainingFlits id
  bufCurrentIn := if completes s e then s.bufCurrentIn + 1 else s.bufCurrentIn
  bufCurrentOut := if loadsNext s then s.bufCurrentOut + 1 else s.bufCurrentOut
  bufCurrentCmd := if cmdMoves s e then s.bufCurrentCmd + 1 else s.bufCurrentCmd
  bufCurrentDataRcv := if rcvMoves s then s.bufCurrentDataRcv + 1 else s.bufCurrentDataRcv
  bufCurrentWdf := if wdfMoves s e then s.bufCurrentWdf + 1 else s.bufCurrentWdf
  remainingFlits := remainingFlitsNext s e
  accState := accStateNext s e
  rAppEn :=
    if cmdMoves s e then false
    else if s.pktStateBuf s.bufCurrentCmd = .waitingCmd then true else s.rAppEn
  remainingFltOut := remainingFltOutNext s e
  flitOutBuffer := flitOutBufferNext s
  appWdfWrenR := if appWdfRdyTrans s e then appWdfWren s else s.appWdfWrenR
  appWdfDataR := if appWdfRdyTrans s e then appWdfData s else s.appWdfDataR
  appWdfWrenRR := if appWdfRdyTrans s e then s.appWdfWrenR else s.appWdfWrenRR
  appWdfDataRR := if appWdfRdyTrans s e then s.appWdfDataR else s.appWdfDataRR
  appWdfWrenReg := if appWdfRdyTrans s e then s.appWdfWrenRR else s.appWdfWrenReg
  appWdfDataReg := if appWdfRdyTrans s e then s.appWdfDataRR else s.appWdfDataReg
  appEnReg := if appRdyTrans s e then s.rAppEn else s.appEnReg
  clAddrReg := if appRdyTrans s e then clAddr s else s.clAddrReg
  appCmdReg := if appRdyTrans s e then appCmd s else s.appCmdReg
  cmdPart := if s.appEnReg && e.appRdy then partNext p s.cmdPart else s.cmdPart
  cmdPending :=
    if s.appEnReg && !cmdSendEnd s e then true
    else if cmdSendEnd s e then false else s.cmdPending
  wdfPart := if s.appWdfWrenReg && e.appWdfRdy then partNext p s.wdfPart else s.wdfPart
  wdfPending :=
    if s.appWdfWrenReg && !wdfSendEnd s e then true
    else if wdfSendEnd s e then false else s.wdfPending
  rdPart := if e.appRdData.isSome then partNext p s.rdPart else s.rdPart
  appRdDataPart := fun k => if s.rdPart = k then e.appRdData.getD 0 else s.appRdDataPart k
  appRdDataReg := appRdDataTrans s (e.appRdData.getD 0)
  appRdDataEndReg := rdLast s e
  appRdDataValidReg := rdLast s e

end Step

/-- The state after a reset that was held until the write pipeline was empty. -/
structure Reset (s : State p) : Prop where
  pktStateBuf : ∀ a, s.pktStateBuf a = .inactive
  pktCmdBuf : ∀ a, s.pktCmdBuf a = 0
  bufCurrentIn : s.bufCurrentIn = 0
  bufCurrentOut : s.bufCurrentOut = 15
  bufCurrentCmd : s.bufCurrentCmd = 0
  bufCurrentDataRcv : s.bufCurrentDataRcv = 0
  bufCurrentWdf : s.bufCurrentWdf = 0
  accState : s.accState = .acceptW1
  rAppEn : s.rAppEn = false
  remainingFltOut : s.remainingFltOut = 0
  appWdfWrenR : s.appWdfWrenR = false
  appWdfWrenRR : s.appWdfWrenRR = false
  appWdfWrenReg : s.appWdfWrenReg = false
  appEnReg : s.appEnReg = false
  cmdPart : s.cmdPart = 0
  cmdPending : s.cmdPending = false
  wdfPart : s.wdfPart = 0
  wdfPending : s.wdfPending = false
  rdPart : s.rdPart = 0
  appRdDataEndReg : s.appRdDataEndReg = false
  appRdDataValidReg : s.appRdDataValidReg = false

variable (p)

/-- The bridge as a machine. -/
def machine : Hw.Machine (State p) (Input p) where
  init := Reset
  step := next

end Piton.Mc
