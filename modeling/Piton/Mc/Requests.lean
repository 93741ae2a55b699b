import Piton.Lib.Packets
import Piton.Lib.Split
import Piton.Mc.PktTrans

/-! What the memory bridge owes its requests: their commands, their data and their responses, and the
history of its ports against which this is stated. -/

namespace Piton.Mc

open Hw Piton.Noc

/-! ### Requests -/

/-- The flits after a header. -/
def Flit.len (f : Flit) : Nat := f.length.toNat

/-- The header, address and source flits of a packet. -/
def hdr (q : List Flit) : Flit := q.getD 0 0

/-- The address flit of a request. -/
def adr (q : List Flit) : Flit := q.getD 1 0

/-- The source flit of a request. -/
def src (q : List Flit) : Flit := q.getD 2 0

/-- The message type of a request. -/
def kind (q : List Flit) : BitVec 8 := msgType (hdr q)

/-- A cache-line load or store by its header. -/
def IsHeader (f : Flit) : Prop :=
  (isLoad (msgType f) = true ∧ Flit.len f = 2) ∨ (isStore (msgType f) = true ∧ Flit.len f = 10)

/-- The line of a store. -/
def storeData (q : List Flit) : BitVec 512 :=
  q.getD 10 0 ++ (q.getD 9 0 ++ (q.getD 8 0 ++ (q.getD 7 0 ++ (q.getD 6 0 ++ (q.getD 5 0 ++
    (q.getD 4 0 ++ q.getD 3 0))))))

/-- The whole packets of a stream. -/
def requests (xs : List Flit) : List (List Flit) :=
  if due Flit.len xs = 0 then packets Flit.len xs else (packets Flit.len xs).dropLast

variable (p : Config)

/-- A command as the controller sees it. -/
abbrev Command := MigCmd × BitVec 24

/-- The command of a request. -/
def command (q : List Flit) : Command := (migCmd (kind q), lineAddr p (adr q))

/-- Each command is issued once for each part of the line. -/
def commandPart (c : Command) (k : Nat) : Command × Nat := (c, k)

/-- The command parts owed for the requests, in order. -/
def commands (qs : List (List Flit)) : List (Command × Nat) :=
  (qs.map (command p)).flatMap (pieces commandPart p.ratio)

/-- The requests that write. -/
def stores (qs : List (List Flit)) : List (List Flit) := qs.filter fun q => isStore (kind q)

/-- How many requests read. -/
def loads (qs : List (List Flit)) : Nat := qs.countP fun q => isLoad (kind q)

/-- The parts of write data owed for the requests, in order. -/
def writes (qs : List (List Flit)) : List (BitVec p.width) :=
  ((stores qs).map storeData).flatMap (pieces (lineParts p) p.ratio)

/-- The lines that a port returned. -/
def lines (rs : List (BitVec p.width)) : List (BitVec 512) :=
  (List.range (rs.length / p.ratio)).map fun i =>
    joinParts (fun k => rs.getD (i * p.ratio + k) 0) p.ratio

/-- The flits of a response. -/
def loadReply (q : List Flit) (d : BitVec 512) : List Flit :=
  ackHeader (hdr q) (src q) 8 (loadAck (kind q)) ::
    (List.range 8).map fun k => d.extractLsb' (k * 64) 64

/-- The response owed for a store. -/
def storeReply (q : List Flit) : List Flit :=
  [ackHeader (hdr q) (src q) 0 (storeAck (kind q) 0)]

/-- The responses to requests: each load takes the next line. -/
def responses : List (List Flit) → List (BitVec 512) → List Flit
  | [], _ => []
  | q :: qs, ls =>
    if isLoad (kind q) then
      match ls with
      | [] => []
      | l :: ls => loadReply q l ++ responses qs ls
    else storeReply q ++ responses qs ls

/-! ### History -/

/-- What has passed at the ports, the flit that is offered but not accepted, and how many requests
each pointer has passed. -/
structure History where
  accepted : List Flit
  held : Option Flit
  issued : List (Command × Nat)
  written : List (BitVec p.width)
  returned : List (BitVec p.width)
  sent : List Flit
  nIn : Nat
  nOut : Nat
  nCmd : Nat
  nWdf : Nat
  nRcv : Nat

variable {p}

namespace History

/-- Nothing has passed the ports. -/
def init : History p where
  accepted := []
  held := none
  issued := []
  written := []
  returned := []
  sent := []
  nIn := 0
  nOut := 0
  nCmd := 0
  nWdf := 0
  nRcv := 0

/-- What one cycle passes. -/
def update (h : History p) (s : State p) (e : Input p) : History p where
  accepted := if flitInRdy s e then h.accepted ++ e.flitIn.toList else h.accepted
  held := if flitInRdy s e then none else e.flitIn
  issued :=
    if s.appEnReg && e.appRdy then
      h.issued ++ [commandPart (s.appCmdReg, s.clAddrReg) s.cmdPart]
    else h.issued
  written :=
    if s.appWdfWrenReg && e.appWdfRdy then h.written ++ [lineParts p s.appWdfDataReg s.wdfPart]
    else h.written
  returned := h.returned ++ e.appRdData.toList
  sent := if flitOutVal s && e.flitOutRdy then h.sent ++ [flitOut s] else h.sent
  nIn := if completes s e then h.nIn + 1 else h.nIn
  nOut := if loadsNext s then h.nOut + 1 else h.nOut
  nCmd := if cmdMoves s e then h.nCmd + 1 else h.nCmd
  nWdf := if wdfMoves s e then h.nWdf + 1 else h.nWdf
  nRcv := if rcvMoves s then h.nRcv + 1 else h.nRcv

end History

variable (p)

/-- The bridge with the history of its ports. -/
def recorded : Machine (State p × History p) (Input p) :=
  (machine p).withHistory .init History.update

variable {p}

/-- The network sends loads and stores of cache lines, and keeps a flit that is not accepted. -/
structure Obeys (y : State p × History p) (e : Input p) : Prop where
  header : ∀ f, e.flitIn = some f → flitInRdy y.1 e = true → due Flit.len y.2.accepted = 0 →
    IsHeader f
  held : ∀ f, y.2.held = some f → e.flitIn = some f

/-- The memory controller returns parts of lines whose read commands it has accepted. -/
def Returns (y : State p × History p) (e : Input p) : Prop :=
  e.appRdData.isSome = true →
    y.2.returned.length < y.2.issued.countP fun c => c.1.1 = MigCmd.rd

/-- The parser is inside a packet. -/
def Filling (s : State p) : Prop :=
  s.accState = .acceptW2 ∨ s.accState = .acceptW3 ∨ s.accState = .acceptData

/-- Entry `a` holds a request, or the one that is coming in. -/
def Occupied (s : State p) (a : BitVec 4) : Prop :=
  (a - s.bufCurrentOut - 1).toNat < (s.bufCurrentIn - s.bufCurrentOut - 1).toNat ∨
    (a = s.bufCurrentIn ∧ Filling s)

/-- The pointers for write data and read data skip only requests, a line comes in only when the
pointer for read data is at an entry that waits for one, and no flit is offered before the
controller is calibrated. -/
structure Clear (s : State p) (e : Input p) : Prop where
  wdf : wdfSkips s = true → Occupied s s.bufCurrentWdf
  rcv : rcvSkips s = true → Occupied s s.bufCurrentDataRcv
  line : s.appRdDataValidReg = true → s.pktStateBuf s.bufCurrentDataRcv = .waitingData
  calibrated : e.flitIn.isSome = true → e.phyInitDone = true

/-- All entries have been sent. -/
structure AtRest (s : State p) : Prop where
  empty : s.bufCurrentOut + 1 = s.bufCurrentIn
  between : s.accState = .acceptW1
  flitOut : s.remainingFltOut = 0
  command : s.appEnReg = false
  data : s.appWdfWrenReg = false

/-- Commands are issued in the order of the requests, the data of stores is written in that order,
and each request has one response, in order, with its own header fields and, for a load, the line
returned for it. When nothing is in flight, all of it has happened. -/
structure Associated (y : State p × History p) : Prop where
  issued : y.2.issued <+: commands p (requests y.2.accepted)
  written : y.2.written <+: writes p (requests y.2.accepted)
  sent : y.2.sent <+: responses (requests y.2.accepted) (lines p y.2.returned)
  done : AtRest y.1 → y.2.issued = commands p (requests y.2.accepted) ∧
    y.2.written = writes p (requests y.2.accepted) ∧
    y.2.sent = responses (requests y.2.accepted) (lines p y.2.returned)

end Piton.Mc
