import Piton.Lib.Machine
import Piton.Noc.Units

/-! `mem_io_splitter`: requests of the second network go to memory or I/O, responses of both go to the
third network. -/

namespace Piton.Chipset

open Hw Noc

/-! ### Messages -/

/-- The `msg_state_*` codes. -/
inductive MsgState where
  | inval
  | header0
  | header1
  | header2
  | data
  deriving DecidableEq, Repr

/-- The two sides; the codes `msg_dest_inval` and `msg_src_inval` are `none`. -/
inductive Side where
  | io
  | mem
  deriving DecidableEq, Repr

/-- The variants of the destination: `PITONSYS_NO_MC`, `PITON_FPGA_BRAM_TEST`, the other prototypes
and the simulated chip. -/
inductive Build where
  | noMc
  | bramTest
  | proto
  | master
  deriving DecidableEq, Repr

/-- `MSG_ADDR_HI_`. -/
def msgAddrHi (f : Flit) : Bool := f.getLsbD 55

/-- The address flit lies in the range of the UART. -/
def isUart (f : Flit) : Bool := f.extractLsb' 28 28 = 0xfff0c2c

/-- `noc2_splitter_buf0_dest_next`, which reads the address flit. -/
def destNext (b : Build) (uartBootEn : Bool) (f : Flit) : Side :=
  match b with
  | .noMc => .io
  | .bramTest => if uartBootEn then .io else if msgAddrHi f then .io else .mem
  | .proto =>
    if uartBootEn then if isUart f then .io else .mem else if msgAddrHi f then .io else .mem
  | .master => if isUart f then .io else .mem

/-! ### Requests -/

/-- The registers between the second network and the two sides. -/
structure Noc2 where
  buf0Data : Flit
  buf1Data : Flit
  buf0State : MsgState
  buf1State : MsgState
  msgState : MsgState
  msgCounter : BitVec 8
  buf0Dest : Option Side
  buf1Dest : Option Side

/-- What the request half reads in a cycle. -/
structure Noc2Input where
  uartBootEn : Bool
  val : Bool
  data : Flit
  rdy : Side → Bool

namespace Noc2

/-- The request half after `reset`. -/
def init : Noc2 where
  buf0Data := 0
  buf1Data := 0
  buf0State := .inval
  buf1State := .inval
  msgState := .inval
  msgCounter := 0
  buf0Dest := none
  buf1Dest := none

variable (b : Build) (s : Noc2) (i : Noc2Input)

/-- `msg_state_next`: three header flits, then as many data flits as the header said. -/
def msgStateNext : MsgState :=
  if s.msgState = .inval then .header0
  else if s.msgState = .header0 then .header1
  else if s.msgState = .header1 then .header2
  else if s.msgCounter = 0 then .header0
  else if s.msgState = .header2 then .data
  else if s.msgState = .data then .data
  else .inval

/-- `memio_splitter_rdy_mux_sel`. -/
def rdyMuxSel : Option Side :=
  if s.buf1Dest ≠ none then s.buf1Dest
  else if s.buf0State = .header1 then s.buf0Dest
  else none

/-- The side of the second buffer has room. -/
def rdyMuxOut : Bool :=
  match s.rdyMuxSel with
  | some d => i.rdy d
  | none => false

/-- The second buffer holds a flit. -/
def buf1Val : Bool := s.buf1State ≠ .inval

/-- The second buffer cannot move on. -/
def stallBuf1 : Bool := s.buf1Val && !s.rdyMuxOut i

/-- The first buffer cannot move on. -/
def stallBuf0 : Bool := s.stallBuf1 i && s.buf0State ≠ .inval

/-- `splitter_noc2_rdy`. -/
def rdy : Bool := !s.stallBuf0 i

/-- `noc2_splitter_go`. -/
def go : Bool := i.val && s.rdy i

/-- `splitter_io_val` and `splitter_mem_val`. -/
def val (d : Side) : Bool := s.buf1Val && s.rdyMuxSel = some d

/-- One clock edge. -/
def next : Noc2 where
  buf0Data := if s.stallBuf0 i then s.buf0Data else i.data
  buf0State :=
    if s.stallBuf0 i then s.buf0State else if s.go i then s.msgStateNext else .inval
  msgState := if s.go i then s.msgStateNext else s.msgState
  msgCounter :=
    if s.go i then
      if s.msgStateNext = .header0 then i.data.length else s.msgCounter - 1
    else s.msgCounter
  buf0Dest :=
    if s.go i then
      if s.msgStateNext = .header0 then none
      else if s.msgStateNext = .header1 then some (destNext b i.uartBootEn i.data)
      else s.buf0Dest
    else s.buf0Dest
  buf1Data := if s.stallBuf1 i then s.buf1Data else s.buf0Data
  buf1State := if s.stallBuf1 i then s.buf1State else s.buf0State
  buf1Dest := if s.stallBuf1 i then s.buf1Dest else s.buf0Dest

/-- The flit that a side takes. -/
def out (d : Side) : Option Flit := if s.val d && i.rdy d then some s.buf1Data else none

end Noc2

/-! ### Responses -/

/-- The registers between the two sides and the third network. -/
structure Noc3 where
  buf0Data : Flit
  buf1Data : Flit
  buf0State : MsgState
  buf1State : MsgState
  msgState : MsgState
  msgCounter : BitVec 8
  msgSrc : Option Side

/-- What the response half reads in a cycle. -/
structure Noc3Input where
  val : Side → Bool
  data : Side → Flit
  rdy : Bool

namespace Noc3

/-- The response half after `reset`. -/
def init : Noc3 where
  buf0Data := 0
  buf1Data := 0
  buf0State := .inval
  buf1State := .inval
  msgState := .inval
  msgCounter := 0
  msgSrc := none

variable (s : Noc3) (i : Noc3Input)

/-- `msg_state_next`: one header flit, then as many data flits as the header said. -/
def msgStateNext : MsgState :=
  if s.msgState = .inval then .header0
  else if s.msgCounter = 0 then .header0
  else if s.msgState = .header0 then .data
  else if s.msgState = .data then .data
  else .inval

/-- `memio_splitter_input_mux_sel`. -/
def inputMuxSel : Option Side :=
  if s.msgStateNext ≠ .header0 then s.msgSrc
  else
    match i.val .mem, i.val .io with
    | true, false => some .mem
    | false, true => some .io
    | false, false => s.msgSrc
    | true, true => if s.msgSrc = some .mem then some .io else some .mem

/-- The side whose wires pass the input mux. -/
def selected : Side := if s.inputMuxSel i = some .io then .io else .mem

/-- The second buffer holds a flit. -/
def buf1Val : Bool := s.buf1State ≠ .inval

/-- `stall_memio_splitter_buf0` is the same wire. -/
def stallBuf1 : Bool := s.buf1Val && !i.rdy

/-- `splitter_io_rdy` and `splitter_mem_rdy`. -/
def rdy (d : Side) : Bool := s.selected i = d && !s.stallBuf1 i

/-- `memio_splitter_go`. -/
def go : Bool := i.val (s.selected i) && !s.stallBuf1 i

/-- One clock edge. -/
def next : Noc3 where
  buf0Data := if s.stallBuf1 i then s.buf0Data else i.data (s.selected i)
  buf0State :=
    if s.stallBuf1 i then s.buf0State else if s.go i then s.msgStateNext else .inval
  msgState := if s.go i then s.msgStateNext else s.msgState
  msgCounter :=
    if s.go i then
      if s.msgStateNext = .header0 then (i.data (s.selected i)).length else s.msgCounter - 1
    else s.msgCounter
  msgSrc := if s.go i && s.msgStateNext = .header0 then s.inputMuxSel i else s.msgSrc
  buf1Data := if s.stallBuf1 i then s.buf1Data else s.buf0Data
  buf1State := if s.stallBuf1 i then s.buf1State else s.buf0State

/-- The flit that the third network takes. -/
def out : Option Flit := if s.buf1Val && i.rdy then some s.buf1Data else none

end Noc3

/-! ### The splitter -/

/-- The splitter: requests of the second network and responses on the third share no register. -/
structure MemIoSplitter where
  noc2 : Noc2
  noc3 : Noc3

/-- What the splitter reads in a cycle. -/
structure SplitterInput where
  noc2 : Noc2Input
  noc3 : Noc3Input

/-- The two halves share no register. -/
def memIoSplitter (b : Build) : Machine MemIoSplitter SplitterInput where
  init s := s = ⟨.init, .init⟩
  step s i := ⟨s.noc2.next b i.noc2, s.noc3.next i.noc3⟩

/-- What has passed the splitter: the flits of the second network with the side that each would
name as an address, the flits that each side took, the flits that came from the sides in order, and the
flits of the third network. -/
structure Passed where
  requests : List (Flit × Side)
  delivered : List (Side × Flit)
  responses : List (Side × Flit)
  returned : List Flit

namespace Passed

/-- No flit has passed yet. -/
def init : Passed := ⟨[], [], [], []⟩

/-- What one cycle adds to the flits that went in and came out. -/
def update (b : Build) (g : Passed) (s : MemIoSplitter) (i : SplitterInput) : Passed where
  requests :=
    if i.noc2.val && s.noc2.rdy i.noc2 then
      g.requests ++ [(i.noc2.data, destNext b i.noc2.uartBootEn i.noc2.data)]
    else g.requests
  delivered := g.delivered ++ (s.noc2.out i.noc2 .io).toList.map (.io, ·) ++
    (s.noc2.out i.noc2 .mem).toList.map (.mem, ·)
  responses := g.responses ++
    (if i.noc3.val .io && s.noc3.rdy i.noc3 .io then [(.io, i.noc3.data .io)] else []) ++
    (if i.noc3.val .mem && s.noc3.rdy i.noc3 .mem then [(.mem, i.noc3.data .mem)] else [])
  returned := g.returned ++ (s.noc3.out i.noc3).toList

end Passed

/-- The splitter with the flits that have passed through it. -/
def splitterPassed (b : Build) : Machine (MemIoSplitter × Passed) SplitterInput :=
  (memIoSplitter b).withHistory .init (Passed.update b)

end Piton.Chipset
