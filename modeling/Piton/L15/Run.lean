import Piton.L15.Pipeline
import Piton.Lib.Machine

/-! Runs of the L1.5 from reset, and the state and inputs of concrete runs. -/

namespace Piton.L15

open Hw

/-- The L1.5: one step is one clock edge. -/
def machine : Machine State Inputs where
  init := State.IsReset
  step := State.step

/-! ### A reset state -/

/-- The undriven nets all zero. -/
def Undriven.zero : Undriven :=
  { vtagWriteMask := fun _ => 0, vtagWriteData := fun _ => 0, cmstVidx := 0, vcacheIndex := 0,
    viReadVal := false, viReadExt := 0, viWriteVal := false, viWriteMask := fun _ => false,
    viWriteData := fun _ => false, viVoutRest := fun _ => false }

/-- A packet of zeroes: a one-byte load by thread 0. -/
def PcxPacket.zero : PcxPacket :=
  { rqtype := .load, nc := false, size := 0, threadid := 0, bit110 := false,
    invalidateCacheline := false, blockinitstore := false, l1rplway := 0, address := 0, data := 0 }

/-- A message of zeroes: a data acknowledgement to thread 0. -/
def Noc2Message.zero : Noc2Message :=
  { reqtype := .dataAck, mshrid := .none, threadid := 0, hmcFill := false, l2miss := false,
    icacheType := false, ackState := .I, fwdSubcachelineVector := 0, address := 0, data0 := 0,
    data1 := 0, data2 := 0, data3 := 0 }

/-- An instruction of zeroes. -/
def Instr.zero : Instr :=
  { reqtype := .none, threadid := 0, mshrid := .none, address := 0, nonCacheable := false,
    size := 0, prefetch := false, l1ReplacementWay := 0, l2Miss := false, f4b := false,
    noc2Inval := false, fwdSubcachelineVector := 0, blockstore := false, blockstoreinit := false,
    noc2AckState := .I, ops := {} }

/-- A NoC1 command of zeroes. -/
def Noc1Command.zero : Noc1Command :=
  { reqtype := .none, mshrid := .none, threadid := 0, address := 0, nonCacheable := false,
    size := 0, prefetch := false, dataIndex := 0 }

/-- A NoC3 request of zeroes. -/
def Noc3Request.zero : Noc3Request :=
  { val := false, reqtype := .none, data0 := 0, data1 := 0, mshrid := .none, sequenceid := 0,
    threadid := 0, address := 0, withData := false, wasInval := false, fwdackVector := 0 }

/-- The MSHRs without an entry. -/
def Mshr.zero : Mshr :=
  { ldAddress := fun _ => 0, ldControl := fun _ => Control.zero, ldVal := fun _ => false,
    ifillControl := fun _ => Control.zero, ifillVal := fun _ => false, stAddress := fun _ => 0,
    stControl := fun _ => Control.zero, stVal := fun _ => false, stState := fun _ => .none,
    stWay := fun _ => 0, stWriteBuffer := fun _ => 0, stWriteBufferByteMask := fun _ => 0 }

/-- The reset state whose other registers are zero. -/
def State.reset : State :=
  { pcxVal := false, pcx := .zero, pcxIsMessageNew := true, noc2Val := false, noc2 := .zero,
    noc2IsMessageNew := true, fetchState := .normal, creditman := ⟨8, 2, 0⟩, valS2 := false,
    s2 := .zero, valS3 := false, s3 := .zero, s3Result := ⟨0, .I, 0, .I, 0, .I, 0, 0⟩,
    cpxencoderReqStaled := false, noc1encoderReqStaled := false, noc3encoderReqStaled := false,
    lruDataS3 := 0, mshr := .zero,
    utag := ⟨fun _ _ => 0, fun _ => 0, fun _ => 0, fun _ => 0⟩,
    udata := ⟨fun _ => 0, fun _ => 0, 0⟩,
    mesi := ⟨fun _ _ => .I, 0, false, 0, 0, .I⟩,
    lruarray := ⟨fun _ => 0, 0⟩,
    wmt := ⟨fun _ _ => ⟨false, 0⟩, fun _ => ⟨false, 0⟩, false, 0, fun _ => false,
      fun _ => ⟨false, 0⟩⟩,
    vi := ⟨fun _ => false, false, false, fun _ => false, fun _ => false⟩,
    cpxencoder := .normal,
    noc1buffer := ⟨fun _ => .zero, fun _ => false, fun _ => 0, 0, 0, 0⟩,
    noc3buffer := ⟨false, .zero⟩ }

theorem State.reset_isReset : State.reset.IsReset := by
  constructor <;> first | rfl | exact fun _ _ => rfl | skip
  · intro id t
    cases id <;> rfl
  · exact fun _ => rfl

/-! ### Inputs -/

namespace Inputs

/-- A cycle in which nothing arrives and both encoders accept what they are offered. -/
def quiet : Inputs :=
  { pcxOffer := none, pcxDataNextEntry := 0, noc2Offer := none, noc2Receiving := none,
    noc1encoderAck := true, noc3encoderAck := true, configReadData := 0, csmReadData := 0, undriven := .zero }

/-- A quiet cycle but for a PCX packet. -/
def ofPcx (p : PcxPacket) : Inputs := { quiet with pcxOffer := some p }

/-- A quiet cycle but for a NoC2 message. -/
def ofNoc2 (m : Noc2Message) : Inputs := { quiet with noc2Offer := some m }

/-- A load of eight bytes. -/
def load (t : ThreadId) (a : Paddr) : Inputs :=
  ofPcx { PcxPacket.zero with size := 3, threadid := t, address := a }

/-- A store of eight bytes. -/
def store (t : ThreadId) (a : Paddr) (nc : Bool) (data : Word) : Inputs :=
  ofPcx { PcxPacket.zero with
    rqtype := .store, nc := nc, size := 3, threadid := t, address := a, data := data }

/-- A flush of way `w` of the set of `a`. -/
def lineFlush (a : BitVec 24) (w : BitVec 2) : Inputs :=
  ofPcx { PcxPacket.zero with rqtype := .store, size := 3, address := ((0xb3#8 ++ 0#6) ++ w) ++ a }

/-- A data acknowledgement. -/
def dataAck (id : MshrId) (t : ThreadId) (state : Mesi) (data : Word) : Inputs :=
  ofNoc2 { Noc2Message.zero with
    mshrid := id, threadid := t, ackState := state, data0 := data, data1 := data }

end Inputs

/-- A load of a line and its fill; after the last cycle the second pass of the fill is in S2. -/
def fillRun : List Inputs :=
  [Inputs.load 0 0x12345000] ++ List.replicate 6 Inputs.quiet ++
    [Inputs.dataAck .ld 0 .S 5] ++ List.replicate 2 Inputs.quiet

/-- A state that a run of the machine reaches from the reset state. -/
theorem reachable_run {ok : State → Inputs → Prop} {is : List Inputs}
    (h : machine.RunOk ok State.reset is) :
    machine.Reachable ok (machine.run State.reset is) :=
  Machine.Reachable.run (.init State.reset_isReset) h

end Piton.L15
