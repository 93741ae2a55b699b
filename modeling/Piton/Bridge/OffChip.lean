import Piton.Bridge.Receive
import Piton.Bridge.Send

/-! The two directions of the link between `chip_bridge` and `fpga_bridge`. -/

namespace Piton.Bridge

open Hw

variable {dw dc : Nat}

/-- From `chip_bridge_out` to `fpga_bridge_rcv_32`. -/
abbrev chipToFpga (dw dc : Nat) := loggedLink chipOut fpgaIn 2 7 9 dw dc

/-- In every order of the edges of the three clocks, what the chip puts into its queues comes out of the
FPGA's in order on each network, the FPGA's queues are never full, and no credit is lost. -/
theorem chipToFpga_delivered {y : Link ChipOut FpgaIn 2 7 9 dw dc × LinkLog}
    (h : (chipToFpga dw dc).Reachable (fun _ _ => True) y) : Delivered chipOutLaw fpgaInLaw y :=
  delivered chipOutLaw fpgaInLaw (by decide) h

/-- A flit of a network with a tag in each half. -/
def flit (d : BitVec 32) : Net → Flit
  | .net1 => d ++ 1#32
  | .net2 => d ++ 2#32
  | .net3 => d ++ 3#32

namespace SixFlits

/-- The link from the chip to the FPGA after `reset`, for the run below. -/
def start : Link ChipOut FpgaIn 2 7 9 0 1 × LinkLog where
  fst :=
    { txFifo := fun _ => .init fun _ => 0
      tx := ⟨.init, ⟨0, 0, none, true⟩⟩
      words := .still 0 (none, 0)
      rx := ⟨(none, 0), (none, 0), (none, 0), 0, false, none, fun _ => false, fun _ => false⟩
      rxFifo := fun _ => .init fun _ => 0
      creditFifo := .init fun _ _ => false
      credits := .still 1 fun _ => false }
  snd := .empty

theorem init_start : (chipToFpga 0 1).init start :=
  ⟨⟨rfl, ⟨rfl, rfl, rfl, rfl, rfl, rfl, rfl⟩, fun _ => ⟨_, rfl⟩, fun _ => ⟨_, rfl⟩, ⟨_, rfl⟩, rfl, rfl⟩,
    rfl⟩

/-- The edges of one instant; the networks in `nets` have a flit tagged `d`. -/
def tick (txClk ioClk rxClk : Bool) (nets : List Net) (d : BitVec 32) (rdy : Bool) :
    LinkInput 2 7 9 Unit :=
  ⟨txClk, ioClk, rxClk, fun n => decide (n ∈ nets), flit d, fun _ => rdy, fun _ => (5, 2),
    fun _ => (1, 6), (3, 4), ()⟩

/-- Two flits on each network, while the clocks stand still by turns and the FPGA is not ready; then the
flits cross and their credits come back. -/
def edges : List (LinkInput 2 7 9 Unit) :=
  [tick true true true [.net1, .net2, .net3] 5 false, tick true false true [.net1, .net3] 6 false,
    tick true true false [.net2] 7 false] ++ List.replicate 28 (tick true true true [] 0 true)

end SixFlits

open SixFlits in
theorem chipToFpga_delivered_sixFlits :
    Delivered chipOutLaw fpgaInLaw ((chipToFpga 0 1).run start edges) ∧
      ∀ n, (((chipToFpga 0 1).run start edges).2.rx n).out =
        [flit 5 n, flit (if n = .net2 then 7 else 6) n] ∧
        ((chipToFpga 0 1).run start edges).1.tx.separator.credit n = 0 :=
  ⟨chipToFpga_delivered (Machine.Reachable.run (.init init_start)
    (Machine.runOk_of_mem (fun _ _ => trivial) start)), fun n => by cases n <;> decide +kernel⟩

/-- From `fpga_bridge_send_32` to `chip_bridge_in`. -/
abbrev fpgaToChip (threshold : BitVec 9) (dw dc : Nat) :=
  loggedLink (fpgaOut threshold) chipIn 7 3 3 dw dc

/-- The same to the chip, whose queues are shorter; the FPGA's queue of credits has room for each of
them. -/
theorem fpgaToChip_delivered {threshold : BitVec 9} (ht : threshold < 16)
    {y : Link FpgaOut ChipIn 7 3 3 dw dc × LinkLog}
    (h : (fpgaToChip threshold dw dc).Reachable (fun _ _ => True) y) :
    Delivered (fpgaOutLaw threshold) chipInLaw y ∧ y.1.tx.creditFifo.wfull = false := by
  have hdelivered := delivered (fpgaOutLaw threshold) chipInLaw (BitVec.lt_def.1 ht) h
  obtain ⟨o, ⟨l, hok⟩, -⟩ := hdelivered.credits
  exact ⟨hdelivered, not_full_of_draining hok.fifo hok.draining (by decide)⟩

namespace SixFlitsBack

/-- The link from the FPGA to the chip after `reset`, for the run below. -/
def start : Link FpgaOut ChipIn 7 3 3 1 0 × LinkLog where
  fst :=
    { txFifo := fun _ => .init fun _ => 0
      tx := ⟨.init, ⟨0, 0, none, true⟩, 0, none, fun _ => false, fun _ => false, false,
        .init fun _ _ => false, fun _ => false⟩
      words := .still 1 (none, 0)
      rx := ⟨0, false, none, fun _ => false⟩
      rxFifo := fun _ => .init fun _ => 0
      creditFifo := .init fun _ _ => false
      credits := .still 0 fun _ => false }
  snd := .empty

theorem init_start : (fpgaToChip 7 1 0).init start :=
  ⟨⟨⟨rfl, rfl, rfl, rfl, rfl, rfl, ⟨_, rfl⟩, rfl⟩, ⟨rfl, rfl, rfl⟩, fun _ => ⟨_, rfl⟩,
    fun _ => ⟨_, rfl⟩, ⟨_, rfl⟩, rfl, rfl⟩, rfl⟩

/-- The edges of one instant; the networks in `nets` have a flit tagged `d`. -/
def tick (txClk ioClk rxClk : Bool) (nets : List Net) (d : BitVec 32) (rdy : Bool) :
    LinkInput 7 3 3 (BitVec 11 × BitVec 11) :=
  ⟨txClk, ioClk, rxClk, fun n => decide (n ∈ nets), flit d, fun _ => rdy, fun _ => (5, 2),
    fun _ => (1, 6), (3, 4), (1, 2)⟩

/-- Flits on all three networks, out of step with each other, and then the edges in which they
arrive. -/
def edges : List (LinkInput 7 3 3 (BitVec 11 × BitVec 11)) :=
  [tick true true true [.net1, .net2, .net3] 5 false, tick true false true [.net1, .net3] 6 false,
    tick true true false [.net2] 7 false] ++ List.replicate 34 (tick true true true [] 0 true)

end SixFlitsBack

open SixFlitsBack in
theorem fpgaToChip_delivered_sixFlitsBack :
    (Delivered (fpgaOutLaw 7) chipInLaw ((fpgaToChip 7 1 0).run start edges) ∧
        ((fpgaToChip 7 1 0).run start edges).1.tx.creditFifo.wfull = false) ∧
      ∀ n, (((fpgaToChip 7 1 0).run start edges).2.rx n).out =
        [flit 5 n, flit (if n = .net2 then 7 else 6) n] ∧
        ((fpgaToChip 7 1 0).run start edges).1.tx.separator.base.credit n = 0 :=
  ⟨fpgaToChip_delivered (by decide) (Machine.Reachable.run (.init init_start)
    (Machine.runOk_of_mem (fun _ _ => trivial) start)), fun n => by cases n <;> decide +kernel⟩

end Piton.Bridge
