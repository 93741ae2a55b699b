import Piton.L15.Run

/-! What an access of the data array in S2 does to the primary data. -/

namespace Piton.L15

open Hw

namespace Udata

variable (d : Udata) (p : UdataPort)

/-- An access does its work on the primary line it addresses: a read delivers the line and a write
merges the new bits into it. -/
def Serves : Prop :=
  if p.rdwen then (d.tick p).doutF = d.pdata p.a
  else (d.tick p).pdata p.a = maskedWrite (d.pdata p.a) p.din p.bw

/-- Where the array moves a line instead of accessing it, what it leaves behind happens to be the
line asked for. Irreducible, since to unfold it at the end of a run is to compute the run. -/
@[irreducible] def MoveSuffices : Prop :=
  match p.cmst with
  | .HX => True
  | .MM =>
    if p.rdwen then d.doutF = d.pdata p.a
    else d.pdata p.a = maskedWrite (d.pdata p.a) p.din p.bw
  | .MH =>
    if p.rdwen then d.vdata p.va = d.pdata p.a
    else d.vdata p.va = maskedWrite (d.pdata p.a) p.din p.bw

variable {d p} in
theorem moveSuffices_of_hit (h : p.cmst = .HX) : d.MoveSuffices p := by
  unfold MoveSuffices
  rw [h]
  trivial

/-- An enabled access does its work exactly when the primary check hits or the move suffices. -/
theorem serves_iff (h : p.ce = true) : d.Serves p ↔ d.MoveSuffices p := by
  unfold Serves MoveSuffices tick
  rw [if_pos h]
  cases hc : p.cmst with
  | HX => cases p.rdwen <;> simp
  | MM => cases p.rdwen <;> simp
  | MH => cases p.rdwen <;> simp

variable {d p}

/-- An access leaves the lines that it does not address. -/
theorem pdata_other {a : BitVec 9} (h : a ≠ p.a) : (d.tick p).pdata a = d.pdata a := by
  unfold tick
  split
  · split
    · split
      · rfl
      · exact Function.update_of_ne h _ _
    · rfl
    · exact Function.update_of_ne h _ _
  · rfl

end Udata

namespace State

variable (s : State) (i : Inputs)

/-- The data array operation of S2, if it is valid and not stalled, does its work. -/
def DcacheServed : Prop := s.dcacheVal i = true → s.udata.Serves (s.dcachePort i)

end State

/-- In every state a read delivers and a write merges exactly when the tag check hits or the
move that a miss makes in its place suffices. -/
theorem dcacheServed_iff (s : State) (i : Inputs) :
    s.DcacheServed i ↔ (s.dcacheVal i = true → s.udata.MoveSuffices (s.dcachePort i)) := by
  unfold State.DcacheServed
  exact imp_congr_right fun h => s.udata.serves_iff (s.dcachePort i) h

/-- The second pass of a fill does not write its line. -/
theorem fill_not_dcacheServed :
    ¬ ∀ s, machine.Reachable (fun _ _ => True) s → ∀ i, s.DcacheServed i := by
  intro h
  have hr : machine.Reachable (fun _ _ => True) (machine.run State.reset fillRun) :=
    reachable_run (Machine.runOk_of_mem (p := fun _ => True) (fun _ _ => trivial) _)
  have hv : (machine.run State.reset fillRun).dcacheVal Inputs.quiet = true := by
    decide +kernel
  have hserved := h _ hr Inputs.quiet hv
  exact absurd hserved (by unfold Udata.Serves; decide +kernel)

end Piton.L15
