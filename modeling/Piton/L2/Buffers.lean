import Piton.L2.Pipe1BufIn
import Piton.L2.Pipe2BufIn

/-! `l2_pipe1_buf_out` sends what it accepts, and with the two input buffers loses nothing. -/

namespace Piton.L2

open Hw
open Noc (Flit BufOutMode bufOut)

/-- The requests that have been accepted and the flits that the network has taken. -/
structure BufOutHistory where
  accepted : List (BufOutMode × BitVec 320)
  sent : List Flit

/-- What one cycle accepts and sends. -/
def BufOutHistory.record (g : BufOutHistory) (s : Pipe1BufOut) (i : BufOutInput) :
    BufOutHistory where
  accepted := g.accepted ++ (Pipe1BufOut.accepts s i).toList
  sent := g.sent ++ (Pipe1BufOut.sends s i).toList

/-- `l2_pipe1_buf_out` with the record of what has passed it. -/
def pipe1BufOut : Machine (Pipe1BufOut × BufOutHistory) BufOutInput :=
  Machine.withHistory { init := fun s => s = Pipe1BufOut.init, step := Pipe1BufOut.step } ⟨[], []⟩
    BufOutHistory.record

namespace Pipe1BufOut

variable {s : Pipe1BufOut} {g : BufOutHistory} {i : BufOutInput}

/-- `buf_rd_flits` is the number of flits that the mode selects. -/
theorem length_selected (x : BufOutMode × BitVec 320) : (selected x).length = bufRdFlits x.1 := by
  obtain ⟨mode, w⟩ := x
  cases mode <;> rfl

/-- The queue holds what has been accepted and not sent. -/
def Holding (s : Pipe1BufOut) (g : BufOutHistory) : Prop :=
  ∃ q, s.Holds q ∧ g.accepted.flatMap selected = g.sent ++ q

theorem Holding.step (h : Holding s g) : Holding (step s i) (g.record s i) := by
  obtain ⟨q, hq, hg⟩ := h
  have henter : q.length + (((accepts s i).map selected).getD []).length ≤ 2 ^ 4 := by
    cases ha : accepts s i with
    | none => exact hq.length_le
    | some x =>
      have hready : s.count.toNat ≤ 16 - bufRdFlits x.1 :=
        of_decide_eq_true (Option.filter_eq_some_iff.1 ha).2
      have hflits : bufRdFlits x.1 ≤ 5 := by
        cases x.1 <;> decide
      rw [hq.toNat_count] at hready
      rw [Option.map_some, Option.getD_some, length_selected]
      omega
  have hsends : (sends s i).toList = q.take (sends s i).toList.length := by
    unfold sends dataOut
    cases i.readyOut with
    | false => rfl
    | true =>
      cases q with
      | nil =>
        have hne : s.nonempty = false := by
          rw [← Bool.not_eq_true, hq.nonempty_iff]
          exact fun hn => hn rfl
        rw [hne]
        rfl
      | cons x q =>
        rw [hq.nonempty_iff.2 (List.cons_ne_nil x q), hq.front_eq]
        rfl
  have hleave : (sends s i).toList.length ≤ q.length := by
    have hlen := congrArg List.length hsends
    rw [List.length_take] at hlen
    omega
  refine ⟨_, hq.shift henter hleave, ?_⟩
  change (g.accepted ++ (accepts s i).toList).flatMap selected = g.sent ++ (sends s i).toList ++ _
  have htaken : (accepts s i).toList.flatMap selected = ((accepts s i).map selected).getD [] := by
    cases accepts s i with
    | none => rfl
    | some x => exact List.flatMap_singleton selected x
  have hsplit : (sends s i).toList ++ q.drop (sends s i).toList.length = q := by
    nth_rewrite 1 [hsends]
    exact List.take_append_drop _ q
  rw [List.flatMap_append, hg, htaken, List.append_assoc, List.append_assoc,
    ← List.append_assoc (sends s i).toList, hsplit]

end Pipe1BufOut

/-- What the network has been sent is the flits that the accepted modes select, in order; the next one
is on the output, and the count is the number of those that are left. -/
structure BufOutLossless (s : Pipe1BufOut) (g : BufOutHistory) : Prop where
  sent : g.sent = (g.accepted.flatMap selected).take g.sent.length
  dataOut : Pipe1BufOut.dataOut s = (g.accepted.flatMap selected)[g.sent.length]?
  queue : ∃ q, s.Holds q ∧ g.accepted.flatMap selected = g.sent ++ q

theorem Pipe1BufOut.Holding.lossless {s : Pipe1BufOut} {g : BufOutHistory}
    (h : Pipe1BufOut.Holding s g) : BufOutLossless s g := by
  obtain ⟨q, hq, hg⟩ := h
  refine ⟨?_, ?_, q, hq, hg⟩
  · rw [hg, List.take_left]
  · rw [hg, List.getElem?_append_right (Nat.le_refl _), Nat.sub_self, Pipe1BufOut.dataOut]
    cases q with
    | nil =>
      have hne : s.nonempty = false := by
        rw [← Bool.not_eq_true, hq.nonempty_iff]
        exact fun hn => hn rfl
      rw [hne]
      rfl
    | cons x q =>
      rw [hq.nonempty_iff.2 (List.cons_ne_nil x q), hq.front_eq]
      rfl

theorem pipe1BufOut_lossless {y : Pipe1BufOut × BufOutHistory}
    (h : pipe1BufOut.Reachable (fun _ _ => True) y) : BufOutLossless y.1 y.2 := by
  have hinv : Pipe1BufOut.Holding y.1 y.2 := by
    refine h.invariant (P := fun y => Pipe1BufOut.Holding y.1 y.2) ?_ ?_
    · rintro ⟨s, g⟩ ⟨hs, hg⟩
      obtain rfl : s = _ := hs
      obtain rfl : g = _ := hg
      exact ⟨[], .nil rfl rfl, rfl⟩
    · rintro ⟨s, g⟩ i hinv -
      exact hinv.step
  exact hinv.lossless

/-- In every run the three buffers deliver what they have taken, each message apart. -/
theorem buffers_lossless :
    (∀ y, (bufIn pipe1Ctrl 3 2).Reachable (Offers Pipe1Header) y →
      Lossless pipe1Ctrl pipe1Heads pipe1Data y.1 y.2) ∧
    (∀ y, (bufIn pipe2Ctrl 2 4).Reachable (Offers Pipe2Header) y →
      Lossless pipe2Ctrl pipe2Heads pipe2Data y.1 y.2) ∧
    ∀ y, pipe1BufOut.Reachable (fun _ _ => True) y → BufOutLossless y.1 y.2 :=
  ⟨fun _ h => pipe1_lossless h, fun _ h => pipe2_lossless h, fun _ h => pipe1BufOut_lossless h⟩

/-- An interrupt, whose header flit is offered in three cycles, and its data flit. -/
def interruptRun : List BufInInput :=
  let header : Flit := 1 <<< 22 ||| 32 <<< 14
  [⟨some header, true, true⟩, ⟨some header, true, true⟩, ⟨some header, false, true⟩,
    ⟨some 7, true, false⟩, ⟨none, true, true⟩]

/-- A write-back with two data flits after a message without data. -/
def writebackRun : List BufInInput :=
  let header : Flit := 4 <<< 22 ||| 12 <<< 14
  [⟨some 0, false, true⟩, ⟨some header, true, true⟩, ⟨some 1, true, true⟩, ⟨some 2, true, true⟩,
    ⟨some 3, false, true⟩, ⟨some 4, true, true⟩, ⟨none, true, true⟩]

/-- A request and its data while the network takes a flit every other cycle. -/
def requestRun : List BufOutInput :=
  [⟨some (.m3h1d, 5), true⟩, ⟨some (.m1h0d, 9), true⟩, ⟨none, false⟩, ⟨none, true⟩]

theorem buffers_lossless_runs :
    (∃ y, y = (bufIn pipe1Ctrl 3 2).run (BufIn.init pipe1Ctrl, ⟨[], none, [], [], [], []⟩)
        interruptRun ∧ Lossless pipe1Ctrl pipe1Heads pipe1Data y.1 y.2 ∧
      y.2.taken.length = 2 ∧ (y.2.headers.map List.length, y.2.data) = ([3], [[7]])) ∧
    (∃ y, y = (bufIn pipe2Ctrl 2 4).run (BufIn.init pipe2Ctrl, ⟨[], none, [], [], [], []⟩)
        writebackRun ∧ Lossless pipe2Ctrl pipe2Heads pipe2Data y.1 y.2 ∧
      y.2.taken.length = 6 ∧ (y.2.headers.map List.length, y.2.data) = ([1, 3], [[3, 4]])) ∧
    ∃ y, y = pipe1BufOut.run (Pipe1BufOut.init, ⟨[], []⟩) requestRun ∧ BufOutLossless y.1 y.2 ∧
      y.2.accepted.length = 2 ∧ y.2.sent = [5, 0] := by
  have h1 : (bufIn pipe1Ctrl 3 2).RunOk (Offers Pipe1Header)
      (BufIn.init pipe1Ctrl, ⟨[], none, [], [], [], []⟩) interruptRun := by
    decide +kernel
  have h2 : (bufIn pipe2Ctrl 2 4).RunOk (Offers Pipe2Header)
      (BufIn.init pipe2Ctrl, ⟨[], none, [], [], [], []⟩) writebackRun := by
    decide +kernel
  have h3 : pipe1BufOut.RunOk (fun _ _ => True) (Pipe1BufOut.init, ⟨[], []⟩) requestRun :=
    Machine.runOk_of_mem (fun _ _ => trivial) _
  obtain ⟨hpipe1, hpipe2, hout⟩ := buffers_lossless
  have hinit1 : (bufIn pipe1Ctrl 3 2).init (BufIn.init pipe1Ctrl, ⟨[], none, [], [], [], []⟩) :=
    ⟨rfl, rfl⟩
  have hinit2 : (bufIn pipe2Ctrl 2 4).init (BufIn.init pipe2Ctrl, ⟨[], none, [], [], [], []⟩) :=
    ⟨rfl, rfl⟩
  have hinit3 : pipe1BufOut.init (Pipe1BufOut.init, ⟨[], []⟩) := ⟨rfl, rfl⟩
  exact ⟨⟨_, rfl, hpipe1 _ ((Machine.Reachable.init hinit1).run h1), by decide +kernel⟩,
    ⟨_, rfl, hpipe2 _ ((Machine.Reachable.init hinit2).run h2), by decide +kernel⟩,
    ⟨_, rfl, hout _ ((Machine.Reachable.init hinit3).run h3), by decide +kernel⟩⟩

end Piton.L2
