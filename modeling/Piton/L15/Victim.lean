import Piton.L15.Run
import Piton.L15.LockStep

/-! The victim entries over runs: which line a move put into an entry, and the victim tag check.

An entry keeps a tag and no set. The line that a move displaces is recorded beside the machine:
the slot is the one that the move commands, while the tag comes from the slot that the one-bit
wires of the array select. -/

namespace Piton.L15

open Hw

/-! ### Histories -/

/-- A line as the tag store names it: tag and set. -/
abbrev LineName := Tag × SetIndex

/-- What a move did: the line in the slot that it was commanded to displace, and whether the tag
that the array took from the slot of its one-bit wires is the tag of that line. -/
structure VictimHome where
  line : LineName
  tagTaken : Bool

/-- The last move into each victim entry, if no other write touched its tag since. -/
abbrev VictimHomes := Way → Option VictimHome

/-- No entry was filled by a move. -/
def VictimHomes.empty : VictimHomes := fun _ => none

namespace State

variable (s : State) (i : Inputs)

/-- The cycle moves a line between primary and victim storage. -/
def moves : Bool := (s.dtagMove i).vce && (s.dtagMove i).cmst ≠ .HX

/-- The line in the slot that a move commands. -/
def displacedLine : LineName :=
  ((s.utag.ptags (slotSet (s.dtagMove i).cmstDidx) (slotWay (s.dtagMove i).cmstDidx)).setWidth 29,
    slotSet (s.dtagMove i).cmstDidx)

/-- The tag that a move takes, from the slot of the one-bit wires. -/
def takenTag : RawTag := s.utag.ptags (s.dtagMove i).moveSet (s.dtagMove i).moveWay

/-- The record of the cycle's move. -/
def displaced : VictimHome where
  line := s.displacedLine i
  tagTaken := (s.takenTag i).setWidth 29 = (s.displacedLine i).1

/-- The line that S2 requests. -/
def lineS2 : LineName := (cacheTag s.s2.address, s.indexS2)

/-- S1 writes the tag array, and the undriven mask selects bits of entry `v`. -/
def vtagWritten (v : Way) : Bool :=
  (s.dtagPort i).ce && !(s.dtagPort i).rdwen && (s.dtagPort i).vbw v ≠ 0

end State

/-- The recorded moves after a cycle. -/
def homesNext (g : VictimHomes) (s : State) (i : Inputs) : VictimHomes := fun v =>
  if s.moves i then if v = (s.dtagMove i).cmstVidx then some (s.displaced i) else g v
  else if s.vtagWritten i v then none
  else g v

/-- The L1.5 with the recorded moves. -/
def homesMachine : Machine (State × VictimHomes) Inputs :=
  machine.withHistory VictimHomes.empty homesNext

/-- An entry has the tag of the line that was to be displaced into it exactly if the move took that
line's tag. -/
def HomesHold (y : State × VictimHomes) : Prop :=
  ∀ v h, y.2 v = some h → (h.tagTaken = true ↔ (y.1.utag.vtags v).setWidth 29 = h.line.1)

/-- The victim tags after a cycle. -/
theorem step_vtags (s : State) (i : Inputs) (v : Way) :
    (s.step i).utag.vtags v =
      if s.moves i then
        if v = (s.dtagMove i).cmstVidx then
          s.utag.ptags (s.dtagMove i).moveSet (s.dtagMove i).moveWay
        else s.utag.vtags v
      else s.utag.writeVtags (s.dtagPort i) v := by
  show (s.utag.tick (s.dtagPort i) (s.dtagMove i)).vtags v = _
  unfold Utag.tick State.moves
  by_cases hm : ((s.dtagMove i).vce && decide ((s.dtagMove i).cmst ≠ .HX)) = true
  · rw [if_pos hm, if_pos hm]
    exact Function.update_apply _ _ _ v
  · rw [if_neg hm, if_neg hm]

/-- A victim tag outside the first port's write is kept. -/
theorem writeVtags_of_not_written (s : State) (i : Inputs) {v : Way}
    (h : s.vtagWritten i v = false) :
    s.utag.writeVtags (s.dtagPort i) v = s.utag.vtags v := by
  unfold Utag.writeVtags
  by_cases hw : ((s.dtagPort i).ce && !(s.dtagPort i).rdwen) = true
  · rw [if_pos hw]
    have hbw : (s.dtagPort i).vbw v = 0 := by
      unfold State.vtagWritten at h
      simpa [hw] using h
    rw [hbw]
    exact maskedWrite_zero _ _
  · rw [if_neg hw]

theorem homesHold_init (y : State × VictimHomes) (h : homesMachine.init y) : HomesHold y := by
  obtain ⟨-, hg⟩ := h
  intro v m hv
  rw [hg] at hv
  cases hv

theorem homesHold_step (y : State × VictimHomes) (i : Inputs) (h : HomesHold y) :
    HomesHold (homesMachine.step y i) := by
  obtain ⟨s, g⟩ := y
  intro v m hv
  show m.tagTaken = true ↔ ((s.step i).utag.vtags v).setWidth 29 = m.line.1
  change homesNext g s i v = some m at hv
  unfold homesNext at hv
  rw [step_vtags]
  by_cases hm : s.moves i = true
  · rw [if_pos hm] at hv ⊢
    by_cases hvi : v = (s.dtagMove i).cmstVidx
    · rw [if_pos hvi] at hv ⊢
      cases hv
      exact decide_eq_true_iff
    · rw [if_neg hvi] at hv ⊢
      exact h v m hv
  · rw [if_neg hm] at hv ⊢
    cases hw : s.vtagWritten i v with
    | true =>
      rw [hw, if_pos rfl] at hv
      cases hv
    | false =>
      rw [hw, if_neg Bool.false_ne_true] at hv
      rw [writeVtags_of_not_written s i hw]
      exact h v m hv

/-- The recorded moves agree with the tags in every reachable state. -/
theorem homesHold {ok : State × VictimHomes → Inputs → Prop} {y : State × VictimHomes}
    (h : homesMachine.Reachable ok y) : HomesHold y :=
  h.invariant homesHold_init fun y i hy _ => homesHold_step y i hy

/-! ### Victim tag check -/

/-- Victim entry `v` holds the line: a move displaced that line into it, and its tag is the
line's. -/
def VictimEntryIs (y : State × VictimHomes) (v : Way) (l : LineName) : Prop :=
  (y.2 v).map VictimHome.line = some l ∧ (y.1.utag.vtags v).setWidth 29 = l.1

/-- The entry that the victim tag check reports for the request in S2 holds the requested line. -/
def VictimHitSound (y : State × VictimHomes) (i : Inputs) : Prop :=
  y.1.valS2 = true → ∀ v, y.1.vtagcheck i = some v → VictimEntryIs y v y.1.lineS2

/-- A move filled entry `v` from the requested set and took the tag of the line it displaced there,
and the entry's tag is still the one that was read for the check. -/
def FilledFromSet (y : State × VictimHomes) (v : Way) : Prop :=
  (∃ h, y.2 v = some h ∧ h.tagTaken = true ∧ h.line.2 = y.1.indexS2) ∧
    (y.1.utag.vtags v).setWidth 29 = (y.1.utag.voutF v).setWidth 29

/-- The lowest entry that was read as valid and with the requested tag was filled from the requested
set. -/
def VictimSetMatches (y : State × VictimHomes) (i : Inputs) : Prop :=
  y.1.valS2 = true → ∀ v, y.1.vtagcheckEquals v = true → y.1.viState i v = true →
    (∀ u < v, y.1.vtagcheckEquals u = true → y.1.viState i u = false) → FilledFromSet y v

/-- The check reports entry `v`. -/
theorem vtagcheck_eq_some (s : State) (i : Inputs) (v : Way) :
    s.vtagcheck i = some v ↔
      s.vtagcheckEquals v = true ∧ s.viState i v = true ∧
        ∀ u < v, s.vtagcheckEquals u = true → s.viState i u = false := by
  unfold State.vtagcheck
  rw [firstWay_eq_some, Bool.and_eq_true, and_assoc]
  refine and_congr_right fun _ => and_congr_right fun _ => forall_congr' fun u => ?_
  refine imp_congr_right fun _ => ?_
  cases s.vtagcheckEquals u <;> simp

/-- An entry read with the requested tag holds the requested line exactly if it was filled from the
requested set. -/
theorem victimEntryIs_iff {y : State × VictimHomes} (h : HomesHold y) {v : Way}
    (hv : y.1.vtagcheckEquals v = true) : VictimEntryIs y v y.1.lineS2 ↔ FilledFromSet y v := by
  have htag : cacheTag y.1.s2.address = (y.1.utag.voutF v).setWidth 29 := by
    simpa [State.vtagcheckEquals] using hv
  unfold VictimEntryIs FilledFromSet
  rw [Option.map_eq_some_iff, show y.1.lineS2.1 = _ from htag]
  refine and_congr_left fun hread => exists_congr fun m => and_congr_right fun hm => ?_
  -- the entry still has the tag that was read, so the taken tag decides the line's
  have hiff := h v m hm
  rw [hread, ← htag] at hiff
  constructor
  · intro hl
    exact ⟨hiff.2 (congrArg Prod.fst hl).symm, congrArg Prod.snd hl⟩
  · rintro ⟨ht, hset⟩
    exact Prod.ext (hiff.1 ht).symm hset

/-- The check is sound exactly if the entry it can report was filled from the requested set. -/
theorem victimHitSound_iff {y : State × VictimHomes}
    (h : homesMachine.Reachable (fun _ _ => True) y) (i : Inputs) :
    VictimHitSound y i ↔ VictimSetMatches y i := by
  have hh := homesHold h
  constructor
  · intro hs hval v heq hvi hlow
    apply (victimEntryIs_iff hh heq).1
    exact hs hval v ((vtagcheck_eq_some y.1 i v).2 ⟨heq, hvi, hlow⟩)
  · intro hm hval v hcheck
    obtain ⟨heq, hvi, hlow⟩ := (vtagcheck_eq_some y.1 i v).1 hcheck
    exact (victimEntryIs_iff hh heq).2 (hm hval v heq hvi hlow)

/-- The undriven nets of a cycle that sets the valid bit of entry 0 and reads it. -/
def Undriven.setsVi0 : Undriven :=
  { Undriven.zero with
    viReadVal := true, viWriteVal := true, viWriteMask := fun v => v = 0,
    viWriteData := fun v => v = 0 }

/-- A load of a line of set 0, its fill, and a load of the line with the same tag in set 1; after
the last cycle the second load is in S2. -/
def aliasRun : List Inputs :=
  let wait (n : Nat) := List.replicate n { Inputs.quiet with undriven := Undriven.setsVi0 }
  [Inputs.load 0 0x12345000] ++ wait 6 ++ [Inputs.dataAck .ld 0 .S 5] ++ wait 8 ++
    [Inputs.load 0 0x12345010] ++ wait 1

/-- The state at the end of `aliasRun`. -/
def aliasState : State × VictimHomes := homesMachine.run (State.reset, VictimHomes.empty) aliasRun

theorem homesMachine_init : homesMachine.init (State.reset, VictimHomes.empty) :=
  ⟨State.reset_isReset, rfl⟩

theorem aliasState_reachable : homesMachine.Reachable (fun _ _ => True) aliasState :=
  (Machine.Reachable.init homesMachine_init).run
    (Machine.runOk_of_mem (p := fun _ => True) (fun _ _ => trivial) _)

set_option maxRecDepth 20000 in

/-- The load of set 1 hits on the entry of the line of set 0. -/
theorem aliasState_hit :
    aliasState.1.valS2 = true ∧ aliasState.1.vtagcheck Inputs.quiet = some 0 ∧
      (aliasState.2 0).map VictimHome.line = some (0x2468a, 0) ∧
        aliasState.1.lineS2 = (0x2468a, 1) := by
  decide +kernel

theorem not_victimHitSound :
    ¬ ∀ y, homesMachine.Reachable (fun _ _ => True) y → ∀ i, VictimHitSound y i := by
  intro h
  obtain ⟨hval, hcheck, hhome, hline⟩ := aliasState_hit
  have hsound := (h aliasState aliasState_reachable Inputs.quiet hval 0 hcheck).1
  rw [hhome, hline] at hsound
  exact absurd hsound (by decide)

/-- A line that is filled in state I, so that only the victim entry of its fill's move is valid, and
loaded again; after the last cycle the second load is in S2. -/
def reloadRun : List Inputs :=
  let wait (n : Nat) := List.replicate n { Inputs.quiet with undriven := Undriven.setsVi0 }
  [Inputs.load 0 0x12345000] ++ wait 6 ++ [Inputs.dataAck .ld 0 .I 5] ++ wait 8 ++
    [Inputs.load 0 0x12345000] ++ wait 1

/-- The state at the end of `reloadRun`. -/
def reloadState : State × VictimHomes := homesMachine.run (State.reset, VictimHomes.empty) reloadRun

theorem reloadState_reachable : homesMachine.Reachable (fun _ _ => True) reloadState :=
  (Machine.Reachable.init homesMachine_init).run
    (Machine.runOk_of_mem (p := fun _ => True) (fun _ _ => trivial) _)

set_option maxRecDepth 20000 in

/-- The second load hits on the entry that the move filled. -/
theorem reloadState_hit :
    reloadState.1.valS2 = true ∧ reloadState.1.vtagcheck Inputs.quiet = some 0 ∧
      (reloadState.2 0).map (fun h => (h.tagTaken, h.line.2)) =
        some (true, reloadState.1.indexS2) ∧
      (reloadState.1.utag.vtags 0).setWidth 29 = (reloadState.1.utag.voutF 0).setWidth 29 := by
  decide +kernel

/-- The hit of the second load is sound, as its set is that of the entry. -/
theorem victimHitSound_iff_reloadState :
    reloadState.1.vtagcheck Inputs.quiet = some 0 ∧
      VictimHitSound reloadState Inputs.quiet := by
  obtain ⟨-, hcheck, hhome, hread⟩ := reloadState_hit
  refine ⟨hcheck, (victimHitSound_iff reloadState_reachable Inputs.quiet).2 ?_⟩
  intro _ v heq hvi hlow
  -- the check reports entry 0 only
  have hv := (vtagcheck_eq_some _ _ v).2 ⟨heq, hvi, hlow⟩
  rw [hcheck] at hv
  cases hv
  obtain ⟨m, hm, hpair⟩ := Option.map_eq_some_iff.1 hhome
  exact ⟨⟨m, hm, congrArg Prod.fst hpair, congrArg Prod.snd hpair⟩, hread⟩

end Piton.L15
