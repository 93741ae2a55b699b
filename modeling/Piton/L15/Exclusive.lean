import Mathlib.Data.Fintype.Basic
import Piton.L15.Victim

/-! The valid lines of the primary ways and of the victim entries: what a cycle's requests leave
in one place only, and whether the valid bit of an entry follows the move into it.

The valid bits and the MESI states perform a write one cycle after its request. Here a request
counts from the cycle that makes it, as the tags of a move do. -/

namespace Piton.L15

open Hw

/-! ### The arrays with their requests performed -/

namespace State

variable (s : State) (i : Inputs)

/-- The valid bits with the write of this cycle performed. -/
def viNext (v : Way) : Bool :=
  if i.undriven.viWriteVal && i.undriven.viWriteMask v then i.undriven.viWriteData v
  else s.vi.written v

/-- The MESI states with the write of this cycle performed. -/
def mesiNext : SetIndex → Way → Mesi :=
  if (s.mesiWrite i).valid then
    Function.update s.mesi.written (s.mesiWrite i).index
      (Function.update (s.mesi.written (s.mesiWrite i).index) (s.mesiWrite i).way
        (s.mesiWrite i).state)
  else s.mesi.written

/-- The primary tags with the write and the move of this cycle performed. -/
def ptagsNext : SetIndex → Way → RawTag := (s.utag.tick (s.dtagPort i) (s.dtagMove i)).ptags

/-- A tag and a state of one way name the line as held and valid. -/
def wayHolds (tags : SetIndex → Way → RawTag) (states : SetIndex → Way → Mesi) (l : LineName)
    (w : Way) : Bool :=
  (tags l.2 w).setWidth 29 = l.1 && states l.2 w ≠ .I

/-- The line is valid in a primary way. -/
def PrimaryHolds (l : LineName) : Prop := ∃ w, wayHolds s.utag.ptags s.mesi.written l w = true

/-- The line is valid in a primary way once the requests of this cycle are performed. -/
def PrimaryTakes (l : LineName) : Prop := ∃ w, wayHolds (s.ptagsNext i) (s.mesiNext i) l w = true

instance (l : LineName) : Decidable (s.PrimaryHolds l) := inferInstanceAs (Decidable (∃ _, _))

instance (l : LineName) : Decidable (s.PrimaryTakes i l) := inferInstanceAs (Decidable (∃ _, _))

/-- The line that a move puts into its entry: the tag it takes, of the set it is commanded to. -/
def movedLine : LineName := ((s.takenTag i).setWidth 29, (s.displacedLine i).2)

/-- The cycle moves a line into entry `v`. -/
def fills (v : Way) : Bool := s.moves i && v = (s.dtagMove i).cmstVidx

end State

theorem viNext_eq (s : State) (i : Inputs) (v : Way) : (s.step i).vi.written v = s.viNext i v :=
  s.vi.written_tick _ _ _ _ _ v

theorem mesiNext_eq (s : State) (i : Inputs) : (s.step i).mesi.written = s.mesiNext i := by
  unfold State.mesiNext
  show (s.mesi.tick (s.mesiReadVal i) s.indexS1 (s.mesiWrite i)).written = _
  unfold RfMesi.tick RfMesi.written
  cases (s.mesiWrite i).valid <;> rfl

theorem primaryHolds_step (s : State) (i : Inputs) (l : LineName) :
    (s.step i).PrimaryHolds l ↔ s.PrimaryTakes i l := by
  unfold State.PrimaryHolds State.PrimaryTakes
  rw [mesiNext_eq]
  exact Iff.rfl

/-! ### Lines of the victim entries -/

/-- The line of a victim entry that a move filled: the entry's tag, of the set that the move was
commanded to. -/
def entryLine (y : State × VictimHomes) (v : Way) : Option LineName :=
  (y.2 v).map fun h => ((y.1.utag.vtags v).setWidth 29, h.line.2)

/-- A valid victim entry holds the line. -/
def VictimHolds (y : State × VictimHomes) (v : Way) (l : LineName) : Prop :=
  y.1.vi.written v = true ∧ entryLine y v = some l

/-- No line is valid both in a primary way and in a victim entry or in two victim entries, and a
valid entry was filled. -/
structure ExclusiveContents (y : State × VictimHomes) : Prop where
  primary : ∀ v l, VictimHolds y v l → ¬ y.1.PrimaryHolds l
  victim : ∀ u v l, VictimHolds y u l → VictimHolds y v l → u = v
  filled : ∀ v, y.1.vi.written v = true → ∃ l, entryLine y v = some l

/-- The entry that the cycle's move fills is valid once the cycle's write of the valid bits is
performed. -/
def ValidBitFollows (s : State) (i : Inputs) : Prop :=
  s.moves i = true → (s.step i).vi.written (s.dtagMove i).cmstVidx = true

/-! ### Cycles that keep the contents apart -/

/-- The undriven nets do nothing but follow the moves: they set only the valid bit of the entry that
a move fills, and their mask selects no victim tag. -/
structure NetsFollow (s : State) (i : Inputs) : Prop where
  vi : ∀ v, s.viNext i v = true → s.vi.written v = false → s.fills i v = true
  tags : ∀ v, s.vtagWritten i v = false

/-- An entry keeps its line and is valid once the cycle's write of the valid bits is performed. -/
def stays (s : State) (i : Inputs) (v : Way) : Bool := s.viNext i v && !s.fills i v

/-- The cycle's requests keep every line in one place. The port of the valid bits sets the bit of
the entry that a move fills, or leaves it set; the moved line becomes or stays valid in no way and
is in no other valid entry; and no line of an entry that stays valid gets into a way. -/
structure LinesApart (y : State × VictimHomes) (i : Inputs) : Prop where
  driven : y.1.moves i = true → y.1.viNext i (y.1.dtagMove i).cmstVidx = true
  moved : y.1.moves i = true → ¬ y.1.PrimaryTakes i (y.1.movedLine i)
  alone : y.1.moves i = true → ∀ v, stays y.1 i v = true →
    entryLine y v ≠ some (y.1.movedLine i)
  kept : ∀ v, stays y.1 i v = true → ∀ l ∈ entryLine y v, y.1.PrimaryTakes i l →
    y.1.PrimaryHolds l

instance (s : State) (i : Inputs) : Decidable (NetsFollow s i) :=
  decidable_of_iff
    ((∀ v, s.viNext i v = true → s.vi.written v = false → s.fills i v = true) ∧
      ∀ v, s.vtagWritten i v = false)
    ⟨fun h => ⟨h.1, h.2⟩, fun h => ⟨h.vi, h.tags⟩⟩

-- the line of an entry is looked up and tested, not sought among all lines
instance (y : State × VictimHomes) (i : Inputs) : Decidable (LinesApart y i) :=
  decidable_of_iff
    ((y.1.moves i = true → y.1.viNext i (y.1.dtagMove i).cmstVidx = true) ∧
      (y.1.moves i = true → ¬ y.1.PrimaryTakes i (y.1.movedLine i)) ∧
        (y.1.moves i = true → ∀ v, stays y.1 i v = true →
          entryLine y v ≠ some (y.1.movedLine i)) ∧
          ∀ v, stays y.1 i v = true →
            (entryLine y v).all (fun l => y.1.PrimaryTakes i l → y.1.PrimaryHolds l) = true)
    ⟨fun h => ⟨h.1, h.2.1, h.2.2.1, fun v hv l hl =>
      of_decide_eq_true ((Option.all_eq_true ..).1 (h.2.2.2 v hv) l hl)⟩,
      fun h => ⟨h.driven, h.moved, h.alone, fun v hv =>
        (Option.all_eq_true ..).2 fun l hl => decide_eq_true (h.kept v hv l hl)⟩⟩

section Step

variable {y : State × VictimHomes} {i : Inputs}

/-- The line of an entry after a cycle whose mask selects no victim tag. -/
theorem entryLine_step (hn : NetsFollow y.1 i) (v : Way) :
    entryLine (homesMachine.step y i) v =
      if y.1.fills i v = true then some (y.1.movedLine i) else entryLine y v := by
  obtain ⟨s, g⟩ := y
  show (homesNext g s i v).map (fun h => (((s.step i).utag.vtags v).setWidth 29, h.line.2)) = _
  rw [step_vtags]
  unfold homesNext State.fills
  by_cases hm : s.moves i = true
  · by_cases hv : v = (s.dtagMove i).cmstVidx
    · rw [if_pos hm, if_pos hv, if_pos hm, if_pos hv, if_pos (by simp [hm, hv])]
      rfl
    · rw [if_pos hm, if_neg hv, if_pos hm, if_neg hv, if_neg (by simp [hv])]
      rfl
  · have hw : s.vtagWritten i v = false := hn.tags v
    rw [if_neg hm, if_neg hm, hw, if_neg Bool.false_ne_true, writeVtags_of_not_written s i hw,
      if_neg (by simp [hm])]
    rfl

/-- An entry that holds a line after a cycle was filled in it or held the line before. -/
theorem victimHolds_step (hn : NetsFollow y.1 i) {v : Way} {l : LineName}
    (h : VictimHolds (homesMachine.step y i) v l) :
    (y.1.fills i v = true ∧ l = y.1.movedLine i) ∨
      (stays y.1 i v = true ∧ VictimHolds y v l) := by
  obtain ⟨hv, hl⟩ := h
  rw [show (homesMachine.step y i).1.vi.written v = _ from viNext_eq y.1 i v] at hv
  rw [entryLine_step hn] at hl
  cases hf : y.1.fills i v with
  | true =>
    rw [hf, if_pos rfl] at hl
    cases hl
    exact .inl ⟨rfl, rfl⟩
  | false =>
    rw [hf, if_neg Bool.false_ne_true] at hl
    refine .inr ⟨by simp [stays, hv, hf], ?_, hl⟩
    by_contra hvi
    have hfill := hn.vi v hv (by simpa using hvi)
    rw [hf] at hfill
    exact absurd hfill Bool.false_ne_true

theorem fills_iff {s : State} {v : Way} :
    s.fills i v = true ↔ s.moves i = true ∧ v = (s.dtagMove i).cmstVidx := by
  unfold State.fills
  rw [Bool.and_eq_true, decide_eq_true_eq]

/-- An entry that stays valid keeps its line. -/
theorem victimHolds_step_of_stays (hn : NetsFollow y.1 i) {v : Way} {l : LineName}
    (hs : stays y.1 i v = true) (hl : entryLine y v = some l) :
    VictimHolds (homesMachine.step y i) v l := by
  unfold stays at hs
  rw [Bool.and_eq_true, Bool.not_eq_true'] at hs
  refine ⟨(viNext_eq y.1 i v).trans hs.1, ?_⟩
  rw [entryLine_step hn, hs.2, if_neg Bool.false_ne_true]
  exact hl

/-- A cycle that keeps every line in one place preserves exclusive contents. -/
theorem exclusiveContents_step (h : ExclusiveContents y) (hn : NetsFollow y.1 i)
    (hi : LinesApart y i) : ExclusiveContents (homesMachine.step y i) := by
  constructor
  · intro v l hv hp
    replace hp : y.1.PrimaryTakes i l := (primaryHolds_step y.1 i l).1 hp
    rcases victimHolds_step hn hv with ⟨hf, rfl⟩ | ⟨hs, hold⟩
    · exact hi.moved (fills_iff.1 hf).1 hp
    · exact h.primary v l hold (hi.kept v hs l hold.2 hp)
  · intro u v l hu hv
    rcases victimHolds_step hn hu with ⟨hfu, rfl⟩ | ⟨hsu, holdu⟩
    · rcases victimHolds_step hn hv with ⟨hfv, -⟩ | ⟨hsv, holdv⟩
      · rw [(fills_iff.1 hfu).2, (fills_iff.1 hfv).2]
      · exact absurd holdv.2 (hi.alone (fills_iff.1 hfu).1 v hsv)
    · rcases victimHolds_step hn hv with ⟨hfv, rfl⟩ | ⟨hsv, holdv⟩
      · exact absurd holdu.2 (hi.alone (fills_iff.1 hfv).1 u hsu)
      · exact h.victim u v l holdu holdv
  · intro v hv
    rw [show (homesMachine.step y i).1.vi.written v = _ from viNext_eq y.1 i v] at hv
    rw [entryLine_step hn]
    cases hf : y.1.fills i v with
    | true => exact ⟨_, rfl⟩
    | false =>
      rw [if_neg Bool.false_ne_true]
      apply h.filled v
      by_contra hvi
      have hfill := hn.vi v hv (by simpa using hvi)
      rw [hf] at hfill
      exact absurd hfill Bool.false_ne_true

/-- A cycle after which the contents are exclusive, with the valid bit following its move, kept
every line in one place. -/
theorem linesApart_of_exclusive (hn : NetsFollow y.1 i)
    (h : ExclusiveContents (homesMachine.step y i)) (hf : ValidBitFollows y.1 i) :
    LinesApart y i := by
  have hdriven : y.1.moves i = true → y.1.viNext i (y.1.dtagMove i).cmstVidx = true := fun hm =>
    (viNext_eq y.1 i _).symm.trans (hf hm)
  have hmoved : y.1.moves i = true →
      VictimHolds (homesMachine.step y i) (y.1.dtagMove i).cmstVidx (y.1.movedLine i) := by
    intro hm
    refine ⟨hf hm, ?_⟩
    rw [entryLine_step hn, if_pos (fills_iff.2 ⟨hm, rfl⟩)]
  refine ⟨hdriven, fun hm hp => ?_, fun hm v hs hl => ?_, fun v hs l hl hp => ?_⟩
  · exact h.primary _ _ (hmoved hm) ((primaryHolds_step y.1 i _).2 hp)
  · have heq := h.victim _ _ _ (victimHolds_step_of_stays hn hs hl) (hmoved hm)
    have hfill : y.1.fills i v = true := fills_iff.2 ⟨hm, heq⟩
    simp [stays, hfill] at hs
  · exact absurd ((primaryHolds_step y.1 i l).2 hp)
      (h.primary v l (victimHolds_step_of_stays hn hs hl))

end Step

/-! ### Runs -/

theorem exclusiveContents_init (y : State × VictimHomes) (h : homesMachine.init y) :
    ExclusiveContents y := by
  obtain ⟨hr, -⟩ := h
  have hv : ∀ v, y.1.vi.written v = false := by
    intro v
    unfold RfVi.written
    rw [hr.viWriteValidF, Bool.false_and, if_neg Bool.false_ne_true, hr.vi]
  constructor
  · intro v l hl
    exact absurd hl.1 (by rw [hv v]; exact Bool.false_ne_true)
  · intro u v l hl
    exact absurd hl.1 (by rw [hv u]; exact Bool.false_ne_true)
  · intro v hl
    exact absurd hl (by rw [hv v]; exact Bool.false_ne_true)

/-- A quiet cycle in which the undriven nets name entry `v` and set its valid bit. -/
def Inputs.setsEntry (v : Way) : Inputs :=
  { Inputs.quiet with
    undriven := { Undriven.zero with
      cmstVidx := v, vcacheIndex := v, viWriteVal := true, viWriteMask := fun u => u = v,
      viWriteData := fun u => u = v } }

/-- A load, its fill in the given state and the cycle of the fill's move, which sets the valid bit
of entry `v`. -/
def fillInto (a : Paddr) (state : Mesi) (v : Way) : List Inputs :=
  [Inputs.load 0 a] ++ List.replicate 6 Inputs.quiet ++ [Inputs.dataAck .ld 0 state 5] ++
    List.replicate 2 Inputs.quiet ++ [Inputs.setsEntry v] ++ List.replicate 6 Inputs.quiet

/-- A line filled in state I and then another line filled in state S. -/
def twoVictims : State × VictimHomes :=
  homesMachine.run (State.reset, VictimHomes.empty)
    (fillInto 0x12345000 .I 0 ++ fillInto 0x56789020 .S 1)

set_option maxRecDepth 20000 in
theorem twoVictims_reachable :
    homesMachine.Reachable (fun y i => NetsFollow y.1 i ∧ LinesApart y i) twoVictims :=
  Machine.Reachable.run (.init homesMachine_init) (by decide +kernel)

set_option maxRecDepth 20000 in
theorem twoVictims_holds :
    (twoVictims.1.vi.written 0 = true ∧ entryLine twoVictims 0 = some (0x2468a, 0)) ∧
      (twoVictims.1.vi.written 1 = true ∧ entryLine twoVictims 1 = some (0x2468a, 2)) ∧
        twoVictims.1.PrimaryHolds (0xacf12, 2) := by
  decide +kernel

/-- The second pass of a load's fill is in S2. -/
def fillState : State × VictimHomes := homesMachine.run (State.reset, VictimHomes.empty) fillRun

theorem fillState_reachable : homesMachine.Reachable (fun _ _ => True) fillState :=
  Machine.Reachable.run (.init homesMachine_init)
    (Machine.runOk_of_mem (p := fun _ => True) (fun _ _ => trivial) _)

theorem fillState_not_follows : ¬ ValidBitFollows fillState.1 Inputs.quiet := by
  unfold ValidBitFollows
  decide +kernel

/-- The port of the valid bits sets the bit of the entry that a move fills and no other. -/
def ValidBitsDriven (s : State) (i : Inputs) : Prop :=
  NetsFollow s i ∧ (s.moves i = true → s.viNext i (s.dtagMove i).cmstVidx = true)

instance (s : State) (i : Inputs) : Decidable (ValidBitsDriven s i) :=
  inferInstanceAs (Decidable (_ ∧ _))

/-- A line filled in state S in a run whose valid bits are driven. -/
def filledTwice : State × VictimHomes :=
  homesMachine.run (State.reset, VictimHomes.empty) (fillInto 0x12345000 .S 0)

set_option maxRecDepth 20000 in
theorem filledTwice_reachable :
    homesMachine.Reachable (fun y i => ValidBitsDriven y.1 i) filledTwice :=
  Machine.Reachable.run (.init homesMachine_init) (by decide +kernel)

set_option maxRecDepth 20000 in
theorem filledTwice_holds :
    (filledTwice.1.vi.written 0 = true ∧ entryLine filledTwice 0 = some (0x2468a, 0)) ∧
      filledTwice.1.PrimaryHolds (0x2468a, 0) := by
  decide +kernel

end Piton.L15
