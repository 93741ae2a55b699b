import Piton.L15.Arrays

/-! The tag array and the data array side by side.

Both receive the same enable, miss state, index and victim entry. What they are for is one store of
lines: pairs of a tag and its data, in the ways of the sets and in the victim entries, that move as
pairs. The two arrays implement that store as long as the one-bit `didx` and `dway` of the tag
array lose nothing of the index of a move. -/

namespace Piton.L15

open Hw

/-! ### Addresses of the data array -/

/-- The set of a data array address. -/
def slotSet (a : BitVec 9) : SetIndex := a.extractLsb' 2 7

/-- The way of a data array address. -/
def slotWay (a : BitVec 9) : Way := Fin.ofNat 4 (a.extractLsb' 0 2).toNat

theorem lineSlot_slot (a : BitVec 9) : lineSlot (slotSet a) (slotWay a) = a := by
  revert a
  decide +kernel

theorem slotSet_lineSlot (s : SetIndex) (w : Way) : slotSet (lineSlot s w) = s := by
  revert s w
  decide +kernel

theorem slotWay_lineSlot (s : SetIndex) (w : Way) : slotWay (lineSlot s w) = w := by
  revert s w
  decide +kernel

theorem lineSlot_eq_iff {s : SetIndex} {w : Way} {a : BitVec 9} :
    lineSlot s w = a ↔ s = slotSet a ∧ w = slotWay a := by
  constructor
  · rintro rfl
    rw [slotSet_lineSlot, slotWay_lineSlot]
    exact ⟨rfl, rfl⟩
  · rintro ⟨rfl, rfl⟩
    exact lineSlot_slot a

theorem lineSlot_inj {s s' : SetIndex} {w w' : Way} :
    lineSlot s w = lineSlot s' w' ↔ s = s' ∧ w = w' := by
  rw [lineSlot_eq_iff, slotSet_lineSlot, slotWay_lineSlot]

/-! ### The two arrays -/

/-- The two arrays. -/
structure Arrays where
  utag : Utag
  udata : Udata

/-- One cycle's operation: an access of the first tag port and a data array operation whose
enable, miss state, index and victim entry both arrays see. -/
structure ArrayOp where
  port : UtagPort
  ce : Bool
  rdwen : Bool
  cmst : Cmst
  didx : BitVec 9
  vidx : Way
  bw : Line
  din : Line

namespace ArrayOp

/-- The tag array's view of the operation. -/
def tagMove (op : ArrayOp) : UtagMove :=
  { vce := op.ce, cmst := op.cmst, cmstDidx := op.didx, cmstVidx := op.vidx }

/-- The data array's view of the operation. -/
def dataPort (op : ArrayOp) : UdataPort :=
  { ce := op.ce, rdwen := op.rdwen, a := op.didx, bw := op.bw, din := op.din, va := op.vidx,
    cmst := op.cmst }

/-- The first tag port writes. -/
def writesTags (op : ArrayOp) : Bool := op.port.ce && !op.port.rdwen

/-- The operation moves a line between primary and victim storage. -/
def moves (op : ArrayOp) : Prop := op.ce = true ∧ op.cmst ≠ .HX

/-- The index names one of the two sets and one of the two ways that one bit can name. -/
def inRange (op : ArrayOp) : Prop := (slotSet op.didx).toNat < 2 ∧ (slotWay op.didx).val < 2

end ArrayOp

/-- One cycle of both arrays. -/
def Arrays.apply (a : Arrays) (op : ArrayOp) : Arrays where
  utag := a.utag.tick op.port op.tagMove
  udata := a.udata.tick op.dataPort

/-! ### The store of lines -/

/-- A tag and the data that belong together. -/
structure TaggedLine where
  tag : RawTag
  data : Line

/-- The store that both arrays implement: tagged lines in sets and ways and in victim entries. -/
@[ext] structure LineStore where
  primary : SetIndex → Way → TaggedLine
  victim : Way → TaggedLine

namespace LineStore

/-- The tags written by the first port; the data stay where they are. -/
def writeTags (l : LineStore) (op : ArrayOp) : LineStore :=
  if op.writesTags then
    { primary := Function.update l.primary op.port.a fun w =>
        ⟨maskedWrite (l.primary op.port.a w).tag (op.port.din w) (op.port.bw w),
          (l.primary op.port.a w).data⟩
      victim := fun v =>
        ⟨maskedWrite (l.victim v).tag (op.port.vin v) (op.port.vbw v), (l.victim v).data⟩ }
  else l

/-- `x` put into way `w` of set `s`. -/
def putPrimary (p : SetIndex → Way → TaggedLine) (s : SetIndex) (w : Way) (x : TaggedLine) :
    SetIndex → Way → TaggedLine :=
  Function.update p s (Function.update (p s) w x)

/-- One operation on the store. A move takes the lines from where they are before the operation; a
swap writes its whole row and so wins over the first port there. -/
def apply (l : LineStore) (op : ArrayOp) : LineStore :=
  let s := slotSet op.didx
  let w := slotWay op.didx
  let t := l.writeTags op
  match op.ce, op.cmst with
  | false, _ => t
  | true, .HX =>
    if op.rdwen then t
    else
      { t with
        primary := putPrimary t.primary s w
          ⟨(t.primary s w).tag, maskedWrite (l.primary s w).data op.din op.bw⟩ }
  | true, .MM => { t with victim := Function.update l.victim op.vidx (l.primary s w) }
  | true, .MH =>
    { primary := Function.update t.primary s (putPrimary l.primary s w (l.victim op.vidx) s)
      victim := Function.update l.victim op.vidx (l.primary s w) }

end LineStore

/-- The tagged line in every slot and every victim entry of the arrays. -/
def Arrays.lines (a : Arrays) : LineStore where
  primary s w := ⟨a.utag.ptags s w, a.udata.pdata (lineSlot s w)⟩
  victim v := ⟨a.utag.vtags v, a.udata.vdata v⟩

section Moves

variable {a : Arrays} {op : ArrayOp}

/-- A move takes the tag from the slot that the data array uses exactly when the index is in
range. -/
theorem moveSlot_eq_iff (op : ArrayOp) :
    (op.tagMove.moveSet = slotSet op.didx ∧ op.tagMove.moveWay = slotWay op.didx) ↔
      op.inRange := by
  have h : ∀ d : BitVec 9,
      ((((d.extractLsb' 2 4).setWidth 1).setWidth 7 = slotSet d ∧
        Fin.ofNat 4 ((d.extractLsb' 0 2).setWidth 1).toNat = slotWay d) ↔
          ((slotSet d).toNat < 2 ∧ (slotWay d).val < 2)) := by
    decide +kernel
  exact h op.didx

/-- The first port's write, seen in the store. -/
theorem lines_writeTags (a : Arrays) (op : ArrayOp) :
    a.lines.writeTags op =
      Arrays.lines ⟨{ a.utag with
        ptags := a.utag.writePtags op.port, vtags := a.utag.writeVtags op.port }, a.udata⟩ := by
  unfold LineStore.writeTags Utag.writePtags Utag.writeVtags
  cases hw : op.writesTags with
  | false =>
    have hp : (op.port.ce && !op.port.rdwen) = false := hw
    simp only [hp, if_false, Bool.false_eq_true]
  | true =>
    have hp : (op.port.ce && !op.port.rdwen) = true := hw
    simp only [hp, if_true]
    refine LineStore.ext (funext fun s => funext fun w => ?_) rfl
    by_cases hs : s = op.port.a
    · subst hs
      simp [Arrays.lines]
    · simp [Arrays.lines, Function.update_of_ne hs]

/-- The data array's update of one address, seen in the slots. -/
theorem update_lineSlot (f : BitVec 9 → Line) (d : BitVec 9) (x : Line) (s : SetIndex) (w : Way) :
    Function.update f d x (lineSlot s w) =
      if s = slotSet d ∧ w = slotWay d then x else f (lineSlot s w) := by
  by_cases h : lineSlot s w = d
  · rw [if_pos (lineSlot_eq_iff.1 h), h, Function.update_self]
  · rw [if_neg (fun h' => h (lineSlot_eq_iff.2 h')), Function.update_of_ne h]

theorem putPrimary_apply (p : SetIndex → Way → TaggedLine) (s s' : SetIndex) (w w' : Way)
    (x : TaggedLine) :
    LineStore.putPrimary p s w x s' w' = if s' = s ∧ w' = w then x else p s' w' := by
  unfold LineStore.putPrimary
  by_cases hs : s' = s
  · subst hs
    by_cases hw : w' = w
    · simp [hw]
    · simp [hw]
  · simp [hs]

/-- The slots after an operation. -/
theorem lines_apply_primary (a : Arrays) (op : ArrayOp) (s : SetIndex) (w : Way) :
    (a.apply op).lines.primary s w =
      ⟨(a.apply op).utag.ptags s w, (a.apply op).udata.pdata (lineSlot s w)⟩ := rfl

/-- The store's slots after the first port's write. -/
theorem writeTags_primary (a : Arrays) (op : ArrayOp) (s : SetIndex) (w : Way) :
    (a.lines.writeTags op).primary s w =
      ⟨a.utag.writePtags op.port s w, a.udata.pdata (lineSlot s w)⟩ := by
  rw [lines_writeTags]
  rfl

/-- The store's victim entries after the first port's write. -/
theorem writeTags_victim (a : Arrays) (op : ArrayOp) (v : Way) :
    (a.lines.writeTags op).victim v = ⟨a.utag.writeVtags op.port v, a.udata.vdata v⟩ := by
  rw [lines_writeTags]
  rfl

/-- Without a move the tag array only takes the first port's write. -/
theorem apply_utag_of_not_moves (h : ¬ op.moves) :
    (a.apply op).utag.ptags = a.utag.writePtags op.port ∧
      (a.apply op).utag.vtags = a.utag.writeVtags op.port := by
  unfold ArrayOp.moves at h
  cases hce : op.ce <;> cases hc : op.cmst <;>
    simp_all [Arrays.apply, Utag.tick, ArrayOp.tagMove]

/-- Without a move the arrays and the store do the same. -/
theorem lines_apply_of_not_moves (h : ¬ op.moves) :
    (a.apply op).lines = a.lines.apply op := by
  obtain ⟨hp, hv⟩ := apply_utag_of_not_moves (a := a) h
  cases hce : op.ce with
  | false =>
    have hd : (a.apply op).udata = a.udata := by
      simp [Arrays.apply, Udata.tick, ArrayOp.dataPort, hce]
    unfold LineStore.apply
    simp only [hce]
    rw [lines_writeTags]
    simp only [Arrays.lines, hp, hv, hd]
  | true =>
    have hc : op.cmst = .HX := by
      by_contra hne
      exact h ⟨hce, hne⟩
    unfold LineStore.apply
    simp only [hce, hc]
    cases hrd : op.rdwen with
    | true =>
      have hd : (a.apply op).udata.pdata = a.udata.pdata ∧
          (a.apply op).udata.vdata = a.udata.vdata := by
        simp [Arrays.apply, Udata.tick, ArrayOp.dataPort, hce, hc, hrd]
      rw [if_pos rfl, lines_writeTags]
      simp only [Arrays.lines, hp, hv, hd]
    | false =>
      have hd : (a.apply op).udata.pdata = Function.update a.udata.pdata op.didx
            (maskedWrite (a.udata.pdata op.didx) op.din op.bw) ∧
          (a.apply op).udata.vdata = a.udata.vdata := by
        simp [Arrays.apply, Udata.tick, ArrayOp.dataPort, hce, hc, hrd]
      rw [if_neg Bool.false_ne_true]
      refine LineStore.ext (funext fun s => funext fun w => ?_) (funext fun v => ?_)
      · show _ = LineStore.putPrimary _ _ _ _ s w
        rw [putPrimary_apply, writeTags_primary, writeTags_primary, lines_apply_primary, hp, hd.1,
          update_lineSlot]
        by_cases hs : s = slotSet op.didx ∧ w = slotWay op.didx
        · rw [if_pos hs, if_pos hs, hs.1, hs.2]
          simp only [Arrays.lines, lineSlot_slot]
        · rw [if_neg hs, if_neg hs]
      · simp only [writeTags_victim]
        simp only [Arrays.lines, hv, hd.2]

/-- A move puts the tag of the slot that the tag array names into the victim entry. -/
theorem apply_vtags_of_moves (hm : op.moves) :
    (a.apply op).utag.vtags = Function.update a.utag.vtags op.vidx
      (a.utag.ptags op.tagMove.moveSet op.tagMove.moveWay) := by
  obtain ⟨hce, hc⟩ := hm
  unfold Arrays.apply Utag.tick
  simp [ArrayOp.tagMove, hce, hc]

/-- A move puts the line at the data array's address into the victim entry. -/
theorem apply_vdata_of_moves (hm : op.moves) :
    (a.apply op).udata.vdata = Function.update a.udata.vdata op.vidx (a.udata.pdata op.didx) := by
  obtain ⟨hce, hc⟩ := hm
  cases hcm : op.cmst with
  | HX => exact absurd hcm hc
  | MM => simp [Arrays.apply, Udata.tick, ArrayOp.dataPort, hce, hcm]
  | MH => simp [Arrays.apply, Udata.tick, ArrayOp.dataPort, hce, hcm]

/-- A move of the store puts a tagged line into the victim entry. -/
theorem LineStore.apply_victim_of_moves (l : LineStore) (hm : op.moves) :
    (l.apply op).victim =
      Function.update l.victim op.vidx (l.primary (slotSet op.didx) (slotWay op.didx)) := by
  obtain ⟨hce, hc⟩ := hm
  unfold LineStore.apply
  cases hcm : op.cmst with
  | HX => exact absurd hcm hc
  | MM => simp [hce]
  | MH => simp [hce]

/-- The victim entries after a move in range. -/
theorem lines_victim_of_moves (hm : op.moves) (hr : op.inRange) :
    (a.apply op).lines.victim = (a.lines.apply op).victim := by
  obtain ⟨hset, hway⟩ := (moveSlot_eq_iff op).2 hr
  have ht := apply_vtags_of_moves (a := a) hm
  rw [hset, hway] at ht
  rw [LineStore.apply_victim_of_moves a.lines hm]
  funext v
  by_cases hv : v = op.vidx
  · subst hv
    simp [Arrays.lines, ht, apply_vdata_of_moves hm, lineSlot_slot]
  · simp [Arrays.lines, ht, apply_vdata_of_moves hm, Function.update_of_ne hv]

/-- A move in range is the same in the arrays and in the store. -/
theorem lines_apply_of_moves (hm : op.moves) (hr : op.inRange) :
    (a.apply op).lines = a.lines.apply op := by
  have hvictim := lines_victim_of_moves (a := a) hm hr
  obtain ⟨hset, hway⟩ := (moveSlot_eq_iff op).2 hr
  obtain ⟨hce, hc⟩ := hm
  refine LineStore.ext (funext fun s => funext fun w => ?_) hvictim
  unfold LineStore.apply
  cases hcm : op.cmst with
  | HX => exact absurd hcm hc
  | MM =>
    have hp : (a.apply op).utag.ptags = a.utag.writePtags op.port := by
      simp [Arrays.apply, Utag.tick, ArrayOp.tagMove, hcm]
    have hd : (a.apply op).udata.pdata = a.udata.pdata := by
      simp [Arrays.apply, Udata.tick, ArrayOp.dataPort, hce, hcm]
    simp only [hce]
    rw [lines_apply_primary, writeTags_primary, hp, hd]
  | MH =>
    have hp : (a.apply op).utag.ptags = Function.update (a.utag.writePtags op.port)
        (slotSet op.didx) (Function.update (a.utag.ptags (slotSet op.didx)) (slotWay op.didx)
          (a.utag.vtags op.vidx)) := by
      simp only [← hset, ← hway]
      simp [Arrays.apply, Utag.tick, ArrayOp.tagMove, hce, hcm]
    have hd : (a.apply op).udata.pdata =
        Function.update a.udata.pdata op.didx (a.udata.vdata op.vidx) := by
      simp [Arrays.apply, Udata.tick, ArrayOp.dataPort, hce, hcm]
    simp only [hce]
    rw [lines_apply_primary, hp, hd, update_lineSlot]
    by_cases hs : s = slotSet op.didx
    · subst hs
      by_cases hw : w = slotWay op.didx
      · subst hw
        simp [putPrimary_apply, Arrays.lines]
      · simp [putPrimary_apply, Arrays.lines, hw]
    · simp [hs, writeTags_primary]

/-- One operation whose move, if any, is in range does the same in the arrays and in the store. -/
theorem lines_apply (hr : op.moves → op.inRange) : (a.apply op).lines = a.lines.apply op := by
  by_cases hm : op.moves
  · exact lines_apply_of_moves hm (hr hm)
  · exact lines_apply_of_not_moves hm

/-- A move out of range takes a tag from a slot other than the one whose data it takes. -/
theorem exists_lines_apply_ne (hm : op.moves) (hr : ¬ op.inRange) :
    ∃ a : Arrays, (a.apply op).lines ≠ a.lines.apply op := by
  let marked : SetIndex → Way → RawTag := fun s w =>
    if s = op.tagMove.moveSet ∧ w = op.tagMove.moveWay then 1 else 0
  let a : Arrays :=
    ⟨⟨marked, fun _ => 0, fun _ => 0, fun _ => 0⟩, ⟨fun _ => 0, fun _ => 0, 0⟩⟩
  refine ⟨a, fun heq => ?_⟩
  have hne : ¬ (slotSet op.didx = op.tagMove.moveSet ∧ slotWay op.didx = op.tagMove.moveWay) :=
    fun h => hr ((moveSlot_eq_iff op).1 ⟨h.1.symm, h.2.symm⟩)
  have hmoved : ((a.apply op).lines.victim op.vidx).tag = 1 := by
    show (a.apply op).utag.vtags op.vidx = 1
    rw [apply_vtags_of_moves hm, Function.update_self]
    exact if_pos ⟨rfl, rfl⟩
  have hkept : ((a.lines.apply op).victim op.vidx).tag = 0 := by
    rw [LineStore.apply_victim_of_moves a.lines hm, Function.update_self]
    exact if_neg hne
  rw [heq, hkept] at hmoved
  exact absurd hmoved (by decide)

end Moves

/-! ### Runs -/

/-- After the operations every slot and every victim entry of the arrays holds the tag and the
data that the store of lines holds there. -/
def LockStep (a : Arrays) (ops : List ArrayOp) : Prop :=
  (ops.foldl Arrays.apply a).lines = ops.foldl LineStore.apply a.lines

theorem lockStep_of_inRange {ops : List ArrayOp} (h : ∀ op ∈ ops, op.moves → op.inRange)
    (a : Arrays) : LockStep a ops := by
  unfold LockStep
  induction ops generalizing a with
  | nil => rfl
  | cons op ops ih =>
    have hop := lines_apply (a := a) (h op List.mem_cons_self)
    have hrest := ih (fun o ho => h o (List.mem_cons_of_mem op ho)) (a.apply op)
    rw [List.foldl_cons, List.foldl_cons, hrest, hop]

/-- Runs whose moves are all in range keep tags and data together, and an operation does so from
every contents exactly when its move, if any, is in range. -/
theorem arrays_lockStep (a : Arrays) (ops : List ArrayOp)
    (h : ∀ op ∈ ops, op.moves → op.inRange) (op : ArrayOp) :
    LockStep a ops ∧ ((∀ b, LockStep b [op]) ↔ (op.moves → op.inRange)) := by
  refine ⟨lockStep_of_inRange h a, fun hb hm => ?_, fun hop b => lines_apply hop⟩
  by_contra hr
  obtain ⟨b, hne⟩ := exists_lines_apply_ne hm hr
  exact hne (hb b)

/-- Arrays in which way `w` of every set holds the tag `w + 1` and the line `w + 1`, and the victim
entries hold zeroes. -/
def numberedArrays : Arrays :=
  ⟨⟨fun _ w => BitVec.ofNat 33 (w.val + 1), fun _ => 0, fun _ => 0, fun _ => 0⟩,
    ⟨fun a => BitVec.ofNat 128 ((slotWay a).val + 1), fun _ => 0, 0⟩⟩

/-- A move between way `w` of set `s` and a victim entry. -/
def moveOp (cmst : Cmst) (s : SetIndex) (w : Way) (vidx : Way) : ArrayOp :=
  { port := ⟨false, true, 0, fun _ => 0, fun _ => 0, fun _ => 0, fun _ => 0⟩, ce := true,
    rdwen := true, cmst := cmst, didx := lineSlot s w, vidx := vidx, bw := 0, din := 0 }

/-- A displacement from set 1, way 1 and a swap back keep tags and data together. -/
theorem arrays_lockStep_way1 :
    (∀ op ∈ [moveOp .MM 1 1 2, moveOp .MH 1 1 2], op.moves → op.inRange) ∧
      LockStep numberedArrays [moveOp .MM 1 1 2, moveOp .MH 1 1 2] := by
  have h : ∀ op ∈ [moveOp .MM 1 1 2, moveOp .MH 1 1 2], op.moves → op.inRange := by
    simp only [List.mem_cons, List.not_mem_nil, or_false, forall_eq_or_imp, forall_eq]
    exact ⟨fun _ => by unfold ArrayOp.inRange; decide, fun _ => by unfold ArrayOp.inRange; decide⟩
  exact ⟨h, (arrays_lockStep numberedArrays _ h (moveOp .MM 0 2 1)).1⟩

/-- A displacement from set 0, way 2 takes the tag of way 0 and the data of way 2. -/
theorem way2_not_lockStep :
    ¬ ∀ (a : Arrays) (ops : List ArrayOp), LockStep a ops := by
  intro h
  have hv := congrArg (fun l : LineStore => (l.victim 1).tag)
    (h numberedArrays [moveOp .MM 0 2 1])
  exact absurd hv (by decide)

end Piton.L15
