import Piton.L15.Arrays
import Piton.Lib.Machine

/-! Reads of `rf_l15_vi` through the wires of `l15.v`. -/

namespace Piton.L15

open Hw

/-- `l15_vtag_write_mask_s1`: four raw tags of 33 bits. -/
abbrev VtagMask := BitVec 132

/-- The mask with the raw tag of entry `v`. -/
def entryMask (v : Way) : VtagMask := (BitVec.allOnes 33).setWidth 132 <<< (33 * v.val)

/-- `read_ext`; none of the comparisons may hold, and then it is `x`. -/
def readExt (readMask : VtagMask) : Option Way :=
  if readMask = entryMask 3 then some 3
  else if readMask = entryMask 2 then some 2
  else if readMask = entryMask 1 then some 1
  else if readMask = entryMask 0 then some 0
  else none

/-- `l15_vi_read_mask_s1` is one bit wide, and `read_mask` is padded with zeros. -/
def viReadMask (vtagWriteMask : VtagMask) : VtagMask :=
  (vtagWriteMask.extractLsb' 0 1).setWidth 132

/-- The inputs of a cycle: the read port as `l15.v` wires it and the write port. -/
structure ViInput where
  readVal : Bool
  vtagWriteMask : VtagMask
  writeVal : Bool
  writeMask : Way → Bool
  writeData : Way → Bool
  /-- What an index `x` stands for. -/
  unknown : Way

/-- The port that `read_ext` selects. -/
def ViInput.readIndex (i : ViInput) : Way := (readExt (viReadMask i.vtagWriteMask)).getD i.unknown

/-- The array: one step is one clock edge. -/
def rfVi : Machine RfVi ViInput where
  init r := r.vi = (fun _ => false) ∧ r.writeValidF = false
  step r i := r.tick i.readVal i.readIndex i.writeVal i.writeMask i.writeData

/-- What has been written to each entry, with and without the cycle before this one. -/
structure ViWritten where
  latest : Way → Bool
  settled : Way → Bool

namespace ViWritten

/-- Before the first write all entries are not valid. -/
def empty : ViWritten := ⟨fun _ => false, fun _ => false⟩

/-- The last writes after a cycle. -/
def update (g : ViWritten) (_ : RfVi) (i : ViInput) : ViWritten where
  latest v := if i.writeVal && i.writeMask v then i.writeData v else g.latest v
  settled := g.latest

end ViWritten

/-- The array with the last writes. -/
def viWritten : Machine (RfVi × ViWritten) ViInput := rfVi.withHistory .empty ViWritten.update

/-- A read of entry `v`. -/
structure ViInput.Reads (i : ViInput) (v : Way) : Prop where
  valid : i.readVal = true
  mask : i.vtagWriteMask = entryMask v

/-! ### The array -/

/-- One bit matches no mask of 33. -/
theorem readExt_viReadMask (m : VtagMask) : readExt (viReadMask m) = none := by
  have hbit : ∀ b : BitVec 1, readExt (b.setWidth 132) = none := by decide
  exact hbit _

theorem readIndex_eq (i : ViInput) : i.readIndex = i.unknown := by
  rw [ViInput.readIndex, readExt_viReadMask]
  rfl

/-- The array holds the writes but for that of the last cycle, which is in its registers. -/
structure ViHolds (y : RfVi × ViWritten) : Prop where
  settled : ∀ v, y.1.vi v = y.2.settled v
  latest : ∀ v, y.1.written v = y.2.latest v

theorem ViHolds.step {y : RfVi × ViWritten} (h : ViHolds y) (i : ViInput) :
    ViHolds (viWritten.step y i) := by
  constructor
  · intro v
    exact (y.1.vi_tick _ _ _ _ _ v).trans (h.latest v)
  · intro v
    show (y.1.tick _ _ _ _ _).written v =
      if i.writeVal && i.writeMask v then i.writeData v else y.2.latest v
    rw [y.1.written_tick, h.latest v]

theorem viHolds {y : RfVi × ViWritten} (h : viWritten.Reachable (fun _ _ => True) y) :
    ViHolds y := by
  refine h.invariant ?_ fun _ i hy _ => hy.step i
  rintro ⟨r, g⟩ ⟨⟨hvi, hval⟩, hg⟩
  have hg : g = .empty := hg
  subst hg
  constructor
  · intro v
    rw [hvi]
    rfl
  · intro v
    rw [RfVi.written, hval, hvi]
    rfl

/-! ### The trace law -/

/-- The value that a read of this cycle returns when `x` stands for entry `u`. -/
def viRead (r : RfVi) (i : ViInput) (u : Way) : Bool :=
  (rfVi.step r { i with unknown := u }).readData

theorem viRead_eq {r : RfVi} {i : ViInput} (hval : i.readVal = true) (u : Way) :
    viRead r i u = r.vi u := by
  show (if i.readVal then r.vi (ViInput.readIndex { i with unknown := u }) else r.readData) = _
  rw [if_pos hval, readIndex_eq]

/-- A read returns what was last written to its entry, whatever entry `x` stands for, exactly when all
entries held that value before the cycle that precedes the read. -/
theorem viRead_latest_iff {y : RfVi × ViWritten} (h : viWritten.Reachable (fun _ _ => True) y)
    {i : ViInput} {v : Way} (hi : i.Reads v) :
    (∀ u, viRead y.1 i u = y.2.latest v) ↔ ∀ u, y.2.settled u = y.2.latest v := by
  constructor
  · intro hread u
    rw [← (viHolds h).settled u, ← viRead_eq hi.valid]
    exact hread u
  · intro hset u
    rw [viRead_eq hi.valid, (viHolds h).settled u]
    exact hset u

/-- A cycle without a read and without a write. -/
def ViInput.idle : ViInput := ⟨false, 0, false, fun _ => false, fun _ => false, 0⟩

/-- A write that sets the entries of the mask. -/
def ViInput.set (mask : Way → Bool) : ViInput :=
  { ViInput.idle with writeVal := true, writeMask := mask, writeData := fun _ => true }

/-- A read of entry `v`. -/
def ViInput.read (v : Way) : ViInput :=
  { ViInput.idle with readVal := true, vtagWriteMask := entryMask v }

/-- The array after its reset. -/
def viStart : RfVi × ViWritten :=
  (⟨fun _ => false, false, false, fun _ => false, fun _ => false⟩, .empty)

theorem viStart_init : viWritten.init viStart := ⟨⟨rfl, rfl⟩, rfl⟩

/-- The state that inputs lead to. -/
def viAfter (is : List ViInput) : RfVi × ViWritten := viWritten.run viStart is

theorem viAfter_reachable (is : List ViInput) :
    viWritten.Reachable (fun _ _ => True) (viAfter is) :=
  (Machine.Reachable.init viStart_init).run
    (Machine.runOk_of_mem (p := fun _ => True) (fun _ _ => trivial) _)

/-- Entry 0 is set, then all the others, and two cycles later a read of entry 3 returns that it is
valid, whatever entry `x` stands for. -/
theorem viRead_latest_allSet :
    (viAfter [.set (· = 0), .set (· ≠ 0), .idle, .idle]).2.latest 3 = true ∧
      ∀ u, viRead (viAfter [.set (· = 0), .set (· ≠ 0), .idle, .idle]).1 (ViInput.read 3) u =
        true :=
  ⟨by decide,
    (viRead_latest_iff (viAfter_reachable _) (i := ViInput.read 3) (v := 3) ⟨rfl, rfl⟩).2
      (by decide)⟩

/-- Entry 1 has been set for long, and a read of it returns entry 0. -/
theorem not_viRead_latest :
    ¬ ∀ y, viWritten.Reachable (fun _ _ => True) y → ∀ i v, ViInput.Reads i v →
      ∀ u, viRead y.1 i u = y.2.latest v := by
  intro hall
  have hread := hall _ (viAfter_reachable [.set (· = 1), .idle, .idle]) (ViInput.read 1) 1
    ⟨rfl, rfl⟩ 0
  exact absurd hread (by decide)

end Piton.L15
