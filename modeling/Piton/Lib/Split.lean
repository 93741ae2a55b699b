import Mathlib.Data.List.Basic

/-! A register that sends each of its items in pieces: the item stays until its last piece is
accepted, and the next one may follow at once. -/

namespace Hw

variable {α β : Type}

/-- The pieces of an item. -/
def pieces (f : α → Nat → β) (r : Nat) (x : α) : List β := (List.range r).map (f x)

/-- After `items` have been loaded, `out` has been sent: all pieces but those of an item that is
still in the register, of which `part` pieces have been sent. -/
inductive Split (f : α → Nat → β) (r : Nat) (items : List α) (out : List β) :
    Bool → α → Nat → Prop
  | idle (reg : α) : out = items.flatMap (pieces f r) → Split f r items out false reg 0
  | busy (reg : α) (part : Nat) (done : List α) : items = done ++ [reg] → part < r →
      out = done.flatMap (pieces f r) ++ (List.range part).map (f reg) →
      Split f r items out true reg part

namespace Split

variable {f : α → Nat → β} {r : Nat} {items : List α} {out : List β} {b : Bool} {reg x : α}
  {part : Nat}

theorem initial (h : Split f r items out b reg part) : out <+: items.flatMap (pieces f r) := by
  cases h with
  | idle _ h => exact h ▸ List.prefix_rfl
  | busy _ _ done hi hp ho =>
    subst hi ho
    obtain ⟨k, rfl⟩ := Nat.exists_eq_add_of_lt hp
    rw [List.flatMap_append, List.flatMap_singleton, List.prefix_append_right_inj, pieces,
      Nat.add_assoc, List.range_add, List.map_append]
    exact List.prefix_append _ _

theorem eq_of_idle (h : Split f r items out b reg part) (hb : b = false) :
    out = items.flatMap (pieces f r) := by
  cases h with
  | idle _ h => exact h
  | busy => exact absurd hb (by decide)

theorem part_eq (h : Split f r items out b reg part) (hb : b = false) : part = 0 := by
  cases h with
  | idle => rfl
  | busy => exact absurd hb (by decide)

/-- An item is loaded into the empty register. -/
theorem load (h : Split f r items out false reg part) (hr : 0 < r) (x : α) :
    Split f r (items ++ [x]) out true x 0 := by
  cases h with
  | idle _ h => exact .busy x 0 items rfl hr (by simpa using h)

theorem stay (h : Split f r items out false reg part) (y : α) :
    Split f r items out false y part := by
  cases h with
  | idle _ h => exact .idle y h

/-- A piece that is not the last is sent. -/
theorem piece (h : Split f r items out true reg part) (hp : part ≠ r - 1) :
    Split f r items (out ++ [f reg part]) true reg (part + 1) := by
  cases h with
  | busy _ _ done hi hlt ho =>
    refine .busy reg (part + 1) done hi (by omega) ?_
    rw [ho, List.append_assoc, List.range_succ, List.map_append, List.map_singleton]

/-- The last piece is sent and the register is free. -/
theorem last (h : Split f r items out true reg part) (hp : part = r - 1) (y : α) :
    Split f r items (out ++ [f reg part]) false y 0 := by
  cases h with
  | busy _ _ done hi hlt ho =>
    obtain ⟨m, rfl⟩ : ∃ m, r = m + 1 := ⟨r - 1, by omega⟩
    obtain rfl : part = m := by omega
    refine .idle y ?_
    rw [ho, hi, List.flatMap_append, List.flatMap_singleton, List.append_assoc, pieces,
      List.range_succ, List.map_append, List.map_singleton]

end Split

/-- The wires of a register that sends in pieces: it is accepted when the receiver is ready (`a`),
ends with the last piece, and takes a new item when it is empty or ends. -/
structure Splitter (α : Type) where
  busy : Bool
  pending : Bool
  reg : α
  part : Nat

namespace Splitter

variable (s : Splitter α) (r : Nat) (a : Bool)

/-- The last piece is accepted. -/
def sendEnd : Bool := s.busy && s.part = r - 1 && a

/-- An item may be loaded. -/
def trans : Bool := (!s.pending || s.sendEnd r a) && !(s.busy && !s.sendEnd r a)

/-- One clock edge; `load` is the item offered. -/
def step (load : Bool) (x : α) : Splitter α where
  busy := if s.trans r a then load else s.busy
  pending :=
    if s.busy && !s.sendEnd r a then true
    else if s.sendEnd r a then false else s.pending
  reg := if s.trans r a then x else s.reg
  part := if s.busy && a then if s.part = r - 1 then 0 else s.part + 1 else s.part

variable {f : α → Nat → β} {r a} {s} {items : List α} {out : List β}

theorem trans_eq (h : s.pending = true → s.busy = true) :
    s.trans r a = (!s.busy || s.sendEnd r a) := by
  unfold trans
  cases hp : s.pending <;> cases hb : s.busy <;> cases s.sendEnd r a <;> simp_all

theorem pending_step (h : s.pending = true → s.busy = true) (load : Bool) (x : α) :
    (s.step r a load x).pending = true → (s.step r a load x).busy = true := by
  simp only [step, trans_eq h]
  cases hp : s.pending <;> cases hb : s.busy <;> cases s.sendEnd r a <;> simp_all

/-- One clock edge of a splitter, as its items and pieces. -/
theorem split_step (hs : Split f r items out s.busy s.reg s.part) (hr : 0 < r)
    (hpend : s.pending = true → s.busy = true) (load : Bool) (x : α) :
    Split f r (if s.trans r a && load then items ++ [x] else items)
      (if s.busy && a then out ++ [f s.reg s.part] else out)
      (s.step r a load x).busy (s.step r a load x).reg (s.step r a load x).part := by
  simp only [step, trans_eq hpend]
  cases hb : s.busy with
  | false =>
    rw [hb] at hs
    have h0 := hs.part_eq rfl
    cases load with
    | false => simpa [sendEnd, hb] using hs.stay x
    | true => simpa [sendEnd, hb, h0] using hs.load hr x
  | true =>
    rw [hb] at hs
    by_cases hp : s.part = r - 1
    · cases a with
      | false => simpa [sendEnd, hb, hp] using hs
      | true =>
        have hl := hs.last hp x
        cases load with
        | false => simpa [sendEnd, hb, hp] using hl
        | true => simpa [sendEnd, hb, hp] using hl.load hr x
    · cases a with
      | false => simpa [sendEnd, hb, hp] using hs
      | true => simpa [sendEnd, hb, hp] using hs.piece hp

end Splitter

end Hw
