import Mathlib.Algebra.Group.Nat.Defs
import Mathlib.Tactic.Common

/-! Queues of `2 ^ k` elements in an array, with read and write pointers that wrap around and a
count of the elements. -/

namespace Hw

variable {α : Type} {k : Nat}

/-- The registers of a queue. -/
structure Fifo (k : Nat) (α : Type) where
  storage : BitVec k → α
  head : BitVec k
  tail : BitVec k
  count : BitVec (k + 1)

namespace Fifo

/-- One clock edge: an element may enter while the first one leaves. -/
def step (f : Fifo k α) (enter : Option α) (leave : Bool) : Fifo k α where
  storage := fun a =>
    match enter with
    | some x => if a = f.tail then x else f.storage a
    | none => f.storage a
  head := if leave then f.head + 1#k else f.head
  tail := if enter.isSome then f.tail + 1#k else f.tail
  count :=
    match enter.isSome, leave with
    | false, true => f.count - 1#(k + 1)
    | true, false => f.count + 1#(k + 1)
    | _, _ => f.count

/-- One clock edge at which several elements enter and several leave. -/
def shift (f : Fifo k α) (enter : List α) (leave : Nat) : Fifo k α where
  storage := fun a => (enter[(a - f.tail).toNat]?).getD (f.storage a)
  head := f.head + BitVec.ofNat k leave
  tail := f.tail + BitVec.ofNat k enter.length
  count := f.count + BitVec.ofNat (k + 1) enter.length - BitVec.ofNat (k + 1) leave

/-- The element that leaves next. -/
def front (f : Fifo k α) : α := f.storage f.head

/-- The queue holds an element. -/
def nonempty (f : Fifo k α) : Bool := f.count ≠ 0#(k + 1)

/-- The count follows what enters and leaves while there is room for the one and an element for the
other. -/
theorem toNat_count_step (f : Fifo k α) {enter : Option α} {leave : Bool}
    (he : enter.isSome = true → f.count.toNat < 2 ^ k) (hl : leave = true → f.count.toNat ≠ 0) :
    (f.step enter leave).count.toNat + leave.toNat = f.count.toNat + enter.isSome.toNat := by
  have h1 : 1 < 2 ^ (k + 1) := Nat.one_lt_two_pow (Nat.succ_ne_zero k)
  have h2 : 2 ^ (k + 1) = 2 * 2 ^ k := Nat.pow_succ'
  have h3 := f.count.isLt
  cases enter with
  | none =>
    cases leave with
    | false => rfl
    | true =>
      have := hl rfl
      simp only [step, Option.isSome_none, BitVec.toNat_sub, BitVec.toNat_ofNat,
        Nat.mod_eq_of_lt h1]
      have h4 : 2 ^ (k + 1) - 1 + f.count.toNat = f.count.toNat - 1 + 2 ^ (k + 1) := by omega
      rw [h4, Nat.add_mod_right, Nat.mod_eq_of_lt (by omega)]
      simp only [Bool.toNat_true, Bool.toNat_false]
      omega
  | some x =>
    cases leave with
    | false =>
      have := he rfl
      simp only [step, Option.isSome_some, BitVec.toNat_add, BitVec.toNat_ofNat,
        Nat.mod_eq_of_lt h1]
      rw [Nat.mod_eq_of_lt (by omega)]
      rfl
    | true => rfl

/-- The queue holds the list `q`. -/
structure Holds (f : Fifo k α) (q : List α) : Prop where
  length_le : q.length ≤ 2 ^ k
  count_eq : f.count = BitVec.ofNat (k + 1) q.length
  tail_eq : f.tail = f.head + BitVec.ofNat k q.length
  storage_eq : ∀ (j : Nat) (h : j < q.length), f.storage (f.head + BitVec.ofNat k j) = q[j]

variable {f : Fifo k α} {q : List α}

theorem Holds.nil (hc : f.count = 0#(k + 1)) (ht : f.tail = f.head) : f.Holds [] where
  length_le := Nat.zero_le _
  count_eq := hc
  tail_eq := by simpa using ht
  storage_eq := fun j h => absurd h (Nat.not_lt_zero j)

theorem Holds.nonempty_iff (h : f.Holds q) : f.nonempty = true ↔ q ≠ [] := by
  have hle := h.length_le
  have hlt : q.length < 2 ^ (k + 1) := by rw [Nat.pow_succ]; have := Nat.two_pow_pos k; omega
  rw [nonempty, h.count_eq, decide_eq_true_iff, ne_eq, ne_eq, not_iff_not,
    ← List.length_eq_zero_iff]
  constructor
  · intro h0
    have := congrArg BitVec.toNat h0
    simpa [Nat.mod_eq_of_lt hlt] using this
  · intro h0
    rw [h0]

theorem Holds.front_eq {x : α} (h : f.Holds (x :: q)) : f.front = x := by
  have := h.storage_eq 0 (Nat.succ_pos _)
  simpa [front] using this

/-- The offset of a slot from another, counted around the ring. -/
theorem toNat_ofNat_sub {i j : Nat} (hi : i < 2 ^ k) (hj : j ≤ 2 ^ k) :
    (BitVec.ofNat k i - BitVec.ofNat k j).toNat = if j ≤ i then i - j else 2 ^ k + i - j := by
  rw [BitVec.toNat_sub, BitVec.toNat_ofNat, BitVec.toNat_ofNat, Nat.mod_eq_of_lt hi]
  obtain hj | rfl := Nat.lt_or_eq_of_le hj
  · rw [Nat.mod_eq_of_lt hj]
    split
    · rw [show 2 ^ k - j + i = i - j + 2 ^ k by omega, Nat.add_mod_right,
        Nat.mod_eq_of_lt (by omega)]
    · rw [Nat.mod_eq_of_lt (by omega)]
      omega
  · rw [Nat.mod_self, Nat.sub_zero, Nat.add_mod_left, Nat.mod_eq_of_lt hi, if_neg (by omega)]
    omega

/-- What the queue holds after `leave` elements have left and some have entered. -/
theorem Holds.shift (h : f.Holds q) {enter : List α} {leave : Nat}
    (he : q.length + enter.length ≤ 2 ^ k) (hl : leave ≤ q.length) :
    (f.shift enter leave).Holds (q.drop leave ++ enter) where
  length_le := by
    rw [List.length_append, List.length_drop]
    omega
  count_eq := by
    have hlen : q.length = q.length - leave + leave := by omega
    change f.count + BitVec.ofNat (k + 1) enter.length - BitVec.ofNat (k + 1) leave = _
    rw [h.count_eq, List.length_append, List.length_drop, BitVec.ofNat_add]
    nth_rewrite 1 [hlen]
    rw [BitVec.ofNat_add, BitVec.add_assoc, BitVec.add_comm (BitVec.ofNat (k + 1) leave),
      ← BitVec.add_assoc, BitVec.add_sub_cancel]
  tail_eq := by
    have hlen : q.length = leave + (q.length - leave) := by omega
    rw [Fifo.shift, h.tail_eq, List.length_append, List.length_drop, BitVec.ofNat_add,
      ← BitVec.add_assoc, BitVec.add_assoc f.head (BitVec.ofNat k leave), ← BitVec.ofNat_add, ← hlen]
  storage_eq := by
    intro j hj
    rw [List.length_append, List.length_drop] at hj
    have hoffset : f.head + BitVec.ofNat k leave + BitVec.ofNat k j - f.tail =
        BitVec.ofNat k (leave + j) - BitVec.ofNat k q.length := by
      rw [h.tail_eq, BitVec.ofNat_add, BitVec.add_assoc, BitVec.sub_eq_add_neg, BitVec.neg_add,
        BitVec.sub_eq_add_neg]
      rw [BitVec.sub_eq_add_neg]
      rw [BitVec.add_comm f.head, BitVec.add_assoc, ← BitVec.add_assoc f.head,
        BitVec.add_right_neg, BitVec.zero_add]
    change (enter[(f.head + BitVec.ofNat k leave + BitVec.ofNat k j - f.tail).toNat]?).getD
      (f.storage (f.head + BitVec.ofNat k leave + BitVec.ofNat k j)) = _
    rw [hoffset, toNat_ofNat_sub (by omega) h.length_le]
    by_cases hlt : leave + j < q.length
    · have hj' : j < (q.drop leave).length := by
        rw [List.length_drop]
        omega
      have hslot := h.storage_eq (leave + j) hlt
      rw [if_neg (by omega), List.getElem?_eq_none (by omega), Option.getD_none,
        List.getElem_append_left hj', List.getElem_drop, ← hslot, BitVec.ofNat_add,
        BitVec.add_assoc]
    · have hj' : (q.drop leave).length ≤ j := by
        rw [List.length_drop]
        omega
      rw [if_pos (by omega), List.getElem_append_right hj', List.getElem?_eq_getElem (by
        omega), Option.getD_some]
      congr 1
      rw [List.length_drop]
      omega

theorem step_eq_shift (f : Fifo k α) (enter : Option α) (leave : Bool) :
    f.step enter leave = f.shift enter.toList leave.toNat := by
  have hstorage : ∀ x a, (if a = f.tail then x else f.storage a) =
      ([x][(a - f.tail).toNat]?).getD (f.storage a) := by
    intro x a
    by_cases ha : a = f.tail
    · subst ha
      simp
    · have hne : (a - f.tail).toNat ≠ 0 := by
        intro h0
        have hzero : a - f.tail = 0#k := BitVec.eq_of_toNat_eq (by simpa using h0)
        rw [← BitVec.sub_add_cancel a f.tail, hzero, BitVec.zero_add] at ha
        exact ha rfl
      rw [if_neg ha, List.getElem?_eq_none, Option.getD_none]
      simpa using Nat.one_le_iff_ne_zero.2 hne
  have hcount : f.count + 1#(k + 1) - 1#(k + 1) = f.count := BitVec.add_sub_cancel _ _
  cases enter with
  | none => cases leave <;> simp [step, shift]
  | some x =>
    cases leave with
    | false => simp [step, shift, hstorage]
    | true =>
      simp only [step, shift, hstorage, Option.toList_some, List.length_singleton,
        Bool.toNat_true, hcount]
      simp

/-- What the queue holds after a clock edge that neither overflows nor underflows. -/
theorem Holds.step (h : f.Holds q) {enter : Option α} {leave : Bool}
    (he : enter.isSome = true → q.length < 2 ^ k) (hl : leave = true → q ≠ []) :
    (f.step enter leave).Holds ((if leave then q.tail else q) ++ enter.toList) := by
  rw [step_eq_shift]
  have hdrop : q.drop leave.toNat = if leave then q.tail else q := by
    cases leave <;> simp
  rw [← hdrop]
  refine h.shift ?_ ?_
  · cases enter with
    | none => simpa using h.length_le
    | some x => exact he rfl
  · cases leave with
    | false => exact Nat.zero_le _
    | true => exact List.length_pos_iff.2 (hl rfl)

end Fifo

end Hw
