import Piton.Lib.Fifo
import Piton.Lib.Packets

/-! Queues whose elements leave in groups. The first element of a group says how many elements the
group has, and a group leaves once all of them have come. -/

namespace Hw

namespace Fifo

variable {α : Type} {k : Nat}

/-- The array has no free slot. -/
def full (f : Fifo k α) : Bool := f.count = BitVec.ofNat (k + 1) (2 ^ k)

section

variable (size : α → Nat) (f : Fifo k α)

/-- All elements of the first group are there. -/
def groupReady : Bool := f.nonempty && size f.front ≤ f.count.toNat

/-- The elements of the first group. -/
def group : List α :=
  (List.range (size f.front)).map fun j => f.storage (f.head + BitVec.ofNat k j)

/-- The group on the output. -/
def offer : Option (List α) := if f.groupReady size then some (f.group size) else none

/-- One clock edge: an element may enter while the first group leaves. -/
def stepGroup (enter : Option α) (leave : Bool) : Fifo k α :=
  f.shift enter.toList (if leave then size f.front else 0)

/-- What has entered is what has left in groups and what the queue holds. -/
structure Delivers (f : Fifo k α) (entered : List α) (left : List (List α)) (q : List α) : Prop where
  holds : f.Holds q
  stream : entered = left.flatten ++ q
  whole : ∀ g ∈ left, IsPacket (size · - 1) g 0

/-- A group has all its elements. -/
def isWhole (g : List α) : Bool := g.head?.any fun x => size x = g.length

end

variable {size : α → Nat} {f : Fifo k α} {q entered : List α} {left : List (List α)}

theorem Holds.toNat_count (h : f.Holds q) : f.count.toNat = q.length := by
  have hle := h.length_le
  have hpow := Nat.two_pow_pos k
  rw [h.count_eq, BitVec.toNat_ofNat, Nat.mod_eq_of_lt]
  rw [Nat.pow_succ]
  omega

theorem Holds.not_full (h : f.Holds q) (hf : f.full = false) : q.length < 2 ^ k := by
  refine Nat.lt_of_le_of_ne h.length_le fun heq => ?_
  rw [full, h.count_eq, heq, decide_eq_true rfl] at hf
  cases hf

theorem Holds.group_eq {x : α} {t : List α} (h : f.Holds (x :: t)) (hle : size x ≤ t.length + 1) :
    f.group size = (x :: t).take (size x) := by
  rw [group, h.front_eq]
  refine List.ext_getElem ?_ fun j h1 h2 => ?_
  · rw [List.length_map, List.length_range, List.length_take, List.length_cons]
    omega
  · rw [List.length_map, List.length_range] at h1
    rw [List.getElem_map, List.getElem_range, List.getElem_take]
    exact h.storage_eq j (by rw [List.length_cons]; omega)

theorem Holds.groupReady_cons {x : α} {t : List α} (h : f.Holds (x :: t)) :
    f.groupReady size = true ↔ size x ≤ t.length + 1 := by
  have hne : f.nonempty = true := h.nonempty_iff.2 (List.cons_ne_nil x t)
  rw [groupReady, hne, Bool.true_and, decide_eq_true_iff, h.front_eq, h.toNat_count,
    List.length_cons]

theorem Holds.groupReady_nil (h : f.Holds []) : f.groupReady size = false := by
  have hne : f.nonempty = false := by
    rw [← Bool.not_eq_true, h.nonempty_iff]
    exact fun hn => hn rfl
  rw [groupReady, hne, Bool.false_and]

theorem Holds.exists_cons (h : f.Holds q) (hr : f.groupReady size = true) :
    ∃ x t, q = x :: t ∧ size x ≤ t.length + 1 := by
  cases q with
  | nil =>
    rw [h.groupReady_nil] at hr
    cases hr
  | cons x t => exact ⟨x, t, rfl, h.groupReady_cons.1 hr⟩

/-- A group that is whole, as a packet. -/
theorem isPacket_take {x : α} {t : List α} (hpos : 0 < size x) (hle : size x ≤ t.length + 1) :
    IsPacket (size · - 1) ((x :: t).take (size x)) 0 := by
  obtain ⟨n, hn⟩ : ∃ n, size x = n + 1 := ⟨size x - 1, by omega⟩
  rw [hn, List.take_succ_cons]
  refine ⟨x, t.take n, rfl, ?_⟩
  change (t.take n).length + 0 = size x - 1
  rw [List.length_take, Nat.min_eq_left (by omega)]
  omega

theorem Delivers.nil (h : f.Holds []) : f.Delivers size [] [] [] where
  holds := h
  stream := rfl
  whole := fun _ hg => absurd hg List.not_mem_nil

/-- One clock edge that neither overflows nor underflows. -/
theorem Delivers.step (h : f.Delivers size entered left q) (hpos : ∀ x, 0 < size x)
    {enter : Option α} {leave : Bool} (he : enter.isSome = true → f.full = false)
    (hl : leave = true → f.groupReady size = true) :
    ∃ q', (f.stepGroup size enter leave).Delivers size (entered ++ enter.toList)
      (left ++ if leave then [f.group size] else []) q' := by
  have henter : q.length + enter.toList.length ≤ 2 ^ k := by
    cases enter with
    | none => exact h.holds.length_le
    | some x => exact h.holds.not_full (he rfl)
  cases leave with
  | false =>
    refine ⟨q ++ enter.toList, h.holds.shift henter (Nat.zero_le _), ?_, ?_⟩
    · rw [if_neg Bool.false_ne_true, List.append_nil, h.stream, List.append_assoc]
    · rw [if_neg Bool.false_ne_true, List.append_nil]
      exact h.whole
  | true =>
    obtain ⟨x, t, rfl, hle⟩ := h.holds.exists_cons (hl rfl)
    have hgroup := h.holds.group_eq hle
    have hfront := h.holds.front_eq
    refine ⟨(x :: t).drop (size x) ++ enter.toList, ?_, ?_, ?_⟩
    · rw [stepGroup, if_pos rfl, hfront]
      exact h.holds.shift henter hle
    · rw [if_pos rfl, hgroup, h.stream, List.flatten_append, List.flatten_singleton,
        List.append_assoc, List.append_assoc, ← List.append_assoc ((x :: t).take (size x)),
        List.take_append_drop]
    · intro g hg
      rcases List.mem_append.1 hg with hg | hg
      · exact h.whole g hg
      · rw [if_pos rfl, List.mem_singleton, hgroup] at hg
        rw [hg]
        exact isPacket_take (hpos x) hle

/-- The groups leave in the order in which their elements have entered. -/
theorem Delivers.packets_eq (h : f.Delivers size entered left q) :
    packets (size · - 1) entered = left ++ packets (size · - 1) q := by
  rw [h.stream, packets_flatten h.whole]

theorem Delivers.left_eq (h : f.Delivers size entered left q) :
    left = (packets (size · - 1) entered).take left.length := by
  rw [h.packets_eq, List.take_left]

theorem isWhole_of_isPacket {g : List α} {n : Nat} (hpos : ∀ x, 0 < size x)
    (h : IsPacket (size · - 1) g n) : isWhole size g = decide (n = 0) := by
  obtain ⟨x, t, rfl, ht⟩ := h
  change t.length + n = size x - 1 at ht
  have := hpos x
  rw [isWhole, List.head?_cons, Option.any_some, List.length_cons, decide_eq_decide]
  constructor <;> intro heq <;> omega

/-- The group on the output is the next one, once it is whole. -/
theorem Delivers.offer_eq (h : f.Delivers size entered left q) (hpos : ∀ x, 0 < size x) :
    f.offer size = ((packets (size · - 1) entered)[left.length]?).filter (isWhole size) := by
  rw [h.packets_eq, List.getElem?_append_right (Nat.le_refl _), Nat.sub_self, offer]
  cases q with
  | nil =>
    rw [h.holds.groupReady_nil]
    rfl
  | cons x t =>
    by_cases hle : size x ≤ t.length + 1
    · have hpk := isPacket_take (hpos x) hle
      rw [if_pos (h.holds.groupReady_cons.2 hle), h.holds.group_eq hle]
      nth_rewrite 2 [← List.take_append_drop (size x) (x :: t)]
      rw [(cut_append (cut_isPacket hpk).2).1, (cut_isPacket hpk).1, List.singleton_append,
        List.getElem?_cons_zero, Option.filter_some, isWhole_of_isPacket hpos hpk,
        decide_eq_true rfl, if_pos rfl]
    · have hpk : IsPacket (size · - 1) (x :: t) (size x - 1 - t.length) :=
        ⟨x, t, rfl, by dsimp only; omega⟩
      rw [if_neg (mt h.holds.groupReady_cons.1 hle), (cut_isPacket hpk).1,
        List.getElem?_cons_zero, Option.filter_some, isWhole_of_isPacket hpos hpk,
        decide_eq_false (by omega), if_neg Bool.false_ne_true]

end Fifo

end Hw
