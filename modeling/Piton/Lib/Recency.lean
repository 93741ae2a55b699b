import Mathlib.Data.Fintype.Card
import Mathlib.Data.List.Nodup

/-! Recency: the order in which the elements of a finite type were last written, and ranks that a
write moves so that they follow this order. -/

namespace Hw

variable {α : Type} [DecidableEq α]

/-! ### Positions -/

section Positions

variable {l : List α} {e i j : α}

theorem idxOf_erase (hl : l.Nodup) (hi : i ≠ e) :
    (l.erase e).idxOf i = if l.idxOf e < l.idxOf i then l.idxOf i - 1 else l.idxOf i := by
  induction l with
  | nil => rfl
  | cons a l ih =>
    obtain ⟨_, hl⟩ := List.nodup_cons.1 hl
    by_cases hae : a = e
    · subst hae
      rw [List.erase_cons_head, List.idxOf_cons_self, List.idxOf_cons_ne _ (Ne.symm hi)]
      simp
    · have he : (a :: l).erase e = a :: l.erase e := by
        simp [hae]
      rw [he, List.idxOf_cons_ne l hae]
      by_cases hai : a = i
      · subst hai
        simp
      · rw [List.idxOf_cons_ne _ hai, List.idxOf_cons_ne _ hai, ih hl]
        split <;> split <;> omega

/-- Only absent elements share a position. -/
theorem length_of_idxOf_eq (hi : i ≠ e) (h : l.idxOf i = l.idxOf e) : l.idxOf e = l.length := by
  by_contra hn
  have hlt : l.idxOf e < l.length := Nat.lt_of_le_of_ne List.idxOf_le_length hn
  exact hi ((List.idxOf_inj (List.idxOf_lt_length_iff.1 (h ▸ hlt))).1 h)

/-- Moving an element to the front keeps the order of the others. -/
theorem idxOf_erase_lt_iff (hl : l.Nodup) (hi : i ≠ e) (hj : j ≠ e) :
    (l.erase e).idxOf i < (l.erase e).idxOf j ↔ l.idxOf i < l.idxOf j := by
  rw [idxOf_erase hl hi, idxOf_erase hl hj]
  have hie := length_of_idxOf_eq (l := l) hi
  have hje := length_of_idxOf_eq (l := l) hj
  have := List.idxOf_le_length (a := i) (l := l)
  have := List.idxOf_le_length (a := j) (l := l)
  split <;> split <;> omega

end Positions

/-! ### The order of the last writes -/

/-- The elements written, the last one first, from all writes, the last one first. -/
def recent (writes : List α) : List α := writes.foldr (fun e l => e :: l.erase e) []

section Recent

variable {writes : List α} {e i j : α}

@[simp] theorem recent_nil : recent ([] : List α) = [] := rfl

@[simp] theorem recent_cons : recent (e :: writes) = e :: (recent writes).erase e := rfl

theorem nodup_recent : (recent writes).Nodup := by
  induction writes with
  | nil => exact List.nodup_nil
  | cons e writes ih =>
    rw [recent_cons]
    exact List.nodup_cons.2 ⟨ih.not_mem_erase, ih.erase e⟩

@[simp] theorem mem_recent : i ∈ recent writes ↔ i ∈ writes := by
  induction writes with
  | nil => rfl
  | cons e writes ih =>
    rw [recent_cons, List.mem_cons, List.mem_cons, nodup_recent.mem_erase_iff, ih]
    by_cases hi : i = e <;> simp [hi]

/-- The order is that of the last writes. -/
theorem idxOf_recent_lt_iff (hi : i ∈ writes) (hj : j ∈ writes) :
    (recent writes).idxOf i < (recent writes).idxOf j ↔ writes.idxOf i < writes.idxOf j := by
  induction writes with
  | nil => cases hi
  | cons e writes ih =>
    rw [recent_cons]
    by_cases hie : e = i
    · subst hie
      by_cases hje : e = j
      · subst hje
        simp
      · simp [List.idxOf_cons_ne _ hje]
    · by_cases hje : e = j
      · subst hje
        simp
      · rw [List.idxOf_cons_ne _ hie, List.idxOf_cons_ne _ hje, List.idxOf_cons_ne _ hie,
          List.idxOf_cons_ne _ hje]
        have hi' : i ∈ writes := by
          obtain h | h := List.mem_cons.1 hi
          · exact absurd h.symm hie
          · exact h
        have hj' : j ∈ writes := by
          obtain h | h := List.mem_cons.1 hj
          · exact absurd h.symm hje
          · exact h
        have := idxOf_erase_lt_iff (nodup_recent : (recent writes).Nodup) (Ne.symm hie) (Ne.symm hje)
        have := ih hi' hj'
        omega

end Recent

/-! ### Ranks -/

/-- A write gives its element the top rank and lowers the ranks above the element's old one. -/
def touch (top : Nat) (rank : α → Nat) (e : α) : α → Nat :=
  fun i => if i = e then top else if rank e < rank i then rank i - 1 else rank i

/-- The ranks count down along the elements written; an element that was never written has rank 0. -/
structure Ranked (top : Nat) (rank : α → Nat) (l : List α) : Prop where
  nodup : l.Nodup
  rank_mem : ∀ i ∈ l, rank i + l.idxOf i = top
  rank_not_mem : ∀ i ∉ l, rank i = 0

namespace Ranked

variable {top : Nat} {rank : α → Nat} {l : List α} {e i j : α}

theorem nil : Ranked top (fun _ : α => 0) [] where
  nodup := List.nodup_nil
  rank_mem := fun i hi => by cases hi
  rank_not_mem := fun _ _ => rfl

theorem eq_of_rank_eq (h : Ranked top rank l) (hi : i ∈ l) (hj : j ∈ l)
    (hr : rank i = rank j) : i = j := by
  have h1 := h.rank_mem i hi
  have h2 := h.rank_mem j hj
  exact (List.idxOf_inj hi).1 (by omega)

/-- A lower rank is an older write. -/
theorem lt_iff (h : Ranked top rank l) (hi : i ∈ l) (hj : j ∈ l) :
    rank i < rank j ↔ l.idxOf j < l.idxOf i := by
  have h1 := h.rank_mem i hi
  have h2 := h.rank_mem j hj
  omega

variable [Fintype α]

/-- While an element has not been written, the ranks of those written are positive. -/
theorem pos (h : Ranked top rank l) (hcard : Fintype.card α = top + 1) (hi : i ∈ l) (hj : j ∉ l) :
    0 < rank i := by
  have hlen : (j :: l).length ≤ Fintype.card α := (List.nodup_cons.2 ⟨hj, h.nodup⟩).length_le_card
  have hidx := List.idxOf_lt_length_iff.2 hi
  have hr := h.rank_mem i hi
  rw [List.length_cons] at hlen
  omega

/-- A write keeps the ranks in the order of the last writes. -/
theorem touch (h : Ranked top rank l) (hcard : Fintype.card α = top + 1) :
    Ranked top (touch top rank e) (e :: l.erase e) where
  nodup := List.nodup_cons.2 ⟨h.nodup.not_mem_erase, h.nodup.erase e⟩
  rank_mem i hi := by
    by_cases hie : i = e
    · subst hie
      simp [Hw.touch]
    · have hil : i ∈ l := by
        obtain hi | hi := List.mem_cons.1 hi
        · exact absurd hi hie
        · exact List.mem_of_mem_erase hi
      have hri := h.rank_mem i hil
      rw [Hw.touch, if_neg hie, List.idxOf_cons_ne _ (Ne.symm hie), idxOf_erase h.nodup hie]
      by_cases hel : e ∈ l
      · have hre := h.rank_mem e hel
        have hne : l.idxOf e ≠ l.idxOf i := fun hn => hie ((List.idxOf_inj hel).1 hn).symm
        split <;> split <;> omega
      · have hre := h.rank_not_mem e hel
        have hpos := h.pos hcard hil hel
        have hidx := List.idxOf_lt_length_iff.2 hil
        have hend : l.idxOf e = l.length := List.idxOf_eq_length hel
        rw [if_pos (hre ▸ hpos), if_neg (by omega)]
        omega
  rank_not_mem i hi := by
    rw [List.mem_cons, not_or] at hi
    obtain ⟨hie, hi⟩ := hi
    have hil : i ∉ l := fun hm => hi ((List.mem_erase_of_ne hie).2 hm)
    have hri := h.rank_not_mem i hil
    rw [Hw.touch, if_neg hie, hri, if_neg (Nat.not_lt_zero _)]

end Ranked

end Hw
