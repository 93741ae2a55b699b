import Piton.Lib.Machine

/-! A stage that holds an item until each of its consumers has taken what the item owes it. The
consumers may take in different cycles; a bit for each remembers that it is done. -/

namespace Hw

variable {σ ι C : Type}

/-- A stage of a machine with consumers `C`. -/
structure Fork (σ ι C : Type) where
  held : σ → Bool
  stalls : σ → ι → Bool
  owes : σ → C → Bool
  done : σ → C → Bool
  issues : σ → C → Bool
  accepts : σ → ι → C → Bool

namespace Fork

variable (F : Fork σ ι C) (M : Machine σ ι)

/-- What each consumer has taken of the held item, after a cycle. -/
def takenNext (taken : C → Nat) (s : σ) (i : ι) : C → Nat := fun c =>
  if F.stalls s i then taken c + (F.accepts s i c).toNat else 0

/-- The machine with the counts of what was taken of the held item. -/
def counted : Machine (σ × (C → Nat)) ι := M.withHistory (fun _ => 0) F.takenNext

/-- The rules of the stage: it offers what is owed and not done, remembers what was accepted while
the item stays, forgets it when the item leaves, and lets the item leave only when nothing is
missing. -/
structure Eager (ok : σ → ι → Prop) : Prop where
  done_init : ∀ s c, M.init s → F.done s c = false
  issues_eq : ∀ s c, F.issues s c = (F.held s && F.owes s c && !F.done s c)
  issues_of_accepts : ∀ s i c, F.accepts s i c = true → F.issues s c = true
  stays : ∀ s i, M.Reachable ok s → F.stalls s i = true →
    F.held s = true ∧ F.held (M.step s i) = true ∧
      ∀ c, F.owes (M.step s i) c = F.owes s c ∧
        (F.owes s c = true → F.done (M.step s i) c = (F.done s c || F.accepts s i c))
  leaves : ∀ s i, F.stalls s i = false →
    ∀ c, F.done (M.step s i) c = false ∧
      (F.held s = true → F.owes s c = true → F.done s c = true ∨ F.accepts s i c = true)

/-- Each consumer takes what the item owes it exactly once before the item leaves, and nothing
else is offered. -/
structure ExactlyOnce (y : σ × (C → Nat)) (i : ι) : Prop where
  issues_owed : ∀ c, F.issues y.1 c = true →
    F.held y.1 = true ∧ F.owes y.1 c = true ∧ y.2 c = 0
  accepts_issued : ∀ c, F.accepts y.1 i c = true → F.issues y.1 c = true
  atMostOnce : ∀ c, F.held y.1 = true →
    y.2 c + (F.accepts y.1 i c).toNat ≤ (F.owes y.1 c).toNat
  once : F.held y.1 = true → F.stalls y.1 i = false →
    ∀ c, y.2 c + (F.accepts y.1 i c).toNat = (F.owes y.1 c).toNat
  stays : F.stalls y.1 i = true →
    F.held (M.step y.1 i) = true ∧ ∀ c, F.owes (M.step y.1 i) c = F.owes y.1 c

/-- What was taken of the held item is what is owed and done. -/
def Accounted (y : σ × (C → Nat)) : Prop :=
  ∀ c, y.2 c = (F.held y.1 && F.owes y.1 c && F.done y.1 c).toNat

variable {F M} {ok : σ → ι → Prop} {y : σ × (C → Nat)} {i : ι}

/-- A consumer takes only what is owed and not done. -/
theorem Eager.accepted (h : F.Eager M ok) {s : σ} {c : C} (ha : F.accepts s i c = true) :
    F.held s = true ∧ F.owes s c = true ∧ F.done s c = false := by
  have hiss := h.issues_of_accepts s i c ha
  rw [h.issues_eq] at hiss
  simpa [and_assoc] using hiss

theorem Eager.accounted_step (h : F.Eager M ok) (hr : M.Reachable ok y.1) (ha : F.Accounted y) :
    F.Accounted ((F.counted M).step y i) := by
  intro c
  show (if F.stalls y.1 i then y.2 c + (F.accepts y.1 i c).toNat else 0) =
    (F.held (M.step y.1 i) && F.owes (M.step y.1 i) c && F.done (M.step y.1 i) c).toNat
  cases hst : F.stalls y.1 i with
  | false => simp [(h.leaves y.1 i hst c).1]
  | true =>
    obtain ⟨hheld, hheld', hc⟩ := h.stays y.1 i hr hst
    obtain ⟨howes, hdone⟩ := hc c
    rw [if_pos rfl, hheld', howes, ha c, hheld]
    cases ho : F.owes y.1 c with
    | false =>
      have hacc : F.accepts y.1 i c = false := by
        by_contra hacc
        have howed := (h.accepted (by simpa using hacc)).2.1
        rw [ho] at howed
        exact absurd howed Bool.false_ne_true
      simp [hacc]
    | true =>
      rw [hdone ho]
      cases hd : F.done y.1 c with
      | false => simp
      | true =>
        have hacc : F.accepts y.1 i c = false := by
          by_contra hacc
          have hnew := (h.accepted (by simpa using hacc)).2.2
          rw [hd] at hnew
          exact absurd hnew.symm Bool.false_ne_true
        simp [hacc]

theorem Eager.accounted (h : F.Eager M ok)
    (hy : (F.counted M).Reachable (fun y i => ok y.1 i) y) : F.Accounted y := by
  induction hy with
  | init hinit =>
    intro c
    rw [hinit.2, h.done_init _ c hinit.1, Bool.and_false]
    rfl
  | step hy hok ih => exact h.accounted_step (Machine.Reachable.fst hy) ih

/-- A stage that keeps the rules hands everything over exactly once. -/
theorem Eager.exactlyOnce (h : F.Eager M ok)
    (hy : (F.counted M).Reachable (fun y i => ok y.1 i) y) (i : ι) : F.ExactlyOnce M y i := by
  have hacc := h.accounted hy
  refine ⟨?_, fun c => h.issues_of_accepts y.1 i c, ?_, ?_, ?_⟩
  · intro c hiss
    rw [h.issues_eq] at hiss
    simp only [Bool.and_eq_true, Bool.not_eq_true'] at hiss
    obtain ⟨⟨hheld, howes⟩, hdone⟩ := hiss
    refine ⟨hheld, howes, ?_⟩
    rw [hacc c, hdone, Bool.and_false]
    rfl
  · intro c hheld
    rw [hacc c, hheld, Bool.true_and]
    cases ha : F.accepts y.1 i c with
    | true =>
      obtain ⟨-, howes, hdone⟩ := h.accepted ha
      simp [howes, hdone]
    | false => cases F.owes y.1 c <;> cases F.done y.1 c <;> simp
  · intro hheld hst c
    rw [hacc c, hheld, Bool.true_and]
    cases ha : F.accepts y.1 i c with
    | true =>
      obtain ⟨-, howes, hdone⟩ := h.accepted ha
      simp [howes, hdone]
    | false =>
      cases howes : F.owes y.1 c with
      | false => simp
      | true =>
        rcases (h.leaves y.1 i hst c).2 hheld howes with hdone | ha'
        · simp [hdone]
        · rw [ha] at ha'
          exact absurd ha' Bool.false_ne_true
  · intro hst
    obtain ⟨-, hheld, hc⟩ := h.stays y.1 i (Machine.Reachable.fst hy) hst
    exact ⟨hheld, fun c => (hc c).1⟩

end Fork

end Hw
