import Mathlib.Logic.Function.Basic

/-! Clocked machines: a step function over a state and an input, the states that runs reach when
every step meets a side condition, invariants, and machines extended with a history variable. -/

namespace Hw

variable {σ ι γ : Type}

/-- A machine that takes one step for each input. -/
structure Machine (σ ι : Type) where
  init : σ → Prop
  step : σ → ι → σ

namespace Machine

variable (M : Machine σ ι) {ok ok' : σ → ι → Prop}

/-- The state after a list of inputs. -/
def run (s : σ) (is : List ι) : σ := is.foldl M.step s

/-- The states of an infinite run. -/
def trace (s : σ) (i : Nat → ι) : Nat → σ
  | 0 => s
  | n + 1 => M.step (trace s i n) (i n)

/-- An infinite run. -/
def IsRun (r : Nat → σ) (i : Nat → ι) : Prop := ∀ n, r (n + 1) = M.step (r n) (i n)

/-- Every step of the run from `s` meets `ok`. -/
def RunOk (ok : σ → ι → Prop) : σ → List ι → Prop
  | _, [] => True
  | s, i :: is => ok s i ∧ RunOk ok (M.step s i) is

/-- The states reached by runs whose steps all meet `ok`. -/
inductive Reachable (ok : σ → ι → Prop) : σ → Prop
  | init {s : σ} : M.init s → Reachable ok s
  | step {s : σ} {i : ι} : Reachable ok s → ok s i → Reachable ok (M.step s i)

instance decidableRunOk [∀ s i, Decidable (ok s i)] :
    (s : σ) → (is : List ι) → Decidable (M.RunOk ok s is)
  | _, [] => .isTrue trivial
  | s, i :: is => @instDecidableAnd _ _ _ (decidableRunOk (M.step s i) is)

variable {M}

theorem Reachable.run {s : σ} (h : M.Reachable ok s) {is : List ι} (his : M.RunOk ok s is) :
    M.Reachable ok (M.run s is) := by
  induction is generalizing s with
  | nil => exact h
  | cons i is ih => exact ih (.step h his.1) his.2

/-- A condition on the inputs alone. -/
theorem runOk_of_mem {p : ι → Prop} {is : List ι} (h : ∀ i ∈ is, p i) (s : σ) :
    M.RunOk (fun _ i => p i) s is := by
  induction is generalizing s with
  | nil => exact trivial
  | cons i is ih =>
    exact ⟨h i List.mem_cons_self, ih (fun j hj => h j (List.mem_cons_of_mem i hj)) (M.step s i)⟩

theorem Reachable.mono {s : σ} (h : M.Reachable ok s) (hok : ∀ s i, ok s i → ok' s i) :
    M.Reachable ok' s := by
  induction h with
  | init h => exact .init h
  | step _ h ih => exact .step ih (hok _ _ h)

theorem isRun_trace (s : σ) (i : Nat → ι) : M.IsRun (M.trace s i) i := fun _ => rfl

theorem IsRun.reachable {r : Nat → σ} {i : Nat → ι} (h : M.IsRun r i)
    (h0 : M.Reachable ok (r 0)) (hok : ∀ n, ok (r n) (i n)) (n : Nat) : M.Reachable ok (r n) := by
  induction n with
  | zero => exact h0
  | succ n ih =>
    rw [h n]
    exact .step ih (hok n)

/-- What holds at first and is kept by every step holds in every reachable state. -/
theorem Reachable.invariant {s : σ} (h : M.Reachable ok s) {P : σ → Prop}
    (hinit : ∀ s, M.init s → P s) (hstep : ∀ s i, P s → ok s i → P (M.step s i)) : P s := by
  induction h with
  | init h => exact hinit _ h
  | step _ hok ih => exact hstep _ _ ih hok

/-- An invariant whose steps may assume what is already known of the reachable states. -/
theorem Reachable.invariant_of {s : σ} (h : M.Reachable ok s) {Q P : σ → Prop}
    (hQ : ∀ s, M.Reachable ok s → Q s) (hinit : ∀ s, M.init s → P s)
    (hstep : ∀ s i, Q s → P s → ok s i → P (M.step s i)) : P s := by
  induction h with
  | init h => exact hinit _ h
  | step h hok ih => exact hstep _ _ (hQ _ h) ih hok

/-- The machine with a variable that records something of its history. -/
def withHistory (M : Machine σ ι) (g₀ : γ) (update : γ → σ → ι → γ) : Machine (σ × γ) ι where
  init y := M.init y.1 ∧ y.2 = g₀
  step y i := (M.step y.1 i, update y.2 y.1 i)

/-- The history variable does not restrict the machine. -/
theorem Reachable.exists_history {s : σ} (h : M.Reachable ok s) (g₀ : γ)
    (update : γ → σ → ι → γ) :
    ∃ g, (M.withHistory g₀ update).Reachable (fun y i => ok y.1 i) (s, g) := by
  induction h with
  | init h => exact ⟨g₀, .init ⟨h, rfl⟩⟩
  | @step s i _ hok ih =>
    obtain ⟨g, hg⟩ := ih
    exact ⟨update g s i, .step hg hok⟩

/-- Forgetting the history variable leaves a reachable state. -/
theorem Reachable.fst {g₀ : γ} {update : γ → σ → ι → γ} {y : σ × γ}
    (h : (M.withHistory g₀ update).Reachable (fun y i => ok y.1 i) y) : M.Reachable ok y.1 := by
  induction h with
  | init h => exact .init h.1
  | step _ hok ih => exact .step ih hok

end Machine

end Hw
