import Mathlib.Logic.Basic

/-! Write-back caches over arbitrary entries, addresses and blocks, and the flat memory that they stand
for: what an entry holds is in the memory, and what no entry holds, or a clean one, is on the disk. -/

namespace Hw

variable {E A B : Type}

/-- A cache in front of a disk: which block each entry holds, whether it is dirty, and the contents
of the entries and of the disk. -/
structure WriteBack (E A B : Type) where
  holds : E → A → Prop
  dirty : E → Prop
  buf : E → B
  disk : A → B

namespace WriteBack

variable {on : A → Prop} {c c' : WriteBack E A B} {mem mem' : A → B} {e : E} {a : A}

/-- The cache and the disk, which has the addresses `on`, stand for the memory. -/
structure Coherent (on : A → Prop) (c : WriteBack E A B) (mem : A → B) : Prop where
  cached : ∀ e a, c.holds e a → c.buf e = mem a
  clean : ∀ e a, c.holds e a → ¬ c.dirty e → c.disk a = mem a
  absent : ∀ a, on a → (∀ e, ¬ c.holds e a) → c.disk a = mem a

/-- What differs from the disk is dirty. -/
theorem Coherent.dirty_of_ne (h : Coherent on c mem) (he : c.holds e a) (hne : c.buf e ≠ c.disk a) :
    c.dirty e :=
  Classical.byContradiction fun hd =>
    hne ((h.cached e a he).trans (h.clean e a he hd).symm)

/-- Every other entry is as it was. -/
structure Others (c c' : WriteBack E A B) (e : E) : Prop where
  holds : ∀ e', e' ≠ e → ∀ a, c'.holds e' a ↔ c.holds e' a
  dirty : ∀ e', e' ≠ e → (c'.dirty e' ↔ c.dirty e')
  buf : ∀ e', e' ≠ e → c'.buf e' = c.buf e'

/-- Nothing changes that matters. -/
theorem Coherent.congr (h : Coherent on c mem) (hholds : ∀ e a, c'.holds e a ↔ c.holds e a)
    (hdirty : ∀ e, c'.dirty e ↔ c.dirty e) (hbuf : ∀ e, c'.buf e = c.buf e)
    (hdisk : ∀ a, on a → c'.disk a = c.disk a) (hon : ∀ e a, c.holds e a → on a) :
    Coherent on c' mem where
  cached e a he := by
    rw [hbuf]
    exact h.cached e a ((hholds e a).1 he)
  clean e a he hd := by
    have hheld := (hholds e a).1 he
    rw [hdisk a (hon e a hheld)]
    exact h.clean e a hheld fun hd' => hd ((hdirty e).2 hd')
  absent a ha hnone := by
    rw [hdisk a ha]
    exact h.absent a ha fun e he => hnone e ((hholds e a).2 he)

/-- An entry is given up once the disk has what it held. -/
theorem Coherent.evict (h : Coherent on c mem) (ho : Others c c' e) (hon : ∀ e a, c.holds e a → on a)
    (hnone : ∀ a, ¬ c'.holds e a) (hback : ∀ a, c.holds e a → c'.disk a = mem a)
    (hdisk : ∀ a, on a → ¬ c.holds e a → c'.disk a = c.disk a)
    (hsole : ∀ e' a, c.holds e a → c.holds e' a → e' = e) : Coherent on c' mem where
  cached e' a he' := by
    have hne : e' ≠ e := fun hee => hnone a (hee ▸ he')
    rw [ho.buf e' hne]
    exact h.cached e' a ((ho.holds e' hne a).1 he')
  clean e' a he' hd := by
    have hne : e' ≠ e := fun hee => hnone a (hee ▸ he')
    have hheld := (ho.holds e' hne a).1 he'
    rw [hdisk a (hon e' a hheld) fun hea => hne (hsole e' a hea hheld)]
    exact h.clean e' a hheld fun hd' => hd ((ho.dirty e' hne).2 hd')
  absent a ha hfree := by
    by_cases hea : c.holds e a
    · exact hback a hea
    · rw [hdisk a ha hea]
      refine h.absent a ha fun e' he' => ?_
      have hne : e' ≠ e := fun hee => hea (hee ▸ he')
      exact hfree e' ((ho.holds e' hne a).2 he')

/-- An entry gets, keeps or changes the block at `a`; what it held before is on the disk. -/
theorem Coherent.assign (h : Coherent on c mem) (ho : Others c c' e)
    (hold : ∀ a', c'.holds e a' ↔ a' = a) (hfree : ∀ e', e' ≠ e → ¬ c.holds e' a)
    (hbuf : c'.buf e = mem' a) (hmem : ∀ a', a' ≠ a → mem' a' = mem a')
    (hdisk : ∀ a', on a' → c'.disk a' = c.disk a') (hon : ∀ e a, c.holds e a → on a)
    (hclean : ¬ c'.dirty e → c'.disk a = mem' a)
    (hback : ∀ a', a' ≠ a → c.holds e a' → c.disk a' = mem a') : Coherent on c' mem' where
  cached e' a' he' := by
    by_cases hne : e' = e
    · subst hne
      rw [(hold a').1 he', hbuf]
    · have hheld := (ho.holds e' hne a').1 he'
      have haa : a' ≠ a := fun haa => hfree e' hne (haa ▸ hheld)
      rw [ho.buf e' hne, hmem a' haa]
      exact h.cached e' a' hheld
  clean e' a' he' hd := by
    by_cases hne : e' = e
    · subst hne
      rw [(hold a').1 he']
      exact hclean hd
    · have hheld := (ho.holds e' hne a').1 he'
      have haa : a' ≠ a := fun haa => hfree e' hne (haa ▸ hheld)
      rw [hmem a' haa, hdisk a' (hon e' a' hheld)]
      exact h.clean e' a' hheld fun hd' => hd ((ho.dirty e' hne).2 hd')
  absent a' ha' hnone := by
    have haa : a' ≠ a := fun haa => hnone e ((hold a').2 haa)
    rw [hmem a' haa, hdisk a' ha']
    by_cases hea : c.holds e a'
    · exact hback a' haa hea
    · refine h.absent a' ha' fun e' he' => ?_
      have hne : e' ≠ e := fun hee => hea (hee ▸ he')
      exact hnone e' ((ho.holds e' hne a').2 he')

/-- The disk may change where a dirty entry holds the block. -/
theorem Coherent.spill (h : Coherent on c mem) (ho : ∀ e', (∀ a, c'.holds e' a ↔ c.holds e' a) ∧
      (c'.dirty e' ↔ c.dirty e') ∧ c'.buf e' = c.buf e')
    (hea : c.holds e a) (hd : c.dirty e) (hsole : ∀ e', c.holds e' a → e' = e)
    (hdisk : ∀ a', on a' → a' ≠ a → c'.disk a' = c.disk a') (hon : ∀ e a, c.holds e a → on a) :
    Coherent on c' mem where
  cached e' a' he' := by
    rw [(ho e').2.2]
    exact h.cached e' a' (((ho e').1 a').1 he')
  clean e' a' he' hd' := by
    have hheld := ((ho e').1 a').1 he'
    have hcl : ¬ c.dirty e' := fun hc => hd' ((ho e').2.1.2 hc)
    have haa : a' ≠ a := fun haa => hcl (hsole e' (haa ▸ hheld) ▸ hd)
    rw [hdisk a' (hon e' a' hheld) haa]
    exact h.clean e' a' hheld hcl
  absent a' ha' hnone := by
    have haa : a' ≠ a := fun haa => hnone e (((ho e).1 a').2 (haa ▸ hea))
    rw [hdisk a' ha' haa]
    exact h.absent a' ha' fun e' he' => hnone e' (((ho e').1 a').2 he')

end WriteBack

end Hw
