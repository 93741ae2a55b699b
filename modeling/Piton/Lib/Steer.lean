import Piton.Lib.Packets

/-! Streams of packets whose destination is named by the second element. -/

namespace Hw

section Steering

variable {α β δ : Type} (len : α → Nat) (dest : α → δ) (val : α → β)

/-- The elements of a packet with their destination; it is not known while there is only a header. -/
def steer : List α → List (δ × β)
  | h :: a :: t => (h :: a :: t).map fun x => (dest a, val x)
  | _ => []

/-- The elements of a stream whose destination is known. -/
def steered (xs : List α) : List (δ × β) := (packets len xs).flatMap (steer dest val)

variable {len dest val} {xs : List α} {x h a : α} {t : List α}

@[simp] theorem steered_nil : steered len dest val [] = [] := rfl

/-- A header is not steered before the next element. -/
theorem steered_snoc_header (hd : due len xs = 0) :
    steered len dest val (xs ++ [x]) = steered len dest val xs := by
  simp [steered, packets_snoc, grow, hd, steer]

/-- The second element steers the header and itself. -/
theorem steered_snoc_second (hd : due len xs ≠ 0) (hh : inHand len xs = [h]) :
    steered len dest val (xs ++ [x]) =
      steered len dest val xs ++ [(dest x, val h), (dest x, val x)] := by
  obtain ⟨ps, hp⟩ := exists_inHand hd
  rw [hh] at hp
  rw [steered, packets_snoc, hp, grow_snoc hd, steered, hp]
  simp [steer]

/-- Later elements go where the second one went. -/
theorem steered_snoc_later (hd : due len xs ≠ 0) (hh : inHand len xs = h :: a :: t) :
    steered len dest val (xs ++ [x]) = steered len dest val xs ++ [(dest a, val x)] := by
  obtain ⟨ps, hp⟩ := exists_inHand hd
  rw [hh] at hp
  rw [steered, packets_snoc, hp, grow_snoc hd, steered, hp]
  simp [steer]

/-! ### Destinations that are not known yet -/

section Announced

variable (len dest val)

/-- An element that goes to a known destination. -/
def bound (f : δ × β) : Option δ × β := (some f.1, f.2)

/-- A header alone in its packet. -/
def lone (xs : List α) : List (Option δ × β) :=
  match inHand len xs with
  | [h] => [(none, val h)]
  | _ => []

/-- The elements of a stream with their destinations; that of the last header may be unknown. -/
def announced (xs : List α) : List (Option δ × β) :=
  (steered len dest val xs).map bound ++ lone len val xs

variable {len dest val}

theorem bound_injective : Function.Injective (bound : δ × β → Option δ × β) := by
  rintro ⟨d, x⟩ ⟨d', x'⟩ h
  simpa [bound] using h

theorem announced_of_lone (hh : inHand len xs = [h]) :
    announced len dest val xs = (steered len dest val xs).map bound ++ [(none, val h)] := by
  rw [announced, lone, hh]

theorem announced_of_not_lone (hh : ∀ h, inHand len xs ≠ [h]) :
    announced len dest val xs = (steered len dest val xs).map bound := by
  rw [announced, lone]
  split
  · next h heq => exact absurd heq (hh h)
  · exact List.append_nil _

theorem announced_snoc_header (hd : due len xs = 0) (hh : ∀ h, inHand len xs ≠ [h]) :
    announced len dest val (xs ++ [x]) = announced len dest val xs ++ [(none, val x)] := by
  rw [announced_of_lone (inHand_snoc_of_due_eq hd), announced_of_not_lone hh,
    steered_snoc_header hd]

theorem announced_snoc_second (hd : due len xs ≠ 0) (hh : inHand len xs = [h]) :
    announced len dest val (xs ++ [x]) =
      (steered len dest val xs).map bound ++ [(some (dest x), val h), (some (dest x), val x)] := by
  rw [announced_of_not_lone, steered_snoc_second hd hh, List.map_append]
  · rfl
  · intro k hk
    rw [inHand_snoc hd, hh] at hk
    simp at hk

theorem announced_snoc_later (hd : due len xs ≠ 0) (hh : inHand len xs = h :: a :: t) :
    announced len dest val (xs ++ [x]) =
      announced len dest val xs ++ [(some (dest a), val x)] := by
  rw [announced_of_not_lone, announced_of_not_lone, steered_snoc_later hd hh, List.map_append]
  · rfl
  · intro k hk
    rw [hh] at hk
    simp at hk
  · intro k hk
    rw [inHand_snoc hd, hh] at hk
    simp at hk

/-- What has gone to known destinations is steered, and the rest is still held. -/
theorem steered_of_announced {out : List (δ × β)} {w : List (Option δ × β)}
    (h : announced len dest val xs = out.map bound ++ w) :
    ∃ u, steered len dest val xs = out ++ u ∧ u.length ≤ w.length := by
  have hpre : out.map bound <+: (steered len dest val xs).map bound := by
    by_cases hh : ∃ k, inHand len xs = [k]
    · obtain ⟨k, hk⟩ := hh
      rw [announced_of_lone hk] at h
      obtain rfl | ⟨w', z, rfl⟩ := List.eq_nil_or_concat w
      · -- the lone header is not among what has gone
        rw [List.append_nil] at h
        have hmem : (none, val k) ∈ out.map bound := h ▸ List.mem_append_right _ List.mem_cons_self
        obtain ⟨f, -, hf⟩ := List.mem_map.1 hmem
        simp [bound] at hf
      · rw [List.concat_eq_append, ← List.append_assoc] at h
        exact ⟨w', (List.append_inj_left' h rfl).symm⟩
    · rw [announced_of_not_lone fun k hk => hh ⟨k, hk⟩] at h
      exact ⟨w, h.symm⟩
  obtain ⟨u, hu⟩ := (List.prefix_map_iff_of_injective bound_injective).1 hpre
  refine ⟨u, hu.symm, ?_⟩
  have hlen := congrArg List.length h
  rw [announced, ← hu] at hlen
  simp only [List.length_append, List.length_map] at hlen
  omega

/-- The first element that is held is to go to a known destination while a steered one has not
gone. -/
theorem exists_dest_of_lt {out : List (δ × β)} {w : List (Option δ × β)} {e : Option δ} {x : β}
    (h : announced len dest val xs = out.map bound ++ (e, x) :: w)
    (hlt : out.length < (steered len dest val xs).length) : ∃ d, e = some d := by
  have hget := congrArg (·[out.length]?) h
  simp only [announced] at hget
  rw [List.getElem?_append_left (by simpa using hlt),
    List.getElem?_append_right (by simp), List.length_map, Nat.sub_self, List.getElem?_map,
    List.getElem?_eq_getElem hlt] at hget
  simp only [Option.map_some, List.getElem?_cons_zero, Option.some_inj, bound, Prod.mk.injEq] at hget
  exact ⟨_, hget.1.symm⟩

/-- Nothing that is steered is taken back. -/
theorem steered_prefix_snoc : steered len dest val xs <+: steered len dest val (xs ++ [x]) := by
  by_cases hd : due len xs = 0
  · exact ⟨[], by rw [List.append_nil, steered_snoc_header hd]⟩
  · obtain ⟨ps, h, t, hp, -⟩ := exists_last len hd
    have hh : inHand len xs = h :: t := by simp [inHand, hp]
    cases t with
    | nil =>
      rw [steered_snoc_second hd hh]
      exact List.prefix_append _ _
    | cons a t =>
      rw [steered_snoc_later hd hh]
      exact List.prefix_append _ _

end Announced

end Steering

section Prefixes

variable {ι α : Type} {len : α → Nat} {ys zs : List (ι × α)}

theorem Unmixed.of_snoc {y : ι × α} (h : Unmixed len (ys ++ [y])) : Unmixed len ys := by
  intro pk hpk
  by_cases hd : due (tagLen len) ys = 0
  · exact h pk (by rw [packets_snoc, grow, if_pos hd]; exact List.mem_append_left _ hpk)
  · obtain ⟨ps, a, t, hp, -⟩ := exists_last (tagLen len) hd
    have hnew : packets (tagLen len) (ys ++ [y]) = ps ++ [a :: t ++ [y]] := by
      rw [packets_snoc, hp, grow_snoc hd]
    rw [hp] at hpk
    obtain hpk | hpk := List.mem_append.1 hpk
    · exact h pk (hnew ▸ List.mem_append_left _ hpk)
    · obtain ⟨i, hi⟩ := h (a :: t ++ [y]) (hnew ▸ List.mem_append_right _ List.mem_cons_self)
      rw [List.mem_singleton.1 hpk]
      exact ⟨i, fun f hf => hi f (List.mem_append_left _ hf)⟩

/-- A stream that has not all come yet is unmixed as well. -/
theorem Unmixed.of_append (h : Unmixed len (ys ++ zs)) : Unmixed len ys := by
  induction zs using List.reverseRecOn with
  | nil => simpa using h
  | append_singleton zs z ih =>
    rw [← List.append_assoc] at h
    exact ih h.of_snoc

end Prefixes

end Hw
