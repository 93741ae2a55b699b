import Mathlib.Data.List.Induction
import Mathlib.Data.List.ModifyLast

/-! Streams cut into packets: a header and as many further elements as the header says. The last
packet of a stream may still lack some. -/

namespace Hw

section Cutting

variable {α β : Type}

/-- One more element of a stream whose last packet lacks `n`. -/
def grow (n : Nat) (ps : List (List α)) (x : α) : List (List α) :=
  if n = 0 then ps ++ [[x]] else ps.modifyLast (· ++ [x])

variable (len : α → Nat)

/-- The packets of a stream, and what the last one lacks. -/
def cut (xs : List α) : List (List α) × Nat :=
  xs.foldl (fun st x => (grow st.2 st.1 x, if st.2 = 0 then len x else st.2 - 1)) ([], 0)

/-- The packets of a stream. -/
def packets (xs : List α) : List (List α) := (cut len xs).1

/-- How many elements the last packet of a stream lacks. -/
def due (xs : List α) : Nat := (cut len xs).2

@[simp] theorem packets_nil : packets len [] = [] := rfl

@[simp] theorem due_nil : due len [] = 0 := rfl

theorem packets_snoc (xs : List α) (x : α) :
    packets len (xs ++ [x]) = grow (due len xs) (packets len xs) x := by
  simp [packets, due, cut]

theorem due_snoc (xs : List α) (x : α) :
    due len (xs ++ [x]) = if due len xs = 0 then len x else due len xs - 1 := by
  rw [due, cut, List.foldl_append]
  rfl

/-- The header of the packet that the next element belongs to. -/
def current (xs : List α) (next : Option α) : Option α :=
  if due len xs = 0 then next else (packets len xs).getLast?.bind List.head?

/-- A packet is a header and at most as many elements as it says. -/
def IsPacket (pk : List α) (lack : Nat) : Prop :=
  ∃ h t, pk = h :: t ∧ t.length + lack = len h

theorem grow_snoc {n : Nat} (hn : n ≠ 0) (ps : List (List α)) (pk : List α) (x : α) :
    grow n (ps ++ [pk]) x = ps ++ [pk ++ [x]] := by
  simp [grow, hn, List.modifyLast_concat]

/-- All packets but the last are whole; the last lacks what is due. -/
theorem packets_spec (xs : List α) :
    (packets len xs = [] ∧ due len xs = 0) ∨
      ∃ ps pk, packets len xs = ps ++ [pk] ∧ (∀ p ∈ ps, IsPacket len p 0) ∧
        IsPacket len pk (due len xs) := by
  induction xs using List.reverseRecOn with
  | nil => exact .inl ⟨rfl, rfl⟩
  | append_singleton xs x ih =>
    refine .inr ?_
    rw [packets_snoc, due_snoc]
    by_cases hd : due len xs = 0
    · refine ⟨packets len xs, [x], by simp [grow, hd], ?_, x, [], rfl, by simp [hd]⟩
      obtain ⟨h, -⟩ | ⟨ps, pk, h, hps, hpk⟩ := ih
      · simp [h]
      · intro p hp
        rw [h] at hp
        obtain hp | hp := List.mem_append.1 hp
        · exact hps p hp
        · rw [List.mem_singleton.1 hp, ← hd]
          exact hpk
    · obtain ⟨-, h0⟩ | ⟨ps, pk, h, hps, hd', t, rfl, ht⟩ := ih
      · exact absurd h0 hd
      · refine ⟨ps, hd' :: t ++ [x], by rw [h, grow_snoc hd], hps, hd', t ++ [x], rfl, ?_⟩
        simp only [hd, if_false, List.length_append, List.length_singleton]
        omega

theorem exists_last {xs : List α} (hd : due len xs ≠ 0) :
    ∃ ps h t, packets len xs = ps ++ [h :: t] ∧ ∀ p ∈ ps, p ≠ [] := by
  obtain ⟨-, h0⟩ | ⟨ps, pk, h, hps, hd', t, rfl, -⟩ := packets_spec len xs
  · exact absurd h0 hd
  · refine ⟨ps, hd', t, h, fun p hp => ?_⟩
    obtain ⟨a, b, rfl, -⟩ := hps p hp
    exact List.cons_ne_nil a b

theorem packets_ne_nil {xs pk : List α} (h : pk ∈ packets len xs) : pk ≠ [] := by
  obtain ⟨h0, -⟩ | ⟨ps, pk', h', hps, a, b, rfl, -⟩ := packets_spec len xs
  · simp [h0] at h
  · rw [h'] at h
    obtain h | h := List.mem_append.1 h
    · obtain ⟨c, d, rfl, -⟩ := hps pk h
      exact List.cons_ne_nil c d
    · rw [List.mem_singleton.1 h]
      exact List.cons_ne_nil a b

/-- Nothing of a stream is outside its packets. -/
theorem flatten_packets (xs : List α) : (packets len xs).flatten = xs := by
  induction xs using List.reverseRecOn with
  | nil => rfl
  | append_singleton xs x ih =>
    rw [packets_snoc]
    by_cases hd : due len xs = 0
    · simp [grow, hd, ih]
    · obtain ⟨ps, h, t, hp, -⟩ := exists_last len hd
      rw [hp, grow_snoc hd]
      rw [hp] at ih
      simpa using congrArg (· ++ [x]) ih

theorem current_of_due {xs : List α} (hd : due len xs ≠ 0) (a b : Option α) :
    current len xs a = current len xs b := by
  simp [current, hd]

@[simp] theorem current_of_due_eq {xs : List α} (hd : due len xs = 0) (a : Option α) :
    current len xs a = a := by
  simp [current, hd]

/-- Inside a packet the next element belongs to the same packet. -/
theorem current_snoc {xs : List α} {x : α} (hd : due len (xs ++ [x]) ≠ 0) (a : Option α) :
    current len (xs ++ [x]) a = current len xs (some x) := by
  rw [current, if_neg hd, packets_snoc]
  by_cases h0 : due len xs = 0
  · simp [grow, h0]
  · obtain ⟨ps, h, t, hp, -⟩ := exists_last len h0
    rw [hp, grow_snoc h0, current, if_neg h0, hp]
    simp

/-! ### The packet in hand -/

/-- The last packet, which may lack some elements. -/
def inHand (xs : List α) : List α := ((packets len xs).getLast?).getD []

variable {len} {xs : List α} {x : α}

@[simp] theorem inHand_nil : inHand len [] = [] := rfl

theorem inHand_snoc_of_due_eq (hd : due len xs = 0) : inHand len (xs ++ [x]) = [x] := by
  simp [inHand, packets_snoc, grow, hd]

theorem exists_inHand (hd : due len xs ≠ 0) :
    ∃ ps, packets len xs = ps ++ [inHand len xs] := by
  obtain ⟨ps, h, t, hp, -⟩ := exists_last len hd
  exact ⟨ps, by rw [inHand, hp]; simp⟩

theorem exists_cons_inHand (hd : due len xs ≠ 0) : ∃ h t, inHand len xs = h :: t := by
  obtain ⟨ps, h, t, hp, -⟩ := exists_last len hd
  exact ⟨h, t, by simp [inHand, hp]⟩

theorem inHand_snoc (hd : due len xs ≠ 0) :
    inHand len (xs ++ [x]) = inHand len xs ++ [x] := by
  obtain ⟨ps, hp⟩ := exists_inHand hd
  rw [inHand, packets_snoc, hp, grow_snoc hd, List.getLast?_concat, Option.getD_some]

/-- What the packets of a stream give together, after one more element. -/
theorem flatMap_packets_snoc {F : List α → List β} {ys : List β}
    (hfirst : due len xs = 0 → F [x] = ys)
    (hnext : due len xs ≠ 0 → F (inHand len xs ++ [x]) = F (inHand len xs) ++ ys) :
    (packets len (xs ++ [x])).flatMap F = (packets len xs).flatMap F ++ ys := by
  rw [packets_snoc]
  by_cases hd : due len xs = 0
  · rw [grow, if_pos hd, List.flatMap_append, List.flatMap_singleton, hfirst hd]
  · obtain ⟨ps, hp⟩ := exists_inHand hd
    rw [hp, grow_snoc hd, List.flatMap_append, List.flatMap_append, List.flatMap_singleton,
      List.flatMap_singleton, hnext hd, List.append_assoc]

/-- A stream begins anew after whole packets. -/
theorem cut_append {ys : List α} (hd : due len xs = 0) :
    packets len (xs ++ ys) = packets len xs ++ packets len ys ∧
      due len (xs ++ ys) = due len ys := by
  induction ys using List.reverseRecOn with
  | nil => exact ⟨by simp, by simpa using hd⟩
  | append_singleton ys y ih =>
    rw [← List.append_assoc, packets_snoc, due_snoc, packets_snoc, due_snoc, ih.1, ih.2]
    refine ⟨?_, rfl⟩
    by_cases hy : due len ys = 0
    · rw [grow, if_pos hy, grow, if_pos hy, List.append_assoc]
    · obtain ⟨ps, hp⟩ := exists_inHand hy
      rw [hp, ← List.append_assoc, grow_snoc hy, grow_snoc hy, List.append_assoc]

/-- A packet is cut into itself. -/
theorem cut_isPacket {pk : List α} {n : Nat} (h : IsPacket len pk n) :
    packets len pk = [pk] ∧ due len pk = n := by
  obtain ⟨hd, t, rfl, ht⟩ := h
  induction t using List.reverseRecOn generalizing n with
  | nil =>
    rw [List.length_nil, Nat.zero_add] at ht
    exact ⟨rfl, ht.symm⟩
  | append_singleton t x ih =>
    rw [List.length_append, List.length_singleton] at ht
    obtain ⟨hp, hdue⟩ := ih (n := n + 1) (by omega)
    rw [← List.cons_append, packets_snoc, due_snoc, hp, hdue, if_neg (Nat.succ_ne_zero n)]
    exact ⟨grow_snoc (Nat.succ_ne_zero n) [] (hd :: t) x, rfl⟩

/-- Whole packets are cut into themselves. -/
theorem packets_flatten {ps : List (List α)} (hps : ∀ pk ∈ ps, IsPacket len pk 0) (ys : List α) :
    packets len (ps.flatten ++ ys) = ps ++ packets len ys := by
  induction ps with
  | nil => rfl
  | cons pk ps ih =>
    obtain ⟨hp, hdue⟩ := cut_isPacket (hps pk List.mem_cons_self)
    rw [List.flatten_cons, List.append_assoc, (cut_append hdue).1, hp,
      ih fun q hq => hps q (List.mem_cons_of_mem pk hq)]
    rfl

variable (len) in

/-- The packets that `f` can read, once they are whole. -/
def completed (f : List α → Option β) (xs : List α) : List β := (packets len xs).filterMap f

@[simp] theorem completed_nil (f : List α → Option β) : completed len f [] = [] := rfl

/-- A packet that cannot be read yet is extended. -/
theorem completed_snoc {f : List α → Option β} (h1 : ∀ y, f [y] = none)
    (hf : due len xs ≠ 0 → f (inHand len xs) = none) :
    completed len f (xs ++ [x]) =
      completed len f xs ++ (f (inHand len (xs ++ [x]))).toList := by
  by_cases hd : due len xs = 0
  · rw [inHand_snoc_of_due_eq hd, h1, completed, completed, packets_snoc]
    simp [grow, hd, h1]
  · obtain ⟨ps, hp⟩ := exists_inHand hd
    rw [inHand_snoc hd, completed, completed, packets_snoc, hp, grow_snoc hd,
      List.filterMap_append, List.filterMap_append]
    have hnone : [inHand len xs].filterMap f = [] := by simp [hf hd]
    rw [hnone, List.append_nil]
    cases hx : f (inHand len xs ++ [x]) <;> simp [hx]

variable (len)

/-- A packet whose header meets `p`. -/
def headed (p : α → Bool) (pk : List α) : Bool := pk.head?.any p

/-- The packets whose headers meet `p`, after one more element. -/
theorem filter_packets_snoc (p : α → Bool) (xs : List α) (x : α) :
    (packets len (xs ++ [x])).filter (headed p) =
      if (current len xs (some x)).any p then
        grow (due len xs) ((packets len xs).filter (headed p)) x
      else (packets len xs).filter (headed p) := by
  rw [packets_snoc]
  by_cases hd : due len xs = 0
  · cases hp : p x <;> simp [grow, hd, headed, hp]
  · obtain ⟨ps, h, t, hps, -⟩ := exists_last len hd
    rw [hps, grow_snoc hd, current, if_neg hd, hps]
    cases hp : p h <;> simp [grow, hd, headed, hp, List.modifyLast_concat]

theorem map_grow (f : α → β) (n : Nat) {ps : List (List α)} (x : α) :
    (grow n ps x).map (List.map f) = grow n (ps.map (List.map f)) (f x) := by
  by_cases hn : n = 0
  · simp [grow, hn]
  · cases ps using List.reverseRecOn with
    | nil => simp [grow, hn, List.modifyLast, List.modifyLast.go]
    | append_singleton ps pk => simp [grow, hn, List.modifyLast_concat]

end Cutting

/-! ### Streams merged from several sources -/

section Merging

variable {ι α : Type} [DecidableEq ι] (len : α → Nat)

/-- The length that a tagged element says. -/
def tagLen (f : ι × α) : Nat := len f.2

/-- The elements of a merged stream that source `i` sent. -/
def fromSource (i : ι) (ys : List (ι × α)) : List α := (ys.filter (·.1 = i)).map Prod.snd

theorem fromSource_snoc_self {i : ι} {ys : List (ι × α)} {x : α} :
    fromSource i (ys ++ [(i, x)]) = fromSource i ys ++ [x] := by
  simp [fromSource]

theorem fromSource_snoc_of_ne {i j : ι} (h : j ≠ i) {ys : List (ι × α)} {x : α} :
    fromSource i (ys ++ [(j, x)]) = fromSource i ys := by
  simp [fromSource, h]

/-- The packets of a merged stream that source `i` sent. -/
def packetsFrom (i : ι) (ys : List (ι × α)) : List (List α) :=
  ((packets (tagLen len) ys).filter (headed (·.1 = i))).map (List.map Prod.snd)

/-- The packets that `req` selects of stream `xs` are those that source `i` sent to `ys`. -/
def Carries (req : α → Bool) (i : ι) (xs : List α) (ys : List (ι × α)) : Prop :=
  packetsFrom len i ys = (packets len xs).filter (headed req)

/-- Each packet of a merged stream is from one source. -/
def Unmixed (ys : List (ι × α)) : Prop :=
  ∀ pk ∈ packets (tagLen len) ys, ∃ i, ∀ f ∈ pk, f.1 = i

variable {len} {req : α → Bool} {i j : ι} {xs : List α} {ys : List (ι × α)} {x : α}

theorem Carries.nil : Carries len req i [] ([] : List (ι × α)) := rfl

/-- An element of another source. -/
theorem Carries.foreign (h : Carries len req i xs ys) (hij : j ≠ i)
    (hc : (current (tagLen len) ys (some (j, x))).all (·.1 = j)) :
    Carries len req i xs (ys ++ [(j, x)]) := by
  unfold Carries packetsFrom at *
  rw [filter_packets_snoc, if_neg, h]
  cases hk : current (tagLen len) ys (some (j, x)) with
  | none => simp
  | some f =>
    rw [hk] at hc
    have hf : f.1 = j := by simpa using hc
    simp [hf, hij]

/-- An element that goes elsewhere. -/
theorem Carries.elsewhere (h : Carries len req i xs ys)
    (hc : (current len xs (some x)).all fun f => !req f) : Carries len req i (xs ++ [x]) ys := by
  unfold Carries at *
  rw [filter_packets_snoc, if_neg, h]
  cases hk : current len xs (some x) with
  | none => simp
  | some f =>
    rw [hk] at hc
    simpa using hc

/-- An element that moves from the source to the merged stream. -/
theorem Carries.moved (h : Carries len req i xs ys) (hd : due (tagLen len) ys = due len xs)
    (hc : (current (tagLen len) ys (some (i, x))).any (·.1 = i))
    (hr : (current len xs (some x)).any req) : Carries len req i (xs ++ [x]) (ys ++ [(i, x)]) := by
  unfold Carries packetsFrom at *
  rw [filter_packets_snoc, if_pos hc, filter_packets_snoc, if_pos hr, map_grow, h, hd]

omit [DecidableEq ι] in
theorem Unmixed.nil : Unmixed len ([] : List (ι × α)) := by
  simp [Unmixed]

theorem Unmixed.snoc (h : Unmixed len ys)
    (hc : (current (tagLen len) ys (some (i, x))).any (·.1 = i)) :
    Unmixed len (ys ++ [(i, x)]) := by
  intro pk hpk
  rw [packets_snoc] at hpk
  by_cases hd : due (tagLen len) ys = 0
  · rw [grow, if_pos hd] at hpk
    obtain hpk | hpk := List.mem_append.1 hpk
    · exact h pk hpk
    · refine ⟨i, fun f hf => ?_⟩
      rw [List.mem_singleton.1 hpk] at hf
      rw [List.mem_singleton.1 hf]
  · obtain ⟨ps, a, t, hp, -⟩ := exists_last (tagLen len) hd
    rw [hp, grow_snoc hd] at hpk
    obtain hpk | hpk := List.mem_append.1 hpk
    · exact h pk (hp ▸ List.mem_append_left _ hpk)
    · obtain ⟨k, hk⟩ := h (a :: t) (hp ▸ List.mem_append_right _ List.mem_cons_self)
      have ha : a.1 = i := by simpa [current, hd, hp] using hc
      refine ⟨i, fun f hf => ?_⟩
      rw [List.mem_singleton.1 hpk] at hf
      obtain hf | hf := List.mem_append.1 hf
      · rw [hk f hf, ← hk a List.mem_cons_self, ha]
      · rw [List.mem_singleton.1 hf]

end Merging

end Hw
