import Piton.Noc.Router

/-! The units of a router: an input unit follows the packets of its stream, an output unit stays with
a route until a packet has left. -/

namespace Piton.Noc

/-! ### Headers and tails -/

namespace InputControl

/-- The registers after a stream of which `due` flits of the last packet are missing, before the
flits `w`. -/
structure Tracks (c : InputControl) (due : Nat) (w : List Flit) : Prop where
  due_lt : due < 256
  countZero : c.countZero = decide (c.count = 0)
  countOne : c.countOne = decide (c.count = 1)
  count_taken : c.thanksAll = true → c.count = BitVec.ofNat 8 due
  count_kept : c.thanksAll = false → due ≠ 0 → c.count = BitVec.ofNat 8 (due - 1)
  headerLast : c.thanksAll = false → c.headerLast = decide (due = 0)
  tailLast_inside : c.thanksAll = false → due ≠ 0 → c.tailLast = decide (due = 1)
  tailLast_between : c.thanksAll = false → due = 0 → c.tailLast = true →
    ∃ x, w.head? = some x ∧ x.len = 0

variable {c : InputControl} {due : Nat} {w : List Flit}

theorem tracks_init : init.Tracks 0 [] where
  due_lt := by decide
  countZero := rfl
  countOne := rfl
  count_taken := fun h => by simp [init] at h
  count_kept := fun _ h => absurd rfl h
  headerLast := fun _ => rfl
  tailLast_inside := fun _ h => absurd rfl h
  tailLast_between := fun _ _ h => by simp [init] at h

theorem ofNat_eq_zero {n : Nat} (hn : n < 256) : BitVec.ofNat 8 n = 0 ↔ n = 0 := by
  constructor
  · intro h
    have := congrArg BitVec.toNat h
    simpa [Nat.mod_eq_of_lt hn] using this
  · rintro rfl
    rfl

theorem ofNat_eq_one {n : Nat} (hn : n < 256) : BitVec.ofNat 8 n = 1 ↔ n = 1 := by
  constructor
  · intro h
    have := congrArg BitVec.toNat h
    simpa [Nat.mod_eq_of_lt hn] using this
  · rintro rfl
    rfl

theorem ofNat_sub_one {n : Nat} (hn : n ≠ 0) :
    BitVec.ofNat 8 n - 1 = BitVec.ofNat 8 (n - 1) := by
  obtain ⟨m, rfl⟩ := Nat.exists_eq_succ_of_ne_zero hn
  rw [Nat.succ_sub_one, Nat.succ_eq_add_one, BitVec.ofNat_add]
  exact BitVec.add_sub_cancel _ _

/-- A header is expected exactly between two packets. -/
theorem Tracks.headerTemp_eq (h : c.Tracks due w) : c.headerTemp = decide (due = 0) := by
  cases ht : c.thanksAll with
  | false =>
    rw [← h.headerLast ht, headerTemp, ht]
    cases c.headerLast <;> cases c.countZero <;> rfl
  | true =>
    have hz : c.countZero = decide (due = 0) := by
      rw [h.countZero, h.count_taken ht, decide_eq_decide]
      exact ofNat_eq_zero h.due_lt
    rw [← hz, headerTemp, ht]
    cases c.headerLast <;> cases c.countZero <;> rfl

theorem Tracks.header_eq (h : c.Tracks due w) (v : Bool) :
    c.header v = (v && decide (due = 0)) := by
  rw [header, h.headerTemp_eq]

/-- Inside a packet the tail is its last flit. -/
theorem Tracks.tail_inside (h : c.Tracks due w) (hd : due ≠ 0) (v : Bool) (l : BitVec 8) :
    c.tail v l = decide (due = 1) := by
  rw [tail, h.header_eq]
  cases ht : c.thanksAll with
  | false => simp [hd, h.tailLast_inside ht hd]
  | true =>
    rw [h.countOne, h.count_taken ht]
    simp only [decide_eq_false hd, Bool.and_false, Bool.false_and, Bool.false_or, Bool.not_true,
      Bool.true_and, decide_eq_decide]
    exact ofNat_eq_one h.due_lt

/-- Between two packets the tail is a header that nothing follows. -/
theorem Tracks.tail_between (h : c.Tracks due w) (hd : due = 0) (v : Bool) (l : BitVec 8)
    (ht : c.tail v l = true) :
    (v = true ∧ l = 0) ∨ ∃ x, w.head? = some x ∧ x.len = 0 := by
  rw [tail, h.header_eq] at ht
  cases hk : c.thanksAll with
  | false =>
    rw [hk] at ht
    cases htl : c.tailLast with
    | true => exact .inr (h.tailLast_between hk hd htl)
    | false => exact .inl (by simpa [hd, htl] using ht)
  | true =>
    have h1 : c.countOne = false := by
      rw [h.countOne, h.count_taken hk, hd]
      rfl
    rw [hk, h1] at ht
    exact .inl (by simpa [hd] using ht)

/-- The tail is the flit after which nothing is due. -/
theorem Tracks.tail_eq {x : Flit} (h : c.Tracks due (x :: w)) :
    c.tail true x.length = decide ((if due = 0 then x.len else due - 1) = 0) := by
  by_cases hd : due = 0
  · rw [if_pos hd]
    by_cases hx : x.len = 0
    · have hl : x.length = 0 := BitVec.eq_of_toNat_eq hx
      simp [tail, h.header_eq, hd, hl, hx]
    · rw [decide_eq_false hx, ← Bool.not_eq_true]
      intro ht
      obtain ⟨-, hl⟩ | ⟨y, hy, hl⟩ := h.tail_between hd true x.length ht
      · exact hx (congrArg BitVec.toNat hl)
      · obtain rfl : x = y := by simpa using hy
        exact hx hl
  · rw [h.tail_inside hd, if_neg hd, decide_eq_decide]
    omega

theorem Tracks.step_taken {x : Flit} (h : c.Tracks due (x :: w)) (w' : List Flit) :
    (c.step true x.length true).Tracks (if due = 0 then x.len else due - 1) w' where
  due_lt := by
    have := h.due_lt
    have hx : x.len < 256 := x.length.isLt
    split <;> omega
  countZero := rfl
  countOne := rfl
  count_taken := by
    intro _
    simp only [step, countTemp, h.header_eq, Bool.true_and, decide_eq_true_iff]
    by_cases hd : due = 0
    · rw [if_pos hd, if_pos hd]
      exact (BitVec.ofNat_toNat 8 x.length).symm
    · rw [if_neg hd, if_neg hd]
      cases ht : c.thanksAll with
      | false => exact h.count_kept ht hd
      | true => rw [if_pos rfl, h.count_taken ht, ofNat_sub_one hd]
  count_kept := fun h => by simp [step] at h
  headerLast := fun h => by simp [step] at h
  tailLast_inside := fun h => by simp [step] at h
  tailLast_between := fun h => by simp [step] at h

theorem Tracks.step_kept (h : c.Tracks due w) {v : Bool} {l : BitVec 8} {w' : List Flit}
    (hv : v = true → ∃ x, w'.head? = some x ∧ x.length = l)
    (hw : ∀ x, w.head? = some x → w'.head? = some x) :
    (c.step v l false).Tracks due w' where
  due_lt := h.due_lt
  countZero := rfl
  countOne := rfl
  count_taken := fun h => by simp [step] at h
  count_kept := by
    intro _ hd
    simp only [step, countTemp, h.header_eq, decide_eq_false hd, Bool.and_false,
      Bool.false_eq_true, if_false]
    cases ht : c.thanksAll with
    | false => exact h.count_kept ht hd
    | true => rw [if_pos rfl, h.count_taken ht, ofNat_sub_one hd]
  headerLast := fun _ => h.headerTemp_eq
  tailLast_inside := fun _ hd => h.tail_inside hd v l
  tailLast_between := by
    intro _ hd ht
    obtain ⟨hvt, hl⟩ | ⟨x, hx, hl⟩ := h.tail_between hd v l ht
    · obtain ⟨x, hx, hxl⟩ := hv hvt
      exact ⟨x, hx, by rw [Flit.len, hxl, hl]; rfl⟩
    · exact ⟨x, hw x hx, hl⟩

end InputControl

/-! ### Routes -/

namespace OutputControl

variable {n : Nat} [NeZero n] {c : OutputControl n} {w : OutputIn n}

theorem mem_choices (r k : Fin n) :
    k ∈ (List.range (n - 1)).map (fun b => r + Fin.ofNat n (b + 1)) ↔ k ≠ r := by
  have hn := Nat.pos_of_ne_zero (NeZero.ne n)
  rw [List.mem_map]
  constructor
  · rintro ⟨b, hb, rfl⟩ h
    have h0 : Fin.ofNat n (b + 1) = 0 := by simpa using h
    have := congrArg Fin.val h0
    have hb' : b + 1 < n := by have := List.mem_range.1 hb; omega
    simp [Fin.ofNat, Nat.mod_eq_of_lt hb'] at this
  · intro h
    have hk : k - r ≠ 0 := sub_ne_zero.2 h
    have hv : (k - r).val ≠ 0 := fun h0 => hk (Fin.ext h0)
    have hlt := (k - r).isLt
    refine ⟨(k - r).val - 1, List.mem_range.2 (by omega), ?_⟩
    have h1 : (k - r).val - 1 + 1 = (k - r).val := by omega
    have h2 : Fin.ofNat n (k - r).val = k - r := Fin.ext (Nat.mod_eq_of_lt hlt)
    rw [h1, h2]
    exact add_sub_cancel r k

/-- The encoder finds a requester other than the current route when there is one. -/
theorem newRoute_of_exists (h : ∃ k, k ≠ c.currentRoute ∧ w.routeReq k = true) :
    c.newRoute w ≠ c.currentRoute ∧ w.routeReq (c.newRoute w) = true := by
  obtain ⟨k, hk, hr⟩ := h
  rw [newRoute]
  cases hf : ((List.range (n - 1)).map fun b => c.currentRoute + Fin.ofNat n (b + 1)).find?
      w.routeReq with
  | none => exact absurd hr (List.find?_eq_none.1 hf k ((mem_choices _ k).2 hk))
  | some j => exact ⟨(mem_choices _ j).1 (List.mem_of_find?_eq_some hf), List.find?_some hf⟩

theorem newRoute_of_not_exists (h : ¬ ∃ k, k ≠ c.currentRoute ∧ w.routeReq k = true) :
    c.newRoute w = 0 := by
  rw [newRoute, List.find?_eq_none.2, Option.getD_none]
  intro k hk hr
  exact h ⟨k, (mem_choices _ k).1 hk, hr⟩

omit [NeZero n] in
theorem routeReqAllOrWithPlanned_iff :
    c.routeReqAllOrWithPlanned w = true ↔
      ∃ k, (c.planned = false ∨ k ≠ c.currentRoute) ∧ w.routeReq k = true := by
  simp only [routeReqAllOrWithPlanned, routeReqMask, List.any_eq_true, List.mem_finRange, true_and,
    Bool.and_eq_true, Bool.not_eq_true', Bool.and_eq_false_iff, decide_eq_false_iff_not]
  exact exists_congr fun k => and_comm

theorem routeReqAllButDefault_iff :
    routeReqAllButDefault w = true ↔ ∃ k, k ≠ 0 ∧ w.routeReq k = true := by
  simp [routeReqAllButDefault, -ne_eq]

/-- Inside a packet the route stays. -/
theorem step_continues (hv : c.validOut w = true) (ht : c.tailCurrentRoute w = false)
    (hr : c.planned = false → w.routeReq c.currentRoute = true) :
    c.step w = { currentRoute := c.currentRoute, planned := true } := by
  have hp : c.plannedTemp w = true := by
    unfold plannedTemp
    rw [hv, ht]
    cases hR : c.routeReqAllOrWithPlanned w with
    | true => cases w.defaultReady <;> rfl
    | false =>
      cases hP : c.planned with
      | true => rfl
      | false =>
        have := routeReqAllOrWithPlanned_iff.2 ⟨c.currentRoute, .inl hP, hr hP⟩
        rw [hR] at this
        exact absurd this Bool.false_ne_true
  have hn : c.newRouteNeeded w = false := by rw [newRouteNeeded, hv, ht]
  rw [step, hp, hn]
  rfl

/-- After a packet another requester gets the output, or nobody. -/
theorem step_ends (hv : c.validOut w = true) (ht : c.tailCurrentRoute w = true)
    (hidle : c.planned = false → c.currentRoute = 0) :
    ((c.step w).planned = true ∧ (c.step w).currentRoute ≠ c.currentRoute ∧
        w.routeReq (c.step w).currentRoute = true) ∨
      ((c.step w).planned = false ∧ (c.step w).currentRoute = 0) := by
  have hn : c.newRouteNeeded w = true := by rw [newRouteNeeded, hv, ht]
  have hcur : (c.step w).currentRoute = c.newRoute w := by rw [step, hn]; rfl
  have hplan : (c.step w).planned = true ↔ ∃ k, k ≠ c.currentRoute ∧ w.routeReq k = true := by
    show c.plannedTemp w = true ↔ _
    unfold plannedTemp
    rw [hv, ht]
    cases hP : c.planned with
    | true =>
      have hR : c.routeReqAllOrWithPlanned w = true ↔
          ∃ k, k ≠ c.currentRoute ∧ w.routeReq k = true := by
        simp [routeReqAllOrWithPlanned_iff, hP]
      rw [← hR]
      cases c.routeReqAllOrWithPlanned w <;> cases w.defaultReady <;> simp
    | false =>
      have hD : w.defaultReady = true := by
        have := hv
        rw [validOut, hP] at this
        simp only [Bool.false_or, Bool.and_eq_true] at this
        exact this.1.2
      rw [hD, hidle hP, ← routeReqAllButDefault_iff]
      cases hR : c.routeReqAllOrWithPlanned w with
      | true => exact Iff.rfl
      | false =>
        rw [← Bool.not_eq_true, routeReqAllOrWithPlanned_iff] at hR
        rw [routeReqAllButDefault_iff]
        exact iff_of_false Bool.false_ne_true
          (fun ⟨k, _, hk⟩ => hR ⟨k, .inl hP, hk⟩)
  rw [hcur]
  by_cases h : ∃ k, k ≠ c.currentRoute ∧ w.routeReq k = true
  · exact .inl ⟨hplan.2 h, newRoute_of_exists h⟩
  · exact .inr ⟨by rw [← Bool.not_eq_true, hplan]; exact h, newRoute_of_not_exists h⟩

/-- A planned route waits for its flit. -/
theorem step_waits (hv : c.validOut w = false) (hp : c.planned = true) :
    c.step w = { currentRoute := c.currentRoute, planned := true } := by
  have hn : c.newRouteNeeded w = false := by rw [newRouteNeeded, hv, hp]; rfl
  have hp' : c.plannedTemp w = true := by
    unfold plannedTemp
    rw [hv, hp]
    cases c.routeReqAllOrWithPlanned w <;> cases w.defaultReady <;> rfl
  rw [step, hn, hp']
  rfl

/-- An idle output plans the route of a requester. -/
theorem step_plans (hv : c.validOut w = false) (hp : c.planned = false)
    (hidle : c.currentRoute = 0) :
    ((c.step w).planned = true ∧ w.routeReq (c.step w).currentRoute = true) ∨
      ((c.step w).planned = false ∧ (c.step w).currentRoute = 0) := by
  have hn : c.newRouteNeeded w = true := by rw [newRouteNeeded, hv, hp]; rfl
  have hcur : (c.step w).currentRoute = c.newRoute w := by rw [step, hn]; rfl
  have hplan : (c.step w).planned = true ↔ ∃ k, w.routeReq k = true := by
    show c.plannedTemp w = true ↔ _
    unfold plannedTemp
    have hR : c.routeReqAllOrWithPlanned w = true ↔ ∃ k, w.routeReq k = true := by
      simp [routeReqAllOrWithPlanned_iff, hp]
    rw [hv, hp, ← hR]
    cases c.routeReqAllOrWithPlanned w <;> cases w.defaultReady <;> simp
  rw [hcur]
  by_cases h : ∃ k, k ≠ c.currentRoute ∧ w.routeReq k = true
  · have hnew := (newRoute_of_exists h).2
    exact .inl ⟨hplan.2 ⟨_, hnew⟩, hnew⟩
  · rw [newRoute_of_not_exists h]
    by_cases h0 : w.routeReq 0 = true
    · exact .inl ⟨hplan.2 ⟨0, h0⟩, h0⟩
    · refine .inr ⟨?_, rfl⟩
      rw [← Bool.not_eq_true, hplan]
      rintro ⟨k, hk⟩
      obtain rfl | hk0 := eq_or_ne k 0
      · exact h0 hk
      · exact h ⟨k, hidle ▸ hk0, hk⟩

end OutputControl

end Piton.Noc
