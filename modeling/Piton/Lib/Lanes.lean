import Piton.Lib.MaskedWrite

/-! Lanes of bit vectors and overlays. A vector is read as lanes of `k` bits, the first lane being the
most significant one. A buffer of data and lane mask is a partial function of the lanes; laying
it over a vector is a masked write, and merging a write into it composes the two. -/

namespace Hw

/-! ### Overlays -/

variable {α β : Type}

/-- A partial function, to be laid over a total one. -/
def Overlay (α β : Type) := α → Option β

namespace Overlay

/-- The overlay of nothing. -/
def empty : Overlay α β := fun _ => none

/-- `o` and then `w`, which wins where both are defined. -/
def put (o w : Overlay α β) : Overlay α β := fun a => (w a).or (o a)

/-- `f` where the overlay is not defined. -/
def onto (o : Overlay α β) (f : α → β) : α → β := fun a => (o a).getD (f a)

/-- The overlays of a list, one after the other. -/
def collect (ws : List (Overlay α β)) : Overlay α β := ws.foldl put empty

@[simp] theorem onto_empty (f : α → β) : (empty : Overlay α β).onto f = f := rfl

theorem empty_put (w : Overlay α β) : empty.put w = w := by
  funext a
  exact Option.or_none

/-- Laying a composition is laying its parts in order. -/
theorem onto_put (o w : Overlay α β) (f : α → β) : (o.put w).onto f = w.onto (o.onto f) := by
  funext a
  unfold onto put
  cases w a <;> rfl

theorem collect_append (ws : List (Overlay α β)) (w : Overlay α β) :
    collect (ws ++ [w]) = (collect ws).put w := by
  unfold collect
  rw [List.foldl_append]
  rfl

theorem collect_singleton (w : Overlay α β) : collect [w] = w := empty_put w

theorem foldl_put_onto (ws : List (Overlay α β)) (o : Overlay α β) (f : α → β) :
    (ws.foldl put o).onto f = ws.foldl (fun f w => w.onto f) (o.onto f) := by
  induction ws generalizing o with
  | nil => rfl
  | cons w ws ih => rw [List.foldl_cons, List.foldl_cons, ih, onto_put]

/-- What is collected has the effect of the parts, laid in order. -/
theorem collect_onto (ws : List (Overlay α β)) (f : α → β) :
    (collect ws).onto f = ws.foldl (fun f w => w.onto f) f := by
  unfold collect
  rw [foldl_put_onto, onto_empty]

end Overlay

/-! ### Lanes -/

/-- Lane `b` of a vector of `n` lanes of `k` bits, counted from the most significant one. -/
def lane (k n : Nat) (v : BitVec (k * n)) (b : Fin n) : BitVec k :=
  v.extractLsb' (k * (n - 1 - b.val)) k

variable {k n : Nat}

theorem lane_getLsbD (v : BitVec (k * n)) (b : Fin n) (j : Nat) :
    (lane k n v b).getLsbD j = (decide (j < k) && v.getLsbD (k * (n - 1 - b.val) + j)) :=
  BitVec.getLsbD_extractLsb' _ _ _ _

/-- A vector is determined by its lanes. -/
theorem eq_of_lane {v v' : BitVec (k * n)} (h : lane k n v = lane k n v') : v = v' := by
  apply BitVec.eq_of_getLsbD_eq
  intro j hj
  have hk : 0 < k := Nat.pos_of_mul_pos_right (Nat.zero_lt_of_lt hj)
  have hdiv : j / k < n := Nat.div_lt_of_lt_mul hj
  generalize hq : j / k = q at hdiv
  have hbit := congrArg (fun f => (f ⟨n - 1 - q, by omega⟩).getLsbD (j % k)) h
  simp only [lane_getLsbD, Nat.mod_lt j hk, decide_true, Bool.true_and] at hbit
  have hback : n - 1 - (n - 1 - q) = q := by omega
  rwa [hback, ← hq, Nat.div_add_mod] at hbit

/-! ### Buffers under a lane mask -/

/-- The lanes of `data` whose bits in the mask are set. -/
def maskedLanes (k n : Nat) (data : BitVec (k * n)) (mask : BitVec n) :
    Overlay (Fin n) (BitVec k) :=
  fun b => if mask.getLsbD (n - 1 - b.val) then some (lane k n data b) else none

/-- The bits of a lane have the mask bit of the lane. -/
theorem spreadMask_lane {mask : BitVec n} {b : Fin n} {j : Nat} (hj : j < k) :
    (spreadMask k n mask).getLsbD (k * (n - 1 - b.val) + j) = mask.getLsbD (n - 1 - b.val) := by
  have hk : 0 < k := Nat.zero_lt_of_lt hj
  rw [spreadMask_getLsbD hk, Nat.mul_add_div hk, Nat.div_eq_of_lt hj, Nat.add_zero]

theorem lane_maskedWrite (old data : BitVec (k * n)) (mask : BitVec n) (b : Fin n) :
    lane k n (maskedWrite old data (spreadMask k n mask)) b =
      if mask.getLsbD (n - 1 - b.val) then lane k n data b else lane k n old b := by
  apply BitVec.eq_of_getLsbD_eq
  intro j hj
  rw [lane_getLsbD, maskedWrite_getLsbD, spreadMask_lane hj]
  cases mask.getLsbD (n - 1 - b.val) with
  | true => rw [if_pos rfl, if_pos rfl, lane_getLsbD, decide_eq_true hj, Bool.true_and]
  | false =>
    rw [if_neg Bool.false_ne_true, if_neg Bool.false_ne_true, lane_getLsbD, decide_eq_true hj,
      Bool.true_and]

/-- A masked write lays the masked lanes over the old ones. -/
theorem lane_maskedWrite_eq (old data : BitVec (k * n)) (mask : BitVec n) :
    lane k n (maskedWrite old data (spreadMask k n mask)) =
      (maskedLanes k n data mask).onto (lane k n old) := by
  funext b
  rw [lane_maskedWrite]
  unfold Overlay.onto maskedLanes
  cases mask.getLsbD (n - 1 - b.val) <;> rfl

/-- Data that were cleared outside the mask have the same masked lanes. -/
theorem maskedLanes_and (data : BitVec (k * n)) (mask : BitVec n) :
    maskedLanes k n (data &&& spreadMask k n mask) mask = maskedLanes k n data mask := by
  funext b
  unfold maskedLanes
  cases hm : mask.getLsbD (n - 1 - b.val) with
  | false => rfl
  | true =>
    rw [if_pos rfl, if_pos rfl]
    refine congrArg some (BitVec.eq_of_getLsbD_eq fun j hj => ?_)
    rw [lane_getLsbD, lane_getLsbD, BitVec.getLsbD_and, spreadMask_lane hj, hm, Bool.and_true]

/-- A buffer into which a write is merged, its mask being joined, is the buffer and then the write. -/
theorem maskedLanes_merge (buffer data : BitVec (k * n)) (joined mask : BitVec n) :
    maskedLanes k n (maskedWrite buffer data (spreadMask k n mask)) (joined ||| mask) =
      (maskedLanes k n buffer joined).put (maskedLanes k n data mask) := by
  funext b
  unfold Overlay.put maskedLanes
  rw [BitVec.getLsbD_or, lane_maskedWrite]
  cases mask.getLsbD (n - 1 - b.val) with
  | true => simp
  | false => simp

end Hw
