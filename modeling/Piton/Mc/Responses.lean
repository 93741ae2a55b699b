import Piton.Mc.Requests

/-! The lines that are returned and the responses that are sent, as they grow. -/

namespace Piton.Mc

open Hw Piton.Noc

variable {p : Config}

/-! ### Lines -/

theorem joinParts_congr {w : Nat} {f g : Nat → BitVec w} :
    ∀ {r : Nat}, (∀ k, k < r → f k = g k) → joinParts f r = joinParts g r
  | 0, _ => rfl
  | r + 1, h => by
    rw [joinParts, joinParts, h r (Nat.lt_succ_self r),
      joinParts_congr fun k hk => h k (Nat.lt_succ_of_lt hk)]

theorem getD_snoc_of_lt {α : Type} {xs : List α} {x a : α} {k : Nat} (h : k < xs.length) :
    (xs ++ [x]).getD k a = xs.getD k a := by
  rw [List.getD_eq_getElem?_getD, List.getD_eq_getElem?_getD, List.getElem?_append_left h]

theorem getD_snoc_length {α : Type} {xs : List α} {x a : α} :
    (xs ++ [x]).getD xs.length a = x := by
  rw [List.getD_eq_getElem?_getD, List.getElem?_append_right (Nat.le_refl _), Nat.sub_self]
  rfl

theorem length_lines (rs : List (BitVec p.width)) :
    (lines p rs).length = rs.length / p.ratio := by
  rw [lines, List.length_map, List.length_range]

/-- The line that a part completes. -/
def lastLine (rs : List (BitVec p.width)) (d : BitVec p.width) : BitVec 512 :=
  joinParts (fun k => (rs ++ [d]).getD (rs.length / p.ratio * p.ratio + k) 0) p.ratio

theorem lines_snoc (rs : List (BitVec p.width)) (d : BitVec p.width) :
    lines p (rs ++ [d]) =
      if rs.length % p.ratio = p.ratio - 1 then lines p rs ++ [lastLine rs d] else lines p rs := by
  have hold : ∀ i, i < rs.length / p.ratio →
      joinParts (fun k => (rs ++ [d]).getD (i * p.ratio + k) 0) p.ratio =
        joinParts (fun k => rs.getD (i * p.ratio + k) 0) p.ratio := by
    intro i hi
    refine joinParts_congr fun k hk => getD_snoc_of_lt ?_
    have h1 : (i + 1) * p.ratio ≤ rs.length :=
      Nat.le_trans (Nat.mul_le_mul_right _ hi) (Nat.div_mul_le_self _ _)
    rw [Nat.succ_mul] at h1
    omega
  have hmap : (List.range (rs.length / p.ratio)).map (fun i =>
      joinParts (fun k => (rs ++ [d]).getD (i * p.ratio + k) 0) p.ratio) = lines p rs :=
    List.map_congr_left fun i hi => hold i (List.mem_range.1 hi)
  have hpos := p.ratio_pos
  have hdm := Nat.div_add_mod' rs.length p.ratio
  have hlt := Nat.mod_lt rs.length hpos
  rw [lines, List.length_append, List.length_singleton]
  split
  · have hdiv : (rs.length + 1) / p.ratio = rs.length / p.ratio + 1 := by
      apply Nat.div_eq_of_lt_le <;> rw [Nat.succ_mul]
      · omega
      · rw [Nat.succ_mul]
        omega
    rw [hdiv, List.range_succ, List.map_append, List.map_singleton, hmap]
    rfl
  · have hdiv : (rs.length + 1) / p.ratio = rs.length / p.ratio := by
      apply Nat.div_eq_of_lt_le
      · omega
      · rw [Nat.succ_mul]
        omega
    rw [hdiv, hmap]

/-! ### Responses -/

theorem loads_cons (q : List Flit) (qs : List (List Flit)) :
    loads (q :: qs) = loads qs + if isLoad (kind q) then 1 else 0 := by
  rw [loads, List.countP_cons]
  rfl

theorem loads_append (qs qs' : List (List Flit)) : loads (qs ++ qs') = loads qs + loads qs' :=
  List.countP_append

/-- The responses to a list of requests, and then to more. -/
theorem responses_append : ∀ (qs qs' : List (List Flit)) (ls : List (BitVec 512)),
    loads qs ≤ ls.length →
    responses (qs ++ qs') ls = responses qs ls ++ responses qs' (ls.drop (loads qs))
  | [], _, _, _ => rfl
  | q :: qs, qs', ls, h => by
    rw [loads_cons] at h ⊢
    rw [List.cons_append]
    cases hk : isLoad (kind q) with
    | true =>
      rw [hk] at h
      cases ls with
      | nil => simp at h
      | cons l ls =>
        have ih := responses_append qs qs' ls (by simpa using h)
        simp only [responses, hk, if_true, ih, List.append_assoc, List.drop_succ_cons]
    | false =>
      rw [hk] at h
      have ih := responses_append qs qs' ls (by simpa using h)
      simp only [responses, hk, Bool.false_eq_true, if_false, ih, List.append_assoc, Nat.add_zero]

/-- Lines that come later do not change the responses of earlier loads. -/
theorem responses_lines : ∀ (qs : List (List Flit)) (ls ls' : List (BitVec 512)),
    loads qs ≤ ls.length → responses qs (ls ++ ls') = responses qs ls
  | [], _, _, _ => rfl
  | q :: qs, ls, ls', h => by
    rw [loads_cons] at h
    cases hk : isLoad (kind q) with
    | true =>
      rw [hk] at h
      cases ls with
      | nil => simp at h
      | cons l ls =>
        have ih := responses_lines qs ls ls' (by simpa using h)
        simp only [responses, List.cons_append, hk, if_true, ih]
    | false =>
      rw [hk] at h
      have ih := responses_lines qs ls ls' (by simpa using h)
      simp only [responses, hk, Bool.false_eq_true, if_false, ih]

/-- The response to one more request. -/
theorem responses_snoc {qs : List (List Flit)} {q : List Flit} {ls : List (BitVec 512)}
    (h : loads qs ≤ ls.length) (hq : isLoad (kind q) = true → loads qs < ls.length) :
    responses (qs ++ [q]) ls =
      responses qs ls ++ if isLoad (kind q) then loadReply q (ls.getD (loads qs) 0)
        else storeReply q := by
  rw [responses_append qs [q] ls h]
  congr 1
  cases hk : isLoad (kind q) with
  | true =>
    have hlt := hq hk
    rw [List.drop_eq_getElem_cons hlt, List.getD_eq_getElem?_getD, List.getElem?_eq_getElem hlt]
    simp [responses, hk]
  | false => simp [responses, hk]

theorem responses_initial {qs qs' : List (List Flit)} {ls : List (BitVec 512)}
    (h : loads qs ≤ ls.length) : responses qs ls <+: responses (qs ++ qs') ls := by
  rw [responses_append qs qs' ls h]
  exact List.prefix_append _ _

end Piton.Mc
