import Piton.Chipset.Splitter
import Piton.Lib.Live
import Piton.Lib.Steer

/-! Requests through the splitter: a header waits until the address flit after it names its side. -/

namespace Piton.Chipset

open Hw Noc

/-- The number of flits that follow a header. -/
def requestLen (x : Flit × Side) : Nat := x.1.len

/-- The messages of the second network have two flits after the header at least. -/
def Framed (y : MemIoSplitter × Passed) (i : SplitterInput) : Prop :=
  i.noc2.val = true → y.1.noc2.rdy i.noc2 = true → due requestLen y.2.requests = 0 →
    2 ≤ i.noc2.data.len

instance (y : MemIoSplitter × Passed) (i : SplitterInput) : Decidable (Framed y i) :=
  inferInstanceAs (Decidable (_ → _ → _ → _))

namespace Noc2

/-! ### What the registers hold -/

/-- The state that the flits of the packet in hand leave. -/
def stateOf : List (Flit × Side) → MsgState
  | [] => .inval
  | [_] => .header0
  | [_, _] => .header1
  | [_, _, _] => .header2
  | _ => .data

/-- The side of a message is that of its second flit, the address. -/
def destOf : List (Flit × Side) → Option Side
  | _ :: a :: _ => some a.2
  | _ => none

variable (s : Noc2)

/-- The flit of the second buffer, with the side that the mux selects. -/
def held1 : List (Option Side × Flit) := if s.buf1Val then [(s.rdyMuxSel, s.buf1Data)] else []

/-- The flit that waits in the first buffer, with its side. -/
def held0 : List (Option Side × Flit) :=
  if s.buf0State ≠ .inval then [(s.buf0Dest, s.buf0Data)] else []

/-- After the requests `xs`, of which `out` has gone to the sides. -/
structure Inv (s : Noc2) (xs : List (Flit × Side)) (out : List (Side × Flit)) : Prop where
  counter : s.msgCounter.toNat = due requestLen xs
  state : s.msgState = stateOf (inHand requestLen xs)
  dest : s.buf0Dest = destOf (inHand requestLen xs)
  two : ∀ h t, inHand requestLen xs = h :: t → 2 ≤ t.length + due requestLen xs
  content : announced requestLen Prod.snd Prod.fst xs = out.map bound ++ s.held1 ++ s.held0

variable {s} {b : Build} {i : Noc2Input} {xs : List (Flit × Side)} {out : List (Side × Flit)}

theorem inv_init : Inv .init [] [] where
  counter := rfl
  state := rfl
  dest := rfl
  two := fun h t ht => by simp at ht
  content := rfl

theorem Inv.counter_eq (h : Inv s xs out) : s.msgCounter = 0 ↔ due requestLen xs = 0 := by
  rw [← h.counter]
  exact BitVec.toNat_eq

theorem Inv.not_lone (h : Inv s xs out) (hd : due requestLen xs = 0) (x : Flit × Side) :
    inHand requestLen xs ≠ [x] := by
  intro hx
  have := h.two x [] hx
  simp [hd] at this

/-! ### The next flit -/

/-- A header comes exactly between two messages. -/
theorem Inv.msgStateNext_header (h : Inv s xs out) (hd : due requestLen xs = 0) :
    s.msgStateNext = .header0 := by
  have hc := h.counter_eq.2 hd
  rw [msgStateNext, h.state, hc]
  cases hx : inHand requestLen xs with
  | nil => rfl
  | cons a t =>
    have h2 := h.two a t hx
    rw [hd] at h2
    obtain _ | ⟨c, _ | ⟨e, _ | ⟨k, t⟩⟩⟩ := t
    · simp at h2
    · simp at h2
    · rfl
    · rfl

/-- Inside a message the flits go on. -/
theorem Inv.msgStateNext_inside (h : Inv s xs out) (hd : due requestLen xs ≠ 0)
    (x : Flit × Side) : s.msgStateNext = stateOf (inHand requestLen xs ++ [x]) := by
  have hc : ¬ s.msgCounter = 0 := fun h0 => hd (h.counter_eq.1 h0)
  rw [msgStateNext, h.state]
  obtain ⟨ps, a, t, hp, -⟩ := exists_last requestLen hd
  have hx : inHand requestLen xs = a :: t := by simp [inHand, hp]
  rw [hx]
  obtain _ | ⟨c, _ | ⟨e, _ | ⟨k, t⟩⟩⟩ := t <;> simp [stateOf] <;> exact hc

/-! ### What leaves -/

/-- The flits that the sides take in this cycle. -/
theorem map_out : (((s.out i .io).toList.map (Side.io, ·)) ++
    ((s.out i .mem).toList.map (Side.mem, ·))).map bound =
      if s.stallBuf1 i then [] else s.held1 := by
  rw [Noc2.out, Noc2.out, val, val, stallBuf1, rdyMuxOut, held1]
  cases s.buf1Val with
  | false => rfl
  | true =>
    cases s.rdyMuxSel with
    | none => rfl
    | some d =>
      cases d with
      | io => cases hr : i.rdy .io <;> simp [hr, bound]
      | mem => cases hr : i.rdy .mem <;> simp [hr, bound]

/-! ### One clock edge -/

/-- The flit on the wires with the side it would name as an address. -/
def request (b : Build) (i : Noc2Input) : Flit × Side := (i.data, destNext b i.uartBootEn i.data)

theorem rdy_of_go (hgo : s.go i = true) : s.stallBuf0 i = false := by
  rw [go, rdy, Bool.and_eq_true, Bool.not_eq_true'] at hgo
  exact hgo.2

/-- The registers after a header. -/
theorem next_header (hgo : s.go i = true) (hs : s.msgStateNext = .header0) :
    (s.next b i).msgState = .header0 ∧ (s.next b i).msgCounter = i.data.length ∧
      (s.next b i).buf0Dest = none ∧ (s.next b i).buf0State = .header0 := by
  simp [next, hgo, hs, rdy_of_go hgo]

/-- The registers after an address flit. -/
theorem next_address (hgo : s.go i = true) (hs : s.msgStateNext = .header1) :
    (s.next b i).msgState = .header1 ∧ (s.next b i).msgCounter = s.msgCounter - 1 ∧
      (s.next b i).buf0Dest = some (request b i).2 ∧ (s.next b i).buf0State = .header1 := by
  simp [next, hgo, hs, rdy_of_go hgo, request]

/-- The registers after another flit. -/
theorem next_later (hgo : s.go i = true) (h0 : s.msgStateNext ≠ .header0)
    (h1 : s.msgStateNext ≠ .header1) :
    (s.next b i).msgState = s.msgStateNext ∧ (s.next b i).msgCounter = s.msgCounter - 1 ∧
      (s.next b i).buf0Dest = s.buf0Dest ∧ (s.next b i).buf0State = s.msgStateNext := by
  simp [next, hgo, h0, h1, rdy_of_go hgo]

theorem toNat_sub_one {c : BitVec 8} (hc : c.toNat ≠ 0) : (c - 1).toNat = c.toNat - 1 := by
  bv_omega

/-- What leaves the second buffer makes room for the first. -/
theorem held1_next_of_moved (hs : s.stallBuf1 i = false) :
    (s.next b i).held1 = if s.buf0State ≠ .inval then
      [(if s.buf0Dest ≠ none then s.buf0Dest
        else if (s.next b i).buf0State = .header1 then (s.next b i).buf0Dest else none,
        s.buf0Data)] else [] := by
  simp [held1, buf1Val, rdyMuxSel, next, hs]

theorem held1_next_of_stalled (hs : s.stallBuf1 i = true) :
    (s.next b i).held1 =
      [(if s.buf1Dest ≠ none then s.buf1Dest
        else if (s.next b i).buf0State = .header1 then (s.next b i).buf0Dest else none,
        s.buf1Data)] := by
  have hv : s.buf1Val = true := by
    rw [stallBuf1, Bool.and_eq_true] at hs
    exact hs.1
  have hv' : (s.next b i).buf1Val = true := by
    rw [buf1Val] at hv ⊢
    simpa [next, hs] using hv
  rw [held1, hv', if_pos rfl, rdyMuxSel]
  simp [next, hs]

theorem held0_next_of_go (hgo : s.go i = true) (hs : s.msgStateNext ≠ .inval) :
    (s.next b i).held0 = [((s.next b i).buf0Dest, i.data)] := by
  have hst := rdy_of_go hgo
  have h1 : (s.next b i).buf0State = s.msgStateNext := by simp [next, hst, hgo]
  have h2 : (s.next b i).buf0Data = i.data := by simp [next, hst]
  rw [held0, h1, if_pos hs, h2]

/-- Without a new flit nothing changes for what is held. -/
theorem Inv.content_kept (h : Inv s xs out) (hgo : s.go i = false) :
    announced requestLen Prod.snd Prod.fst xs =
      (out ++ (((s.out i .io).toList.map (Side.io, ·)) ++
        ((s.out i .mem).toList.map (Side.mem, ·)))).map bound ++
        (s.next b i).held1 ++ (s.next b i).held0 := by
  rw [List.map_append, map_out, h.content]
  cases hs : s.stallBuf1 i with
  | false =>
    have h0 : s.stallBuf0 i = false := by rw [stallBuf0, hs]; rfl
    have hstate : (s.next b i).buf0State = .inval := by simp [next, h0, hgo]
    rw [held1_next_of_moved hs, hstate]
    simp only [held0, hstate, ne_eq, not_true_eq_false, if_false, List.append_nil, reduceCtorEq]
    split
    · cases s.buf0Dest <;> simp
    · simp
  | true =>
    have hv : s.buf1Val = true := by
      rw [stallBuf1, Bool.and_eq_true] at hs
      exact hs.1
    have hstate : (s.next b i).buf0State = s.buf0State := by
      cases h0 : s.stallBuf0 i with
      | true => simp [next, h0]
      | false =>
        rw [stallBuf0, hs, Bool.true_and] at h0
        have : s.buf0State = .inval := by simpa using h0
        have h0' : s.stallBuf0 i = false := by rw [stallBuf0, hs, this]; rfl
        rw [this]
        simp [next, h0', hgo]
    have hdest : (s.next b i).buf0Dest = s.buf0Dest := by simp [next, hgo]
    have hheld0 : (s.next b i).held0 = s.held0 := by
      rw [held0, held0, hstate, hdest]
      split
      · next hne =>
        have h0 : s.stallBuf0 i = true := by rw [stallBuf0, hs]; simpa using hne
        simp [next, h0]
      · rfl
    rw [held1_next_of_stalled hs, hheld0, hstate, hdest, held1, hv, if_pos rfl, rdyMuxSel]
    simp

/-- A flit that comes in while the second buffer stalls finds the first one empty. -/
theorem buf0State_of_go (hgo : s.go i = true) (hs : s.stallBuf1 i = true) :
    s.buf0State = .inval := by
  have h0 := rdy_of_go hgo
  rw [stallBuf0, hs] at h0
  simpa using h0

theorem held1_of_stalled (hs : s.stallBuf1 i = true) :
    s.held1 = [(s.rdyMuxSel, s.buf1Data)] := by
  rw [stallBuf1, Bool.and_eq_true] at hs
  rw [held1, hs.1, if_pos rfl]

/-- A new flit other than an address leaves the sides of what is held as they are. -/
theorem held_of_go (hgo : s.go i = true) (hne : (s.next b i).buf0State ≠ .header1) :
    (if s.stallBuf1 i then [] else s.held1) ++ (s.next b i).held1 = s.held1 ++ s.held0 := by
  cases hs : s.stallBuf1 i with
  | false =>
    rw [held1_next_of_moved hs, held0]
    simp only [Bool.false_eq_true, if_false, hne]
    split
    · cases s.buf0Dest <;> simp
    · rfl
  | true =>
    rw [held1_next_of_stalled hs, held1_of_stalled hs, held0, buf0State_of_go hgo hs, rdyMuxSel,
      buf0State_of_go hgo hs]
    simp [hne]

/-- The address flit names the side of the header, which is still held. -/
theorem held_of_address (hgo : s.go i = true) (hst : (s.next b i).buf0State = .header1)
    {d : Option Side} (hd : (s.next b i).buf0Dest = d) (h0 : s.buf0Dest = none)
    {l m : List (Option Side × Flit)} (hl : ∀ x, (none, x) ∉ l) {x : Flit}
    (h : m ++ [(none, x)] = l ++ s.held1 ++ s.held0) :
    l ++ (if s.stallBuf1 i then [] else s.held1) ++ (s.next b i).held1 = m ++ [(d, x)] := by
  cases hs : s.stallBuf1 i with
  | true =>
    rw [held0, buf0State_of_go hgo hs, held1_of_stalled hs, if_neg (by simp),
      List.append_nil] at h
    obtain ⟨hm, hx⟩ := List.append_inj' h rfl
    rw [List.singleton_inj, Prod.mk.injEq] at hx
    have h1 : s.buf1Dest = none := by
      have hsel := hx.1
      rw [rdyMuxSel, buf0State_of_go hgo hs] at hsel
      by_contra hne
      rw [if_pos hne] at hsel
      exact hne hsel.symm
    rw [held1_next_of_stalled hs, hst, hd, h1, hm, hx.2]
    simp
  | false =>
    by_cases hv : s.buf0State = .inval
    · -- the header would have left without a side
      rw [held0, hv, if_neg (by simp), List.append_nil] at h
      rw [stallBuf1, rdyMuxOut] at hs
      have hmem : (none, x) ∈ l ++ s.held1 := h ▸ List.mem_append_right _ List.mem_cons_self
      obtain hmem | hmem := List.mem_append.1 hmem
      · exact absurd hmem (hl x)
      · rw [held1] at hmem
        cases hb : s.buf1Val with
        | false => simp [hb] at hmem
        | true =>
          rw [hb, if_pos rfl, List.mem_singleton, Prod.mk.injEq] at hmem
          rw [hb, ← hmem.1] at hs
          exact absurd hs (by simp)
    · rw [held0, if_pos hv, h0] at h
      obtain ⟨hm, hx⟩ := List.append_inj' h rfl
      rw [List.singleton_inj, Prod.mk.injEq] at hx
      rw [held1_next_of_moved hs, if_pos hv, hst, hd, h0, hm, hx.2]
      simp

/-- What has gone to the sides after this cycle. -/
def gone (s : Noc2) (i : Noc2Input) (out : List (Side × Flit)) : List (Side × Flit) :=
  out ++ (((s.out i .io).toList.map (Side.io, ·)) ++ ((s.out i .mem).toList.map (Side.mem, ·)))

theorem map_gone : (gone s i out).map bound =
    out.map bound ++ if s.stallBuf1 i then [] else s.held1 := by
  rw [gone, List.map_append, map_out]

theorem Inv.step_header (h : Inv s xs out) (hgo : s.go i = true) (hd : due requestLen xs = 0)
    (h2 : 2 ≤ i.data.len) : Inv (s.next b i) (xs ++ [request b i]) (gone s i out) := by
  have hs := h.msgStateNext_header hd
  obtain ⟨hstate, hcounter, hdest, hbuf⟩ := next_header (b := b) hgo hs
  have hin : inHand requestLen (xs ++ [request b i]) = [request b i] := inHand_snoc_of_due_eq hd
  have hdue : due requestLen (xs ++ [request b i]) = i.data.len := by
    rw [due_snoc, if_pos hd]
    rfl
  refine ⟨?_, ?_, ?_, ?_, ?_⟩
  · rw [hcounter, hdue]
    rfl
  · rw [hstate, hin]
    rfl
  · rw [hdest, hin]
    rfl
  · intro k t hk
    rw [hin] at hk
    obtain ⟨-, rfl⟩ := List.cons.inj hk
    rw [hdue]
    exact Nat.le_add_left_of_le h2
  · rw [announced_snoc_header hd (h.not_lone hd), h.content, map_gone, List.append_assoc _ _
      (s.next b i).held1, held_of_go hgo (by rw [hbuf]; simp),
      held0_next_of_go hgo (by rw [hs]; simp), hdest]
    simp [request, List.append_assoc]

theorem Inv.step_address (h : Inv s xs out) (hgo : s.go i = true) (hd : due requestLen xs ≠ 0)
    {k : Flit × Side} (hk : inHand requestLen xs = [k]) :
    Inv (s.next b i) (xs ++ [request b i]) (gone s i out) := by
  have hs : s.msgStateNext = .header1 := by
    rw [h.msgStateNext_inside hd (request b i), hk]
    rfl
  obtain ⟨hstate, hcounter, hdest, hbuf⟩ := next_address (b := b) hgo hs
  have hin : inHand requestLen (xs ++ [request b i]) = [k, request b i] := by
    rw [inHand_snoc hd, hk]
    rfl
  have hdue : due requestLen (xs ++ [request b i]) = due requestLen xs - 1 := by
    rw [due_snoc, if_neg hd]
  have h2 := h.two k [] hk
  refine ⟨?_, ?_, ?_, ?_, ?_⟩
  · rw [hcounter, hdue, ← h.counter]
    exact toNat_sub_one (by rw [h.counter]; exact hd)
  · rw [hstate, hin]
    rfl
  · rw [hdest, hin]
    rfl
  · intro k' t hk'
    rw [hin] at hk'
    obtain ⟨-, rfl⟩ := List.cons.inj hk'
    rw [hdue]
    simp only [List.length_nil, List.length_singleton] at h2 ⊢
    omega
  · have h0 : s.buf0Dest = none := by
      rw [h.dest, hk]
      rfl
    have hold := h.content
    rw [announced_of_lone hk] at hold
    have hnone : ∀ x : Flit, (none, x) ∉ out.map bound := by
      intro x hx
      obtain ⟨f, -, hf⟩ := List.mem_map.1 hx
      simp [bound] at hf
    rw [announced_snoc_second hd hk, map_gone, held_of_address hgo hbuf hdest h0 hnone hold,
      held0_next_of_go hgo (by rw [hs]; simp), hdest]
    simp [request]

theorem Inv.step_later (h : Inv s xs out) (hgo : s.go i = true) (hd : due requestLen xs ≠ 0)
    {k a : Flit × Side} {t : List (Flit × Side)} (hk : inHand requestLen xs = k :: a :: t) :
    Inv (s.next b i) (xs ++ [request b i]) (gone s i out) := by
  have hin : inHand requestLen (xs ++ [request b i]) = k :: a :: (t ++ [request b i]) := by
    rw [inHand_snoc hd, hk]
    rfl
  have hs : s.msgStateNext = stateOf (k :: a :: (t ++ [request b i])) := by
    rw [h.msgStateNext_inside hd (request b i), hk]
    rfl
  have hcode : s.msgStateNext = .header2 ∨ s.msgStateNext = .data := by
    rw [hs]
    obtain _ | ⟨c, t⟩ := t
    · exact .inl rfl
    · cases t with
      | nil => exact .inr rfl
      | cons e t => exact .inr rfl
  obtain ⟨hstate, hcounter, hdest, hbuf⟩ := next_later (b := b) hgo
    (by obtain hc | hc := hcode <;> rw [hc] <;> simp)
    (by obtain hc | hc := hcode <;> rw [hc] <;> simp)
  have hdue : due requestLen (xs ++ [request b i]) = due requestLen xs - 1 := by
    rw [due_snoc, if_neg hd]
  have h2 := h.two k (a :: t) hk
  refine ⟨?_, ?_, ?_, ?_, ?_⟩
  · rw [hcounter, hdue, ← h.counter]
    exact toNat_sub_one (by rw [h.counter]; exact hd)
  · rw [hstate, hin, hs]
  · rw [hdest, hin, h.dest, hk]
    rfl
  · intro k' t' hk'
    rw [hin] at hk'
    obtain ⟨-, rfl⟩ := List.cons.inj hk'
    rw [hdue]
    simp only [List.length_cons, List.length_append] at h2 ⊢
    omega
  · have ha : s.buf0Dest = some a.2 := by
      rw [h.dest, hk]
      rfl
    rw [announced_snoc_later hd hk, h.content, map_gone, List.append_assoc _ _
      (s.next b i).held1,
      held_of_go hgo (by rw [hbuf]; obtain hc | hc := hcode <;> rw [hc] <;> simp),
      held0_next_of_go hgo (by obtain hc | hc := hcode <;> rw [hc] <;> simp), hdest, ha]
    simp [request, List.append_assoc]

theorem Inv.step_kept (h : Inv s xs out) (hgo : s.go i = false) :
    Inv (s.next b i) xs (gone s i out) where
  counter := by rw [← h.counter]; simp [next, hgo]
  state := by rw [← h.state]; simp [next, hgo]
  dest := by rw [← h.dest]; simp [next, hgo]
  two := h.two
  content := h.content_kept hgo

/-- The requests keep their order and go where their messages are addressed. -/
theorem Inv.step (h : Inv s xs out)
    (hframed : s.go i = true → due requestLen xs = 0 → 2 ≤ i.data.len) :
    Inv (s.next b i) (if s.go i then xs ++ [request b i] else xs) (gone s i out) := by
  cases hgo : s.go i with
  | false => exact h.step_kept hgo
  | true =>
    rw [if_pos rfl]
    by_cases hd : due requestLen xs = 0
    · exact h.step_header hgo hd (hframed hgo hd)
    · obtain ⟨ps, k, t, hp, -⟩ := exists_last requestLen hd
      have hk : inHand requestLen xs = k :: t := by simp [inHand, hp]
      cases t with
      | nil => exact h.step_address hgo hd hk
      | cons a t => exact h.step_later hgo hd hk

/-! ### An offer to a side -/

/-- A flit that is offered to a side stays until the side is ready. -/
theorem val_next {d : Side} (hv : s.val d = true) (hr : i.rdy d = false) :
    (s.next b i).val d = true := by
  rw [val, Bool.and_eq_true, decide_eq_true_iff] at hv
  obtain ⟨hb, hsel⟩ := hv
  have hs : s.stallBuf1 i = true := by simp [stallBuf1, hb, rdyMuxOut, hsel, hr]
  have hb' : (s.next b i).buf1Val = true := by
    rw [buf1Val] at hb ⊢
    simpa [next, hs] using hb
  have h1 : (s.next b i).buf1Dest = s.buf1Dest := by simp [next, hs]
  have hsel' : (s.next b i).rdyMuxSel = some d := by
    rw [rdyMuxSel] at hsel ⊢
    rw [h1]
    split at hsel
    · next hne => rwa [if_pos hne]
    · next hne =>
      split at hsel
      · next hst =>
        have h0 : s.stallBuf0 i = true := by rw [stallBuf0, hs, hst]; rfl
        have hgo : s.go i = false := by rw [go, rdy, h0]; simp
        have h2 : (s.next b i).buf0State = .header1 := by simp [next, h0, hst]
        have h3 : (s.next b i).buf0Dest = s.buf0Dest := by simp [next, hgo]
        rw [if_neg hne, if_pos h2, h3, hsel]
      · exact absurd hsel (by simp)
  rw [val, hb', hsel']
  simp

theorem length_gone {d : Side} (hv : s.val d = true) (hr : i.rdy d = true) :
    out.length < (gone s i out).length := by
  have ho : s.out i d = some s.buf1Data := by rw [Noc2.out, hv, hr]; rfl
  rw [gone, List.length_append, List.length_append, List.length_map, List.length_map]
  cases d <;> simp only [ho, Option.toList_some, List.length_singleton] <;> omega

/-- A steered flit that has not gone is offered now or after this cycle. -/
theorem Inv.offered (h : Inv s xs out)
    (hlt : out.length < (steered requestLen Prod.snd Prod.fst xs).length) :
    ∃ d, s.val d = true ∨ (s.next b i).val d = true := by
  have hc := h.content
  rw [held1] at hc
  cases hv : s.buf1Val with
  | true =>
    rw [hv, if_pos rfl, List.append_assoc, List.singleton_append] at hc
    obtain ⟨d, hd⟩ := exists_dest_of_lt hc hlt
    exact ⟨d, .inl (by rw [val, hv, hd]; simp)⟩
  | false =>
    rw [hv, if_neg Bool.false_ne_true, List.append_nil, held0] at hc
    by_cases h0 : s.buf0State = .inval
    · rw [if_neg (by simpa using h0), List.append_nil] at hc
      have hlen := congrArg List.length hc
      rw [announced, List.length_append, List.length_map, List.length_map] at hlen
      omega
    · rw [if_pos h0] at hc
      obtain ⟨d, hd⟩ := exists_dest_of_lt hc hlt
      have hs : s.stallBuf1 i = false := by rw [stallBuf1, hv]; rfl
      refine ⟨d, .inr ?_⟩
      simp [val, buf1Val, rdyMuxSel, next, hs, h0, hd]

end Noc2

/-! ### Runs -/

section Runs

variable {b : Build} {y : MemIoSplitter × Passed} {i : SplitterInput}

theorem requests_step :
    ((splitterPassed b).step y i).2.requests =
      if y.1.noc2.go i.noc2 then y.2.requests ++ [Noc2.request b i.noc2] else y.2.requests := rfl

theorem delivered_step :
    ((splitterPassed b).step y i).2.delivered = Noc2.gone y.1.noc2 i.noc2 y.2.delivered := by
  rw [Noc2.gone, ← List.append_assoc]
  rfl

theorem noc2_step : ((splitterPassed b).step y i).1.noc2 = y.1.noc2.next b i.noc2 := rfl

theorem requests_inv (h : (splitterPassed b).Reachable Framed y) :
    Noc2.Inv y.1.noc2 y.2.requests y.2.delivered := by
  refine h.invariant (P := fun y => Noc2.Inv y.1.noc2 y.2.requests y.2.delivered) ?_ ?_
  · rintro ⟨s, g⟩ ⟨hs, hg⟩
    have hs : s = ⟨.init, .init⟩ := hs
    have hg : g = .init := hg
    rw [hs, hg]
    exact Noc2.inv_init
  · intro z i hz hi
    rw [requests_step, delivered_step, noc2_step]
    refine hz.step fun hgo => ?_
    rw [Noc2.go, Bool.and_eq_true] at hgo
    exact hi hgo.1 hgo.2

/-- The flits of the requests with the sides that their address flits name. -/
def addressed (y : MemIoSplitter × Passed) : List (Side × Flit) :=
  steered requestLen Prod.snd Prod.fst y.2.requests

theorem delivered_prefix (h : (splitterPassed b).Reachable Framed y) :
    ∃ u, addressed y = y.2.delivered ++ u ∧ u.length ≤ 2 := by
  have hc := (requests_inv h).content
  rw [List.append_assoc] at hc
  obtain ⟨u, hu, hlen⟩ := steered_of_announced hc
  refine ⟨u, hu, Nat.le_trans hlen ?_⟩
  rw [List.length_append, Noc2.held1, Noc2.held0]
  split <;> split <;> simp

variable {r : Nat → MemIoSplitter × Passed} {w : Nat → SplitterInput}

theorem addressed_step : addressed y <+: addressed ((splitterPassed b).step y i) := by
  rw [addressed, addressed, requests_step]
  split
  · exact steered_prefix_snoc
  · exact List.prefix_refl _

/-- While each side is ready time and again, every request whose address has come is delivered. -/
theorem eventually_delivered (hr : (splitterPassed b).IsRun r w)
    (h0 : (splitterPassed b).Reachable Framed (r 0)) (hf : ∀ n, Framed (r n) (w n))
    (hrdy : ∀ d n, ∃ m, n ≤ m ∧ (w m).noc2.rdy d = true) (n : Nat) :
    ∃ m, n ≤ m ∧ addressed (r n) <+: (r m).2.delivered := by
  have hreach := hr.reachable h0 hf
  have haddr : ∀ m, addressed (r m) <+: addressed (r (m + 1)) := by
    intro m
    rw [hr m]
    exact addressed_step
  have hdel : ∀ m, (r m).2.delivered <+: (r (m + 1)).2.delivered := by
    intro m
    rw [hr m, delivered_step]
    exact List.prefix_append _ _
  have hgrow : ∀ m, n ≤ m → (r m).2.delivered.length < (addressed (r n)).length →
      ∃ p, m ≤ p ∧ (r m).2.delivered.length < (r p).2.delivered.length := by
    intro m hm hlt
    have hlt' : (r m).2.delivered.length < (addressed (r m)).length :=
      Nat.lt_of_lt_of_le hlt (prefix_of_le haddr hm).length_le
    obtain ⟨d, hd⟩ := (requests_inv (hreach m)).offered (b := b) (i := (w m).noc2) hlt'
    have hstart : ∃ p, m ≤ p ∧ (r p).1.noc2.val d = true := by
      obtain hd | hd := hd
      · exact ⟨m, Nat.le_refl m, hd⟩
      · refine ⟨m + 1, Nat.le_succ m, ?_⟩
        rw [hr m, noc2_step]
        exact hd
    obtain ⟨p, hp, hval⟩ := hstart
    obtain ⟨q, hq, hvalq, hrdyq⟩ := exists_taken (fun k => (r k).1.noc2.val d = true)
      (fun k => (w k).noc2.rdy d = true) hval
      (fun k _ hk hnr => by
        show (r (k + 1)).1.noc2.val d = true
        rw [hr k, noc2_step]
        exact Noc2.val_next hk (by simpa using hnr))
      (hrdy d p)
    refine ⟨q + 1, by omega, ?_⟩
    have hlast : (r q).2.delivered.length < (r (q + 1)).2.delivered.length := by
      rw [hr q, delivered_step]
      exact Noc2.length_gone hvalq hrdyq
    exact Nat.lt_of_le_of_lt (prefix_of_le hdel (hp.trans hq)).length_le hlast
  obtain ⟨m, hm, hlen⟩ := exists_ge hgrow
  refine ⟨m, hm, ?_⟩
  obtain ⟨u, hu, -⟩ := delivered_prefix (hreach m)
  exact List.prefix_of_prefix_length_le (prefix_of_le haddr hm) ⟨u, hu.symm⟩ hlen

end Runs

end Piton.Chipset
