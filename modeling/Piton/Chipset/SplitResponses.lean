import Piton.Chipset.SplitRequests

/-! Responses through the splitter: the mux stays with a side until its message has come in. -/

namespace Piton.Chipset

open Hw Noc

namespace Noc3

/-! ### What the registers hold -/

variable (s : Noc3)

/-- The flit in the second buffer. -/
def held1 : List Flit := if s.buf1Val then [s.buf1Data] else []

/-- The flit that waits in the first buffer. -/
def held0 : List Flit := if s.buf0State ≠ .inval then [s.buf0Data] else []

/-- After the responses `ys`, of which the flits `zs` have left. -/
structure Inv (s : Noc3) (ys : List (Side × Flit)) (zs : List Flit) : Prop where
  counter : s.msgCounter.toNat = due (tagLen Flit.len) ys
  state : s.msgState = .inval ∧ due (tagLen Flit.len) ys = 0 ∨ s.msgState = .header0 ∨
    s.msgState = .data
  src : due (tagLen Flit.len) ys ≠ 0 →
    ∃ d, s.msgSrc = some d ∧ ∀ a, (current (tagLen Flit.len) ys a).any (·.1 = d) = true
  dues : ∀ d, due Flit.len (fromSource d ys) =
    if s.msgSrc = some d then due (tagLen Flit.len) ys else 0
  unmixed : Unmixed Flit.len ys
  carries : ∀ d, Carries Flit.len (fun _ => true) d (fromSource d ys) ys
  content : ys.map Prod.snd = zs ++ s.held1 ++ s.held0

variable {s} {i : Noc3Input} {ys : List (Side × Flit)} {zs : List Flit}

theorem inv_init : Inv .init [] [] where
  counter := rfl
  state := .inl ⟨rfl, rfl⟩
  src := fun h => absurd rfl h
  dues := fun _ => rfl
  unmixed := Unmixed.nil
  carries := fun _ => Carries.nil
  content := rfl

/-! ### The next flit -/

theorem Inv.msgStateNext_header (h : Inv s ys zs) (hd : due (tagLen Flit.len) ys = 0) :
    s.msgStateNext = .header0 := by
  have hc : s.msgCounter = 0 := BitVec.eq_of_toNat_eq (h.counter.trans hd)
  rw [msgStateNext, hc]
  simp

theorem Inv.msgStateNext_inside (h : Inv s ys zs) (hd : due (tagLen Flit.len) ys ≠ 0) :
    s.msgStateNext = .data := by
  have hc : ¬ s.msgCounter = 0 := by
    intro h0
    rw [← h.counter, h0] at hd
    exact hd rfl
  obtain ⟨-, h0⟩ | hs | hs := h.state
  · exact absurd h0 hd
  · rw [msgStateNext, hs, if_neg (by simp), if_neg hc, if_pos rfl]
  · rw [msgStateNext, hs, if_neg (by simp), if_neg hc, if_neg (by simp), if_pos rfl]

/-- Between two messages the mux selects a side that has a flit. -/
theorem inputMuxSel_of_go (hs : s.msgStateNext = .header0) (hgo : s.go i = true) :
    s.inputMuxSel i = some (s.selected i) := by
  have hval : i.val (s.selected i) = true := by
    rw [go, Bool.and_eq_true] at hgo
    exact hgo.1
  have hor : i.val .mem = true ∨ i.val .io = true := by
    cases hsel : s.selected i with
    | io => exact .inr (hsel ▸ hval)
    | mem => exact .inl (hsel ▸ hval)
  rw [selected, inputMuxSel, hs]
  cases hm : i.val .mem <;> cases hi : i.val .io
  · simp [hm, hi] at hor
  · rfl
  · rfl
  · by_cases hsrc : s.msgSrc = some .mem <;> simp [hsrc]

theorem Inv.msgStateNext_ne (h : Inv s ys zs) : s.msgStateNext ≠ .inval := by
  by_cases hd : due (tagLen Flit.len) ys = 0
  · rw [h.msgStateNext_header hd]
    simp
  · rw [h.msgStateNext_inside hd]
    simp

/-- Inside a message the mux stays with its side. -/
theorem selected_of_src (hs : s.msgStateNext = .data) {d : Side} (hd : s.msgSrc = some d) :
    s.selected i = d := by
  have hmux : s.inputMuxSel i = some d := by rw [inputMuxSel, hs, if_pos (by simp), hd]
  rw [selected, hmux]
  cases d <;> rfl

/-- The side whose flit comes in is that of the message in hand. -/
theorem Inv.selected_src (h : Inv s ys zs) (hd : due (tagLen Flit.len) ys ≠ 0) :
    s.msgSrc = some (s.selected i) ∧
      ∀ a, (current (tagLen Flit.len) ys a).any (·.1 = s.selected i) = true := by
  obtain ⟨d, hsrc, hcur⟩ := h.src hd
  rw [selected_of_src (h.msgStateNext_inside hd) hsrc]
  exact ⟨hsrc, hcur⟩

/-- The register of the source after a flit. -/
theorem Inv.msgSrc_next (h : Inv s ys zs) (hgo : s.go i = true) :
    (s.next i).msgSrc = some (s.selected i) := by
  by_cases hd : due (tagLen Flit.len) ys = 0
  · have hs := h.msgStateNext_header hd
    rw [next, hgo, hs]
    exact inputMuxSel_of_go hs hgo
  · have hs := h.msgStateNext_inside hd
    rw [next, hgo, hs]
    exact (h.selected_src hd).1

/-! ### One clock edge -/

/-- The flit that comes in. -/
def response (s : Noc3) (i : Noc3Input) : Side × Flit := (s.selected i, i.data (s.selected i))

theorem Inv.current_response (h : Inv s ys zs) :
    (current (tagLen Flit.len) ys (some (response s i))).any (·.1 = s.selected i) = true := by
  by_cases hd : due (tagLen Flit.len) ys = 0
  · rw [current_of_due_eq _ hd]
    simp [response]
  · exact (h.selected_src hd).2 _

theorem Inv.due_selected (h : Inv s ys zs) :
    due Flit.len (fromSource (s.selected i) ys) = due (tagLen Flit.len) ys := by
  rw [h.dues]
  by_cases hd : due (tagLen Flit.len) ys = 0
  · rw [hd, ite_self]
  · rw [if_pos (h.selected_src hd).1]

theorem current_isSome {xs : List Flit} {x : Flit} :
    (current Flit.len xs (some x)).any (fun _ => true) = true := by
  by_cases hd : due Flit.len xs = 0
  · rw [current_of_due_eq _ hd]
    rfl
  · obtain ⟨ps, a, t, hp, -⟩ := exists_last Flit.len hd
    simp [current, hd, hp]

theorem Inv.carries_response (h : Inv s ys zs) (d : Side) :
    Carries Flit.len (fun _ => true) d (fromSource d (ys ++ [response s i]))
      (ys ++ [response s i]) := by
  by_cases hd : s.selected i = d
  · subst hd
    rw [response, fromSource_snoc_self]
    exact (h.carries _).moved h.due_selected.symm h.current_response current_isSome
  · rw [response, fromSource_snoc_of_ne hd]
    refine (h.carries d).foreign hd ?_
    have hcur := h.current_response (i := i)
    rw [response] at hcur
    cases hk : current (tagLen Flit.len) ys (some (s.selected i, i.data (s.selected i))) with
    | none => rfl
    | some f =>
      rw [hk] at hcur
      exact hcur

theorem Inv.due_response (h : Inv s ys zs) (hgo : s.go i = true) :
    (s.next i).msgCounter.toNat = due (tagLen Flit.len) (ys ++ [response s i]) := by
  rw [due_snoc]
  by_cases hd : due (tagLen Flit.len) ys = 0
  · rw [if_pos hd, next, hgo, h.msgStateNext_header hd]
    rfl
  · have hc : s.msgCounter.toNat ≠ 0 := by rwa [h.counter]
    rw [if_neg hd, next, hgo, h.msgStateNext_inside hd, ← h.counter]
    exact Noc2.toNat_sub_one hc

theorem Inv.dues_response (h : Inv s ys zs) (hgo : s.go i = true) (d : Side) :
    due Flit.len (fromSource d (ys ++ [response s i])) =
      if (s.next i).msgSrc = some d then due (tagLen Flit.len) (ys ++ [response s i]) else 0 := by
  rw [h.msgSrc_next hgo]
  by_cases hd : s.selected i = d
  · subst hd
    rw [if_pos rfl, due_snoc, response, fromSource_snoc_self, due_snoc, h.due_selected]
    rfl
  · have hne : some (s.selected i) ≠ some d := fun h0 => hd (Option.some_inj.1 h0)
    rw [if_neg hne, response, fromSource_snoc_of_ne hd, h.dues]
    by_cases h0 : due (tagLen Flit.len) ys = 0
    · rw [h0, ite_self]
    · rw [(h.selected_src h0).1, if_neg hne]

theorem map_out : (s.out i).toList = if s.stallBuf1 i then [] else s.held1 := by
  rw [Noc3.out, stallBuf1, held1]
  cases s.buf1Val <;> cases i.rdy <;> rfl

/-- The buffers move on, or wait. -/
theorem Inv.held_next (h : Inv s ys zs) (i : Noc3Input) :
    (s.out i).toList ++ (s.next i).held1 ++ (s.next i).held0 =
    s.held1 ++ s.held0 ++ if s.go i then [(response s i).2] else [] := by
  rw [map_out]
  have hne := h.msgStateNext_ne
  cases hs : s.stallBuf1 i with
  | true =>
    have hgo : s.go i = false := by rw [go, hs]; simp
    have h1 : (s.next i).held1 = s.held1 := by simp [held1, buf1Val, next, hs]
    have h0 : (s.next i).held0 = s.held0 := by simp [held0, next, hs]
    rw [h1, h0, hgo]
    simp
  | false =>
    have h1 : (s.next i).held1 = s.held0 := by simp [held1, held0, buf1Val, next, hs]
    have h0 : (s.next i).held0 = if s.go i then [(response s i).2] else [] := by
      cases hgo : s.go i with
      | false => simp [held0, next, hs, hgo]
      | true => simp [held0, next, hs, hgo, response, hne]
    rw [h1, h0, if_neg Bool.false_ne_true]

theorem Inv.step_go (h : Inv s ys zs) (hgo : s.go i = true) :
    Inv (s.next i) (ys ++ [response s i]) (zs ++ (s.out i).toList) where
  counter := h.due_response hgo
  state := by
    have hs : (s.next i).msgState = s.msgStateNext := by simp [next, hgo]
    rw [hs]
    by_cases hd : due (tagLen Flit.len) ys = 0
    · exact .inr (.inl (h.msgStateNext_header hd))
    · exact .inr (.inr (h.msgStateNext_inside hd))
  src := by
    intro hd
    refine ⟨s.selected i, h.msgSrc_next hgo, fun a => ?_⟩
    rw [current_snoc _ hd]
    exact h.current_response
  dues := h.dues_response hgo
  unmixed := h.unmixed.snoc h.current_response
  carries := h.carries_response
  content := by
    have hheld := h.held_next i
    rw [hgo, if_pos rfl] at hheld
    rw [List.map_append, h.content, List.append_assoc, List.append_assoc, List.append_assoc,
      List.append_assoc, ← List.append_assoc (s.out i).toList, hheld]
    simp [List.append_assoc]

theorem Inv.step_kept (h : Inv s ys zs) (hgo : s.go i = false) :
    Inv (s.next i) ys (zs ++ (s.out i).toList) where
  counter := by rw [← h.counter]; simp [next, hgo]
  state := by
    have hs : (s.next i).msgState = s.msgState := by simp [next, hgo]
    rw [hs]
    exact h.state
  src := by
    have hs : (s.next i).msgSrc = s.msgSrc := by simp [next, hgo]
    rw [hs]
    exact h.src
  dues := by
    have hs : (s.next i).msgSrc = s.msgSrc := by simp [next, hgo]
    rw [hs]
    exact h.dues
  unmixed := h.unmixed
  carries := h.carries
  content := by
    have hheld := h.held_next i
    rw [hgo, if_neg Bool.false_ne_true, List.append_nil] at hheld
    rw [h.content, List.append_assoc, List.append_assoc, List.append_assoc,
      ← List.append_assoc (s.out i).toList, hheld]

theorem Inv.step (h : Inv s ys zs) (i : Noc3Input) :
    Inv (s.next i) (if s.go i then ys ++ [response s i] else ys) (zs ++ (s.out i).toList) := by
  cases hgo : s.go i with
  | false => exact h.step_kept hgo
  | true => exact h.step_go hgo

/-- The wires of both sides show the one flit that comes in. -/
theorem accepted_eq :
    (if i.val .io && s.rdy i .io then [(Side.io, i.data .io)] else []) ++
      (if i.val .mem && s.rdy i .mem then [(Side.mem, i.data .mem)] else []) =
      if s.go i then [response s i] else [] := by
  rw [rdy, rdy, go, response]
  cases s.selected i <;> cases s.stallBuf1 i <;> simp

/-! ### An offer to the network -/

theorem buf1Val_next (hv : s.buf1Val = true) (hr : i.rdy = false) :
    (s.next i).buf1Val = true := by
  have hs : s.stallBuf1 i = true := by rw [stallBuf1, hv, hr]; rfl
  rw [buf1Val] at hv ⊢
  simpa [next, hs] using hv

theorem Inv.offered (h : Inv s ys zs) (hlt : zs.length < ys.length) :
    s.buf1Val = true ∨ (s.next i).buf1Val = true := by
  cases hv : s.buf1Val with
  | true => exact .inl rfl
  | false =>
    right
    have hc := congrArg List.length h.content
    rw [held1, hv, held0] at hc
    by_cases h0 : s.buf0State = .inval
    · simp [h0] at hc
      omega
    · have hs : s.stallBuf1 i = false := by rw [stallBuf1, hv]; rfl
      simp [buf1Val, next, hs, h0]

end Noc3

/-! ### Runs -/

section Runs

variable {b : Build} {y : MemIoSplitter × Passed} {i : SplitterInput}
  {ok : MemIoSplitter × Passed → SplitterInput → Prop}

theorem responses_step :
    ((splitterPassed b).step y i).2.responses =
      if y.1.noc3.go i.noc3 then y.2.responses ++ [Noc3.response y.1.noc3 i.noc3]
      else y.2.responses := by
  show y.2.responses ++ _ ++ _ = _
  rw [List.append_assoc, Noc3.accepted_eq]
  split
  · rfl
  · exact List.append_nil _

theorem returned_step :
    ((splitterPassed b).step y i).2.returned =
      y.2.returned ++ (y.1.noc3.out i.noc3).toList := rfl

theorem noc3_step : ((splitterPassed b).step y i).1.noc3 = y.1.noc3.next i.noc3 := rfl

theorem responses_inv (h : (splitterPassed b).Reachable ok y) :
    Noc3.Inv y.1.noc3 y.2.responses y.2.returned := by
  refine h.invariant (P := fun y => Noc3.Inv y.1.noc3 y.2.responses y.2.returned) ?_ ?_
  · rintro ⟨s, g⟩ ⟨hs, hg⟩
    have hs : s = ⟨.init, .init⟩ := hs
    have hg : g = .init := hg
    rw [hs, hg]
    exact Noc3.inv_init
  · intro z i hz _
    rw [responses_step, returned_step, noc3_step]
    exact hz.step i.noc3

/-- What has left for the network are the first responses, all but two at most. -/
theorem returned_prefix (h : (splitterPassed b).Reachable ok y) :
    ∃ sent rest, y.2.responses = sent ++ rest ∧ rest.length ≤ 2 ∧
      y.2.returned = sent.map Prod.snd := by
  have hc := (responses_inv h).content
  rw [List.append_assoc] at hc
  obtain ⟨sent, rest, hsplit, hsent, hrest⟩ := List.map_eq_append_iff.1 hc
  refine ⟨sent, rest, hsplit, ?_, hsent.symm⟩
  have hlen := congrArg List.length hrest
  rw [List.length_map, List.length_append] at hlen
  rw [hlen, Noc3.held1, Noc3.held0]
  split <;> split <;> simp

variable {r : Nat → MemIoSplitter × Passed} {w : Nat → SplitterInput}

/-- While the network is ready time and again, every response leaves. -/
theorem eventually_returned (hr : (splitterPassed b).IsRun r w)
    (h0 : (splitterPassed b).Reachable ok (r 0)) (hok : ∀ n, ok (r n) (w n))
    (hrdy : ∀ n, ∃ m, n ≤ m ∧ (w m).noc3.rdy = true) (n : Nat) :
    ∃ m, n ≤ m ∧ (r n).2.responses.map Prod.snd <+: (r m).2.returned := by
  have hreach := hr.reachable h0 hok
  have hresp : ∀ m, (r m).2.responses <+: (r (m + 1)).2.responses := by
    intro m
    rw [hr m, responses_step]
    split
    · exact List.prefix_append _ _
    · exact List.prefix_refl _
  have hret : ∀ m, (r m).2.returned <+: (r (m + 1)).2.returned := by
    intro m
    rw [hr m, returned_step]
    exact List.prefix_append _ _
  have hgrow : ∀ m, n ≤ m → (r m).2.returned.length < (r n).2.responses.length →
      ∃ p, m ≤ p ∧ (r m).2.returned.length < (r p).2.returned.length := by
    intro m hm hlt
    have hlt' := Nat.lt_of_lt_of_le hlt (prefix_of_le hresp hm).length_le
    have hstart : ∃ p, m ≤ p ∧ (r p).1.noc3.buf1Val = true := by
      obtain hv | hv := (responses_inv (hreach m)).offered (i := (w m).noc3) hlt'
      · exact ⟨m, Nat.le_refl m, hv⟩
      · refine ⟨m + 1, Nat.le_succ m, ?_⟩
        rw [hr m, noc3_step]
        exact hv
    obtain ⟨p, hp, hval⟩ := hstart
    obtain ⟨q, hq, hvalq, hrdyq⟩ := exists_taken (fun k => (r k).1.noc3.buf1Val = true)
      (fun k => (w k).noc3.rdy = true) hval
      (fun k _ hk hnr => by
        show (r (k + 1)).1.noc3.buf1Val = true
        rw [hr k, noc3_step]
        exact Noc3.buf1Val_next hk (by simpa using hnr))
      (hrdy p)
    refine ⟨q + 1, by omega, ?_⟩
    have hlast : (r q).2.returned.length < (r (q + 1)).2.returned.length := by
      rw [hr q, returned_step, Noc3.out, hvalq, hrdyq]
      simp
    exact Nat.lt_of_le_of_lt (prefix_of_le hret (hp.trans hq)).length_le hlast
  obtain ⟨m, hm, hlen⟩ := exists_ge hgrow
  refine ⟨m, hm, ?_⟩
  obtain ⟨sent, rest, hsplit, -, hsent⟩ := returned_prefix (hreach m)
  have hall : (r n).2.responses.map Prod.snd <+: (r m).2.responses.map Prod.snd :=
    (prefix_of_le hresp hm).map Prod.snd
  refine List.prefix_of_prefix_length_le hall ⟨rest.map Prod.snd, ?_⟩ (by simpa using hlen)
  rw [hsent, hsplit, List.map_append]

end Runs

/-! ### Whole messages -/

/-- The sides have taken, in order and once, the flits of the requests, each message on the side that
its address flit names; the responses come in as whole messages of one side, those of each side in their
order, and leave in the order in which they came. Two flits at most are held each way. -/
structure Routed (y : MemIoSplitter × Passed) : Prop where
  requests : ∃ held, steered requestLen Prod.snd Prod.fst y.2.requests = y.2.delivered ++ held ∧
    held.length ≤ 2
  unmixed : Unmixed Flit.len y.2.responses
  carries : ∀ d, packetsFrom Flit.len d y.2.responses = packets Flit.len (fromSource d y.2.responses)
  responses : ∃ sent held, y.2.responses = sent ++ held ∧ held.length ≤ 2 ∧
    y.2.returned = sent.map Prod.snd ∧ Unmixed Flit.len sent

/-- All that has come in leaves at some time. -/
structure Drains (r : Nat → MemIoSplitter × Passed) (w : Nat → SplitterInput) : Prop where
  requests : (∀ d n, ∃ m, n ≤ m ∧ (w m).noc2.rdy d = true) → ∀ n, ∃ m, n ≤ m ∧
    steered requestLen Prod.snd Prod.fst (r n).2.requests <+: (r m).2.delivered
  responses : (∀ n, ∃ m, n ≤ m ∧ (w m).noc3.rdy = true) → ∀ n, ∃ m, n ≤ m ∧
    (r n).2.responses.map Prod.snd <+: (r m).2.returned

theorem routed_of_reachable {b : Build} {y : MemIoSplitter × Passed}
    (h : (splitterPassed b).Reachable Framed y) : Routed y where
  requests := delivered_prefix h
  unmixed := (responses_inv h).unmixed
  carries := by
    intro d
    have hc := (responses_inv h).carries d
    rw [Carries] at hc
    rw [hc, List.filter_eq_self]
    intro pk hpk
    obtain ⟨a, t, rfl⟩ := List.exists_cons_of_ne_nil (packets_ne_nil Flit.len hpk)
    rfl
  responses := by
    obtain ⟨sent, rest, hsplit, hrest, hsent⟩ := returned_prefix h
    have hu := (responses_inv h).unmixed
    rw [hsplit] at hu
    exact ⟨sent, rest, hsplit, hrest, hsent, hu.of_append⟩

/-- In every run the messages are routed whole, and with receivers that are ready time and again all
of them arrive. -/
theorem messages_routed (b : Build) {r : Nat → MemIoSplitter × Passed} {w : Nat → SplitterInput}
    (hr : (splitterPassed b).IsRun r w) (h0 : (splitterPassed b).init (r 0))
    (hf : ∀ n, Framed (r n) (w n)) : (∀ n, Routed (r n)) ∧ Drains r w := by
  have hreach := hr.reachable (.init h0) hf
  refine ⟨fun n => routed_of_reachable (hreach n), ?_, ?_⟩
  · exact fun hrdy => eventually_delivered hr (.init h0) hf hrdy
  · exact fun hrdy => eventually_returned hr (.init h0) hf hrdy

/-- A message of three flits for I/O, after which nothing comes. -/
def ioRequest (n : Nat) : SplitterInput where
  noc2 :=
    { uartBootEn := false
      val := n < 3
      data := if n = 0 then 2#64 <<< 22 else if n = 1 then 1#64 <<< 55 else 7
      rdy := fun _ => true }
  noc3 := ⟨fun _ => false, fun _ => 0, true⟩

/-- The splitter after `reset`, for the run below. -/
def splitterStart : MemIoSplitter × Passed := (⟨.init, .init⟩, .init)

theorem init_splitterStart (b : Build) : (splitterPassed b).init splitterStart := ⟨rfl, rfl⟩

theorem framed_ioRequest (n : Nat) :
    Framed ((splitterPassed .proto).trace splitterStart ioRequest n) (ioRequest n) := by
  match n with
  | 0 => decide +kernel
  | 1 => decide +kernel
  | 2 => decide +kernel
  | n + 3 =>
    intro hval
    have hlt : n + 3 < 3 := of_decide_eq_true hval
    omega

theorem messages_routed_ioRequest :
    Routed ((splitterPassed .proto).trace splitterStart ioRequest 6) ∧
      ((splitterPassed .proto).trace splitterStart ioRequest 6).2.delivered =
        [(.io, 2#64 <<< 22), (.io, 1#64 <<< 55), (.io, 7)] :=
  ⟨(messages_routed .proto (Machine.isRun_trace _ _) (init_splitterStart _) framed_ioRequest).1 6,
    by decide +kernel⟩

end Piton.Chipset
