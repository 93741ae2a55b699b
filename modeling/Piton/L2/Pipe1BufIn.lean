import Piton.L2.Lossless

/-! `l2_pipe1_buf_in` follows the messages of its stream. -/

namespace Piton.L2

open Hw
open Noc (Flit)
open Pipe1State (isInterrupt)

/-- The first flit of a message to pipe 1: an interrupt has one data flit, another message up to two
after its three header flits. -/
def Pipe1Header (f : Flit) : Prop :=
  isInterrupt f = true ∧ f.len = 1 ∨ isInterrupt f = false ∧ 2 ≤ f.len ∧ f.len ≤ 4

instance (f : Flit) : Decidable (Pipe1Header f) := inferInstanceAs (Decidable (_ ∨ _))

/-- The header of a message: the one header flit of an interrupt three times. -/
def pipe1Heads : List Flit → List Flit
  | [] => []
  | f :: t => if isInterrupt f then [f, f, f] else f :: t.take 2

/-- The data flits of a message. -/
def pipe1Data : List Flit → List Flit
  | [] => []
  | f :: t => if isInterrupt f then t else t.drop 2

section

variable {f : Flit} {t : List Flit}

theorem pipe1Heads_interrupt (hi : isInterrupt f = true) : pipe1Heads (f :: t) = [f, f, f] :=
  if_pos hi

theorem pipe1Heads_other (hi : isInterrupt f = false) : pipe1Heads (f :: t) = f :: t.take 2 := by
  rw [pipe1Heads, hi, if_neg Bool.false_ne_true]

theorem pipe1Data_interrupt (hi : isInterrupt f = true) : pipe1Data (f :: t) = t := if_pos hi

theorem pipe1Data_other (hi : isInterrupt f = false) : pipe1Data (f :: t) = t.drop 2 := by
  rw [pipe1Data, hi, if_neg Bool.false_ne_true]

theorem Pipe1Header.length (h : Pipe1Header f) (hi : isInterrupt f = false) :
    2 ≤ f.len ∧ f.len ≤ 4 := by
  obtain ⟨hc, -⟩ | ⟨-, hlen⟩ := h
  · rw [hi] at hc
    cases hc
  · exact hlen

theorem Pipe1Header.length_interrupt (h : Pipe1Header f) (hi : isInterrupt f = true) :
    f.len = 1 := by
  obtain ⟨-, hlen⟩ | ⟨hc, -⟩ := h
  · exact hlen
  · rw [hi] at hc
    cases hc

end

theorem due_of_zero {len : Flit → Nat} (h : ∀ f, len f = 0) (xs : List Flit) : due len xs = 0 := by
  induction xs using List.reverseRecOn with
  | nil => rfl
  | append_singleton xs x ih => rw [due_snoc, if_pos ih, h]

theorem pipe1_shape : Shape pipe1Ctrl Pipe1Header pipe1Heads pipe1Data where
  headerPos _ := Nat.succ_pos 2
  dataPos _ := Nat.succ_pos 0
  header := by
    rintro pk n ⟨f, t, rfl, ht⟩ hwf
    cases hi : isInterrupt f with
    | true =>
      rw [pipe1Heads_interrupt hi]
      exact ⟨0, ⟨f, [f, f], rfl, rfl⟩, fun _ => rfl⟩
    | false =>
      have hlen := (hwf f rfl).length hi
      have htake := List.length_take_le 2 t
      rw [pipe1Heads_other hi]
      refine ⟨2 - (t.take 2).length, ⟨f, t.take 2, rfl, ?_⟩, ?_⟩
      · change (t.take 2).length + (2 - (t.take 2).length) = 2
        omega
      · intro hn
        rw [List.length_take]
        omega
  data _ _ := due_of_zero (fun _ => rfl) _

/-- What the buffer parts is what `pipe1BufIn` reads of a whole message. -/
theorem pipe1BufIn_eq {pk : List Flit} (hpk : IsPacket Flit.len pk 0)
    (hwf : ∀ f ∈ pk.head?, isInterrupt f = false ∧ Pipe1Header f) :
    Noc.pipe1BufIn pk = some (msgHeaderOut (pipe1Heads pk), pipe1Data pk) := by
  obtain ⟨f, t, rfl, ht⟩ := hpk
  obtain ⟨hi, hf⟩ := hwf f rfl
  have hlen := hf.length hi
  rw [pipe1Heads_other hi, pipe1Data_other hi]
  match t, ht with
  | [], ht => exact absurd ht (by rw [List.length_nil]; omega)
  | [_], ht => exact absurd ht (by rw [List.length_singleton]; omega)
  | _ :: _ :: _, _ => rfl

/-- Where the buffer is in its stream. `replay` are the header flits of an interrupt that have gone
into the queue while the flit is stalled. -/
inductive Pipe1Phase : Pipe1State → BufInHistory → List Flit → Prop
  | start {s g} : s.msgState = 0 → s.msgIntState = 0 → due Flit.len g.taken = 0 →
      Pipe1Phase s g []
  | replay1 {s g} {f : Flit} : s.msgState = 1 → s.msgIntState = 1 → s.msgDataState = 1 →
      due Flit.len g.taken = 0 → isInterrupt f = true → Pipe1Header f → g.offered = some f →
      Pipe1Phase s g [f]
  | replay2 {s g} {f : Flit} : s.msgState = 2 → s.msgIntState = 2 → s.msgDataState = 1 →
      due Flit.len g.taken = 0 → isInterrupt f = true → Pipe1Header f → g.offered = some f →
      Pipe1Phase s g [f, f]
  | header1 {s g} {f : Flit} : s.msgState = 1 → s.msgIntState = 0 →
      s.msgDataState = BitVec.ofNat 2 (f.len - 2) → inHand Flit.len g.taken = [f] →
      isInterrupt f = false → Pipe1Header f → due Flit.len g.taken = f.len →
      Pipe1Phase s g []
  | header2 {s g} {f x : Flit} : s.msgState = 2 → s.msgIntState = 0 →
      s.msgDataState = BitVec.ofNat 2 (f.len - 2) → inHand Flit.len g.taken = [f, x] →
      isInterrupt f = false → Pipe1Header f → due Flit.len g.taken = f.len - 1 →
      Pipe1Phase s g []
  | data0 {s g} {f : Flit} {t : List Flit} {n : Nat} : s.msgState = 3 → s.msgIntState = 0 →
      s.msgDataState = BitVec.ofNat 2 n → inHand Flit.len g.taken = f :: t →
      isInterrupt f = true ∨ 2 ≤ t.length → due Flit.len g.taken = n → n = 1 ∨ n = 2 →
      Pipe1Phase s g []
  | data1 {s g} {f : Flit} {t : List Flit} : s.msgState = 4 → s.msgIntState = 0 →
      inHand Flit.len g.taken = f :: t → isInterrupt f = true ∨ 2 ≤ t.length →
      due Flit.len g.taken = 1 → Pipe1Phase s g []

theorem pipe1_next (s : Pipe1State) (dataIn : Option Flit) (realReadyIn : Bool) :
    pipe1Ctrl.next s dataIn realReadyIn =
      { msgState := s.msgStateNext (dataIn.isSome && realReadyIn)
        msgDataState := s.msgDataStateNext dataIn
        msgIntState := s.msgIntStateNext dataIn realReadyIn } := rfl

/-- A cycle in which no flit goes into a queue. -/
theorem Pipe1Phase.keep {s s' : Pipe1State} {g g' : BufInHistory} {replay : List Flit}
    (h : Pipe1Phase s g replay) (hm : s'.msgState = s.msgState)
    (hi : s'.msgIntState = s.msgIntState)
    (hd : s.msgState ≠ 0 → s'.msgDataState = s.msgDataState) (ht : g'.taken = g.taken)
    (ho : replay ≠ [] → g'.offered = g.offered) : Pipe1Phase s' g' replay := by
  cases h with
  | start h1 h2 h3 => exact .start (hm.trans h1) (hi.trans h2) (ht ▸ h3)
  | replay1 h1 h2 h3 h4 h5 h6 h7 =>
    have hd' := hd (by rw [h1]; decide)
    exact .replay1 (hm.trans h1) (hi.trans h2) (hd'.trans h3) (ht ▸ h4) h5 h6
      ((ho (List.cons_ne_nil _ _)).trans h7)
  | replay2 h1 h2 h3 h4 h5 h6 h7 =>
    have hd' := hd (by rw [h1]; decide)
    exact .replay2 (hm.trans h1) (hi.trans h2) (hd'.trans h3) (ht ▸ h4) h5 h6
      ((ho (List.cons_ne_nil _ _)).trans h7)
  | header1 h1 h2 h3 h4 h5 h6 h7 =>
    have hd' := hd (by rw [h1]; decide)
    exact .header1 (hm.trans h1) (hi.trans h2) (hd'.trans h3) (ht ▸ h4) h5 h6 (ht ▸ h7)
  | header2 h1 h2 h3 h4 h5 h6 h7 =>
    have hd' := hd (by rw [h1]; decide)
    exact .header2 (hm.trans h1) (hi.trans h2) (hd'.trans h3) (ht ▸ h4) h5 h6 (ht ▸ h7)
  | data0 h1 h2 h3 h4 h5 h6 h7 =>
    have hd' := hd (by rw [h1]; decide)
    exact .data0 (hm.trans h1) (hi.trans h2) (hd'.trans h3) (ht ▸ h4) h5 (ht ▸ h6) h7
  | data1 h1 h2 h3 h4 h5 => exact .data1 (hm.trans h1) (hi.trans h2) (ht ▸ h3) h4 (ht ▸ h5)

section

variable {s : BufIn Pipe1State 3 2} {g : BufInHistory} {i : BufInInput} {replay : List Flit} {x : Flit}

/-- The buffer is in a phase of its stream, and its queues have been filled accordingly. -/
def Pipe1Follows (s : BufIn Pipe1State 3 2) (g : BufInHistory) : Prop :=
  ∃ replay, Pipe1Phase s.ctrl g replay ∧
    Parsed pipe1Ctrl Pipe1Header pipe1Heads pipe1Data g replay

theorem Pipe1Phase.quiet (h : Pipe1Phase s.ctrl g replay)
    (hp : Parsed pipe1Ctrl Pipe1Header pipe1Heads pipe1Data g replay)
    (hok : ∀ f ∈ g.offered, ∀ x ∈ i.dataIn, x = f)
    (hi : i.dataIn = none ∨ s.realReadyIn pipe1Ctrl = false) :
    Pipe1Follows (s.step pipe1Ctrl i) (g.record pipe1Ctrl s i) := by
  obtain ⟨ht, hh, hd⟩ := BufIn.record_quiet (g := g) hi
  refine ⟨replay, h.keep ?_ ?_ ?_ ht ?_, hp.keep ht hh hd⟩
  · rw [BufIn.ctrl_step, pipe1_next]
    rcases hi with hi | hi <;> rw [hi]
    · rfl
    · rw [Bool.and_false]
      rfl
  · rw [BufIn.ctrl_step, pipe1_next]
    rcases hi with hi | hi <;> rw [hi]
    · rfl
    · cases i.dataIn <;> rfl
  · intro hne
    rw [BufIn.ctrl_step, pipe1_next]
    cases i.dataIn with
    | none => rfl
    | some x => exact if_neg hne
  · intro hne
    obtain ⟨f, hf⟩ : ∃ f, g.offered = some f := by
      cases h with
      | replay1 _ _ _ _ _ _ h7 => exact ⟨_, h7⟩
      | replay2 _ _ _ _ _ _ h7 => exact ⟨_, h7⟩
      | _ => exact absurd rfl hne
    unfold BufInHistory.record
    cases hx : i.dataIn with
    | none => rfl
    | some x =>
      rcases hi with hi | hi
      · rw [hi] at hx
        cases hx
      · simp only [BufIn.realReadyIn_of_readyIn hi, Bool.false_eq_true, if_false]
        rw [hf, hok f hf x hx]

/-! ### A flit goes into a queue -/

theorem next_msgState (hx : i.dataIn = some x) (hr : s.realReadyIn pipe1Ctrl = true) :
    (s.step pipe1Ctrl i).ctrl.msgState = s.ctrl.msgStateNext true := by
  rw [BufIn.ctrl_step, pipe1_next, hx, hr]
  rfl

theorem next_msgDataState (hx : i.dataIn = some x) :
    (s.step pipe1Ctrl i).ctrl.msgDataState = s.ctrl.msgDataStateNext (some x) := by
  rw [BufIn.ctrl_step, pipe1_next, hx]

theorem next_msgIntState (hx : i.dataIn = some x) (hr : s.realReadyIn pipe1Ctrl = true) :
    (s.step pipe1Ctrl i).ctrl.msgIntState = s.ctrl.msgIntStateNext (some x) true := by
  rw [BufIn.ctrl_step, pipe1_next, hx, hr]

theorem muxHeader_of {n : BitVec 3} (h : s.ctrl.msgState = n) :
    pipe1Ctrl.muxHeader s.ctrl = (n = 0 || n = 1 || n = 2) := by
  subst h
  rfl

theorem stall_of {n m : BitVec 3} (h : s.ctrl.msgState = n) (hi : s.ctrl.msgIntState = m) :
    pipe1Ctrl.stall s.ctrl (some x) = (isInterrupt x && n = 0 || m = 1) := by
  subst h hi
  rfl

/-- The first flit of an interrupt is stalled, the first flit of another message is taken. -/
theorem step_start (hx : i.dataIn = some x) (hr : s.realReadyIn pipe1Ctrl = true)
    (h1 : s.ctrl.msgState = 0) (h2 : s.ctrl.msgIntState = 0) (h3 : due Flit.len g.taken = 0)
    (hp : Parsed pipe1Ctrl Pipe1Header pipe1Heads pipe1Data g []) (hwf : Pipe1Header x) :
    Pipe1Follows (s.step pipe1Ctrl i) (g.record pipe1Ctrl s i) := by
  obtain ⟨hh, hd⟩ := BufIn.record_header (g := g) hx (muxHeader_of h1) hr
  have hstate : (s.step pipe1Ctrl i).ctrl.msgState = 1 := by
    rw [next_msgState hx hr, Pipe1State.msgStateNext, h1]
    rfl
  have hint : (s.step pipe1Ctrl i).ctrl.msgIntState = if isInterrupt x then 1 else 0 := by
    rw [next_msgIntState hx hr, Pipe1State.msgIntStateNext, h1, h2]
    cases isInterrupt x <;> rfl
  have hdata : (s.step pipe1Ctrl i).ctrl.msgDataState =
      if isInterrupt x then 1 else (x.length - 2).setWidth 2 := by
    rw [next_msgDataState hx, Pipe1State.msgDataStateNext, h1]
    rfl
  have hstall := stall_of (x := x) h1 h2
  cases hi : isInterrupt x with
  | true =>
    rw [hi] at hint hdata hstall
    obtain ⟨ht, ho⟩ := BufIn.record_stall (g := g) hx hstall
    refine ⟨[x], .replay1 hstate hint hdata (ht ▸ h3) hi hwf ho,
      hp.replayed ht hh hd h3 (n := 2) (by decide) ⟨x, [], rfl, rfl⟩⟩
  | false =>
    rw [hi] at hint hdata hstall
    have hlen := hwf.length hi
    have ht := BufIn.record_taken (g := g) hx hr hstall
    have hcode : (x.length - 2).setWidth 2 = BitVec.ofNat 2 (x.len - 2) := by
      apply BitVec.eq_of_toNat_eq
      rw [BitVec.toNat_setWidth, BitVec.toNat_sub, BitVec.toNat_ofNat]
      change (2 ^ 8 - 2 + x.len) % 2 ^ 8 % 2 ^ 2 = (x.len - 2) % 2 ^ 2
      omega
    refine ⟨[], .header1 (f := x) hstate hint (hdata.trans hcode) ?_ hi hwf ?_,
      hp.take ht hh (hd.trans (List.append_nil _).symm) ?_ fun hne => absurd h3 hne⟩
    · rw [ht, inHand_snoc_of_due_eq h3]
    · rw [ht, due_snoc, if_pos h3]
    · intro _
      rw [pipe1Heads_other hi, pipe1Data_other hi]
      exact ⟨hwf, rfl, rfl⟩

/-- The header flit of an interrupt once more, and then the third time, when it is taken. -/
theorem step_replay {f : Flit} (hx : i.dataIn = some x) (hr : s.realReadyIn pipe1Ctrl = true)
    (h : Pipe1Phase s.ctrl g replay) (hne : replay ≠ [])
    (hp : Parsed pipe1Ctrl Pipe1Header pipe1Heads pipe1Data g replay) (hf : g.offered = some f)
    (hxf : x = f) : Pipe1Follows (s.step pipe1Ctrl i) (g.record pipe1Ctrl s i) := by
  subst hxf
  cases h with
  | replay1 h1 h2 h3 h4 h5 h6 h7 =>
    rw [hf] at h7
    obtain rfl := Option.some.inj h7
    obtain ⟨hh, hd⟩ := BufIn.record_header (g := g) hx (muxHeader_of h1) hr
    obtain ⟨ht, ho⟩ := BufIn.record_stall (g := g) hx ((stall_of h1 h2).trans (Bool.or_true _))
    refine ⟨[x, x], .replay2 ?_ ?_ ?_ (ht ▸ h4) h5 h6 ho,
      hp.replayed ht hh hd h4 (n := 1) (by decide) ⟨x, [x], rfl, rfl⟩⟩
    · rw [next_msgState hx hr, Pipe1State.msgStateNext, h1]
      rfl
    · rw [next_msgIntState hx hr, Pipe1State.msgIntStateNext, h1, h2, h5]
      rfl
    · rw [next_msgDataState hx, Pipe1State.msgDataStateNext, h1, h3]
      rfl
  | replay2 h1 h2 h3 h4 h5 h6 h7 =>
    rw [hf] at h7
    obtain rfl := Option.some.inj h7
    obtain ⟨hh, hd⟩ := BufIn.record_header (g := g) hx (muxHeader_of h1) hr
    have hstall := stall_of (x := x) h1 h2
    rw [h5] at hstall
    have ht := BufIn.record_taken (g := g) hx hr hstall
    refine ⟨[], .data0 (f := x) (t := []) (n := 1) ?_ ?_ ?_ ?_ (.inl h5) ?_ (.inl rfl),
      hp.take ht hh (hd.trans (List.append_nil _).symm) ?_ fun hc => absurd h4 hc⟩
    · rw [next_msgState hx hr, Pipe1State.msgStateNext, h1, h3]
      rfl
    · rw [next_msgIntState hx hr, Pipe1State.msgIntStateNext, h1, h2, h5]
      rfl
    · rw [next_msgDataState hx, Pipe1State.msgDataStateNext, h1, h3]
      rfl
    · rw [ht, inHand_snoc_of_due_eq h4]
    · rw [ht, due_snoc, if_pos h4, h6.length_interrupt h5]
    · intro _
      rw [pipe1Heads_interrupt h5, pipe1Data_interrupt h5]
      exact ⟨h6, rfl, rfl⟩
  | start => exact absurd rfl hne
  | header1 => exact absurd rfl hne
  | header2 => exact absurd rfl hne
  | data0 => exact absurd rfl hne
  | data1 => exact absurd rfl hne

theorem int_of_zero {n : BitVec 3} (hx : i.dataIn = some x) (hr : s.realReadyIn pipe1Ctrl = true)
    (h1 : s.ctrl.msgState = n) (hn : n ≠ 0) (h2 : s.ctrl.msgIntState = 0) :
    (s.step pipe1Ctrl i).ctrl.msgIntState = 0 := by
  rw [next_msgIntState hx hr, Pipe1State.msgIntStateNext, h1, h2, decide_eq_false hn, Bool.and_false]
  rfl

theorem data_of_ne {n : BitVec 3} (hx : i.dataIn = some x) (h1 : s.ctrl.msgState = n) (hn : n ≠ 0) :
    (s.step pipe1Ctrl i).ctrl.msgDataState = s.ctrl.msgDataState := by
  rw [next_msgDataState hx, Pipe1State.msgDataStateNext, h1, if_neg hn]

theorem stall_of_ne {n : BitVec 3} (h1 : s.ctrl.msgState = n) (hn : n ≠ 0)
    (h2 : s.ctrl.msgIntState = 0) : pipe1Ctrl.stall s.ctrl (some x) = false := by
  rw [stall_of h1 h2, decide_eq_false hn, Bool.and_false]
  rfl

/-- The second header flit. -/
theorem step_header1 {f : Flit} (hx : i.dataIn = some x) (hr : s.realReadyIn pipe1Ctrl = true)
    (h1 : s.ctrl.msgState = 1) (h2 : s.ctrl.msgIntState = 0)
    (h3 : s.ctrl.msgDataState = BitVec.ofNat 2 (f.len - 2)) (h4 : inHand Flit.len g.taken = [f])
    (h5 : isInterrupt f = false) (h6 : Pipe1Header f) (h7 : due Flit.len g.taken = f.len)
    (hp : Parsed pipe1Ctrl Pipe1Header pipe1Heads pipe1Data g []) :
    Pipe1Follows (s.step pipe1Ctrl i) (g.record pipe1Ctrl s i) := by
  have hne : (1 : BitVec 3) ≠ 0 := by decide
  have hlen := h6.length h5
  have hdue : due Flit.len g.taken ≠ 0 := by omega
  obtain ⟨hh, hd⟩ := BufIn.record_header (g := g) hx (muxHeader_of h1) hr
  have ht := BufIn.record_taken (g := g) hx hr (stall_of_ne h1 hne h2)
  refine ⟨[], .header2 (f := f) (x := x) ?_ (int_of_zero hx hr h1 hne h2)
    ((data_of_ne hx h1 hne).trans h3) ?_ h5 h6 ?_,
    hp.take ht hh (hd.trans (List.append_nil _).symm) (fun h0 => absurd h0 hdue) fun _ => ?_⟩
  · rw [next_msgState hx hr, Pipe1State.msgStateNext, h1]
    rfl
  · rw [ht, inHand_snoc hdue, h4]
    rfl
  · rw [ht, due_snoc, if_neg hdue, h7]
  · rw [h4, List.singleton_append, pipe1Heads_other h5, pipe1Heads_other h5, pipe1Data_other h5,
      pipe1Data_other h5]
    exact ⟨rfl, rfl⟩

/-- The third header flit, the last one of a message without data. -/
theorem step_header2 {f y : Flit} (hx : i.dataIn = some x) (hr : s.realReadyIn pipe1Ctrl = true)
    (h1 : s.ctrl.msgState = 2) (h2 : s.ctrl.msgIntState = 0)
    (h3 : s.ctrl.msgDataState = BitVec.ofNat 2 (f.len - 2))
    (h4 : inHand Flit.len g.taken = [f, y]) (h5 : isInterrupt f = false) (h6 : Pipe1Header f)
    (h7 : due Flit.len g.taken = f.len - 1)
    (hp : Parsed pipe1Ctrl Pipe1Header pipe1Heads pipe1Data g []) :
    Pipe1Follows (s.step pipe1Ctrl i) (g.record pipe1Ctrl s i) := by
  have hne : (2 : BitVec 3) ≠ 0 := by decide
  have hlen := h6.length h5
  have hdue : due Flit.len g.taken ≠ 0 := by omega
  obtain ⟨hh, hd⟩ := BufIn.record_header (g := g) hx (muxHeader_of h1) hr
  have ht := BufIn.record_taken (g := g) hx hr (stall_of_ne h1 hne h2)
  have hdue' : due Flit.len (g.record pipe1Ctrl s i).taken = f.len - 2 := by
    rw [ht, due_snoc, if_neg hdue, h7]
    omega
  have hstate : (s.step pipe1Ctrl i).ctrl.msgState = if f.len = 2 then 0 else 3 := by
    rw [next_msgState hx hr, Pipe1State.msgStateNext, h1, h3]
    obtain h | h | h : f.len = 2 ∨ f.len = 3 ∨ f.len = 4 := by omega
    all_goals
      rw [h]
      rfl
  have hint := int_of_zero hx hr h1 hne h2
  have hparsed := hp.take ht hh (hd.trans (List.append_nil _).symm) (fun h0 => absurd h0 hdue) fun _ => by
    rw [h4, List.cons_append, List.singleton_append, pipe1Heads_other h5, pipe1Heads_other h5,
      pipe1Data_other h5, pipe1Data_other h5]
    exact ⟨rfl, rfl⟩
  by_cases htwo : f.len = 2
  · rw [if_pos htwo] at hstate
    exact ⟨[], .start hstate hint (by omega), hparsed⟩
  · rw [if_neg htwo] at hstate
    refine ⟨[], .data0 (f := f) (t := [y, x]) (n := f.len - 2) hstate hint
      ((data_of_ne hx h1 hne).trans h3) ?_ (.inr (Nat.le_refl 2)) hdue' (by omega), hparsed⟩
    rw [ht, inHand_snoc hdue, h4]
    rfl

/-- A data flit. -/
theorem parsed_data {f : Flit} {t : List Flit} (hx : i.dataIn = some x)
    (hr : s.realReadyIn pipe1Ctrl = true) (hm : pipe1Ctrl.muxHeader s.ctrl = false)
    (hs : pipe1Ctrl.stall s.ctrl (some x) = false) (h4 : inHand Flit.len g.taken = f :: t)
    (h5 : isInterrupt f = true ∨ 2 ≤ t.length) (hdue : due Flit.len g.taken ≠ 0)
    (hp : Parsed pipe1Ctrl Pipe1Header pipe1Heads pipe1Data g []) :
    Parsed pipe1Ctrl Pipe1Header pipe1Heads pipe1Data (g.record pipe1Ctrl s i) [] := by
  obtain ⟨hh, hd⟩ := BufIn.record_data (g := g) hx hm hr
  have ht := BufIn.record_taken (g := g) hx hr hs
  refine hp.take ht (hh.trans (List.append_nil _).symm) hd (fun h0 => absurd h0 hdue) fun _ => ?_
  rw [h4, List.cons_append, List.append_nil, List.append_nil]
  cases hi : isInterrupt f with
  | true =>
    rw [pipe1Heads_interrupt hi, pipe1Heads_interrupt hi, pipe1Data_interrupt hi,
      pipe1Data_interrupt hi]
    exact ⟨rfl, rfl⟩
  | false =>
    have hlen : 2 ≤ t.length := h5.resolve_left fun hc => by rw [hi] at hc; cases hc
    rw [pipe1Heads_other hi, pipe1Heads_other hi, pipe1Data_other hi, pipe1Data_other hi,
      List.take_append_of_le_length hlen, List.drop_append_of_le_length hlen]
    exact ⟨rfl, rfl⟩

theorem Pipe1Phase.push (h : Pipe1Phase s.ctrl g replay)
    (hp : Parsed pipe1Ctrl Pipe1Header pipe1Heads pipe1Data g replay) (hx : i.dataIn = some x)
    (hr : s.realReadyIn pipe1Ctrl = true) (hok : ∀ f ∈ g.offered, x = f)
    (hwf : due Flit.len g.taken = 0 → Pipe1Header x) :
    Pipe1Follows (s.step pipe1Ctrl i) (g.record pipe1Ctrl s i) := by
  cases h with
  | start h1 h2 h3 => exact step_start hx hr h1 h2 h3 hp (hwf h3)
  | replay1 h1 h2 h3 h4 h5 h6 h7 =>
    exact step_replay hx hr (.replay1 h1 h2 h3 h4 h5 h6 h7) (List.cons_ne_nil _ _) hp h7 (hok _ h7)
  | replay2 h1 h2 h3 h4 h5 h6 h7 =>
    exact step_replay hx hr (.replay2 h1 h2 h3 h4 h5 h6 h7) (List.cons_ne_nil _ _) hp h7 (hok _ h7)
  | header1 h1 h2 h3 h4 h5 h6 h7 => exact step_header1 hx hr h1 h2 h3 h4 h5 h6 h7 hp
  | header2 h1 h2 h3 h4 h5 h6 h7 => exact step_header2 hx hr h1 h2 h3 h4 h5 h6 h7 hp
  | @data0 f t n h1 h2 h3 h4 h5 h6 h7 =>
    have hne : (3 : BitVec 3) ≠ 0 := by decide
    have hdue : due Flit.len g.taken ≠ 0 := by omega
    have hstall := stall_of_ne (x := x) h1 hne h2
    have hparsed := parsed_data hx hr (muxHeader_of h1) hstall h4 h5 hdue hp
    have ht := BufIn.record_taken (g := g) hx hr hstall
    have hint := int_of_zero hx hr h1 hne h2
    have hdue' : due Flit.len (g.record pipe1Ctrl s i).taken = n - 1 := by
      rw [ht, due_snoc, if_neg hdue, h6]
    have hstate : (s.step pipe1Ctrl i).ctrl.msgState = if n = 1 then 0 else 4 := by
      rw [next_msgState hx hr, Pipe1State.msgStateNext, h1, h3]
      rcases h7 with rfl | rfl <;> rfl
    rcases h7 with rfl | rfl
    · exact ⟨[], .start hstate hint hdue', hparsed⟩
    · refine ⟨[], .data1 (f := f) (t := t ++ [x]) hstate hint ?_ (h5.imp_right fun hl => ?_) hdue',
        hparsed⟩
      · rw [ht, inHand_snoc hdue, h4]
        rfl
      · rw [List.length_append]
        omega
  | data1 h1 h2 h3 h4 h5 =>
    have hne : (4 : BitVec 3) ≠ 0 := by decide
    have hdue : due Flit.len g.taken ≠ 0 := by omega
    have hstall := stall_of_ne (x := x) h1 hne h2
    have ht := BufIn.record_taken (g := g) hx hr hstall
    refine ⟨[], .start ?_ (int_of_zero hx hr h1 hne h2) ?_,
      parsed_data hx hr (muxHeader_of h1) hstall h3 h4 hdue hp⟩
    · rw [next_msgState hx hr, Pipe1State.msgStateNext, h1]
      rfl
    · rw [ht, due_snoc, if_neg hdue, h5]

end

/-- The buffer of pipe 1 loses nothing of a stream of messages and mixes none of them. -/
theorem pipe1_lossless {y : BufIn Pipe1State 3 2 × BufInHistory}
    (h : (bufIn pipe1Ctrl 3 2).Reachable (Offers Pipe1Header) y) :
    Lossless pipe1Ctrl pipe1Heads pipe1Data y.1 y.2 := by
  have hinv : Pipe1Follows y.1 y.2 ∧ BufIn.Queues pipe1Ctrl y.1 y.2 := by
    refine h.invariant
      (P := fun y => Pipe1Follows y.1 y.2 ∧ BufIn.Queues pipe1Ctrl y.1 y.2) ?_ ?_
    · rintro ⟨s, g⟩ ⟨hs, hg⟩
      obtain rfl : s = _ := hs
      obtain rfl : g = _ := hg
      refine ⟨⟨[], .start rfl rfl rfl, ⟨fun _ hc => ?_, rfl, rfl, .inl rfl⟩⟩, ?_⟩
      · cases hc
      · exact ⟨⟨[], .nil (.nil rfl rfl)⟩, [], .nil (.nil rfl rfl)⟩
    · rintro ⟨s, g⟩ i ⟨⟨replay, hphase, hp⟩, hq⟩ ⟨hkept, hwf⟩
      refine ⟨?_, hq.step pipe1_shape.headerPos pipe1_shape.dataPos⟩
      cases hr : s.realReadyIn pipe1Ctrl with
      | false => exact hphase.quiet hp hkept (.inr hr)
      | true =>
        cases hx : i.dataIn with
        | none => exact hphase.quiet hp hkept (.inl hx)
        | some x => exact hphase.push hp hx hr (fun f hf => hkept f hf x hx) fun hd => hwf hd x hx
  obtain ⟨⟨replay, -, hp⟩, hq⟩ := hinv
  exact hp.lossless pipe1_shape hq

end Piton.L2
