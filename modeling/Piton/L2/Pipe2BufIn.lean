import Piton.L2.Lossless

/-! `l2_pipe2_buf_in` follows the messages of its stream. -/

namespace Piton.L2

open Hw
open Noc (Flit)
open Pipe2State (isWriteback)

/-- The first flit of a message to pipe 2: a write-back has two data flits after its three header
flits, another message none, two or eight after its one header flit. -/
def Pipe2Header (f : Flit) : Prop :=
  isWriteback f = true ∧ f.len = 4 ∨
    isWriteback f = false ∧ (f.len = 0 ∨ f.len = 2 ∨ f.len = 8)

instance (f : Flit) : Decidable (Pipe2Header f) := inferInstanceAs (Decidable (_ ∨ _))

/-- The header of a message. -/
def pipe2Heads : List Flit → List Flit
  | [] => []
  | f :: t => if isWriteback f then f :: t.take 2 else [f]

/-- The data flits of a message. -/
def pipe2Data : List Flit → List Flit
  | [] => []
  | f :: t => if isWriteback f then t.drop 2 else t

section

variable {f : Flit} {t : List Flit}

theorem pipe2Heads_writeback (hw : isWriteback f = true) :
    pipe2Heads (f :: t) = f :: t.take 2 := if_pos hw

theorem pipe2Heads_other (hw : isWriteback f = false) : pipe2Heads (f :: t) = [f] := by
  rw [pipe2Heads, hw, if_neg Bool.false_ne_true]

theorem pipe2Data_writeback (hw : isWriteback f = true) : pipe2Data (f :: t) = t.drop 2 := if_pos hw

theorem pipe2Data_other (hw : isWriteback f = false) : pipe2Data (f :: t) = t := by
  rw [pipe2Data, hw, if_neg Bool.false_ne_true]

theorem Pipe2Header.length_writeback (h : Pipe2Header f) (hw : isWriteback f = true) :
    f.len = 4 := by
  obtain ⟨-, hlen⟩ | ⟨hc, -⟩ := h
  · exact hlen
  · rw [hw] at hc
    cases hc

theorem Pipe2Header.length_other (h : Pipe2Header f) (hw : isWriteback f = false) :
    f.len = 0 ∨ f.len = 2 ∨ f.len = 8 := by
  obtain ⟨hc, -⟩ | ⟨-, hlen⟩ := h
  · rw [hw] at hc
    cases hc
  · exact hlen

theorem length_eq_iff {n : Nat} (hn : n < 2 ^ 8) : f.length = BitVec.ofNat 8 n ↔ f.len = n := by
  rw [← BitVec.toNat_inj, BitVec.toNat_ofNat, Nat.mod_eq_of_lt hn]
  rfl

end

theorem due_of_one {len : Flit → Nat} (h : ∀ f, len f = 1) (xs : List Flit) :
    due len xs = xs.length % 2 := by
  induction xs using List.reverseRecOn with
  | nil => rfl
  | append_singleton xs x ih =>
    rw [due_snoc, h, ih, List.length_append, List.length_singleton]
    split <;> omega

theorem pipe2_shape : Shape pipe2Ctrl Pipe2Header pipe2Heads pipe2Data where
  headerPos f := by
    change 0 < if isWriteback f then 3 else 1
    split <;> decide
  dataPos _ := Nat.succ_pos 1
  header := by
    rintro pk n ⟨f, t, rfl, ht⟩ hwf
    cases hw : isWriteback f with
    | true =>
      have hlen := (hwf f rfl).length_writeback hw
      have htake := List.length_take_le 2 t
      rw [pipe2Heads_writeback hw]
      refine ⟨2 - (t.take 2).length, ⟨f, t.take 2, rfl, ?_⟩, ?_⟩
      · change (t.take 2).length + (2 - (t.take 2).length) = (if isWriteback f then 3 else 1) - 1
        rw [if_pos hw]
        omega
      · intro hn
        rw [List.length_take]
        omega
    | false =>
      rw [pipe2Heads_other hw]
      refine ⟨0, ⟨f, [], rfl, ?_⟩, fun _ => rfl⟩
      change 0 = (if isWriteback f then 3 else 1) - 1
      rw [hw]
      rfl
  data := by
    rintro pk ⟨f, t, rfl, ht⟩ hwf
    change due (fun _ => 2 - 1) (pipe2Data (f :: t)) = 0
    rw [due_of_one fun _ => rfl]
    cases hw : isWriteback f with
    | true =>
      have hlen := (hwf f rfl).length_writeback hw
      rw [pipe2Data_writeback hw, List.length_drop]
      omega
    | false =>
      have hlen := (hwf f rfl).length_other hw
      rw [pipe2Data_other hw]
      omega

/-- What the buffer parts is what `pipe2BufIn` reads of a whole message. -/
theorem pipe2BufIn_eq {pk : List Flit} (hpk : IsPacket Flit.len pk 0)
    (hwf : ∀ f ∈ pk.head?, Pipe2Header f) :
    Noc.pipe2BufIn pk = some (msgHeaderOut (pipe2Heads pk), pipe2Data pk) := by
  obtain ⟨f, t, rfl, ht⟩ := hpk
  have hf := hwf f rfl
  cases hw : isWriteback f with
  | true =>
    have htype : f.extractLsb' 14 8 = Noc.MsgType.wbReq := of_decide_eq_true hw
    have hlen := hf.length_writeback hw
    rw [pipe2Heads_writeback hw, pipe2Data_writeback hw]
    obtain ⟨a, b, c, rfl⟩ : ∃ a b c, t = a :: b :: c := by
      match t, ht with
      | [], ht => exact absurd ht (by rw [List.length_nil]; omega)
      | [_], ht => exact absurd ht (by rw [List.length_singleton]; omega)
      | a :: b :: c, _ => exact ⟨a, b, c, rfl⟩
    exact if_pos htype
  | false =>
    have htype : f.extractLsb' 14 8 ≠ Noc.MsgType.wbReq := of_decide_eq_false hw
    have hout : msgHeaderOut [f] = 0#128 ++ f :=
      congrArg (· ++ f) (by decide : (0 : BitVec 64) ++ (0 : BitVec 64) = 0#128)
    rw [pipe2Heads_other hw, pipe2Data_other hw, hout]
    exact if_neg htype

/-- Where the buffer is in its stream: before a message, after one or two header flits of a
write-back, and before the last `n` of `m` data flits. -/
inductive Pipe2Phase : Pipe2State → List Flit → Prop
  | start {s taken} : s.msgState = 0 → due Flit.len taken = 0 → Pipe2Phase s taken
  | header1 {s taken} {f : Flit} : s.msgState = 1 → s.msgDataState = .s2F →
      inHand Flit.len taken = [f] → isWriteback f = true → due Flit.len taken = 4 →
      Pipe2Phase s taken
  | header2 {s taken} {f x : Flit} : s.msgState = 2 → s.msgDataState = .s2F →
      inHand Flit.len taken = [f, x] → isWriteback f = true → due Flit.len taken = 3 →
      Pipe2Phase s taken
  | data {s taken} {f : Flit} {t : List Flit} {n m : Nat} :
      s.msgState = BitVec.ofNat 4 (3 + (m - n)) →
      m = 2 ∧ s.msgDataState = .s2F ∨ m = 8 ∧ s.msgDataState = .s8F →
      0 < n → n ≤ m → inHand Flit.len taken = f :: t →
      isWriteback f = true ∧ 2 ≤ t.length ∨ isWriteback f = false → due Flit.len taken = n →
      Pipe2Phase s taken

theorem pipe2_next (s : Pipe2State) (dataIn : Option Flit) (readyIn : Bool) :
    pipe2Ctrl.next s dataIn readyIn =
      { msgState := s.msgStateNext dataIn readyIn
        msgDataState := s.msgDataStateNext dataIn } := rfl

/-- A cycle in which no flit is taken. -/
theorem Pipe2Phase.keep {s s' : Pipe2State} {taken taken' : List Flit} (h : Pipe2Phase s taken)
    (hm : s'.msgState = s.msgState) (hd : s.msgState ≠ 0 → s'.msgDataState = s.msgDataState)
    (ht : taken' = taken) : Pipe2Phase s' taken' := by
  subst ht
  cases h with
  | start h1 h2 => exact .start (hm.trans h1) h2
  | header1 h1 h2 h3 h4 h5 =>
    exact .header1 (hm.trans h1) ((hd (by rw [h1]; decide)).trans h2) h3 h4 h5
  | header2 h1 h2 h3 h4 h5 =>
    exact .header2 (hm.trans h1) ((hd (by rw [h1]; decide)).trans h2) h3 h4 h5
  | @data f t n m h1 h2 h3 h4 h5 h6 h7 =>
    have hne : s.msgState ≠ 0 := by
      rw [h1]
      intro hz
      have hnat := congrArg BitVec.toNat hz
      rw [BitVec.toNat_ofNat] at hnat
      simp only [BitVec.ofNat_eq_ofNat, BitVec.toNat_ofNat] at hnat
      omega
    exact .data (hm.trans h1) (by rw [hd hne]; exact h2) h3 h4 h5 h6 h7

section

variable {s : BufIn Pipe2State 2 4} {g : BufInHistory} {i : BufInInput} {x : Flit}

/-- The buffer is in a phase of its stream, and its queues have been filled accordingly. -/
def Pipe2Follows (s : BufIn Pipe2State 2 4) (g : BufInHistory) : Prop :=
  Pipe2Phase s.ctrl g.taken ∧ Parsed pipe2Ctrl Pipe2Header pipe2Heads pipe2Data g []

theorem Pipe2Follows.quiet (h : Pipe2Follows s g)
    (hi : i.dataIn = none ∨ s.realReadyIn pipe2Ctrl = false) :
    Pipe2Follows (s.step pipe2Ctrl i) (g.record pipe2Ctrl s i) := by
  obtain ⟨ht, hh, hd⟩ := BufIn.record_quiet (g := g) hi
  refine ⟨h.1.keep ?_ ?_ ht, h.2.keep ht hh hd⟩
  · rw [BufIn.ctrl_step, pipe2_next]
    rcases hi with hi | hi <;> rw [hi]
    · rfl
    · cases i.dataIn <;> rfl
  · intro hne
    rw [BufIn.ctrl_step, pipe2_next]
    cases i.dataIn with
    | none => rfl
    | some x => exact if_neg hne

/-! ### A flit goes into a queue -/

theorem next_msgState2 (hx : i.dataIn = some x) (hr : s.realReadyIn pipe2Ctrl = true) :
    (s.step pipe2Ctrl i).ctrl.msgState = s.ctrl.msgStateNext (some x) true := by
  rw [BufIn.ctrl_step, pipe2_next, hx, hr]

theorem next_msgDataState2 (hx : i.dataIn = some x) :
    (s.step pipe2Ctrl i).ctrl.msgDataState = s.ctrl.msgDataStateNext (some x) := by
  rw [BufIn.ctrl_step, pipe2_next, hx]

theorem muxHeader_of2 {n : BitVec 4} (h : s.ctrl.msgState = n) :
    pipe2Ctrl.muxHeader s.ctrl = (n = 0 || n = 1 || n = 2) := by
  subst h
  rfl

/-- The first flit of a message. -/
theorem step_start2 (hx : i.dataIn = some x) (hr : s.realReadyIn pipe2Ctrl = true)
    (h1 : s.ctrl.msgState = 0) (h2 : due Flit.len g.taken = 0)
    (hp : Parsed pipe2Ctrl Pipe2Header pipe2Heads pipe2Data g []) (hwf : Pipe2Header x) :
    Pipe2Follows (s.step pipe2Ctrl i) (g.record pipe2Ctrl s i) := by
  obtain ⟨hh, hd⟩ := BufIn.record_header (g := g) hx (muxHeader_of2 h1) hr
  have ht := BufIn.record_taken (g := g) hx hr rfl
  have hhand : inHand Flit.len (g.record pipe2Ctrl s i).taken = [x] := by
    rw [ht, inHand_snoc_of_due_eq h2]
  have hdue : due Flit.len (g.record pipe2Ctrl s i).taken = x.len := by
    rw [ht, due_snoc, if_pos h2]
  have hzero : x.length = 0 ↔ x.len = 0 := length_eq_iff (by decide)
  have height : x.length = 8 ↔ x.len = 8 := length_eq_iff (by decide)
  have hstate : (s.step pipe2Ctrl i).ctrl.msgState =
      if isWriteback x = false then if x.len = 0 then 0 else 3 else 1 := by
    rw [next_msgState2 hx hr, Pipe2State.msgStateNext, h1]
    simp only [hzero]
    cases isWriteback x <;> rfl
  have hdata : (s.step pipe2Ctrl i).ctrl.msgDataState =
      if x.len = 8 then .s8F else if x.len = 0 then .s0F else .s2F := by
    rw [next_msgDataState2 hx, Pipe2State.msgDataStateNext, h1]
    simp only [hzero, height]
    rfl
  have hparsed : Parsed pipe2Ctrl Pipe2Header pipe2Heads pipe2Data (g.record pipe2Ctrl s i) [] := by
    refine hp.take ht hh (hd.trans (List.append_nil _).symm) (fun _ => ?_) fun hne => absurd h2 hne
    cases hw : isWriteback x with
    | true =>
      rw [pipe2Heads_writeback hw, pipe2Data_writeback hw]
      exact ⟨hwf, rfl, rfl⟩
    | false =>
      rw [pipe2Heads_other hw, pipe2Data_other hw]
      exact ⟨hwf, rfl, rfl⟩
  refine ⟨?_, hparsed⟩
  cases hw : isWriteback x with
  | true =>
    have hlen := hwf.length_writeback hw
    rw [hw, if_neg (by decide)] at hstate
    rw [hlen] at hdata hdue
    exact .header1 hstate hdata hhand hw hdue
  | false =>
    rw [hw, if_pos rfl] at hstate
    obtain hlen | hlen | hlen := hwf.length_other hw
    · rw [hlen] at hstate hdue
      exact .start hstate hdue
    · rw [hlen] at hstate hdata hdue
      exact .data (n := 2) (m := 2) (t := []) hstate (.inl ⟨rfl, hdata⟩) (by decide) (by decide) hhand
        (.inr hw) hdue
    · rw [hlen] at hstate hdata hdue
      exact .data (n := 8) (m := 8) (t := []) hstate (.inr ⟨rfl, hdata⟩) (by decide) (by decide) hhand
        (.inr hw) hdue

/-- The second and the third header flit of a write-back. -/
theorem parsed_header2 {f : Flit} {t : List Flit} {n : BitVec 4} (hx : i.dataIn = some x)
    (hr : s.realReadyIn pipe2Ctrl = true) (h1 : s.ctrl.msgState = n)
    (hn : (decide (n = 0) || n = 1 || n = 2) = true) (h3 : inHand Flit.len g.taken = f :: t)
    (hlen : t.length < 2) (hw : isWriteback f = true) (hdue : due Flit.len g.taken ≠ 0)
    (hp : Parsed pipe2Ctrl Pipe2Header pipe2Heads pipe2Data g []) :
    Parsed pipe2Ctrl Pipe2Header pipe2Heads pipe2Data (g.record pipe2Ctrl s i) [] := by
  obtain ⟨hh, hd⟩ := BufIn.record_header (g := g) hx ((muxHeader_of2 h1).trans hn) hr
  have ht := BufIn.record_taken (g := g) hx hr rfl
  refine hp.take ht hh (hd.trans (List.append_nil _).symm) (fun h0 => absurd h0 hdue) fun _ => ?_
  rw [h3, List.cons_append, pipe2Heads_writeback hw, pipe2Heads_writeback hw,
    pipe2Data_writeback hw, pipe2Data_writeback hw]
  match t, hlen with
  | [], _ => exact ⟨rfl, rfl⟩
  | [y], _ => exact ⟨rfl, rfl⟩

/-- A data flit. -/
theorem parsed_data2 {f : Flit} {t : List Flit} (hx : i.dataIn = some x)
    (hr : s.realReadyIn pipe2Ctrl = true) (hm : pipe2Ctrl.muxHeader s.ctrl = false)
    (h5 : inHand Flit.len g.taken = f :: t)
    (h6 : isWriteback f = true ∧ 2 ≤ t.length ∨ isWriteback f = false)
    (hdue : due Flit.len g.taken ≠ 0)
    (hp : Parsed pipe2Ctrl Pipe2Header pipe2Heads pipe2Data g []) :
    Parsed pipe2Ctrl Pipe2Header pipe2Heads pipe2Data (g.record pipe2Ctrl s i) [] := by
  obtain ⟨hh, hd⟩ := BufIn.record_data (g := g) hx hm hr
  have ht := BufIn.record_taken (g := g) hx hr rfl
  refine hp.take ht (hh.trans (List.append_nil _).symm) hd (fun h0 => absurd h0 hdue) fun _ => ?_
  rw [h5, List.cons_append, List.append_nil, List.append_nil]
  obtain ⟨hw, hlen⟩ | hw := h6
  · rw [pipe2Heads_writeback hw, pipe2Heads_writeback hw, pipe2Data_writeback hw,
      pipe2Data_writeback hw, List.take_append_of_le_length hlen,
      List.drop_append_of_le_length hlen]
    exact ⟨rfl, rfl⟩
  · rw [pipe2Heads_other hw, pipe2Heads_other hw, pipe2Data_other hw, pipe2Data_other hw]
    exact ⟨rfl, rfl⟩

/-- The state within the data of a message. -/
theorem data_state {n m : Nat} (hx : i.dataIn = some x) (hr : s.realReadyIn pipe2Ctrl = true)
    (h1 : s.ctrl.msgState = BitVec.ofNat 4 (3 + (m - n)))
    (h2 : m = 2 ∧ s.ctrl.msgDataState = .s2F ∨ m = 8 ∧ s.ctrl.msgDataState = .s8F) (h3 : 0 < n)
    (h4 : n ≤ m) :
    pipe2Ctrl.muxHeader s.ctrl = false ∧
      (s.step pipe2Ctrl i).ctrl.msgState =
        (if n = 1 then 0 else BitVec.ofNat 4 (3 + (m - (n - 1)))) ∧
      (s.step pipe2Ctrl i).ctrl.msgDataState = s.ctrl.msgDataState := by
  rw [muxHeader_of2 h1, next_msgState2 hx hr, next_msgDataState2 hx, Pipe2State.msgStateNext,
    Pipe2State.msgDataStateNext, h1]
  obtain ⟨rfl, hd⟩ | ⟨rfl, hd⟩ := h2
  · rw [hd]
    obtain rfl | rfl : n = 1 ∨ n = 2 := by omega
    all_goals exact ⟨rfl, rfl, rfl⟩
  · rw [hd]
    obtain rfl | rfl | rfl | rfl | rfl | rfl | rfl | rfl :
      n = 1 ∨ n = 2 ∨ n = 3 ∨ n = 4 ∨ n = 5 ∨ n = 6 ∨ n = 7 ∨ n = 8 := by omega
    all_goals exact ⟨rfl, rfl, rfl⟩

theorem Pipe2Follows.push (h : Pipe2Follows s g) (hx : i.dataIn = some x)
    (hr : s.realReadyIn pipe2Ctrl = true) (hwf : due Flit.len g.taken = 0 → Pipe2Header x) :
    Pipe2Follows (s.step pipe2Ctrl i) (g.record pipe2Ctrl s i) := by
  obtain ⟨hphase, hp⟩ := h
  have ht := BufIn.record_taken (g := g) hx hr rfl
  cases hphase with
  | start h1 h2 => exact step_start2 hx hr h1 h2 hp (hwf h2)
  | header1 h1 h2 h3 h4 h5 =>
    have hdue : due Flit.len g.taken ≠ 0 := by omega
    refine ⟨.header2 (x := x) ?_ ?_ ?_ h4 ?_,
      parsed_header2 hx hr h1 rfl h3 (by decide) h4 hdue hp⟩
    · rw [next_msgState2 hx hr, Pipe2State.msgStateNext, h1]
      rfl
    · rw [next_msgDataState2 hx, Pipe2State.msgDataStateNext, h1, h2]
      rfl
    · rw [ht, inHand_snoc hdue, h3]
      rfl
    · rw [ht, due_snoc, if_neg hdue, h5]
  | @header2 f y h1 h2 h3 h4 h5 =>
    have hdue : due Flit.len g.taken ≠ 0 := by omega
    refine ⟨.data (f := f) (t := [y, x]) (n := 2) (m := 2) ?_ (.inl ⟨rfl, ?_⟩) (by decide) (by decide) ?_
      (.inl ⟨h4, Nat.le_refl 2⟩) ?_,
      parsed_header2 hx hr h1 rfl h3 (Nat.lt_succ_self 1) h4 hdue hp⟩
    · rw [next_msgState2 hx hr, Pipe2State.msgStateNext, h1]
      rfl
    · rw [next_msgDataState2 hx, Pipe2State.msgDataStateNext, h1, h2]
      rfl
    · rw [ht, inHand_snoc hdue, h3]
      rfl
    · rw [ht, due_snoc, if_neg hdue, h5]
  | @data f t n m h1 h2 h3 h4 h5 h6 h7 =>
    have hdue : due Flit.len g.taken ≠ 0 := by omega
    obtain ⟨hm, hstate, hdata⟩ := data_state hx hr h1 h2 h3 h4
    have hdue' : due Flit.len (g.record pipe2Ctrl s i).taken = n - 1 := by
      rw [ht, due_snoc, if_neg hdue, h7]
    refine ⟨?_, parsed_data2 hx hr hm h5 h6 hdue hp⟩
    by_cases hn : n = 1
    · rw [if_pos hn] at hstate
      exact .start hstate (by omega)
    · rw [if_neg hn] at hstate
      refine .data (f := f) (t := t ++ [x]) hstate (hdata ▸ h2) (by omega) (by omega) ?_
        (h6.imp_left fun hw => ⟨hw.1, ?_⟩) hdue'
      · rw [ht, inHand_snoc hdue, h5]
        rfl
      · rw [List.length_append]
        exact Nat.le_add_right_of_le hw.2

end

/-- The buffer of pipe 2 loses nothing of a stream of messages and mixes none of them. -/
theorem pipe2_lossless {y : BufIn Pipe2State 2 4 × BufInHistory}
    (h : (bufIn pipe2Ctrl 2 4).Reachable (Offers Pipe2Header) y) :
    Lossless pipe2Ctrl pipe2Heads pipe2Data y.1 y.2 := by
  have hinv : Pipe2Follows y.1 y.2 ∧ BufIn.Queues pipe2Ctrl y.1 y.2 := by
    refine h.invariant
      (P := fun y => Pipe2Follows y.1 y.2 ∧ BufIn.Queues pipe2Ctrl y.1 y.2) ?_ ?_
    · rintro ⟨s, g⟩ ⟨hs, hg⟩
      obtain rfl : s = _ := hs
      obtain rfl : g = _ := hg
      refine ⟨⟨.start rfl rfl, ⟨fun _ hc => ?_, rfl, rfl, .inl rfl⟩⟩, ?_⟩
      · cases hc
      · exact ⟨⟨[], .nil (.nil rfl rfl)⟩, [], .nil (.nil rfl rfl)⟩
    · rintro ⟨s, g⟩ i ⟨hf, hq⟩ ⟨-, hwf⟩
      refine ⟨?_, hq.step pipe2_shape.headerPos pipe2_shape.dataPos⟩
      cases hr : s.realReadyIn pipe2Ctrl with
      | false => exact hf.quiet (.inr hr)
      | true =>
        cases hx : i.dataIn with
        | none => exact hf.quiet (.inl hx)
        | some x => exact hf.push hx hr fun hd => hwf hd x hx
  exact hinv.1.2.lossless pipe2_shape hinv.2

end Piton.L2
