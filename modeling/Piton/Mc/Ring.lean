import Piton.Mc.Requests

/-! The ring of the memory bridge: the entries hold the requests from the first one that is not yet
being answered to the one that comes in, and each pointer stands at one of them. -/

namespace Piton.Mc

open Hw Piton.Noc

/-! ### Positions -/

/-- The entry of the `n`th request. -/
def idx (n : Nat) : BitVec 4 := BitVec.ofNat 4 n

theorem idx_succ (n : Nat) : idx n + 1 = idx (n + 1) := by
  rw [idx, idx, BitVec.ofNat_add]
  rfl

theorem idx_inj {a m n : Nat} (hm : a ≤ m) (hm' : m ≤ a + 15) (hn : a ≤ n) (hn' : n ≤ a + 15)
    (h : idx m = idx n) : m = n := by
  have := congrArg BitVec.toNat h
  simp only [idx, BitVec.toNat_ofNat] at this
  omega

theorem toNat_idx_sub {m n : Nat} (hm : m ≤ n) (hn : n ≤ m + 15) : (idx n - idx m).toNat = n - m := by
  simp only [idx, BitVec.toNat_sub, BitVec.toNat_ofNat]
  omega

/-! ### Requests of a stream -/

/-- The packet that is coming in. -/
def cur (xs : List Flit) : List Flit :=
  if due Flit.len xs = 0 then [] else (packets Flit.len xs).getLastD []

theorem packets_eq (xs : List Flit) (h : due Flit.len xs ≠ 0) :
    packets Flit.len xs = requests xs ++ [cur xs] := by
  obtain ⟨ps, a, t, hp, -⟩ := exists_last Flit.len h
  simp [requests, cur, h, hp]

theorem cur_eq_nil {xs : List Flit} (h : due Flit.len xs = 0) : cur xs = [] := by
  simp [cur, h]

theorem requests_snoc (xs : List Flit) (f : Flit) :
    requests (xs ++ [f]) =
      if due Flit.len (xs ++ [f]) = 0 then requests xs ++ [cur xs ++ [f]] else requests xs := by
  by_cases hd : due Flit.len xs = 0
  · have hr : requests xs = packets Flit.len xs := by simp [requests, hd]
    rw [hr, cur_eq_nil hd, requests, packets_snoc, grow, if_pos hd, List.dropLast_concat]
    rfl
  · rw [requests, packets_snoc, packets_eq xs hd, grow_snoc hd, List.dropLast_concat]

theorem cur_snoc {xs : List Flit} {f : Flit} (h : due Flit.len (xs ++ [f]) ≠ 0) :
    cur (xs ++ [f]) = cur xs ++ [f] := by
  by_cases hd : due Flit.len xs = 0
  · rw [cur, if_neg h, packets_snoc, grow, if_pos hd, cur_eq_nil hd, List.getLastD_concat]
    rfl
  · rw [cur, if_neg h, packets_snoc, packets_eq xs hd, grow_snoc hd, List.getLastD_concat]

/-- What the packet that is coming in lacks. -/
theorem length_cur {xs : List Flit} (h : due Flit.len xs ≠ 0) :
    (cur xs).length + due Flit.len xs = Flit.len (hdr (cur xs)) + 1 := by
  have hp := packets_eq xs h
  obtain ⟨-, h0⟩ | ⟨ps, pk, hps, -, a, t, rfl, ht⟩ := packets_spec Flit.len xs
  · exact absurd h0 h
  · rw [hps] at hp
    obtain ⟨-, hcur⟩ := List.append_inj' hp rfl
    rw [← List.singleton_inj.1 hcur]
    simp only [List.length_cons, hdr, List.getD_cons_zero]
    omega

/-- The `n`th packet of a stream, whole or coming in. -/
def pkt (xs : List Flit) (n : Nat) : List Flit := (requests xs ++ [cur xs]).getD n []

theorem pkt_of_lt {xs : List Flit} {n : Nat} (h : n < (requests xs).length) :
    pkt xs n = (requests xs)[n] := by
  rw [pkt, List.getD_eq_getElem?_getD, List.getElem?_append_left h,
    List.getElem?_eq_getElem h, Option.getD_some]

theorem pkt_length {xs : List Flit} : pkt xs (requests xs).length = cur xs := by
  simp [pkt]

theorem isLoad_not_isStore {cmd : BitVec 8} (h : isLoad cmd = true) : isStore cmd = false := by
  simp only [isLoad, isStore, Bool.or_eq_true, decide_eq_true_iff, Bool.or_eq_false_iff,
    decide_eq_false_iff_not] at *
  obtain rfl | rfl := h <;> decide

/-- A whole load or store. -/
def Whole (q : List Flit) : Prop :=
  (isLoad (kind q) = true ∧ q.length = 3) ∨ (isStore (kind q) = true ∧ q.length = 11)

theorem Whole.isLoad_iff {q : List Flit} (h : Whole q) :
    isLoad (kind q) = true ↔ isStore (kind q) = false := by
  constructor
  · exact isLoad_not_isStore
  · intro hs
    obtain ⟨hl, -⟩ | ⟨hs', -⟩ := h
    · exact hl
    · rw [hs] at hs'
      exact absurd hs' Bool.false_ne_true

/-! ### The parser -/

/-- Where the parser is in the stream of flits. -/
structure Parse (y : State p × History p) : Prop where
  whole : ∀ q ∈ requests y.2.accepted, Whole q
  nIn_eq : y.2.nIn = (requests y.2.accepted).length
  between : y.1.accState = .acceptW1 ∨ y.1.accState = .stalled → due Flit.len y.2.accepted = 0
  inside : Filling y.1 → due Flit.len y.2.accepted ≠ 0 ∧ IsHeader (hdr (cur y.2.accepted)) ∧
    y.1.remainingFlits = BitVec.ofNat 4 (due Flit.len y.2.accepted - 1)
  w2 : y.1.accState = .acceptW2 → (cur y.2.accepted).length = 1
  w3 : y.1.accState = .acceptW3 → (cur y.2.accepted).length = 2
  data : y.1.accState = .acceptData → 3 ≤ (cur y.2.accepted).length

section ParseStep

variable {y : State p × History p} {e : Input p} {f : Flit}

theorem IsHeader.len_eq (h : IsHeader f) : Flit.len f = 2 ∨ Flit.len f = 10 := by
  obtain ⟨-, h⟩ | ⟨-, h⟩ := h
  · exact .inl h
  · exact .inr h

theorem hdr_append {q : List Flit} (hq : q ≠ []) (r : List Flit) : hdr (q ++ r) = hdr q := by
  obtain ⟨a, t, rfl⟩ := List.exists_cons_of_ne_nil hq
  rfl

theorem ofNat_sub_one {n : Nat} (hn : n ≠ 0) :
    BitVec.ofNat 4 n - 1 = BitVec.ofNat 4 (n - 1) := by
  obtain ⟨m, rfl⟩ := Nat.exists_eq_succ_of_ne_zero hn
  rw [Nat.succ_sub_one, Nat.succ_eq_add_one, BitVec.ofNat_add]
  exact BitVec.add_sub_cancel _ _

theorem ofNat_eq_zero {n : Nat} (hn : n < 16) : BitVec.ofNat 4 n = 0 ↔ n = 0 := by
  constructor
  · intro h
    have := congrArg BitVec.toNat h
    simpa [Nat.mod_eq_of_lt hn] using this
  · rintro rfl
    rfl

/-- What a packet that is coming in lacks, by its kind. -/
theorem Parse.lacks (h : Parse y) (hf : Filling y.1) :
    (isLoad (kind (cur y.2.accepted)) = true ∧
      (cur y.2.accepted).length + due Flit.len y.2.accepted = 3) ∨
    (isStore (kind (cur y.2.accepted)) = true ∧
      (cur y.2.accepted).length + due Flit.len y.2.accepted = 11) := by
  obtain ⟨hd, hh, -⟩ := h.inside hf
  have hl := length_cur hd
  obtain ⟨hk, h2⟩ | ⟨hk, h10⟩ := hh
  · exact .inl ⟨hk, by omega⟩
  · exact .inr ⟨hk, by omega⟩

theorem Parse.cur_ne_nil (h : Parse y) (hf : Filling y.1) : cur y.2.accepted ≠ [] := by
  intro h0
  obtain hs | hs | hs := hf
  · simpa [h0] using h.w2 hs
  · simpa [h0] using h.w3 hs
  · simpa [h0] using h.data hs

/-- The last flit is the one after which nothing is due. -/
theorem Parse.remaining_eq_zero (h : Parse y) (hf : Filling y.1) :
    y.1.remainingFlits = 0 ↔ due Flit.len y.2.accepted = 1 := by
  obtain ⟨hd, -, hr⟩ := h.inside hf
  have hb : due Flit.len y.2.accepted ≤ 10 := by
    obtain ⟨hk, hl⟩ | ⟨hk, hl⟩ := h.lacks hf
    · omega
    · have := List.length_pos_iff.2 (h.cur_ne_nil hf)
      omega
  rw [hr, ofNat_eq_zero (by omega)]
  omega

theorem accepted_none (hn : e.flitIn = none) :
    ((recorded p).step y e).2.accepted = y.2.accepted := by
  simp [recorded, Machine.withHistory, History.update, hn]

theorem accepted_stalled (hs : y.1.accState = .stalled) :
    ((recorded p).step y e).2.accepted = y.2.accepted := by
  simp [recorded, Machine.withHistory, History.update, flitInRdy, hs]

theorem accepted_some (hc : Clear y.1 e) (he : e.flitIn = some f)
    (hs : y.1.accState ≠ .stalled) :
    ((recorded p).step y e).2.accepted = y.2.accepted ++ [f] := by
  have hi : e.phyInitDone = true := hc.calibrated (by simp [he])
  simp [recorded, Machine.withHistory, History.update, flitInRdy, hs, hi, he]

theorem accState_next : ((recorded p).step y e).1.accState = accStateNext y.1 e := rfl

theorem nIn_next :
    ((recorded p).step y e).2.nIn = if completes y.1 e then y.2.nIn + 1 else y.2.nIn := rfl

theorem completes_none (hn : e.flitIn = none) : completes y.1 e = false := by
  simp [completes, hn]

theorem completes_iff (h : Parse y) (he : e.flitIn = some f) :
    completes y.1 e = true ↔ Filling y.1 ∧ due Flit.len y.2.accepted = 1 := by
  simp only [completes, he, Option.isSome_some, Bool.true_and, Bool.and_eq_true, Bool.or_eq_true,
    decide_eq_true_iff]
  constructor
  · rintro ⟨hs, hr⟩
    have hf : Filling y.1 := .inr hs
    exact ⟨hf, (h.remaining_eq_zero hf).1 hr⟩
  · rintro ⟨hf, hd⟩
    refine ⟨?_, (h.remaining_eq_zero hf).2 hd⟩
    obtain hs | hs := hf
    · have hl := h.w2 hs
      obtain ⟨-, hl'⟩ | ⟨-, hl'⟩ := h.lacks (.inl hs) <;> omega
    · exact hs

/-- The parser after a flit that it takes. -/
theorem accState_some (h : Parse y) (he : e.flitIn = some f) (hf : Filling y.1) :
    (due Flit.len y.2.accepted = 1 ∧ ¬ Filling ((recorded p).step y e).1) ∨
      (due Flit.len y.2.accepted ≠ 1 ∧
        ((y.1.accState = .acceptW2 ∧ ((recorded p).step y e).1.accState = .acceptW3) ∨
          ((y.1.accState = .acceptW3 ∨ y.1.accState = .acceptData) ∧
            ((recorded p).step y e).1.accState = .acceptData))) := by
  have hr := h.remaining_eq_zero hf
  unfold Filling
  simp only [accState_next, accStateNext, he, Option.isSome_some, if_true]
  obtain hs | hs | hs := hf
  · have hl := h.w2 hs
    refine .inr ⟨?_, .inl ⟨hs, by rw [hs]⟩⟩
    obtain ⟨-, hl'⟩ | ⟨-, hl'⟩ := h.lacks (.inl hs) <;> omega
  · rw [hs]
    by_cases hd : due Flit.len y.2.accepted = 1
    · refine .inl ⟨hd, ?_⟩
      simp only [hr.2 hd, if_true]
      split <;> simp
    · refine .inr ⟨hd, .inr ⟨.inl rfl, ?_⟩⟩
      simp only [if_neg (mt hr.1 hd)]
  · rw [hs]
    by_cases hd : due Flit.len y.2.accepted = 1
    · refine .inl ⟨hd, ?_⟩
      simp only [hr.2 hd, if_true]
      split <;> simp
    · refine .inr ⟨hd, .inr ⟨.inr rfl, ?_⟩⟩
      simp only [if_neg (mt hr.1 hd)]

theorem remainingFlits_next :
    ((recorded p).step y e).1.remainingFlits = remainingFlitsNext y.1 e := rfl

theorem not_filling (hs : y.1.accState = .acceptW1 ∨ y.1.accState = .stalled) :
    ¬ Filling y.1 := by
  unfold Filling
  obtain hs | hs := hs <;> simp [hs]

/-- No flit is taken: the parser does not move, but may leave its stall. -/
theorem parse_kept (h : Parse y) (hn : e.flitIn = none ∨ y.1.accState = .stalled) :
    Parse ((recorded p).step y e) := by
  have hacc : ((recorded p).step y e).2.accepted = y.2.accepted := by
    obtain hn | hn := hn
    · exact accepted_none hn
    · exact accepted_stalled hn
  have hcomp : completes y.1 e = false := by
    obtain hn | hn := hn
    · exact completes_none hn
    · simp [completes, hn]
  have hst : ((recorded p).step y e).1.accState = y.1.accState ∨
      (y.1.accState = .stalled ∧ ((recorded p).step y e).1.accState = .acceptW1) := by
    rw [accState_next, accStateNext]
    obtain hn | hn := hn
    · simp [hn]
    · rw [hn]
      cases e.flitIn.isSome <;> by_cases hi : y.1.bufCurrentIn = y.1.bufCurrentOut <;> simp [hi]
  have hrem : ((recorded p).step y e).1.remainingFlits = y.1.remainingFlits := by
    rw [remainingFlits_next, remainingFlitsNext]
    obtain hn | hn := hn
    · rw [hn]
    · cases e.flitIn <;> rw [hn]
  have hfill : Filling ((recorded p).step y e).1 → Filling y.1 ∧
      ((recorded p).step y e).1.accState = y.1.accState := by
    intro hf
    obtain hst | ⟨-, hst⟩ := hst
    · unfold Filling at hf ⊢
      rw [hst] at hf
      exact ⟨hf, hst⟩
    · exact absurd hf (not_filling (.inl hst))
  refine ⟨?_, ?_, ?_, ?_, ?_, ?_, ?_⟩
  · rw [hacc]
    exact h.whole
  · rw [nIn_next, hcomp, hacc]
    exact h.nIn_eq
  · intro hs
    rw [hacc]
    refine h.between ?_
    obtain hst | ⟨hst, -⟩ := hst
    · rwa [hst] at hs
    · exact .inr hst
  · intro hf
    rw [hacc, hrem]
    exact h.inside (hfill hf).1
  · intro hs
    rw [hacc]
    exact h.w2 ((hfill (.inl hs)).2 ▸ hs)
  · intro hs
    rw [hacc]
    exact h.w3 ((hfill (.inr (.inl hs))).2 ▸ hs)
  · intro hs
    rw [hacc]
    exact h.data ((hfill (.inr (.inr hs))).2 ▸ hs)

/-- A header comes in. -/
theorem parse_header (h : Parse y) (ho : Obeys y e) (hc : Clear y.1 e) (he : e.flitIn = some f)
    (hs : y.1.accState = .acceptW1) : Parse ((recorded p).step y e) := by
  have hacc := accepted_some hc he (by simp [hs])
  have hd := h.between (.inl hs)
  have hh : IsHeader f := ho.header f he (by simp [flitInRdy, hs, hc.calibrated, he]) hd
  have hlen := hh.len_eq
  have hd' : due Flit.len (y.2.accepted ++ [f]) = Flit.len f := by rw [due_snoc, if_pos hd]
  have hne : due Flit.len (y.2.accepted ++ [f]) ≠ 0 := by omega
  have hcur : cur (y.2.accepted ++ [f]) = [f] := by rw [cur_snoc hne, cur_eq_nil hd]; rfl
  have hreq : requests (y.2.accepted ++ [f]) = requests y.2.accepted := by
    rw [requests_snoc, if_neg hne]
  have hst : ((recorded p).step y e).1.accState = .acceptW2 := by
    rw [accState_next, accStateNext, hs, he]
    rfl
  have hrem : ((recorded p).step y e).1.remainingFlits = BitVec.ofNat 4 (Flit.len f - 1) := by
    have hf : f.length = BitVec.ofNat 8 (Flit.len f) := (BitVec.ofNat_toNat 8 f.length).symm
    rw [remainingFlits_next, remainingFlitsNext, he, hs]
    simp only [hf]
    obtain hlen | hlen := hlen <;> rw [hlen] <;> rfl
  refine ⟨?_, ?_, ?_, ?_, ?_, ?_, ?_⟩
  · rw [hacc, hreq]
    exact h.whole
  · rw [nIn_next, completes, hs, hacc, hreq]
    simpa using h.nIn_eq
  · rw [hst]
    simp
  · intro _
    rw [hacc, hcur, hd', hrem]
    exact ⟨by omega, hh, rfl⟩
  · intro _
    rw [hacc, hcur]
    rfl
  · rw [hst]
    simp
  · rw [hst]
    simp

/-- Another flit of a packet comes in. -/
theorem parse_flit (h : Parse y) (hc : Clear y.1 e) (he : e.flitIn = some f) (hf : Filling y.1) :
    Parse ((recorded p).step y e) := by
  have hns : y.1.accState ≠ .stalled := fun hs => not_filling (.inr hs) hf
  have hacc := accepted_some hc he hns
  obtain ⟨hd, hh, hr⟩ := h.inside hf
  have hcne := h.cur_ne_nil hf
  have hd' : due Flit.len (y.2.accepted ++ [f]) = due Flit.len y.2.accepted - 1 := by
    rw [due_snoc, if_neg hd]
  have hcomp := completes_iff h he
  obtain ⟨h1, hnf⟩ | ⟨h1, hst⟩ := accState_some h he hf
  · have hreq : requests (y.2.accepted ++ [f]) =
        requests y.2.accepted ++ [cur y.2.accepted ++ [f]] := by
      rw [requests_snoc, if_pos (by omega)]
    refine ⟨?_, ?_, ?_, fun hf' => absurd hf' hnf, fun hs => absurd (.inl hs) hnf,
      fun hs => absurd (.inr (.inl hs)) hnf, fun hs => absurd (.inr (.inr hs)) hnf⟩
    · rw [hacc, hreq]
      intro q hq
      obtain hq | hq := List.mem_append.1 hq
      · exact h.whole q hq
      · rw [List.mem_singleton.1 hq, Whole, kind, hdr_append hcne, List.length_append,
          List.length_singleton]
        obtain ⟨hk, hl⟩ | ⟨hk, hl⟩ := h.lacks hf
        · exact .inl ⟨hk, by omega⟩
        · exact .inr ⟨hk, by omega⟩
    · rw [nIn_next, if_pos (hcomp.2 ⟨hf, h1⟩), hacc, hreq, List.length_append, ← h.nIn_eq]
      rfl
    · intro _
      rw [hacc, hd']
      omega
  · have hne : due Flit.len (y.2.accepted ++ [f]) ≠ 0 := by omega
    have hreq : requests (y.2.accepted ++ [f]) = requests y.2.accepted := by
      rw [requests_snoc, if_neg hne]
    have hcur := cur_snoc hne
    have hrem : ((recorded p).step y e).1.remainingFlits =
        BitVec.ofNat 4 (due Flit.len y.2.accepted - 1 - 1) := by
      rw [remainingFlits_next, remainingFlitsNext, he, ← ofNat_sub_one (by omega), ← hr]
      have h0 := mt (h.remaining_eq_zero hf).1 h1
      obtain ⟨hs, -⟩ | ⟨hs | hs, -⟩ := hst <;> simp only [hs, if_neg h0]
    have hfill : Filling ((recorded p).step y e).1 := by
      obtain ⟨-, hst⟩ | ⟨-, hst⟩ := hst
      · exact .inr (.inl hst)
      · exact .inr (.inr hst)
    refine ⟨?_, ?_, ?_, ?_, ?_, ?_, ?_⟩
    · rw [hacc, hreq]
      exact h.whole
    · rw [nIn_next, if_neg (fun hx => h1 (hcomp.1 hx).2), hacc, hreq]
      exact h.nIn_eq
    · intro hs
      exact absurd hfill (not_filling hs)
    · intro _
      rw [hacc, hcur, hdr_append hcne, hd', hrem]
      exact ⟨by omega, hh, rfl⟩
    · intro hs
      obtain ⟨-, hst⟩ | ⟨-, hst⟩ := hst <;> rw [hst] at hs <;> cases hs
    · intro hs
      rw [hacc, hcur, List.length_append, List.length_singleton]
      obtain ⟨hs', -⟩ | ⟨-, hst⟩ := hst
      · rw [h.w2 hs']
      · rw [hst] at hs
        cases hs
    · intro hs
      rw [hacc, hcur, List.length_append, List.length_singleton]
      obtain ⟨-, hst⟩ | ⟨hs' | hs', -⟩ := hst
      · rw [hst] at hs
        cases hs
      · exact Nat.le_of_eq (by rw [h.w3 hs'])
      · exact Nat.le_succ_of_le (h.data hs')

theorem parse_step (h : Parse y) (ho : Obeys y e) (hc : Clear y.1 e) :
    Parse ((recorded p).step y e) := by
  cases he : e.flitIn with
  | none => exact parse_kept h (.inl he)
  | some f =>
    cases hs : y.1.accState with
    | acceptW1 => exact parse_header h ho hc he hs
    | acceptW2 => exact parse_flit h hc he (.inl hs)
    | acceptW3 => exact parse_flit h hc he (.inr (.inl hs))
    | acceptData => exact parse_flit h hc he (.inr (.inr hs))
    | stalled => exact parse_kept h (.inr hs)

theorem filling_or (s : State p) : Filling s ∨ s.accState = .acceptW1 ∨ s.accState = .stalled := by
  unfold Filling
  cases s.accState <;> simp

/-- The requests grow by the packet that is completed. -/
theorem requests_next (h : Parse y) (ho : Obeys y e) (hc : Clear y.1 e) :
    requests ((recorded p).step y e).2.accepted =
      if completes y.1 e then requests y.2.accepted ++ [cur y.2.accepted ++ e.flitIn.toList]
      else requests y.2.accepted := by
  cases he : e.flitIn with
  | none => rw [accepted_none he, completes_none he]; rfl
  | some f =>
    by_cases hs : y.1.accState = .stalled
    · have hn : ¬ completes y.1 e = true := by simp [completes, hs]
      rw [accepted_stalled hs, if_neg hn]
    · rw [accepted_some hc he hs, requests_snoc, due_snoc]
      by_cases hf : Filling y.1
      · have hd := (h.inside hf).1
        by_cases h1 : due Flit.len y.2.accepted = 1
        · rw [if_pos ((completes_iff h he).2 ⟨hf, h1⟩), if_neg hd, if_pos (by omega)]
          rfl
        · rw [if_neg (fun hx => h1 ((completes_iff h he).1 hx).2), if_neg hd, if_neg (by omega)]
      · have hw : y.1.accState = .acceptW1 := by
          obtain hf' | hw | hs' := filling_or y.1
          · exact absurd hf' hf
          · exact hw
          · exact absurd hs' hs
        have hd := h.between (.inl hw)
        have hh := (ho.header f he (by simp [flitInRdy, hw, hc.calibrated, he]) hd).len_eq
        rw [if_neg (fun hx => hf ((completes_iff h he).1 hx).1), if_pos hd, if_neg (by omega)]

theorem nIn_le_next : y.2.nIn ≤ ((recorded p).step y e).2.nIn := by
  rw [nIn_next]
  split <;> omega

/-- A whole packet stays what it is. -/
theorem pkt_next (h : Parse y) (ho : Obeys y e) (hc : Clear y.1 e) {n : Nat} (hn : n < y.2.nIn) :
    pkt ((recorded p).step y e).2.accepted n = pkt y.2.accepted n := by
  have hn' := hn
  rw [h.nIn_eq] at hn'
  have hr := requests_next h ho hc
  have hlt : n < (requests ((recorded p).step y e).2.accepted).length := by
    rw [hr]
    split
    · rw [List.length_append]
      omega
    · exact hn'
  rw [pkt_of_lt hlt, pkt_of_lt hn']
  simp only [hr]
  split
  · rw [List.getElem_append_left hn']
  · rfl

theorem pkt_nIn (h : Parse y) : pkt y.2.accepted y.2.nIn = cur y.2.accepted := by
  rw [h.nIn_eq, pkt_length]

/-- The packet that is completed has the flits that came in before, and the last one. -/
theorem pkt_completed (h : Parse y) (ho : Obeys y e) (hc : Clear y.1 e)
    (hcomp : completes y.1 e = true) :
    pkt ((recorded p).step y e).2.accepted y.2.nIn = cur y.2.accepted ++ e.flitIn.toList := by
  have hr := requests_next h ho hc
  rw [if_pos hcomp] at hr
  have hlt : y.2.nIn < (requests ((recorded p).step y e).2.accepted).length := by
    rw [hr, List.length_append, h.nIn_eq]
    exact Nat.lt_succ_self _
  rw [pkt_of_lt hlt]
  simp only [hr, h.nIn_eq, List.getElem_append_right (Nat.le_refl _), Nat.sub_self,
    List.getElem_cons_zero]

theorem whole_pkt (h : Parse y) {n : Nat} (hn : n < y.2.nIn) : Whole (pkt y.2.accepted n) := by
  rw [h.nIn_eq] at hn
  rw [pkt_of_lt hn]
  exact h.whole _ (List.getElem_mem hn)

end ParseStep

end Piton.Mc
