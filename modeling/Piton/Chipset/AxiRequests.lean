import Piton.Chipset.AxiBridge
import Piton.Lib.Packets

/-! The requests of the AXI-Lite bridge: what the registers hold of the message that comes in. -/

namespace Piton.Chipset

open Hw Noc

/-- A whole load message. -/
structure Load where
  header0 : Flit
  header1 : Flit
  header2 : Flit

/-- A whole store message with one data flit. -/
structure Store where
  header0 : Flit
  header1 : Flit
  header2 : Flit
  data : Flit

/-- A load read from the flits of a message. -/
def readLoad : List Flit → Option Load
  | [h0, h1, h2] => if isLoad h0 then some ⟨h0, h1, h2⟩ else none
  | _ => none

/-- A store read from the flits of a message. -/
def readStore : List Flit → Option Store
  | [h0, h1, h2, d] => if isStore h0 then some ⟨h0, h1, h2, d⟩ else none
  | _ => none

/-- The loads of a stream in order. -/
def loads (xs : List Flit) : List Load := completed Flit.len readLoad xs

/-- The stores among the messages complete so far. -/
def stores (xs : List Flit) : List Store := completed Flit.len readStore xs

/-- The messages from the splitter are loads, and stores with one data flit. -/
def Served (y : AxiBridge × Transfers) (i : AxiInput) : Prop :=
  i.val = true → y.1.rdy i = true → due Flit.len y.2.accepted = 0 →
    isLoad i.data = true ∧ i.data.length = 2 ∨ isStore i.data = true ∧ i.data.length = 3

instance (y : AxiBridge × Transfers) (i : AxiInput) : Decidable (Served y i) :=
  inferInstanceAs (Decidable (_ → _ → _ → _))

theorem not_isStore_of_isLoad {f : Flit} (h : isLoad f = true) : isStore f = false := by
  simp only [isLoad, isStore, Bool.or_eq_true, decide_eq_true_iff] at *
  obtain (h | h) | h := h <;> simp [h]

namespace AxiBridge

variable {s : AxiBridge} {i : AxiInput} {xs : List Flit}

/-! ### A message comes in -/

/-- The registers hold the flits of the message in hand, which lacks some more. -/
inductive Receiving (s : AxiBridge) : List Flit → Nat → Prop
  | load0 {h0 : Flit} : isLoad h0 = true → s.msgState = .header0 → s.msgType = .load →
      s.rReqStatus = .incomp → s.rReqHeader0 = h0 → Receiving s [h0] 2
  | load1 {h0 h1 : Flit} : isLoad h0 = true → s.msgState = .header1 → s.msgType = .load →
      s.rReqStatus = .incomp → s.rReqHeader0 = h0 → s.rReqHeader1 = h1 → Receiving s [h0, h1] 1
  | store0 {h0 : Flit} : isStore h0 = true → s.msgState = .header0 → s.msgType = .store →
      s.wReqStatus = .incomp → s.wReqHeader0 = h0 → Receiving s [h0] 3
  | store1 {h0 h1 : Flit} : isStore h0 = true → s.msgState = .header1 → s.msgType = .store →
      s.wReqStatus = .incomp → s.wReqHeader0 = h0 → s.wReqHeader1 = h1 → Receiving s [h0, h1] 2
  | store2 {h0 h1 h2 : Flit} : isStore h0 = true → s.msgState = .header2 → s.msgType = .store →
      s.wReqStatus = .incomp → s.wReqHeader0 = h0 → s.wReqHeader1 = h1 → s.wReqHeader2 = h2 →
      Receiving s [h0, h1, h2] 1

/-- The registers after the flits `xs`. -/
structure Parses (s : AxiBridge) (xs : List Flit) : Prop where
  counter : s.msgCounter.toNat = due Flit.len xs
  between : due Flit.len xs = 0 → s.msgState = .inval ∨ s.msgState = .header2 ∨ s.msgState = .data
  inside : due Flit.len xs ≠ 0 → Receiving s (inHand Flit.len xs) (due Flit.len xs)

theorem parses_init : Parses .init [] where
  counter := rfl
  between := fun _ => .inl rfl
  inside := fun h => absurd rfl h

theorem Parses.counter_eq (h : Parses s xs) : s.msgCounter = 0 ↔ due Flit.len xs = 0 := by
  rw [← h.counter]
  exact BitVec.toNat_eq

theorem Parses.msgStateNext_between (h : Parses s xs) (hd : due Flit.len xs = 0) :
    s.msgStateNext = .header0 := by
  have hc := h.counter_eq.2 hd
  obtain hs | hs | hs := h.between hd <;> rw [msgStateNext, hs, hc] <;> rfl

/-! ### Buffers that are filled are not in use -/

theorem arvalid_of_incomp (h : s.rReqStatus = .incomp) : s.arvalid = false := by
  rw [arvalid, h]
  rfl

theorem awvalid_of_incomp (h : s.wReqStatus = .incomp) : s.awvalid = false := by
  rw [awvalid, h]
  rfl

theorem wvalid_of_incomp (h : s.wReqStatus = .incomp) : s.wvalid = false := by
  rw [wvalid, h]
  rfl

theorem wReqStatus_incomp_iff :
    s.wReqStatus = .incomp ↔ s.wAddrReqStatus = .incomp ∧ s.wDataReqStatus = .incomp := by
  rw [wReqStatus]
  split <;> simp_all

/-- A load flit that comes in finds its buffer free. -/
theorem load_go (hgo : s.go i = true) (ht : s.msgTypeNext i = .load) :
    s.rReqStatus = .incomp ∧ s.goAndLoad i = true ∧ s.goAndStore i = false := by
  have hg := hgo
  rw [go, rdy, ht, Bool.and_eq_true] at hg
  have hi : s.rReqStatus = .incomp := by simpa using hg.2
  exact ⟨hi, by rw [goAndLoad, hgo, ht, hi, hg.1]; rfl, by rw [goAndStore, ht]; simp⟩

theorem store_go (hgo : s.go i = true) (ht : s.msgTypeNext i = .store) :
    s.wReqStatus = .incomp ∧ s.goAndStore i = true ∧ s.goAndLoad i = false := by
  have hg := hgo
  rw [go, rdy, ht, Bool.and_eq_true] at hg
  have hi : s.wReqStatus = .incomp := by simpa using hg.2
  exact ⟨hi, by rw [goAndStore, hgo, ht, hi, hg.1]; rfl, by rw [goAndLoad, ht]; simp⟩

theorem goAndLoad_of_not_go (hgo : s.go i = false) : s.goAndLoad i = false := by
  rw [goAndLoad, hgo, Bool.false_and]

theorem goAndStore_of_not_go (hgo : s.go i = false) : s.goAndStore i = false := by
  rw [goAndStore, hgo, Bool.false_and]

/-- The last flit of a load comes in. -/
def loadWhole (s : AxiBridge) (i : AxiInput) : Bool := s.goAndLoad i && s.msgStateNext = .header2

/-- A read buffer that is free stays free until a load is whole. -/
theorem rReqStatus_free (h : s.rReqStatus = .incomp) (hg : s.loadWhole i = false) :
    (s.next i).rReqStatus = .incomp := by
  rw [loadWhole] at hg
  simp only [next, hg, Bool.false_eq_true, if_false, h, ite_self]

theorem wReqStatus_free (h : s.wReqStatus = .incomp) (hg : s.wStatusUpdate i = false) :
    (s.next i).wReqStatus = .incomp := by
  obtain ⟨ha, hd⟩ := wReqStatus_incomp_iff.1 h
  rw [wReqStatus_incomp_iff]
  simp only [next, hg, Bool.false_eq_true, if_false, ha, hd, ite_self, and_self]

/-- The read buffer holds a load. -/
structure HoldsLoad (s : AxiBridge) (l : Load) : Prop where
  header0 : s.rReqHeader0 = l.header0
  header1 : s.rReqHeader1 = l.header1
  header2 : s.rReqHeader2 = l.header2

/-- The write buffer holds a store. -/
structure HoldsStore (s : AxiBridge) (st : Store) : Prop where
  header0 : s.wReqHeader0 = st.header0
  header1 : s.wReqHeader1 = st.header1
  header2 : s.wReqHeader2 = st.header2
  data : s.wReqData0 = st.data

/-- What a clock edge adds to the whole messages. -/
inductive Incoming (s : AxiBridge) (i : AxiInput) (xs xs' : List Flit) : Prop
  | nothing : loads xs' = loads xs → stores xs' = stores xs → s.loadWhole i = false →
      s.wStatusUpdate i = false → Incoming s i xs xs'
  | load (l : Load) : loads xs' = loads xs ++ [l] → stores xs' = stores xs →
      s.loadWhole i = true → s.wStatusUpdate i = false → s.rReqStatus = .incomp →
      (s.next i).HoldsLoad l → Incoming s i xs xs'
  | store (st : Store) : loads xs' = loads xs → stores xs' = stores xs ++ [st] →
      s.loadWhole i = false → s.wStatusUpdate i = true → s.wReqStatus = .incomp →
      (s.next i).HoldsStore st → Incoming s i xs xs'

/-! ### One flit -/

theorem Receiving.reads {pk : List Flit} {d : Nat} (h : Receiving s pk d) :
    readLoad pk = none ∧ readStore pk = none := by
  cases h with
  | load0 => exact ⟨rfl, rfl⟩
  | load1 => exact ⟨rfl, rfl⟩
  | store0 => exact ⟨rfl, rfl⟩
  | store1 => exact ⟨rfl, rfl⟩
  | @store2 h0 h1 h2 hst =>
    refine ⟨?_, rfl⟩
    rw [readLoad, if_neg]
    intro hl
    rw [not_isStore_of_isLoad hl] at hst
    exact Bool.false_ne_true hst

theorem Parses.loads_snoc (h : Parses s xs) (x : Flit) :
    loads (xs ++ [x]) = loads xs ++ (readLoad (inHand Flit.len (xs ++ [x]))).toList :=
  completed_snoc (fun _ => rfl) fun hd => (h.inside hd).reads.1

theorem Parses.stores_snoc (h : Parses s xs) (x : Flit) :
    stores (xs ++ [x]) = stores xs ++ (readStore (inHand Flit.len (xs ++ [x]))).toList :=
  completed_snoc (fun _ => rfl) fun hd => (h.inside hd).reads.2

theorem toNat_counter_sub_one (h : Parses s xs) (hd : due Flit.len xs ≠ 0) (x : Flit) :
    (s.msgCounter - 1).toNat = due Flit.len (xs ++ [x]) := by
  have hc : s.msgCounter.toNat ≠ 0 := by rwa [h.counter]
  rw [due_snoc, if_neg hd, ← h.counter]
  bv_omega

theorem Receiving.kept {pk : List Flit} {d : Nat} (h : Receiving s pk d) (hgo : s.go i = false) :
    Receiving (s.next i) pk d := by
  have hl := goAndLoad_of_not_go hgo
  have hst := goAndStore_of_not_go hgo
  have hw : s.wStatusUpdate i = false := by rw [wStatusUpdate, hst]; rfl
  have hlw : s.loadWhole i = false := by rw [loadWhole, hl]; rfl
  have hstate : (s.next i).msgState = s.msgState := by simp [next, hgo]
  have htype : (s.next i).msgType = s.msgType := by simp [next, hgo]
  cases h with
  | load0 h0 h1 h2 h3 h4 =>
    exact .load0 h0 (hstate.trans h1) (htype.trans h2) (rReqStatus_free h3 hlw)
      (by simp [next, hl, h4])
  | load1 h0 h1 h2 h3 h4 h5 =>
    exact .load1 h0 (hstate.trans h1) (htype.trans h2) (rReqStatus_free h3 hlw)
      (by simp [next, hl, h4]) (by simp [next, hl, h5])
  | store0 h0 h1 h2 h3 h4 =>
    exact .store0 h0 (hstate.trans h1) (htype.trans h2) (wReqStatus_free h3 hw)
      (by simp [next, hst, h4])
  | store1 h0 h1 h2 h3 h4 h5 =>
    exact .store1 h0 (hstate.trans h1) (htype.trans h2) (wReqStatus_free h3 hw)
      (by simp [next, hst, h4]) (by simp [next, hst, h5])
  | store2 h0 h1 h2 h3 h4 h5 h6 =>
    exact .store2 h0 (hstate.trans h1) (htype.trans h2) (wReqStatus_free h3 hw)
      (by simp [next, hst, h4]) (by simp [next, hst, h5]) (by simp [next, hst, h6])

/-- No flit comes in. -/
theorem Parses.step_idle (h : Parses s xs) (hgo : s.go i = false) : Parses (s.next i) xs where
  counter := by
    rw [← h.counter]
    simp [next, hgo]
  between := by
    have hs : (s.next i).msgState = s.msgState := by simp [next, hgo]
    rw [hs]
    exact h.between
  inside := fun hd => (h.inside hd).kept hgo

theorem incoming_idle (hgo : s.go i = false) : Incoming s i xs xs :=
  .nothing rfl rfl (by rw [loadWhole, goAndLoad_of_not_go hgo]; rfl)
    (by rw [wStatusUpdate, goAndStore_of_not_go hgo]; rfl)

/-- A header comes in. -/
theorem Parses.step_header (h : Parses s xs) (hgo : s.go i = true) (hd : due Flit.len xs = 0)
    (hdata : isLoad i.data = true ∧ i.data.length = 2 ∨ isStore i.data = true ∧ i.data.length = 3) :
    Parses (s.next i) (xs ++ [i.data]) ∧ Incoming s i xs (xs ++ [i.data]) := by
  have hs := h.msgStateNext_between hd
  have hin : inHand Flit.len (xs ++ [i.data]) = [i.data] := inHand_snoc_of_due_eq hd
  have hdue : due Flit.len (xs ++ [i.data]) = i.data.len := by rw [due_snoc, if_pos hd]
  have hlw : s.loadWhole i = false := by simp [loadWhole, hs]
  have hw : s.wStatusUpdate i = false := by simp [wStatusUpdate, hs]
  have hmux : s.msgTypeNext i = msgTypeMuxOut i.data := by simp [msgTypeNext, hs]
  have hstate : (s.next i).msgState = .header0 := by simp [next, hgo, hs]
  have hcounter : (s.next i).msgCounter.toNat = due Flit.len (xs ++ [i.data]) := by
    rw [hdue]
    simp [next, hgo, hs, Flit.len]
  refine ⟨⟨hcounter, ?_, ?_⟩, .nothing ?_ ?_ hlw hw⟩
  · intro h0
    rw [hdue, Flit.len] at h0
    obtain ⟨-, hlen⟩ | ⟨-, hlen⟩ := hdata <;> rw [hlen] at h0 <;> simp at h0
  · intro _
    rw [hin, hdue, Flit.len]
    obtain ⟨hk, hlen⟩ | ⟨hk, hlen⟩ := hdata
    · have ht : s.msgTypeNext i = .load := by rw [hmux, msgTypeMuxOut, hk]; rfl
      obtain ⟨hfree, hl, -⟩ := load_go hgo ht
      rw [hlen]
      exact .load0 hk hstate (by simp [next, hgo, ht]) (rReqStatus_free hfree hlw)
        (by simp [next, hl, hs])
    · have hnl : isLoad i.data = false := by
        rw [← Bool.not_eq_true]
        intro hl
        rw [not_isStore_of_isLoad hl] at hk
        exact Bool.false_ne_true hk
      have ht : s.msgTypeNext i = .store := by rw [hmux, msgTypeMuxOut, hnl, hk]; rfl
      obtain ⟨hfree, hst, -⟩ := store_go hgo ht
      rw [hlen]
      exact .store0 hk hstate (by simp [next, hgo, ht]) (wReqStatus_free hfree hw)
        (by simp [next, hst, hs])
  · rw [h.loads_snoc, hin]
    simp [readLoad]
  · rw [h.stores_snoc, hin]
    simp [readStore]

/-- The state after the flits of a message in hand. -/
theorem msgTypeNext_inside (h0 : s.msgStateNext ≠ .inval) (h1 : s.msgStateNext ≠ .header0) :
    s.msgTypeNext i = s.msgType := by
  rw [msgTypeNext, if_neg h0, if_neg h1]

/-- A flit of a message in hand comes in. -/
theorem Parses.step_inside (h : Parses s xs) (hgo : s.go i = true) (hd : due Flit.len xs ≠ 0) :
    Parses (s.next i) (xs ++ [i.data]) ∧ Incoming s i xs (xs ++ [i.data]) := by
  have hin : inHand Flit.len (xs ++ [i.data]) = inHand Flit.len xs ++ [i.data] := inHand_snoc hd
  have hdue : due Flit.len (xs ++ [i.data]) = due Flit.len xs - 1 := by
    rw [due_snoc, if_neg hd]
  have hsub := toNat_counter_sub_one h hd i.data
  have hctr := h.counter
  have hloads := h.loads_snoc i.data
  have hstores := h.stores_snoc i.data
  have hcounter : s.msgStateNext ≠ .header0 →
      (s.next i).msgCounter.toNat = due Flit.len (xs ++ [i.data]) := by
    intro hs
    rw [← hsub]
    simp [next, hgo, hs]
  have hr := h.inside hd
  rw [hin] at hloads hstores
  generalize inHand Flit.len xs = pk at *
  generalize due Flit.len xs = d at *
  cases hr with
  | load0 hk hst ht hfree hh0 =>
    have hs : s.msgStateNext = .header1 := by simp [msgStateNext, hst]
    have ht' := (msgTypeNext_inside (i := i) (by simp [hs]) (by simp [hs])).trans ht
    obtain ⟨-, hl, -⟩ := load_go hgo ht'
    have hlw : s.loadWhole i = false := by simp [loadWhole, hs]
    have hw : s.wStatusUpdate i = false := by simp [wStatusUpdate, hs]
    refine ⟨⟨hcounter (by simp [hs]), ?_, ?_⟩, .nothing ?_ ?_ hlw hw⟩
    · rw [hdue]
      simp
    · intro _
      rw [hin, hdue]
      exact .load1 hk (by simp [next, hgo, hs]) (by simp [next, hgo, ht'])
        (rReqStatus_free hfree hlw) (by simp [next, hs, hh0]) (by simp [next, hl, hs])
    · simpa [readLoad] using hloads
    · simpa [readStore] using hstores
  | @load1 h0 h1 hk hst ht hfree hh0 hh1 =>
    have hs : s.msgStateNext = .header2 := by simp [msgStateNext, hst]
    have ht' := (msgTypeNext_inside (i := i) (by simp [hs]) (by simp [hs])).trans ht
    obtain ⟨-, hl, -⟩ := load_go hgo ht'
    have hlw : s.loadWhole i = true := by simp [loadWhole, hs, hl]
    have hw : s.wStatusUpdate i = false := by simp [wStatusUpdate, hs]
    refine ⟨⟨hcounter (by simp [hs]), ?_, ?_⟩, .load ⟨h0, h1, i.data⟩ ?_ ?_ hlw hw hfree ⟨?_, ?_, ?_⟩⟩
    · exact fun _ => .inr (.inl (by simp [next, hgo, hs]))
    · rw [hdue]
      simp
    · simpa [readLoad, hk] using hloads
    · simpa [readStore] using hstores
    · simp [next, hs, hh0]
    · simp [next, hs, hh1]
    · simp [next, hl, hs]
  | store0 hk hst ht hfree hh0 =>
    have hs : s.msgStateNext = .header1 := by simp [msgStateNext, hst]
    have ht' := (msgTypeNext_inside (i := i) (by simp [hs]) (by simp [hs])).trans ht
    obtain ⟨-, hgs, -⟩ := store_go hgo ht'
    have hlw : s.loadWhole i = false := by simp [loadWhole, hs]
    have hw : s.wStatusUpdate i = false := by simp [wStatusUpdate, hs]
    refine ⟨⟨hcounter (by simp [hs]), ?_, ?_⟩, .nothing ?_ ?_ hlw hw⟩
    · rw [hdue]
      simp
    · intro _
      rw [hin, hdue]
      exact .store1 hk (by simp [next, hgo, hs]) (by simp [next, hgo, ht'])
        (wReqStatus_free hfree hw) (by simp [next, hs, hh0]) (by simp [next, hgs, hs])
    · simpa [readLoad] using hloads
    · simpa [readStore] using hstores
  | @store1 h0 h1 hk hst ht hfree hh0 hh1 =>
    have hs : s.msgStateNext = .header2 := by simp [msgStateNext, hst]
    have ht' := (msgTypeNext_inside (i := i) (by simp [hs]) (by simp [hs])).trans ht
    obtain ⟨-, hgs, hgl⟩ := store_go hgo ht'
    have hlw : s.loadWhole i = false := by simp [loadWhole, hgl]
    have hw : s.wStatusUpdate i = false := by simp [wStatusUpdate, hs]
    have hnl : isLoad h0 = false := by
      rw [← Bool.not_eq_true]
      intro hl
      rw [not_isStore_of_isLoad hl] at hk
      exact Bool.false_ne_true hk
    refine ⟨⟨hcounter (by simp [hs]), ?_, ?_⟩, .nothing ?_ ?_ hlw hw⟩
    · rw [hdue]
      simp
    · intro _
      rw [hin, hdue]
      exact .store2 hk (by simp [next, hgo, hs]) (by simp [next, hgo, ht'])
        (wReqStatus_free hfree hw) (by simp [next, hs, hh0]) (by simp [next, hs, hh1])
        (by simp [next, hgs, hs])
    · simpa [readLoad, hnl] using hloads
    · simpa [readStore] using hstores
  | @store2 h0 h1 h2 hk hst ht hfree hh0 hh1 hh2 =>
    have hc1 : s.msgCounter = 1 := BitVec.eq_of_toNat_eq hctr
    have hs : s.msgStateNext = .data := by simp [msgStateNext, hst, hc1]
    have ht' := (msgTypeNext_inside (i := i) (by simp [hs]) (by simp [hs])).trans ht
    obtain ⟨-, hgs, -⟩ := store_go hgo ht'
    have hlw : s.loadWhole i = false := by simp [loadWhole, hs]
    have hw : s.wStatusUpdate i = true := by simp [wStatusUpdate, hs, hgs, hc1]
    refine ⟨⟨hcounter (by simp [hs]), ?_, ?_⟩,
      .store ⟨h0, h1, h2, i.data⟩ ?_ ?_ hlw hw hfree ⟨?_, ?_, ?_, ?_⟩⟩
    · exact fun _ => .inr (.inr (by simp [next, hgo, hs]))
    · rw [hdue]
      simp
    · simpa [readLoad] using hloads
    · simpa [readStore, hk] using hstores
    · simp [next, hs, hh0]
    · simp [next, hs, hh1]
    · simp [next, hs, hh2]
    · simp [next, hgs, hs]

/-- A clock edge takes in at most one flit of the stream. -/
theorem Parses.step (h : Parses s xs)
    (hserved : s.go i = true → due Flit.len xs = 0 →
      isLoad i.data = true ∧ i.data.length = 2 ∨ isStore i.data = true ∧ i.data.length = 3) :
    Parses (s.next i) (if s.go i then xs ++ [i.data] else xs) ∧
      Incoming s i xs (if s.go i then xs ++ [i.data] else xs) := by
  cases hgo : s.go i with
  | false => exact ⟨h.step_idle hgo, incoming_idle hgo⟩
  | true =>
    rw [if_pos rfl]
    by_cases hd : due Flit.len xs = 0
    · exact h.step_header hgo hd (hserved hgo hd)
    · exact h.step_inside hgo hd

end AxiBridge

end Piton.Chipset
