import Piton.Chipset.AxiRequests

/-! Stores through the AXI-Lite bridge: one address transfer, one data transfer and one response each,
whichever transfer is accepted first. -/

namespace Piton.Chipset

open Hw Noc

/-- The flit that answers a store. -/
def storeResponse (st : Store) : Flit := storeAckHeader st.header0 st.header2

/-- The address transfer of a store. -/
def storeAddr (st : Store) : BitVec 64 := msgAddr st.header1

/-- The data transfer of a store. -/
def storeData (st : Store) : BitVec 64 × BitVec 8 := (st.data, wstrb st.header1)

namespace AxiBridge

variable {s : AxiBridge} {i : AxiInput}

/-! ### The phases of a store -/

/-- The status of a request buffer, or of a response, that is in use until a transfer is done. -/
def reqStatus (done : Bool) : BufStatus := if done then .incomp else .comp

/-- The status of one half of a store, by whether it has been transferred. -/
def respStatus (done : Bool) : BufStatus := if done then .waitresp else .incomp

/-- The store whose transfers are both done, the store in the request buffer, and which of the
transfers of that one are done. -/
inductive Writing (s : AxiBridge) : Option Store → Option Store → Bool → Bool → Prop
  | empty : s.wAddrReqStatus = .incomp → s.wDataReqStatus = .incomp →
      s.wAddrRespStatus = .incomp → s.wDataRespStatus = .incomp → Writing s none none false false
  | sending {st : Store} {a c : Bool} : (a && c) = false → s.wAddrReqStatus = reqStatus a →
      s.wDataReqStatus = reqStatus c → s.wAddrRespStatus = respStatus a →
      s.wDataRespStatus = respStatus c → s.HoldsStore st →
      (a = true → s.wRespHeader0 = storeResponse st) → Writing s none (some st) a c
  | answering {cur : Store} {req : Option Store} {x : BufStatus} : x = .waitresp ∨ x = .respsend →
      s.wAddrReqStatus = reqStatus req.isNone → s.wDataReqStatus = reqStatus req.isNone →
      s.wAddrRespStatus = x → s.wDataRespStatus = x → s.wRespHeader0 = storeResponse cur →
      (∀ st, req = some st → s.HoldsStore st) → Writing s (some cur) req false false

theorem writing_init : Writing .init none none false false := .empty rfl rfl rfl rfl

theorem reqStatus_eq_incomp {done : Bool} : reqStatus done = .incomp ↔ done = true := by
  cases done <;> simp [reqStatus]

theorem respStatus_eq_incomp {done : Bool} : respStatus done = .incomp ↔ done = false := by
  cases done <;> simp [respStatus]

/-- A free request buffer holds no store. -/
theorem Writing.req_none {cur req : Option Store} {a c : Bool} (h : Writing s cur req a c)
    (hs : s.wReqStatus = .incomp) : req = none := by
  obtain ⟨ha, hd⟩ := wReqStatus_incomp_iff.1 hs
  cases h with
  | empty => rfl
  | sending hac h1 h2 =>
    rw [reqStatus_eq_incomp.1 (h1.symm.trans ha), reqStatus_eq_incomp.1 (h2.symm.trans hd)] at hac
    exact absurd hac (by simp)
  | answering _ h1 => exact Option.isNone_iff_eq_none.1 (reqStatus_eq_incomp.1 (h1.symm.trans ha))

/-! ### Channels -/

theorem awGo_of_ne (h : s.wAddrRespStatus ≠ .incomp) : s.awGo i = false := by
  simp [awGo, awvalid, h]

theorem wGo_of_ne (h : s.wDataRespStatus ≠ .incomp) : s.wGo i = false := by
  simp [wGo, wvalid, h]

theorem bGo_of_ne (h : s.wRespStatus ≠ .waitresp) : s.bGo i = false := by
  simp [bGo, bready, h]

theorem ackStoreGo_of_ne (h : s.wRespStatus ≠ .respsend) : s.ackStoreGo i = false := by
  simp [ackStoreGo, wRespVal, h]

theorem wRespStatus_of_incomp (h : s.wAddrRespStatus = .incomp ∨ s.wDataRespStatus = .incomp) :
    s.wRespStatus = .incomp := by
  rw [wRespStatus, if_pos h]

theorem wRespStatus_of_eq {x : BufStatus} (ha : s.wAddrRespStatus = x)
    (hd : s.wDataRespStatus = x) : s.wRespStatus = x := by
  rw [wRespStatus, ha, hd]
  cases x <;> rfl

theorem HoldsStore.kept {st : Store} (h : s.HoldsStore st) (hg : s.goAndStore i = false) :
    (s.next i).HoldsStore st :=
  ⟨by simp [next, hg, h.header0], by simp [next, hg, h.header1], by simp [next, hg, h.header2],
    by simp [next, hg, h.data]⟩

theorem goAndStore_of_comp (h : s.wReqStatus ≠ .incomp) : s.goAndStore i = false := by
  simp [goAndStore, h]

theorem wStatusUpdate_of_comp (h : s.wReqStatus ≠ .incomp) : s.wStatusUpdate i = false := by
  rw [wStatusUpdate, goAndStore_of_comp h]
  rfl

/-! ### What a clock edge does -/

/-- The store that becomes whole in this cycle. -/
inductive Comes (s : AxiBridge) (i : AxiInput) : Option Store → Prop
  | nothing : s.wStatusUpdate i = false → Comes s i none
  | store {st : Store} : s.wStatusUpdate i = true → s.wReqStatus = .incomp →
      (s.next i).HoldsStore st → Comes s i (some st)

/-- What a clock edge does to the stores, of which `whole` comes in. -/
inductive WriteEvent (s : AxiBridge) (i : AxiInput) (whole : Option Store) :
    Option Store → Option Store → Bool → Bool → Prop
  | nothing {cur req : Option Store} {a c : Bool} : s.awGo i = false → s.wGo i = false →
      s.bGo i = false → s.ackStoreGo i = false → (whole.isSome = true → req = none) →
      Writing (s.next i) cur (whole.or req) a c → WriteEvent s i whole cur req a c
  | transfer {st : Store} {a c : Bool} : whole = none → s.HoldsStore st →
      (a && s.awGo i) = false → (c && s.wGo i) = false → s.bGo i = false →
      s.ackStoreGo i = false →
      Writing (s.next i) none (some st) (a || s.awGo i) (c || s.wGo i) →
      WriteEvent s i whole none (some st) a c
  | transferred {st : Store} {a c : Bool} : whole = none → s.HoldsStore st →
      s.awGo i = (!a) → s.wGo i = (!c) → s.bGo i = false → s.ackStoreGo i = false →
      Writing (s.next i) (some st) none false false → WriteEvent s i whole none (some st) a c
  | answer {cur : Store} {req : Option Store} : s.awGo i = false → s.wGo i = false →
      s.bGo i = true → s.ackStoreGo i = false → (whole.isSome = true → req = none) →
      Writing (s.next i) (some cur) (whole.or req) false false →
      WriteEvent s i whole (some cur) req false false
  | respond {cur : Store} {req : Option Store} : s.awGo i = false → s.wGo i = false →
      s.bGo i = false → s.ackStoreGo i = true → s.wRespHeader0 = storeResponse cur →
      (whole.isSome = true → req = none) → Writing (s.next i) none (whole.or req) false false →
      WriteEvent s i whole (some cur) req false false

variable {whole : Option Store}

/-- The write statuses after a store has become whole. -/
theorem next_store (hw : s.wStatusUpdate i = true) :
    (s.next i).wAddrReqStatus = .comp ∧ (s.next i).wDataReqStatus = .comp := by
  simp [next, hw]

theorem writing_event_empty (h1 : s.wAddrReqStatus = .incomp) (h2 : s.wDataReqStatus = .incomp)
    (h3 : s.wAddrRespStatus = .incomp) (h4 : s.wDataRespStatus = .incomp)
    (hc : Comes s i whole) : WriteEvent s i whole none none false false := by
  have hfree : s.wReqStatus = .incomp := wReqStatus_incomp_iff.2 ⟨h1, h2⟩
  have hresp := wRespStatus_of_incomp (.inl h3)
  have haw : s.awGo i = false := by rw [awGo, awvalid_of_incomp hfree, Bool.false_and]
  have hwg : s.wGo i = false := by rw [wGo, wvalid_of_incomp hfree, Bool.false_and]
  have hb : s.bGo i = false := bGo_of_ne (by simp [hresp])
  have hack : s.ackStoreGo i = false := ackStoreGo_of_ne (by simp [hresp])
  have h3' : (s.next i).wAddrRespStatus = .incomp := by simp [next, haw, hb, hack, h3]
  have h4' : (s.next i).wDataRespStatus = .incomp := by simp [next, hwg, hb, hack, h4]
  refine .nothing haw hwg hb hack (fun _ => rfl) ?_
  cases hc with
  | nothing hw => exact .empty (by simp [next, hw, haw, h1]) (by simp [next, hw, hwg, h2]) h3' h4'
  | store hw _ hst =>
    obtain ⟨h1', h2'⟩ := next_store hw
    exact .sending rfl h1' h2' h3' h4' hst (fun h => absurd h Bool.false_ne_true)

theorem writing_event_sending {st : Store} {a c : Bool} (hac : (a && c) = false)
    (h1 : s.wAddrReqStatus = reqStatus a) (h2 : s.wDataReqStatus = reqStatus c)
    (h3 : s.wAddrRespStatus = respStatus a) (h4 : s.wDataRespStatus = respStatus c)
    (hst : s.HoldsStore st) (hh : a = true → s.wRespHeader0 = storeResponse st)
    (hc : Comes s i whole) : WriteEvent s i whole none (some st) a c := by
  have hfull : s.wReqStatus ≠ .incomp := by
    intro h0
    obtain ⟨h1', h2'⟩ := wReqStatus_incomp_iff.1 h0
    rw [reqStatus_eq_incomp.1 (h1.symm.trans h1'), reqStatus_eq_incomp.1 (h2.symm.trans h2')] at hac
    exact absurd hac (by simp)
  have hresp : s.wRespStatus = .incomp := by
    apply wRespStatus_of_incomp
    rw [h3, h4, respStatus_eq_incomp, respStatus_eq_incomp]
    cases a <;> cases c <;> simp at hac ⊢
  have hb : s.bGo i = false := bGo_of_ne (by simp [hresp])
  have hack : s.ackStoreGo i = false := ackStoreGo_of_ne (by simp [hresp])
  have hg := goAndStore_of_comp (i := i) hfull
  have hw := wStatusUpdate_of_comp (i := i) hfull
  have hnone : whole = none := by
    cases hc with
    | nothing => rfl
    | store hw' => rw [hw] at hw'; exact absurd hw' Bool.false_ne_true
  have haw : (a && s.awGo i) = false := by
    cases a with
    | false => rfl
    | true => exact awGo_of_ne (by simp [h3, respStatus])
  have hwg : (c && s.wGo i) = false := by
    cases c with
    | false => rfl
    | true => exact wGo_of_ne (by simp [h4, respStatus])
  have h1' : (s.next i).wAddrReqStatus = reqStatus (a || s.awGo i) := by
    cases a <;> cases hgo : s.awGo i <;> simp [next, hw, hgo, h1, reqStatus]
  have h2' : (s.next i).wDataReqStatus = reqStatus (c || s.wGo i) := by
    cases c <;> cases hgo : s.wGo i <;> simp [next, hw, hgo, h2, reqStatus]
  have h3' : (s.next i).wAddrRespStatus = respStatus (a || s.awGo i) := by
    cases a <;> cases hgo : s.awGo i <;> simp [next, hb, hack, hgo, h3, respStatus]
  have h4' : (s.next i).wDataRespStatus = respStatus (c || s.wGo i) := by
    cases c <;> cases hgo : s.wGo i <;> simp [next, hb, hack, hgo, h4, respStatus]
  have hh' : (a || s.awGo i) = true → (s.next i).wRespHeader0 = storeResponse st := by
    intro ha
    cases hgo : s.awGo i with
    | true => simp [next, hgo, storeResponse, hst.header0, hst.header2]
    | false =>
      rw [hgo, Bool.or_false] at ha
      simp [next, hgo, hh ha]
  cases hdone : (a || s.awGo i) && (c || s.wGo i) with
  | false => exact .transfer hnone hst haw hwg hb hack (.sending hdone h1' h2' h3' h4'
      (hst.kept hg) hh')
  | true =>
    rw [Bool.and_eq_true] at hdone
    obtain ⟨hda, hdc⟩ := hdone
    rw [hda] at h1' h3' hh'
    rw [hdc] at h2' h4'
    refine .transferred hnone hst ?_ ?_ hb hack
      (.answering (.inl rfl) h1' h2' h3' h4' (hh' rfl) (fun st h => absurd h (by simp)))
    · cases a <;> simp_all
    · cases c <;> simp_all

theorem writing_event_answering {cur : Store} {req : Option Store} {x : BufStatus}
    (hx : x = .waitresp ∨ x = .respsend) (h1 : s.wAddrReqStatus = reqStatus req.isNone)
    (h2 : s.wDataReqStatus = reqStatus req.isNone) (h3 : s.wAddrRespStatus = x)
    (h4 : s.wDataRespStatus = x) (hh : s.wRespHeader0 = storeResponse cur)
    (hst : ∀ st, req = some st → s.HoldsStore st) (hc : Comes s i whole) :
    WriteEvent s i whole (some cur) req false false := by
  have hne : x ≠ .incomp := by obtain rfl | rfl := hx <;> simp
  have hresp := wRespStatus_of_eq h3 h4
  have haw : s.awGo i = false := awGo_of_ne (by rwa [h3])
  have hwg : s.wGo i = false := wGo_of_ne (by rwa [h4])
  have hh' : (s.next i).wRespHeader0 = storeResponse cur := by simp [next, haw, hh]
  have hfree : whole.isSome = true → req = none := by
    intro hsome
    cases hc with
    | nothing => simp at hsome
    | store _ hfree =>
      have := (wReqStatus_incomp_iff.1 hfree).1
      exact Option.isNone_iff_eq_none.1 (reqStatus_eq_incomp.1 (h1.symm.trans this))
  -- the request side is on its own here
  have hreq : (s.next i).wAddrReqStatus = reqStatus (whole.or req).isNone ∧
      (s.next i).wDataReqStatus = reqStatus (whole.or req).isNone ∧
      ∀ st, whole.or req = some st → (s.next i).HoldsStore st := by
    cases hc with
    | nothing hw =>
      refine ⟨by simp [next, hw, haw, h1], by simp [next, hw, hwg, h2], ?_⟩
      intro st hs
      rw [Option.none_or] at hs
      have hfull : s.wReqStatus ≠ .incomp := by
        intro h0
        have := (wReqStatus_incomp_iff.1 h0).1
        rw [h1, reqStatus_eq_incomp, hs] at this
        exact absurd this (by simp)
      exact (hst st hs).kept (goAndStore_of_comp hfull)
    | store hw _ hst' =>
      obtain ⟨h1', h2'⟩ := next_store hw
      refine ⟨h1', h2', ?_⟩
      intro st hs
      rw [Option.some_or, Option.some_inj] at hs
      exact hs ▸ hst'
  obtain ⟨h1', h2', hst'⟩ := hreq
  obtain rfl | rfl := hx
  · have hack : s.ackStoreGo i = false := ackStoreGo_of_ne (by simp [hresp])
    cases hb : s.bGo i with
    | false =>
      exact .nothing haw hwg hb hack hfree (.answering (.inl rfl) h1' h2'
        (by simp [next, haw, hb, hack, h3]) (by simp [next, hwg, hb, hack, h4]) hh' hst')
    | true =>
      exact .answer haw hwg hb hack hfree (.answering (.inr rfl) h1' h2'
        (by simp [next, haw, hb]) (by simp [next, hwg, hb]) hh' hst')
  · have hb : s.bGo i = false := bGo_of_ne (by simp [hresp])
    cases hack : s.ackStoreGo i with
    | false =>
      exact .nothing haw hwg hb hack hfree (.answering (.inr rfl) h1' h2'
        (by simp [next, haw, hb, hack, h3]) (by simp [next, hwg, hb, hack, h4]) hh' hst')
    | true =>
      have h3' : (s.next i).wAddrRespStatus = .incomp := by simp [next, haw, hb, hack]
      have h4' : (s.next i).wDataRespStatus = .incomp := by simp [next, hwg, hb, hack]
      refine .respond haw hwg hb hack hh hfree ?_
      cases hwr : whole.or req with
      | none =>
        rw [hwr] at h1' h2'
        exact .empty h1' h2' h3' h4'
      | some st =>
        rw [hwr] at h1' h2'
        exact .sending rfl h1' h2' h3' h4' (hst' st hwr) (fun h => absurd h Bool.false_ne_true)

/-- One step of the stores. -/
theorem Writing.event {cur req : Option Store} {a c : Bool} (h : Writing s cur req a c)
    (hc : Comes s i whole) : WriteEvent s i whole cur req a c := by
  cases h with
  | empty h1 h2 h3 h4 => exact writing_event_empty h1 h2 h3 h4 hc
  | sending hac h1 h2 h3 h4 hst hh => exact writing_event_sending hac h1 h2 h3 h4 hst hh hc
  | answering hx h1 h2 h3 h4 hh hst => exact writing_event_answering hx h1 h2 h3 h4 hh hst hc

/-! ### All stores -/

/-- The stores `ss` with their transfers: the responses of `done` have been sent. -/
structure WritesAs (s : AxiBridge) (ss : List Store) (aw : List (BitVec 64))
    (w : List (BitVec 64 × BitVec 8)) (b : List (BitVec 2)) (out : List Flit) (done : List Store)
    (cur req : Option Store) (a c : Bool) : Prop where
  split : ss = done ++ cur.toList ++ req.toList
  aw_eq : aw = (done ++ cur.toList ++ if a then req.toList else []).map storeAddr
  w_eq : w = (done ++ cur.toList ++ if c then req.toList else []).map storeData
  b_eq : b.length = done.length + s.wRespVal.toNat
  out_eq : out = done.map storeResponse
  writing : Writing s cur req a c

/-- The store channels agree with the stores taken in, wherever each store has come to. -/
def Writes (s : AxiBridge) (ss : List Store) (aw : List (BitVec 64))
    (w : List (BitVec 64 × BitVec 8)) (b : List (BitVec 2)) (out : List Flit) : Prop :=
  ∃ done cur req a c, WritesAs s ss aw w b out done cur req a c

theorem writes_init : Writes .init [] [] [] [] [] :=
  ⟨[], none, none, false, false, rfl, rfl, rfl, rfl, rfl, writing_init⟩

variable {ss : List Store} {aw : List (BitVec 64)} {w : List (BitVec 64 × BitVec 8)}
  {b : List (BitVec 2)} {out : List Flit} {done : List Store} {cur req : Option Store} {a c : Bool}

/-- The transfers of this cycle. -/
def awNext (s : AxiBridge) (i : AxiInput) (aw : List (BitVec 64)) : List (BitVec 64) :=
  if s.awGo i then aw ++ [msgAddr s.wReqHeader1] else aw

/-- The data transfers after a cycle. -/
def wNext (s : AxiBridge) (i : AxiInput) (w : List (BitVec 64 × BitVec 8)) :
    List (BitVec 64 × BitVec 8) :=
  if s.wGo i then w ++ [(s.wReqData0, wstrb s.wReqHeader1)] else w

/-- The response transfers after a cycle. -/
def bNext (s : AxiBridge) (i : AxiInput) (b : List (BitVec 2)) : List (BitVec 2) :=
  if s.bGo i then b ++ [i.bresp] else b

/-- The store responses after a cycle. -/
def storeOutNext (s : AxiBridge) (i : AxiInput) (out : List Flit) : List Flit :=
  if s.ackStoreGo i then out ++ [s.wRespHeader0] else out

theorem HoldsStore.addr {st : Store} (h : s.HoldsStore st) :
    msgAddr s.wReqHeader1 = storeAddr st := by
  rw [storeAddr, h.header1]

theorem HoldsStore.storeData {st : Store} (h : s.HoldsStore st) :
    (s.wReqData0, wstrb s.wReqHeader1) = storeData st := by
  rw [Chipset.storeData, h.header1, h.data]

/-! A response is ready only after a transfer on the B channel. -/

theorem wRespStatus_of_none {req : Option Store} {a c : Bool} (h : Writing s none req a c) :
    s.wRespStatus = .incomp := by
  cases h with
  | empty _ _ h3 => exact wRespStatus_of_incomp (.inl h3)
  | sending hac _ _ h3 h4 =>
    apply wRespStatus_of_incomp
    rw [h3, h4, respStatus_eq_incomp, respStatus_eq_incomp]
    cases a <;> cases c <;> simp at hac ⊢

theorem wRespVal_of_none {req : Option Store} {a c : Bool} (h : Writing s none req a c) :
    s.wRespVal = false := by
  rw [wRespVal, wRespStatus_of_none h]
  rfl

theorem wRespVal_kept (haw : s.awGo i = false) (hwg : s.wGo i = false) (hb : s.bGo i = false)
    (hack : s.ackStoreGo i = false) : (s.next i).wRespVal = s.wRespVal := by
  have h3 : (s.next i).wAddrRespStatus = s.wAddrRespStatus := by simp [next, haw, hb, hack]
  have h4 : (s.next i).wDataRespStatus = s.wDataRespStatus := by simp [next, hwg, hb, hack]
  rw [wRespVal, wRespVal, wRespStatus, wRespStatus, h3, h4]

theorem wRespVal_answer (haw : s.awGo i = false) (hwg : s.wGo i = false) (hb : s.bGo i = true) :
    (s.next i).wRespVal = true := by
  have h3 : (s.next i).wAddrRespStatus = .respsend := by simp [next, haw, hb]
  have h4 : (s.next i).wDataRespStatus = .respsend := by simp [next, hwg, hb]
  rw [wRespVal, wRespStatus_of_eq h3 h4]
  rfl

theorem wRespStatus_respsend (h : s.wRespStatus = .respsend) :
    s.wAddrRespStatus = .respsend ∧ s.wDataRespStatus = .respsend := by
  rw [wRespStatus] at h
  cases h1 : s.wAddrRespStatus <;> cases h2 : s.wDataRespStatus <;> simp [h1, h2] at h ⊢

/-- The response to the transfers of this cycle is still to come. -/
theorem wRespVal_transferred (hw : s.awGo i = true ∨ s.wGo i = true) :
    (s.next i).wRespVal = false := by
  rw [← Bool.not_eq_true]
  intro hv
  rw [wRespVal, decide_eq_true_iff] at hv
  obtain ⟨h3, h4⟩ := wRespStatus_respsend hv
  obtain hw | hw := hw
  · simp [next, hw] at h3
  · simp [next, hw] at h4

theorem Writing.flags_of_none (h : Writing s cur none a c) : a = false ∧ c = false := by
  cases h with
  | empty => exact ⟨rfl, rfl⟩
  | answering => exact ⟨rfl, rfl⟩

/-- A store that comes in follows the others. -/
theorem WritesAs.split_next (h : WritesAs s ss aw w b out done cur req a c)
    (hfree : whole.isSome = true → req = none) :
    ss ++ whole.toList = done ++ cur.toList ++ (whole.or req).toList := by
  rw [h.split]
  cases whole with
  | none => simp
  | some st =>
    rw [hfree rfl]
    simp

/-- What is done of the buffered store when another comes in. -/
theorem WritesAs.flags_next (h : WritesAs s ss aw w b out done cur req a c)
    (hfree : whole.isSome = true → req = none) :
    (if a then (whole.or req).toList else []) = (if a then req.toList else []) ∧
      (if c then (whole.or req).toList else []) = (if c then req.toList else []) := by
  cases whole with
  | none => exact ⟨rfl, rfl⟩
  | some st =>
    have hnone := hfree rfl
    subst hnone
    obtain ⟨rfl, rfl⟩ := h.writing.flags_of_none
    exact ⟨rfl, rfl⟩

theorem WritesAs.step (h : WritesAs s ss aw w b out done cur req a c)
    (hc : Comes s i whole) :
    Writes (s.next i) (ss ++ whole.toList) (awNext s i aw) (wNext s i w) (bNext s i b)
      (storeOutNext s i out) := by
  have haw_eq := h.aw_eq
  have hw_eq := h.w_eq
  have hb_eq := h.b_eq
  rw [awNext, wNext, bNext, storeOutNext]
  cases h.writing.event hc with
  | nothing haw hwg hb hack hfree hwr =>
    rw [haw, hwg, hb, hack]
    obtain ⟨ha', hc'⟩ := h.flags_next hfree
    refine ⟨done, cur, whole.or req, a, c, h.split_next hfree, ?_, ?_, ?_, h.out_eq, hwr⟩
    · rw [ha']
      exact haw_eq
    · rw [hc']
      exact hw_eq
    · rw [wRespVal_kept haw hwg hb hack]
      exact hb_eq
  | @transfer st _ _ hnone hst haw hwg hb hack hwr =>
    rw [hb, hack, hnone]
    refine ⟨done, none, some st, _, _, ?_, ?_, ?_, ?_, h.out_eq, hwr⟩
    · simpa using h.split
    · cases a <;> cases hgo : s.awGo i <;> simp_all [hst.addr]
    · cases c <;> cases hgo : s.wGo i <;> simp_all [hst.storeData]
    · rw [wRespVal_of_none hwr]
      rwa [wRespVal_of_none h.writing] at hb_eq
  | @transferred st _ _ hnone hst haw hwg hb hack hwr =>
    rw [hb, hack, hnone]
    have hgo : s.awGo i = true ∨ s.wGo i = true := by
      have hac : (a && c) = false := by
        cases h.writing with
        | sending hac => exact hac
      rw [haw, hwg]
      cases a <;> cases c <;> simp at hac ⊢
    refine ⟨done, some st, none, false, false, ?_, ?_, ?_, ?_, h.out_eq, hwr⟩
    · simpa using h.split
    · cases a <;> simp_all [hst.addr]
    · cases c <;> simp_all [hst.storeData]
    · rw [wRespVal_transferred hgo]
      rwa [wRespVal_of_none h.writing] at hb_eq
  | @answer cur _ haw hwg hb hack hfree hwr =>
    rw [haw, hwg, hb, hack]
    obtain ⟨ha', hc'⟩ := h.flags_next hfree
    refine ⟨done, some cur, whole.or req, false, false, h.split_next hfree, haw_eq, hw_eq, ?_,
      h.out_eq, hwr⟩
    have hval : s.wRespVal = false := by
      have hready : s.bready = true := by
        rw [bGo, Bool.and_eq_true] at hb
        exact hb.1
      rw [bready, decide_eq_true_iff] at hready
      rw [wRespVal, hready]
      rfl
    rw [wRespVal_answer haw hwg hb, if_pos rfl, List.length_append, hb_eq, hval]
    rfl
  | @respond cur _ haw hwg hb hack hh hfree hwr =>
    rw [haw, hwg, hb, hack]
    have hval : s.wRespVal = true := by
      rw [ackStoreGo, Bool.and_eq_true, Bool.and_eq_true] at hack
      exact hack.1.2
    refine ⟨done ++ [cur], none, whole.or req, false, false, ?_, ?_, ?_, ?_, ?_, hwr⟩
    · simpa using h.split_next hfree
    · simpa using haw_eq
    · simpa using hw_eq
    · rw [wRespVal_of_none hwr]
      simp [hb_eq, hval]
    · simp [h.out_eq, hh]

theorem Writes.step {xs xs' : List Flit} (h : Writes s (stores xs) aw w b out)
    (hin : Incoming s i xs xs') :
    Writes (s.next i) (stores xs') (awNext s i aw) (wNext s i w) (bNext s i b)
      (storeOutNext s i out) := by
  obtain ⟨done, cur, req, a, c, h⟩ := h
  cases hin with
  | nothing _ hs _ hw => simpa [hs] using h.step (.nothing hw)
  | load l _ hs _ hw _ _ => simpa [hs] using h.step (.nothing hw)
  | store st _ hs _ hw hfree hhold => exact hs ▸ h.step (.store hw hfree hhold)

end AxiBridge

end Piton.Chipset
