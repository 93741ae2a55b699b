import Piton.Chipset.AxiResponses

/-! What the AXI-Lite bridge offers on its channels stays until it is taken, and the turns of its
responses. -/

namespace Piton.Chipset

open Hw Noc

namespace AxiBridge

variable {s : AxiBridge} {i : AxiInput}

/-! ### What is offered stays -/

theorem arvalid_next (h : s.arvalid = true) (hr : i.arready = false) :
    (s.next i).arvalid = true := by
  rw [arvalid, Bool.and_eq_true, decide_eq_true_iff, decide_eq_true_iff] at h
  obtain ⟨hreq, hresp⟩ := h
  have hg : s.goAndLoad i = false := by simp [goAndLoad, hreq]
  have har : s.arGo i = false := by simp [arGo, hr]
  have hrg : s.rGo i = false := rGo_of_ne (by simp [hresp])
  have hack : s.ackLoadGo i = false := ackLoadGo_of_ne (by simp [hresp])
  simp [arvalid, next, hg, har, hrg, hack, hreq, hresp]

theorem rready_next (h : s.rready = true) (hr : i.rvalid = false) : (s.next i).rready = true := by
  rw [rready, decide_eq_true_iff] at h
  have har : s.arGo i = false := arGo_of_ne (by simp [h])
  have hrg : s.rGo i = false := by simp [rGo, hr]
  have hack : s.ackLoadGo i = false := ackLoadGo_of_ne (by simp [h])
  simp [rready, next, har, hrg, hack, h]

theorem rRespVal_next (h : s.rRespVal = true) (hack : s.ackLoadGo i = false) :
    (s.next i).rRespVal = true := by
  rw [rRespVal, decide_eq_true_iff] at h
  have har : s.arGo i = false := arGo_of_ne (by simp [h])
  have hrg : s.rGo i = false := rGo_of_ne (by simp [h])
  simp [rRespVal, next, har, hrg, hack, h]

/-- A store whose address transfer is offered is in the request buffer. -/
theorem Writing.of_awvalid {cur req : Option Store} {a c : Bool} (hw : Writing s cur req a c)
    (h : s.awvalid = true) : cur = none ∧ a = false ∧ s.wAddrReqStatus = .comp := by
  rw [awvalid, Bool.and_eq_true, decide_eq_true_iff, decide_eq_true_iff] at h
  obtain ⟨hreq, hresp⟩ := h
  cases hw with
  | empty h1 h2 =>
    rw [wReqStatus_incomp_iff.2 ⟨h1, h2⟩] at hreq
    exact absurd hreq (by simp)
  | sending hac h1 _ h3 =>
    have ha := respStatus_eq_incomp.1 (h3.symm.trans hresp)
    rw [ha] at h1
    exact ⟨rfl, ha, h1⟩
  | answering hx _ _ h3 =>
    rw [h3] at hresp
    rw [hresp] at hx
    exact absurd hx (by simp)

theorem Writing.of_wvalid {cur req : Option Store} {a c : Bool} (hw : Writing s cur req a c)
    (h : s.wvalid = true) : cur = none ∧ c = false ∧ s.wDataReqStatus = .comp := by
  rw [wvalid, Bool.and_eq_true, decide_eq_true_iff, decide_eq_true_iff] at h
  obtain ⟨hreq, hresp⟩ := h
  cases hw with
  | empty h1 h2 =>
    rw [wReqStatus_incomp_iff.2 ⟨h1, h2⟩] at hreq
    exact absurd hreq (by simp)
  | sending hac _ h2 _ h4 =>
    have hc := respStatus_eq_incomp.1 (h4.symm.trans hresp)
    rw [hc] at h2
    exact ⟨rfl, hc, h2⟩
  | answering hx _ _ _ h4 =>
    rw [h4] at hresp
    rw [hresp] at hx
    exact absurd hx (by simp)

theorem awvalid_next {cur req : Option Store} {a c : Bool} (hw : Writing s cur req a c)
    (h : s.awvalid = true) (hr : i.awready = false) : (s.next i).awvalid = true := by
  obtain ⟨-, -, haddr⟩ := hw.of_awvalid h
  rw [awvalid, Bool.and_eq_true, decide_eq_true_iff, decide_eq_true_iff] at h
  obtain ⟨hreq, hresp⟩ := h
  have hu := wStatusUpdate_of_comp (s := s) (i := i) (by simp [hreq])
  have hrs := wRespStatus_of_incomp (.inl hresp)
  have haw : s.awGo i = false := by simp [awGo, hr]
  have hb : s.bGo i = false := bGo_of_ne (by simp [hrs])
  have hack : s.ackStoreGo i = false := ackStoreGo_of_ne (by simp [hrs])
  have h1' : (s.next i).wAddrReqStatus = .comp := by simp [next, hu, haw, haddr]
  have hreq' : (s.next i).wReqStatus = .comp := by simp [wReqStatus, h1']
  rw [awvalid, hreq']
  simp [next, haw, hb, hack, hresp]

theorem wvalid_next {cur req : Option Store} {a c : Bool} (hw : Writing s cur req a c)
    (h : s.wvalid = true) (hr : i.wready = false) : (s.next i).wvalid = true := by
  obtain ⟨-, -, hdata⟩ := hw.of_wvalid h
  rw [wvalid, Bool.and_eq_true, decide_eq_true_iff, decide_eq_true_iff] at h
  obtain ⟨hreq, hresp⟩ := h
  have hu := wStatusUpdate_of_comp (s := s) (i := i) (by simp [hreq])
  have hrs := wRespStatus_of_incomp (.inr hresp)
  have hwg : s.wGo i = false := by simp [wGo, hr]
  have hb : s.bGo i = false := bGo_of_ne (by simp [hrs])
  have hack : s.ackStoreGo i = false := ackStoreGo_of_ne (by simp [hrs])
  have h2' : (s.next i).wDataReqStatus = .comp := by simp [next, hu, hwg, hdata]
  have hreq' : (s.next i).wReqStatus = .comp := by simp [wReqStatus, h2']
  rw [wvalid, hreq']
  simp [next, hwg, hb, hack, hresp]

theorem wRespStatus_waitresp {cur req : Option Store} {a c : Bool} (hw : Writing s cur req a c)
    (h : s.wRespStatus = .waitresp) :
    s.wAddrRespStatus = .waitresp ∧ s.wDataRespStatus = .waitresp := by
  cases cur with
  | none =>
    rw [wRespStatus_of_none hw] at h
    exact absurd h (by simp)
  | some st =>
    cases hw with
    | answering _ _ _ h3 h4 =>
      rw [wRespStatus_of_eq h3 h4] at h
      exact ⟨h3.trans h, h4.trans h⟩

theorem bready_next {cur req : Option Store} {a c : Bool} (hw : Writing s cur req a c)
    (h : s.bready = true) (hr : i.bvalid = false) : (s.next i).bready = true := by
  rw [bready, decide_eq_true_iff] at h
  obtain ⟨h3, h4⟩ := wRespStatus_waitresp hw h
  have haw : s.awGo i = false := awGo_of_ne (by simp [h3])
  have hwg : s.wGo i = false := wGo_of_ne (by simp [h4])
  have hb : s.bGo i = false := by simp [bGo, hr]
  have hack : s.ackStoreGo i = false := ackStoreGo_of_ne (by simp [h])
  have h3' : (s.next i).wAddrRespStatus = .waitresp := by simp [next, haw, hb, hack, h3]
  have h4' : (s.next i).wDataRespStatus = .waitresp := by simp [next, hwg, hb, hack, h4]
  rw [bready, wRespStatus_of_eq h3' h4']
  rfl

/-- A transfer of a store that is done is done until the response has come. -/
theorem wAddrRespStatus_next (h : s.wAddrRespStatus = .waitresp) (hb : s.bGo i = false) :
    (s.next i).wAddrRespStatus = .waitresp := by
  have hack : s.ackStoreGo i = false := by
    apply ackStoreGo_of_ne
    intro hs
    rw [(wRespStatus_respsend hs).1] at h
    exact absurd h (by simp)
  simp [next, hb, hack, h]

theorem wDataRespStatus_next (h : s.wDataRespStatus = .waitresp) (hb : s.bGo i = false) :
    (s.next i).wDataRespStatus = .waitresp := by
  have hack : s.ackStoreGo i = false := by
    apply ackStoreGo_of_ne
    intro hs
    rw [(wRespStatus_respsend hs).2] at h
    exact absurd h (by simp)
  simp [next, hb, hack, h]

theorem wRespVal_next (h : s.wRespVal = true) (hack : s.ackStoreGo i = false) :
    (s.next i).wRespVal = true := by
  have hs := h
  rw [wRespVal, decide_eq_true_iff] at hs
  obtain ⟨h3, h4⟩ := wRespStatus_respsend hs
  have haw : s.awGo i = false := awGo_of_ne (by simp [h3])
  have hwg : s.wGo i = false := wGo_of_ne (by simp [h4])
  have hb : s.bGo i = false := bGo_of_ne (by simp [hs])
  rw [wRespVal_kept haw hwg hb hack, h]

/-! ### The turns of the mux -/

theorem val_of_rRespVal (h : s.rRespVal = true) : s.val = true := by
  rw [val, ackMuxSel, h]
  cases hw : s.wRespVal with
  | false => rfl
  | true =>
    by_cases hc : s.ackLoadCounter = s.rRespHeader0.length
    · simp only [hc, if_true]
      cases s.arb <;> rfl
    · simp only [hc, if_false]

theorem val_of_wRespVal (h : s.wRespVal = true) : s.val = true := by
  cases hr : s.rRespVal with
  | true => exact val_of_rRespVal hr
  | false => rw [val, ackMuxSel, h, hr]

/-- A response to a load goes first on its turn. -/
theorem ackLoadGo_of_arb (h : s.rRespVal = true) (ha : s.arb = .load) (hr : i.rdy = true) :
    s.ackLoadGo i = true := by
  have hm : s.ackMuxSel = .load := by
    rw [ackMuxSel, h, ha]
    cases s.wRespVal <;> simp
  rw [ackLoadGo, hm, h, hr]
  rfl

/-- A flit goes when the splitter is ready. -/
theorem ackGo_of_val (h : s.val = true) (hr : i.rdy = true) :
    s.ackLoadGo i = true ∨ s.ackStoreGo i = true := by
  rw [val] at h
  cases hm : s.ackMuxSel with
  | load => rw [hm] at h; exact .inl (by simp [ackLoadGo, hm, h, hr])
  | store => rw [hm] at h; exact .inr (by simp [ackStoreGo, hm, h, hr])

theorem arb_store (hl : s.ackLoadGo i = true) (hw : s.wRespVal = true) :
    (s.next i).arb = .store := by
  have hr : s.rRespVal = true := by
    rw [ackLoadGo, Bool.and_eq_true, Bool.and_eq_true] at hl
    exact hl.1.2
  simp [next, hl, hw, hr]

theorem arb_load (hst : s.ackStoreGo i = true) (hr : s.rRespVal = true) :
    (s.next i).arb = .load := by
  have hw : s.wRespVal = true := by
    rw [ackStoreGo, Bool.and_eq_true, Bool.and_eq_true] at hst
    exact hst.1.2
  have hl : s.ackLoadGo i = false := by
    rw [← Bool.not_eq_true]
    intro hl
    rw [ackGo_exclusive hl] at hst
    exact Bool.false_ne_true hst
  simp [next, hl, hst, hw, hr]

theorem arb_kept (hl : s.ackLoadGo i = false) (hst : s.ackStoreGo i = false) :
    (s.next i).arb = s.arb := by
  simp [next, hl, hst]

/-- The flits that the response in hand lacks, as the registers say. -/
def lacks (s : AxiBridge) : Nat :=
  if s.rRespStatus = .respsend ∧ s.ackLoadCounter.toNat < 8 then s.ackLoadCounter.toNat + 1 else 0

theorem Reading.lacks_eq {waiting : Option Load} {rest : List Flit} (h : Reading s waiting rest) :
    s.lacks = lacking rest := by
  cases h with
  | idle hs => simp [lacks, lacking, hs]
  | waiting hs => simp [lacks, lacking, hs]
  | header hs hc => simp [lacks, lacking, hs, hc]
  | @data n hs hn hc =>
    have h9 : ¬ n + 1 = 9 := by omega
    simp [lacks, lacking, hs, hc, hn, h9]

/-- On the turn of the stores only the rest of a response in hand goes before them. -/
theorem Reading.lacks_next {waiting queued : Option Load} {rest : List Flit}
    (h : Reading s waiting rest) (hq : Queued s queued) (ha : s.arb = .store)
    (hw : s.wRespVal = true) :
    (s.next i).lacks ≤ s.lacks ∧ (s.ackLoadGo i = true → (s.next i).lacks < s.lacks) := by
  cases h.event hq with
  | nothing _ _ hl hr' =>
    rw [hr'.lacks_eq, h.lacks_eq, hl]
    exact ⟨Nat.le_refl _, fun h => absurd h Bool.false_ne_true⟩
  | address _ _ hl _ hr' =>
    rw [hr'.lacks_eq, h.lacks_eq, hl]
    exact ⟨Nat.le_refl _, fun h => absurd h Bool.false_ne_true⟩
  | data _ _ hl hr' =>
    rw [hr'.lacks_eq, h.lacks_eq, hl, lacking_loadResponse]
    exact ⟨Nat.zero_le _, fun h => absurd h Bool.false_ne_true⟩
  | @respond _ x rest _ _ hl _ hr' =>
    -- a response that starts is not on its turn
    have h9 : (x :: rest).length ≠ 9 := by
      intro h9
      generalize hxs : x :: rest = xs at h h9
      rw [ackLoadGo, Bool.and_eq_true, Bool.and_eq_true, decide_eq_true_iff] at hl
      cases h with
      | idle => simp at h9
      | data _ hn => simp only [List.length_replicate] at h9; omega
      | header hs hc hlen =>
        have hm := hl.1.1
        rw [AxiBridge.ackMuxSel, hl.1.2, hw, hc, hlen] at hm
        simp [ha] at hm
    have hlt : lacking rest < lacking (x :: rest) := by
      have hle := h.length_le
      rw [lacking, lacking, if_neg h9]
      simp only [List.length_cons] at h9 hle ⊢
      split <;> omega
    rw [hr'.lacks_eq, h.lacks_eq]
    exact ⟨Nat.le_of_lt hlt, fun _ => hlt⟩

/-! ### Buffers in use -/

/-- The buffers of a load and of a store stay as they are until all that is made of them is taken. -/
structure Kept (s s' : AxiBridge) : Prop where
  load : s.rReqStatus = .comp → s'.rReqHeader0 = s.rReqHeader0 ∧ s'.rReqHeader1 = s.rReqHeader1 ∧
    s'.rReqHeader2 = s.rReqHeader2
  loadHeader : s.rRespStatus ≠ .incomp → s'.rRespHeader0 = s.rRespHeader0
  loadData : s.rRespStatus = .respsend → s'.rRespData0 = s.rRespData0
  store : s.wReqStatus = .comp → s'.wReqHeader0 = s.wReqHeader0 ∧ s'.wReqHeader1 = s.wReqHeader1 ∧
    s'.wReqHeader2 = s.wReqHeader2 ∧ s'.wReqData0 = s.wReqData0
  storeHeader : s.wAddrRespStatus ≠ .incomp → s'.wRespHeader0 = s.wRespHeader0

theorem kept_next : Kept s (s.next i) where
  load := by
    intro h
    have hg : s.goAndLoad i = false := by simp [goAndLoad, h]
    simp [next, hg]
  loadHeader := by
    intro h
    simp [next, arGo_of_ne h]
  loadData := by
    intro h
    have hr : s.rGo i = false := rGo_of_ne (by simp [h])
    simp [next, hr]
  store := by
    intro h
    have hg := goAndStore_of_comp (s := s) (i := i) (by simp [h])
    simp [next, hg]
  storeHeader := by
    intro h
    simp [next, awGo_of_ne h]

end AxiBridge

end Piton.Chipset
