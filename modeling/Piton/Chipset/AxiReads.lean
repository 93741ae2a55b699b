import Piton.Chipset.AxiRequests

/-! Loads through the AXI-Lite bridge: one address transfer, one data transfer and one response each. -/

namespace Piton.Chipset

open Hw Noc

/-- The response to a load for which `rdata` was read. -/
def loadResponse (l : Load) (rdata : BitVec 64) : List Flit :=
  loadAckHeader l.header0 l.header2 :: List.replicate 8 (rdataMasked rdata)

/-- The address transfer of a load. -/
def loadAddr (l : Load) : BitVec 64 := msgAddr l.header1

theorem length_ackHeader (dst : BitVec 34) (length type mshr : BitVec 8) :
    Flit.length (ackHeader dst length type mshr) = length := by
  rw [Flit.length, ackHeader]
  apply BitVec.eq_of_getLsbD_eq
  intro k hk
  simp only [BitVec.getLsbD_extractLsb', BitVec.getLsbD_append]
  have h1 : ¬ 22 + k < 6 := by omega
  have h2 : ¬ 22 + k - 6 < 8 := by omega
  have h3 : ¬ 22 + k - 6 - 8 < 8 := by omega
  have h4 : 22 + k - 6 - 8 - 8 < 8 := by omega
  have h5 : 22 + k - 6 - 8 - 8 = k := by omega
  simp only [h1, h2, h3, h4, hk, if_true, if_false, decide_true, Bool.true_and]
  rw [h5]

theorem length_loadAckHeader (h0 h2 : Flit) : (loadAckHeader h0 h2).length = 8 :=
  length_ackHeader ..

theorem length_storeAckHeader (h0 h2 : Flit) : (storeAckHeader h0 h2).length = 0 :=
  length_ackHeader ..

namespace AxiBridge

variable {s : AxiBridge} {i : AxiInput}

/-! ### The phases of a load -/

/-- The load in the request buffer. -/
inductive Queued (s : AxiBridge) : Option Load → Prop
  | free : s.rReqStatus = .incomp → Queued s none
  | full {l : Load} : s.rReqStatus = .comp → s.HoldsLoad l → Queued s (some l)

/-- The load that waits for its data, and what is left to send of a response. -/
inductive Reading (s : AxiBridge) : Option Load → List Flit → Prop
  | idle : s.rRespStatus = .incomp → Reading s none []
  | waiting {l : Load} : s.rRespStatus = .waitresp →
      s.rRespHeader0 = loadAckHeader l.header0 l.header2 → Reading s (some l) []
  | header : s.rRespStatus = .respsend → s.ackLoadCounter = 8 → s.rRespHeader0.length = 8 →
      Reading s none (s.rRespHeader0 :: List.replicate 8 s.rRespData0)
  | data {n : Nat} : s.rRespStatus = .respsend → n < 8 → s.ackLoadCounter.toNat = n →
      s.rRespHeader0.length = 8 → Reading s none (List.replicate (n + 1) s.rRespData0)

/-- What a clock edge does to the loads. -/
inductive ReadEvent (s : AxiBridge) (i : AxiInput) :
    Option Load → Option Load → List Flit → Prop
  | nothing {waiting queued : Option Load} {rest : List Flit} : s.arGo i = false →
      s.rGo i = false → s.ackLoadGo i = false → Reading (s.next i) waiting rest →
      ReadEvent s i waiting queued rest
  | address {l : Load} : s.arGo i = true → s.rGo i = false → s.ackLoadGo i = false →
      s.HoldsLoad l → Reading (s.next i) (some l) [] → ReadEvent s i none (some l) []
  | data {l : Load} {queued : Option Load} : s.arGo i = false → s.rGo i = true →
      s.ackLoadGo i = false → Reading (s.next i) none (loadResponse l i.rdata) →
      ReadEvent s i (some l) queued []
  | respond {queued : Option Load} {x : Flit} {rest : List Flit} : s.arGo i = false →
      s.rGo i = false → s.ackLoadGo i = true → s.ackLoad = x → Reading (s.next i) none rest →
      ReadEvent s i none queued (x :: rest)

theorem arGo_of_ne (h : s.rRespStatus ≠ .incomp) : s.arGo i = false := by
  simp [arGo, arvalid, h]

theorem rGo_of_ne (h : s.rRespStatus ≠ .waitresp) : s.rGo i = false := by
  simp [rGo, rready, h]

theorem ackLoadGo_of_ne (h : s.rRespStatus ≠ .respsend) : s.ackLoadGo i = false := by
  simp [ackLoadGo, rRespVal, h]

theorem toNat_sub_one_of {c : BitVec 8} {n : Nat} (h : c.toNat = n + 1) : (c - 1#8).toNat = n := by
  bv_omega

theorem ne_zero_of_toNat {c : BitVec 8} {n : Nat} (h : c.toNat = n + 1) : ¬ c = 0#8 := by
  rintro rfl
  simp at h

theorem Reading.event_idle (hs : s.rRespStatus = .incomp) {queued : Option Load}
    (hq : Queued s queued) : ReadEvent s i none queued [] := by
  have hr : s.rGo i = false := rGo_of_ne (by simp [hs])
  have ha : s.ackLoadGo i = false := ackLoadGo_of_ne (by simp [hs])
  cases har : s.arGo i with
  | false => exact .nothing har hr ha (.idle (by simp [next, har, hr, ha, hs]))
  | true =>
    cases hq with
    | free hfree =>
      rw [arGo, arvalid_of_incomp hfree] at har
      exact absurd har Bool.false_ne_true
    | full hfull hl =>
      exact .address har hr ha hl
        (.waiting (by simp [next, har]) (by simp [next, har, hl.header0, hl.header2]))

theorem Reading.event_waiting (hs : s.rRespStatus = .waitresp) {l : Load}
    (hh : s.rRespHeader0 = loadAckHeader l.header0 l.header2) {queued : Option Load} :
    ReadEvent s i (some l) queued [] := by
  have har : s.arGo i = false := arGo_of_ne (by simp [hs])
  have ha : s.ackLoadGo i = false := ackLoadGo_of_ne (by simp [hs])
  have hh' : (s.next i).rRespHeader0 = loadAckHeader l.header0 l.header2 := by
    simp [next, har, hh]
  cases hr : s.rGo i with
  | false => exact .nothing har hr ha (.waiting (by simp [next, har, hr, ha, hs]) hh')
  | true =>
    have hdata : (s.next i).rRespData0 = rdataMasked i.rdata := by simp [next, hr]
    have hcount : (s.next i).ackLoadCounter = 8 := by
      simp [next, hs, hh, length_loadAckHeader]
    have hlen : (s.next i).rRespHeader0.length = 8 := by rw [hh', length_loadAckHeader]
    refine .data har hr ha ?_
    rw [loadResponse, ← hh', ← hdata]
    exact .header (by simp [next, har, hr]) hcount hlen

theorem Reading.event_header (hs : s.rRespStatus = .respsend) (hc : s.ackLoadCounter = 8)
    (hlen : s.rRespHeader0.length = 8) {queued : Option Load} :
    ReadEvent s i none queued (s.rRespHeader0 :: List.replicate 8 s.rRespData0) := by
  have har : s.arGo i = false := arGo_of_ne (by simp [hs])
  have hr : s.rGo i = false := rGo_of_ne (by simp [hs])
  have hh' : (s.next i).rRespHeader0 = s.rRespHeader0 := by simp [next, har]
  have hd' : (s.next i).rRespData0 = s.rRespData0 := by simp [next, hr]
  have hs' : (s.next i).rRespStatus = .respsend := by simp [next, har, hr, hs, hc]
  cases ha : s.ackLoadGo i with
  | false =>
    refine .nothing har hr ha ?_
    rw [← hh', ← hd']
    exact .header hs' (by simp [next, hs, ha, hc]) (hh' ▸ hlen)
  | true =>
    have hx : s.ackLoad = s.rRespHeader0 := by rw [ackLoad, hc, hlen, if_pos rfl]
    have hc' : (s.next i).ackLoadCounter.toNat = 7 := by simp [next, hs, ha, hc]
    refine .respond har hr ha hx ?_
    rw [← hd']
    exact .data hs' (by omega) hc' (hh' ▸ hlen)

theorem Reading.event_data {n : Nat} (hs : s.rRespStatus = .respsend) (hn : n < 8)
    (hc : s.ackLoadCounter.toNat = n) (hlen : s.rRespHeader0.length = 8) {queued : Option Load} :
    ReadEvent s i none queued (List.replicate (n + 1) s.rRespData0) := by
  have har : s.arGo i = false := arGo_of_ne (by simp [hs])
  have hr : s.rGo i = false := rGo_of_ne (by simp [hs])
  have hh' : (s.next i).rRespHeader0 = s.rRespHeader0 := by simp [next, har]
  have hd' : (s.next i).rRespData0 = s.rRespData0 := by simp [next, hr]
  cases ha : s.ackLoadGo i with
  | false =>
    refine .nothing har hr ha ?_
    rw [← hd']
    exact .data (by simp [next, har, hr, ha, hs]) hn (by simp [next, hs, ha, hc]) (hh' ▸ hlen)
  | true =>
    have hne : s.ackLoadCounter ≠ s.rRespHeader0.length := by
      intro h8
      have h8' := congrArg BitVec.toNat (h8.trans hlen)
      rw [hc] at h8'
      exact absurd h8' (Nat.ne_of_lt hn)
    have hx : s.ackLoad = s.rRespData0 := by rw [ackLoad, if_neg hne]
    rw [List.replicate_succ]
    refine .respond har hr ha hx ?_
    cases n with
    | zero =>
      have h0 : s.ackLoadCounter = 0 := BitVec.eq_of_toNat_eq hc
      exact .idle (by simp [next, har, hr, ha, hs, h0])
    | succ n =>
      have h0 := ne_zero_of_toNat hc
      rw [← hd']
      exact .data (by simp [next, har, hr, ha, hs, h0]) (by omega)
        (by simp [next, hs, ha, h0, toNat_sub_one_of hc]) (hh' ▸ hlen)

/-- One step of the loads. -/
theorem Reading.event {waiting queued : Option Load} {rest : List Flit}
    (h : Reading s waiting rest) (hq : Queued s queued) : ReadEvent s i waiting queued rest := by
  cases h with
  | idle hs => exact Reading.event_idle hs hq
  | waiting hs hh => exact Reading.event_waiting hs hh
  | header hs hc hlen => exact Reading.event_header hs hc hlen
  | data hs hn hc hlen => exact Reading.event_data hs hn hc hlen

/-! ### The request buffer -/

theorem Queued.kept {queued : Option Load} (h : Queued s queued) (hw : s.loadWhole i = false)
    (har : s.arGo i = false) : Queued (s.next i) queued := by
  cases h with
  | free hfree => exact .free (rReqStatus_free hfree hw)
  | full hfull hl =>
    have hg : s.goAndLoad i = false := by simp [goAndLoad, hfull]
    exact .full (by simp [next, hg, har, hfull])
      ⟨by simp [next, hg, hl.header0], by simp [next, hg, hl.header1],
        by simp [next, hg, hl.header2]⟩

theorem queued_address (hw : s.loadWhole i = false) (har : s.arGo i = true) :
    Queued (s.next i) none := by
  rw [loadWhole] at hw
  exact .free (by simp only [next, hw, har, Bool.false_eq_true, if_false, if_true])

theorem queued_load {l : Load} (hw : s.loadWhole i = true) (hl : (s.next i).HoldsLoad l) :
    Queued (s.next i) (some l) := by
  rw [loadWhole] at hw
  exact .full (by simp only [next, hw, if_true]) hl

/-! ### All loads -/

/-- The loads `ls` with their transfers: `done` have been answered, and what is left to send of their
responses is `rest`. -/
structure ReadsAs (s : AxiBridge) (ls : List Load) (ar r : List (BitVec 64)) (out : List Flit)
    (done : List Load) (waiting queued : Option Load) (rest : List Flit) : Prop where
  split : ls = done ++ waiting.toList ++ queued.toList
  ar_eq : ar = (done ++ waiting.toList).map loadAddr
  length_eq : r.length = done.length
  queue : Queued s queued
  reading : Reading s waiting rest
  responses : (List.zipWith loadResponse done r).flatten = out ++ rest

/-- The load channels agree with the loads taken in, wherever each load has come to. -/
def Reads (s : AxiBridge) (ls : List Load) (ar r : List (BitVec 64)) (out : List Flit) : Prop :=
  ∃ done waiting queued rest, ReadsAs s ls ar r out done waiting queued rest

theorem reads_init : Reads .init [] [] [] [] :=
  ⟨[], none, none, [], rfl, rfl, rfl, .free rfl, .idle rfl, rfl⟩

variable {ls : List Load} {ar r : List (BitVec 64)} {out : List Flit} {done : List Load}
  {waiting queued : Option Load} {rest : List Flit}

/-- The transfers of this cycle. -/
def arNext (s : AxiBridge) (i : AxiInput) (ar : List (BitVec 64)) : List (BitVec 64) :=
  if s.arGo i then ar ++ [msgAddr s.rReqHeader1] else ar

/-- The data transfers after a cycle. -/
def rNext (s : AxiBridge) (i : AxiInput) (r : List (BitVec 64)) : List (BitVec 64) :=
  if s.rGo i then r ++ [i.rdata] else r

/-- The flits of load responses after a cycle. -/
def loadOutNext (s : AxiBridge) (i : AxiInput) (out : List Flit) : List Flit :=
  if s.ackLoadGo i then out ++ [s.ackLoad] else out

theorem zipWith_snoc (hlen : r.length = done.length) (l : Load) (x : BitVec 64) :
    List.zipWith loadResponse (done ++ [l]) (r ++ [x]) =
      List.zipWith loadResponse done r ++ [loadResponse l x] := by
  rw [List.zipWith_append hlen.symm]
  rfl

/-- A clock edge in which no load becomes whole. -/
theorem ReadsAs.step_nothing (h : ReadsAs s ls ar r out done waiting queued rest)
    (hw : s.loadWhole i = false) :
    Reads (s.next i) ls (arNext s i ar) (rNext s i r) (loadOutNext s i out) := by
  have hev := h.reading.event (i := i) h.queue
  rw [arNext, rNext, loadOutNext]
  cases hev with
  | nothing har hr ha hreading =>
    rw [har, hr, ha]
    exact ⟨done, waiting, queued, rest, h.split, h.ar_eq, h.length_eq, h.queue.kept hw har,
      hreading, h.responses⟩
  | @address l har hr ha hl hreading =>
    rw [har, hr, ha]
    refine ⟨done, some l, none, [], ?_, ?_, h.length_eq, queued_address hw har, hreading,
      h.responses⟩
    · simpa using h.split
    · rw [if_pos rfl, h.ar_eq, hl.header1]
      simp [loadAddr]
  | @data l _ har hr ha hreading =>
    rw [har, hr, ha]
    refine ⟨done ++ [l], none, queued, loadResponse l i.rdata, ?_, ?_, ?_, h.queue.kept hw har,
      hreading, ?_⟩
    · simpa using h.split
    · simpa using h.ar_eq
    · simp [h.length_eq]
    · rw [if_pos rfl, zipWith_snoc h.length_eq, List.flatten_append, h.responses]
      simp
  | @respond _ x rest har hr ha hx hreading =>
    rw [har, hr, ha]
    refine ⟨done, none, queued, rest, h.split, h.ar_eq, h.length_eq, h.queue.kept hw har,
      hreading, ?_⟩
    rw [if_pos rfl, if_neg Bool.false_ne_true, hx, h.responses]
    simp

/-- A clock edge in which a load becomes whole; its buffer was free. -/
theorem ReadsAs.step_load (h : ReadsAs s ls ar r out done waiting queued rest) {l : Load}
    (hw : s.loadWhole i = true) (hfree : s.rReqStatus = .incomp) (hl : (s.next i).HoldsLoad l) :
    Reads (s.next i) (ls ++ [l]) (arNext s i ar) (rNext s i r) (loadOutNext s i out) := by
  have hq' := queued_load hw hl
  have har : s.arGo i = false := by rw [arGo, arvalid_of_incomp hfree, Bool.false_and]
  have hnone : queued = none := by
    cases h.queue with
    | free => rfl
    | full hfull => rw [hfull] at hfree; exact absurd hfree (by simp)
  subst hnone
  have hsplit := h.split
  rw [Option.toList_none, List.append_nil] at hsplit
  have hev := h.reading.event (i := i) h.queue
  rw [arNext, rNext, loadOutNext, har]
  cases hev with
  | nothing _ hr ha hreading =>
    rw [hr, ha]
    exact ⟨done, waiting, some l, rest, by rw [hsplit]; rfl, h.ar_eq, h.length_eq, hq', hreading,
      h.responses⟩
  | @data l' _ _ hr ha hreading =>
    rw [hr, ha]
    refine ⟨done ++ [l'], none, some l, loadResponse l' i.rdata, ?_, ?_, ?_, hq', hreading, ?_⟩
    · rw [hsplit]
      simp
    · simpa using h.ar_eq
    · simp [h.length_eq]
    · rw [if_pos rfl, zipWith_snoc h.length_eq, List.flatten_append, h.responses]
      simp
  | @respond _ x rest _ hr ha hx hreading =>
    rw [hr, ha]
    refine ⟨done, none, some l, rest, by rw [hsplit]; rfl, h.ar_eq, h.length_eq, hq', hreading, ?_⟩
    rw [if_pos rfl, if_neg Bool.false_ne_true, hx, h.responses]
    simp

theorem Reads.step {xs xs' : List Flit} (h : Reads s (loads xs) ar r out)
    (hin : Incoming s i xs xs') :
    Reads (s.next i) (loads xs') (arNext s i ar) (rNext s i r) (loadOutNext s i out) := by
  obtain ⟨done, waiting, queued, rest, h⟩ := h
  cases hin with
  | nothing hl _ hw _ => exact hl ▸ h.step_nothing hw
  | load l hl _ hw _ hfree hhold => exact hl ▸ h.step_load hw hfree hhold
  | store st hl _ hw _ _ _ => exact hl ▸ h.step_nothing hw

end AxiBridge

end Piton.Chipset
