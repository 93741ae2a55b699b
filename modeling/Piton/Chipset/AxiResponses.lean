import Piton.Chipset.AxiReads
import Piton.Chipset.AxiWrites

/-! The responses of the AXI-Lite bridge are whole messages, and what all runs keep. -/

namespace Piton.Chipset

open Hw Noc

namespace AxiBridge

variable {s : AxiBridge} {i : AxiInput}

/-! ### The mux -/

theorem ackGo_exclusive (h : s.ackLoadGo i = true) : s.ackStoreGo i = false := by
  rw [ackLoadGo, Bool.and_eq_true, Bool.and_eq_true, decide_eq_true_iff] at h
  simp [ackStoreGo, h.1.1]

/-- The flit that the splitter takes. -/
def sentNext (s : AxiBridge) (i : AxiInput) (sent : List (Ack × Flit)) : List (Ack × Flit) :=
  if s.val && i.rdy then sent ++ [(s.ackMuxSel, s.data)] else sent

theorem sentNext_load (h : s.ackLoadGo i = true) (sent : List (Ack × Flit)) :
    sentNext s i sent = sent ++ [(.load, s.ackLoad)] := by
  rw [ackLoadGo, Bool.and_eq_true, Bool.and_eq_true, decide_eq_true_iff] at h
  obtain ⟨⟨hm, hv⟩, hr⟩ := h
  simp [sentNext, val, data, hm, hv, hr]

theorem sentNext_store (h : s.ackStoreGo i = true) (sent : List (Ack × Flit)) :
    sentNext s i sent = sent ++ [(.store, s.wRespHeader0)] := by
  rw [ackStoreGo, Bool.and_eq_true, Bool.and_eq_true, decide_eq_true_iff] at h
  obtain ⟨⟨hm, hv⟩, hr⟩ := h
  simp [sentNext, val, data, hm, hv, hr]

theorem sentNext_nothing (hl : s.ackLoadGo i = false) (hs : s.ackStoreGo i = false)
    (sent : List (Ack × Flit)) : sentNext s i sent = sent := by
  rw [ackLoadGo] at hl
  rw [ackStoreGo] at hs
  rw [sentNext, val]
  cases hm : s.ackMuxSel <;> simp_all

theorem fromSource_load (sent : List (Ack × Flit)) :
    fromSource .load (sentNext s i sent) = loadOutNext s i (fromSource .load sent) := by
  rw [loadOutNext]
  cases hl : s.ackLoadGo i with
  | true => rw [sentNext_load hl, fromSource_snoc_self, if_pos rfl]
  | false =>
    cases hs : s.ackStoreGo i with
    | true => rw [sentNext_store hs, fromSource_snoc_of_ne (by simp), if_neg Bool.false_ne_true]
    | false => rw [sentNext_nothing hl hs, if_neg Bool.false_ne_true]

theorem fromSource_store (sent : List (Ack × Flit)) :
    fromSource .store (sentNext s i sent) = storeOutNext s i (fromSource .store sent) := by
  rw [storeOutNext]
  cases hs : s.ackStoreGo i with
  | true => rw [sentNext_store hs, fromSource_snoc_self, if_pos rfl]
  | false =>
    cases hl : s.ackLoadGo i with
    | true => rw [sentNext_load hl, fromSource_snoc_of_ne (by simp), if_neg Bool.false_ne_true]
    | false => rw [sentNext_nothing hl hs, if_neg Bool.false_ne_true]

/-! ### Whole responses -/

/-- What the response in hand lacks when `rest` is left to send of the response to a load. -/
def lacking (rest : List Flit) : Nat := if rest.length = 9 then 0 else rest.length

theorem Reading.length_le {waiting : Option Load} {rest : List Flit} (h : Reading s waiting rest) :
    rest.length ≤ 9 := by
  cases h with
  | idle => exact Nat.zero_le _
  | waiting => exact Nat.zero_le _
  | header => simp
  | data _ hn => simp only [List.length_replicate]; omega

/-- The first flit of a response says how many follow. -/
theorem Reading.header_len {waiting : Option Load} {x : Flit} {rest : List Flit}
    (h : Reading s waiting (x :: rest)) (h9 : (x :: rest).length = 9) : x.len = 8 := by
  generalize hr : x :: rest = l at h h9
  cases h with
  | idle => simp at hr
  | waiting => simp at hr
  | header _ _ hlen =>
    rw [(List.cons.inj hr).1, Flit.len, hlen]
    rfl
  | data _ hn => simp only [List.length_replicate] at h9; omega

/-- While a response to a load is in hand the mux selects it. -/
theorem Reading.ackMuxSel {waiting : Option Load} {rest : List Flit} (h : Reading s waiting rest)
    (hl : lacking rest ≠ 0) : s.ackMuxSel = .load := by
  cases h with
  | idle => exact absurd rfl hl
  | waiting => exact absurd rfl hl
  | header => exact absurd (by simp [lacking]) hl
  | data hs hn hc hlen =>
    have hne : s.ackLoadCounter ≠ s.rRespHeader0.length := by
      intro h8
      have h8' := congrArg BitVec.toNat (h8.trans hlen)
      rw [hc] at h8'
      exact absurd h8' (Nat.ne_of_lt hn)
    have hv : s.rRespVal = true := by simp [rRespVal, hs]
    rw [AxiBridge.ackMuxSel, hv]
    cases s.wRespVal <;> simp [hne]

/-- The flits `sent` after which `rest` is left of a response to a load. -/
structure Merged (sent : List (Ack × Flit)) (rest : List Flit) : Prop where
  due_eq : due (tagLen Flit.len) sent = lacking rest
  load : lacking rest ≠ 0 → ∀ x, (current (tagLen Flit.len) sent x).any (·.1 = .load) = true
  unmixed : Unmixed Flit.len sent

theorem merged_init : Merged [] [] where
  due_eq := rfl
  load := fun h => absurd rfl h
  unmixed := Unmixed.nil

variable {sent : List (Ack × Flit)} {rest : List Flit}

theorem Merged.current_load (h : Merged sent rest) (x : Flit) :
    (current (tagLen Flit.len) sent (some (.load, x))).any (·.1 = .load) = true := by
  by_cases hl : lacking rest = 0
  · rw [current_of_due_eq _ (h.due_eq.trans hl)]
    rfl
  · exact h.load hl _

/-- A flit of a response to a load. -/
theorem Merged.snoc_load {x : Flit} (h : Merged sent (x :: rest)) (hle : (x :: rest).length ≤ 9)
    (h9 : (x :: rest).length = 9 → x.len = 8) : Merged (sent ++ [(.load, x)]) rest := by
  have hdue : due (tagLen Flit.len) (sent ++ [(.load, x)]) = lacking rest := by
    rw [due_snoc, h.due_eq, lacking, lacking, tagLen]
    simp only [List.length_cons] at hle h9 ⊢
    by_cases hr : rest.length = 8
    · simp [hr, h9 (by omega)]
    · have h1 : rest.length + 1 ≠ 9 := by omega
      have h2 : rest.length ≠ 9 := by omega
      simp [h1, h2]
  refine ⟨hdue, ?_, h.unmixed.snoc (h.current_load x)⟩
  intro hl a
  rw [← hdue] at hl
  rw [current_snoc _ hl]
  exact h.current_load x

/-- A response to a store comes between two other responses. -/
theorem Merged.snoc_store {x : Flit} (h : Merged sent rest) (hl : lacking rest = 0)
    (hx : x.len = 0) : Merged (sent ++ [(.store, x)]) rest := by
  have hd : due (tagLen Flit.len) sent = 0 := h.due_eq.trans hl
  refine ⟨?_, fun h0 => absurd hl h0, h.unmixed.snoc ?_⟩
  · rw [due_snoc, if_pos hd, hl, tagLen, hx]
  · rw [current_of_due_eq _ hd]
    rfl

/-! ### The invariant -/

/-- What all runs of the bridge keep: the registers hold the rest of the accepted flits, both
channels agree with the requests, and the flits sent are whole responses. -/
structure Inv (y : AxiBridge × Transfers) : Prop where
  parses : Parses y.1 y.2.accepted
  reads : Reads y.1 (loads y.2.accepted) y.2.ar y.2.r (fromSource .load y.2.sent)
  writes : Writes y.1 (stores y.2.accepted) y.2.aw y.2.w y.2.b (fromSource .store y.2.sent)
  merged : ∃ waiting rest, Reading y.1 waiting rest ∧ Merged y.2.sent rest

theorem inv_init : Inv (.init, .init) where
  parses := parses_init
  reads := reads_init
  writes := writes_init
  merged := ⟨none, [], .idle rfl, merged_init⟩

theorem Merged.congr {rest' : List Flit} (h : Merged sent rest)
    (hl : lacking rest = lacking rest') : Merged sent rest' :=
  ⟨hl ▸ h.due_eq, hl ▸ h.load, h.unmixed⟩

theorem lacking_loadResponse (l : Load) (x : BitVec 64) : lacking (loadResponse l x) = 0 := by
  simp [lacking, loadResponse]

/-- The response to a store is ready when its header is. -/
theorem Writing.exists_response {cur req : Option Store} {a c : Bool} (h : Writing s cur req a c)
    (hv : s.wRespVal = true) : ∃ st, s.wRespHeader0 = storeResponse st := by
  cases cur with
  | none =>
    rw [wRespVal_of_none h] at hv
    exact absurd hv Bool.false_ne_true
  | some st =>
    cases h with
    | answering _ _ _ _ _ hh => exact ⟨st, hh⟩

/-- The flits that are sent in this cycle. -/
theorem merged_step {waiting queued : Option Load} (hr : Reading s waiting rest)
    (hm : Merged sent rest) (hev : ReadEvent s i waiting queued rest)
    (hw : s.wRespVal = true → ∃ st, s.wRespHeader0 = storeResponse st) :
    ∃ waiting' rest', Reading (s.next i) waiting' rest' ∧ Merged (sentNext s i sent) rest' := by
  -- without a flit of a load, what is left of a response stays
  have hkeep : s.ackLoadGo i = false → Merged (sentNext s i sent) rest := by
    intro hl
    cases hs : s.ackStoreGo i with
    | false =>
      rw [sentNext_nothing hl hs]
      exact hm
    | true =>
      rw [sentNext_store hs]
      rw [ackStoreGo, Bool.and_eq_true, Bool.and_eq_true, decide_eq_true_iff] at hs
      obtain ⟨st, hst⟩ := hw hs.1.2
      refine hm.snoc_store ?_ ?_
      · by_contra hne
        rw [hr.ackMuxSel hne] at hs
        exact absurd hs.1.1 (by simp)
      · rw [hst, Flit.len, storeResponse, length_storeAckHeader]
        rfl
  cases hev with
  | nothing _ _ hl hr' => exact ⟨waiting, rest, hr', hkeep hl⟩
  | address _ _ hl _ hr' => exact ⟨_, [], hr', hkeep hl⟩
  | @data l _ _ _ hl hr' =>
    exact ⟨none, _, hr', (hkeep hl).congr (lacking_loadResponse l i.rdata).symm⟩
  | @respond _ x rest' _ _ hl hx hr' =>
    rw [sentNext_load hl, hx]
    exact ⟨none, rest', hr', hm.snoc_load hr.length_le hr.header_len⟩

theorem served_go {y : AxiBridge × Transfers} (hi : Served y i) (hgo : y.1.go i = true)
    (hd : due Flit.len y.2.accepted = 0) :
    isLoad i.data = true ∧ i.data.length = 2 ∨ isStore i.data = true ∧ i.data.length = 3 := by
  rw [go, Bool.and_eq_true] at hgo
  exact hi hgo.1 hgo.2 hd

theorem Inv.step {y : AxiBridge × Transfers} (h : Inv y) (hi : Served y i) :
    Inv (bridgeTransfers.step y i) := by
  obtain ⟨hp, hin⟩ := h.parses.step (served_go hi)
  have hsent : (bridgeTransfers.step y i).2.sent = sentNext y.1 i y.2.sent := rfl
  refine ⟨hp, ?_, ?_, ?_⟩
  · rw [hsent, fromSource_load]
    exact h.reads.step hin
  · rw [hsent, fromSource_store]
    exact h.writes.step hin
  · rw [hsent]
    obtain ⟨waiting, rest, hr, hm⟩ := h.merged
    obtain ⟨done, w, queued, rest', hreads⟩ := h.reads
    obtain ⟨done', cur, req, a, c, hwrites⟩ := h.writes
    exact merged_step hr hm (hr.event hreads.queue) hwrites.writing.exists_response

end AxiBridge

open AxiBridge in
theorem inv_of_reachable {y : AxiBridge × Transfers} (h : bridgeTransfers.Reachable Served y) :
    Inv y := by
  refine h.invariant ?_ fun _ _ hy hi => hy.step hi
  rintro ⟨s, g⟩ ⟨hs, hg⟩
  have hs : s = .init := hs
  have hg : g = .init := hg
  rw [hs, hg]
  exact inv_init

/-! ### Correspondence -/

/-- Each load has one address transfer and each store one address and one data transfer, in order and
with their own address and data. The responses are whole messages: for each load, in order, its header
and the data read for it, for each store its header; and none comes before its transfers. -/
structure Corresponds (y : AxiBridge × Transfers) : Prop where
  ar : y.2.ar <+: (loads y.2.accepted).map loadAddr
  aw : y.2.aw <+: (stores y.2.accepted).map storeAddr
  w : y.2.w <+: (stores y.2.accepted).map storeData
  read : y.2.r.length ≤ y.2.ar.length
  written : y.2.b.length ≤ y.2.aw.length ∧ y.2.b.length ≤ y.2.w.length
  loads : fromSource .load y.2.sent <+:
    (List.zipWith loadResponse (loads y.2.accepted) y.2.r).flatten
  stores : fromSource .store y.2.sent <+: (stores y.2.accepted).map storeResponse
  stored : (fromSource .store y.2.sent).length ≤ y.2.b.length
  unmixed : Unmixed Flit.len y.2.sent

section Correspondence

open AxiBridge

variable {s : AxiBridge} {ls : List Load} {ar r : List (BitVec 64)} {out : List Flit}
  {ss : List Store} {aw : List (BitVec 64)} {w : List (BitVec 64 × BitVec 8)}
  {b : List (BitVec 2)}

theorem reads_ar (h : Reads s ls ar r out) : ar <+: ls.map loadAddr := by
  obtain ⟨done, waiting, queued, rest, h⟩ := h
  rw [h.ar_eq, h.split]
  exact (List.prefix_append _ _).map loadAddr

theorem reads_length (h : Reads s ls ar r out) : r.length ≤ ar.length := by
  obtain ⟨done, waiting, queued, rest, h⟩ := h
  rw [h.ar_eq, h.length_eq, List.length_map, List.length_append]
  exact Nat.le_add_right _ _

/-- Only answered loads have a response. -/
theorem reads_responses (h : Reads s ls ar r out) :
    out <+: (List.zipWith loadResponse ls r).flatten := by
  obtain ⟨done, waiting, queued, rest, h⟩ := h
  have hzip : List.zipWith loadResponse ls r = List.zipWith loadResponse done r := by
    have happ : List.zipWith loadResponse (done ++ (waiting.toList ++ queued.toList)) (r ++ []) =
        List.zipWith loadResponse done r ++
          List.zipWith loadResponse (waiting.toList ++ queued.toList) [] :=
      List.zipWith_append h.length_eq.symm
    rw [List.append_nil, List.zipWith_nil_right, List.append_nil, ← List.append_assoc] at happ
    rw [h.split, happ]
  rw [hzip, h.responses]
  exact List.prefix_append _ _

theorem writes_aw (h : Writes s ss aw w b out) : aw <+: ss.map storeAddr := by
  obtain ⟨done, cur, req, a, c, h⟩ := h
  rw [h.aw_eq, h.split]
  apply List.IsPrefix.map
  rw [List.prefix_append_right_inj]
  cases a with
  | true => exact List.prefix_refl _
  | false => exact List.nil_prefix

theorem writes_w (h : Writes s ss aw w b out) : w <+: ss.map storeData := by
  obtain ⟨done, cur, req, a, c, h⟩ := h
  rw [h.w_eq, h.split]
  apply List.IsPrefix.map
  rw [List.prefix_append_right_inj]
  cases c with
  | true => exact List.prefix_refl _
  | false => exact List.nil_prefix

theorem writes_out (h : Writes s ss aw w b out) : out <+: ss.map storeResponse := by
  obtain ⟨done, cur, req, a, c, h⟩ := h
  rw [h.out_eq, h.split, List.append_assoc, List.map_append]
  exact List.prefix_append _ _

/-- A transfer on the B channel is that of a store whose other transfers are done. -/
theorem writes_length (h : Writes s ss aw w b out) :
    out.length ≤ b.length ∧ b.length ≤ aw.length ∧ b.length ≤ w.length := by
  obtain ⟨done, cur, req, a, c, h⟩ := h
  have hb : s.wRespVal.toNat ≤ cur.toList.length := by
    cases cur with
    | none => rw [wRespVal_of_none h.writing]; rfl
    | some st => exact Bool.toNat_le _
  rw [h.out_eq, h.b_eq, h.aw_eq, h.w_eq]
  simp only [List.length_map, List.length_append]
  omega

theorem corresponds_of_reachable {y : AxiBridge × Transfers}
    (h : bridgeTransfers.Reachable Served y) : Corresponds y where
  ar := reads_ar (inv_of_reachable h).reads
  aw := writes_aw (inv_of_reachable h).writes
  w := writes_w (inv_of_reachable h).writes
  read := reads_length (inv_of_reachable h).reads
  written := (writes_length (inv_of_reachable h).writes).2
  loads := reads_responses (inv_of_reachable h).reads
  stores := writes_out (inv_of_reachable h).writes
  stored := (writes_length (inv_of_reachable h).writes).1
  unmixed := by
    obtain ⟨waiting, rest, -, hm⟩ := (inv_of_reachable h).merged
    exact hm.unmixed

end Correspondence

end Piton.Chipset
