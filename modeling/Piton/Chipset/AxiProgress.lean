import Piton.Chipset.AxiOffers
import Piton.Lib.Live

/-! Every request of the AXI-Lite bridge is answered while the other sides of its channels answer. -/

namespace Piton.Chipset

open Hw Noc

/-- What is offered for long enough is taken. -/
structure Fair (r : Nat → AxiBridge × Transfers) (w : Nat → AxiInput) : Prop where
  arready : ∀ n, (r n).1.arvalid = true → ∃ m, n ≤ m ∧ (w m).arready = true
  awready : ∀ n, (r n).1.awvalid = true → ∃ m, n ≤ m ∧ (w m).awready = true
  wready : ∀ n, (r n).1.wvalid = true → ∃ m, n ≤ m ∧ (w m).wready = true
  rvalid : ∀ n, (r n).1.rready = true → ∃ m, n ≤ m ∧ (w m).rvalid = true
  bvalid : ∀ n, (r n).1.bready = true → ∃ m, n ≤ m ∧ (w m).bvalid = true
  rdy : ∀ n, (r n).1.val = true → ∃ m, n ≤ m ∧ (w m).rdy = true

namespace AxiBridge

section Runs

variable {r : Nat → AxiBridge × Transfers} {w : Nat → AxiInput}

theorem state_step (hr : bridgeTransfers.IsRun r w) (n : Nat) :
    (r (n + 1)).1 = (r n).1.next (w n) := by
  rw [hr n]
  rfl

theorem sent_step (hr : bridgeTransfers.IsRun r w) (n : Nat) :
    (r (n + 1)).2.sent = sentNext (r n).1 (w n) (r n).2.sent := by
  rw [hr n]
  rfl

/-! ### Responses leave -/

/-- A response to a load is not kept waiting for more than one response to a store. -/
theorem exists_ackLoadGo (hr : bridgeTransfers.IsRun r w) (hf : Fair r w) {n : Nat}
    (h : (r n).1.rRespVal = true) : ∃ m, n ≤ m ∧ (r m).1.ackLoadGo (w m) = true := by
  by_contra hnone
  have hno : ∀ m, n ≤ m → (r m).1.ackLoadGo (w m) = false := by
    intro m hm
    rw [← Bool.not_eq_true]
    exact fun hl => hnone ⟨m, hm, hl⟩
  have hval : ∀ m, n ≤ m → (r m).1.rRespVal = true := by
    intro m hm
    induction m, hm using Nat.le_induction with
    | base => exact h
    | succ m hm ih =>
      rw [state_step hr]
      exact rRespVal_next ih (hno m hm)
  obtain ⟨p, hp, hrdy⟩ := hf.rdy n (val_of_rRespVal h)
  have hst : (r p).1.ackStoreGo (w p) = true := by
    obtain hl | hst := ackGo_of_val (val_of_rRespVal (hval p hp)) hrdy
    · exact absurd ⟨p, hp, hl⟩ hnone
    · exact hst
  have harb : ∀ m, p + 1 ≤ m → (r m).1.arb = .load := by
    intro m hm
    induction m, hm using Nat.le_induction with
    | base =>
      rw [state_step hr]
      exact arb_load hst (hval p hp)
    | succ m hm ih =>
      rw [state_step hr]
      cases hs : (r m).1.ackStoreGo (w m) with
      | true => exact arb_load hs (hval m (by omega))
      | false => rw [arb_kept (hno m (by omega)) hs, ih]
  obtain ⟨q, hq, hrdyq⟩ := hf.rdy (p + 1) (val_of_rRespVal (hval (p + 1) (by omega)))
  exact hnone ⟨q, by omega, ackLoadGo_of_arb (hval q (by omega)) (harb q hq) hrdyq⟩

/-- A response to a store is not kept waiting for more than one response to a load. -/
theorem exists_ackStoreGo (hr : bridgeTransfers.IsRun r w)
    (hinv : ∀ n, Inv (r n)) (hf : Fair r w) {n : Nat} (h : (r n).1.wRespVal = true) :
    ∃ m, n ≤ m ∧ (r m).1.ackStoreGo (w m) = true := by
  by_contra hnone
  have hno : ∀ m, n ≤ m → (r m).1.ackStoreGo (w m) = false := by
    intro m hm
    rw [← Bool.not_eq_true]
    exact fun hs => hnone ⟨m, hm, hs⟩
  have hval : ∀ m, n ≤ m → (r m).1.wRespVal = true := by
    intro m hm
    induction m, hm using Nat.le_induction with
    | base => exact h
    | succ m hm ih =>
      rw [state_step hr]
      exact wRespVal_next ih (hno m hm)
  have hload : ∀ m, n ≤ m → ∃ p, m ≤ p ∧ (r p).1.ackLoadGo (w p) = true := by
    intro m hm
    obtain ⟨p, hp, hrdy⟩ := hf.rdy m (val_of_wRespVal (hval m hm))
    obtain hl | hs := ackGo_of_val (val_of_wRespVal (hval p (by omega))) hrdy
    · exact ⟨p, hp, hl⟩
    · exact absurd ⟨p, by omega, hs⟩ hnone
  obtain ⟨p, hp, hl⟩ := hload n (Nat.le_refl n)
  have harb : ∀ m, p + 1 ≤ m → (r m).1.arb = .store := by
    intro m hm
    induction m, hm using Nat.le_induction with
    | base =>
      rw [state_step hr]
      exact arb_store hl (hval p hp)
    | succ m hm ih =>
      rw [state_step hr]
      cases hl : (r m).1.ackLoadGo (w m) with
      | true => exact arb_store hl (hval m (by omega))
      | false => rw [arb_kept hl (hno m (by omega)), ih]
  have hdec : ∀ m, p + 1 ≤ m → (r (m + 1)).1.lacks ≤ (r m).1.lacks ∧
      ((r m).1.ackLoadGo (w m) = true → (r (m + 1)).1.lacks < (r m).1.lacks) := by
    intro m hm
    obtain ⟨done, waiting, queued, rest, hreads⟩ := (hinv m).reads
    rw [state_step hr]
    exact hreads.reading.lacks_next hreads.queue (harb m hm) (hval m (by omega))
  have hle : ∀ m q, p + 1 ≤ m → m ≤ q → (r q).1.lacks ≤ (r m).1.lacks := by
    intro m q hm hq
    induction q, hq using Nat.le_induction with
    | base => exact Nat.le_refl _
    | succ q hq ih => exact Nat.le_trans (hdec q (by omega)).1 ih
  -- the flits that go before it would be more than a response has
  obtain ⟨m, -, hm⟩ := exists_ge (f := fun m => (r (p + 1)).1.lacks - (r m).1.lacks)
    (k := (r (p + 1)).1.lacks + 1) (n := p + 1) (by
      intro m hm _
      obtain ⟨q, hq, hlq⟩ := hload m (by omega)
      have h1 := (hdec q (by omega)).2 hlq
      have h2 := hle m q hm hq
      have h3 := hle (p + 1) m (Nat.le_refl _) hm
      exact ⟨q + 1, by omega, by omega⟩)
  omega

/-! ### Loads -/

/-- A load that waits for its data has a flit of its response taken. -/
theorem exists_ackLoadGo_of_rready (hr : bridgeTransfers.IsRun r w) (hf : Fair r w) {n : Nat}
    (h : (r n).1.rready = true) : ∃ m, n ≤ m ∧ (r m).1.ackLoadGo (w m) = true := by
  obtain ⟨p, hp, hready, hvalid⟩ := exists_taken (fun m => (r m).1.rready = true)
    (fun m => (w m).rvalid = true) h
    (fun m _ hm hnv => by
      show (r (m + 1)).1.rready = true
      rw [state_step hr]
      exact rready_next hm (by simpa using hnv))
    (hf.rvalid n h)
  have hgo : (r p).1.rGo (w p) = true := by rw [rGo, hready, hvalid]; rfl
  have hval : (r (p + 1)).1.rRespVal = true := by
    have har : (r p).1.arGo (w p) = false := by
      apply arGo_of_ne
      rw [rready, decide_eq_true_iff] at hready
      simp [hready]
    rw [state_step hr]
    simp [rRespVal, next, har, hgo]
  obtain ⟨m, hm, hl⟩ := exists_ackLoadGo hr hf hval
  exact ⟨m, by omega, hl⟩

/-- So has a load whose address transfer is offered. -/
theorem exists_ackLoadGo_of_arvalid (hr : bridgeTransfers.IsRun r w) (hf : Fair r w) {n : Nat}
    (h : (r n).1.arvalid = true) : ∃ m, n ≤ m ∧ (r m).1.ackLoadGo (w m) = true := by
  obtain ⟨p, hp, hvalid, hready⟩ := exists_taken (fun m => (r m).1.arvalid = true)
    (fun m => (w m).arready = true) h
    (fun m _ hm hnr => by
      show (r (m + 1)).1.arvalid = true
      rw [state_step hr]
      exact arvalid_next hm (by simpa using hnr))
    (hf.arready n h)
  have hgo : (r p).1.arGo (w p) = true := by rw [arGo, hvalid, hready]; rfl
  have hwait : (r (p + 1)).1.rready = true := by
    rw [state_step hr]
    simp [rready, next, hgo]
  obtain ⟨m, hm, hl⟩ := exists_ackLoadGo_of_rready hr hf hwait
  exact ⟨m, by omega, hl⟩

theorem length_responses {done : List Load} {rs : List (BitVec 64)}
    (h : done.length ≤ rs.length) :
    (List.zipWith loadResponse done rs).flatten.length = 9 * done.length := by
  induction done generalizing rs with
  | nil => simp
  | cons l done ih =>
    cases rs with
    | nil => simp at h
    | cons x rs =>
      have h' : done.length ≤ rs.length := by simpa using h
      rw [List.zipWith_cons_cons, List.flatten_cons, List.length_append, ih h', loadResponse]
      simp only [List.length_cons, List.length_replicate]
      omega

theorem responses_le {ls done : List Load} (h : ls <+: done) (rs : List (BitVec 64)) :
    (List.zipWith loadResponse ls rs).flatten <+: (List.zipWith loadResponse done rs).flatten := by
  induction ls generalizing done rs with
  | nil => simp
  | cons l ls ih =>
    obtain ⟨done', rfl, hls⟩ := List.cons_prefix_iff.1 h
    cases rs with
    | nil => exact List.prefix_refl _
    | cons x rs =>
      rw [List.zipWith_cons_cons, List.zipWith_cons_cons, List.flatten_cons, List.flatten_cons,
        List.prefix_append_right_inj]
      exact ih hls rs

/-- While a response to a load lacks flits, one more is taken. -/
theorem exists_ackLoadGo_of_lt (hr : bridgeTransfers.IsRun r w) (hinv : ∀ n, Inv (r n))
    (hf : Fair r w) {n : Nat}
    (h : (fromSource .load (r n).2.sent).length < 9 * (loads (r n).2.accepted).length) :
    ∃ m, n ≤ m ∧ (r m).1.ackLoadGo (w m) = true := by
  obtain ⟨done, waiting, queued, rest, hreads⟩ := (hinv n).reads
  have hlen := congrArg List.length hreads.responses
  rw [length_responses hreads.length_eq.ge, List.length_append] at hlen
  have hreading := hreads.reading
  cases hreading with
  | header hs => exact exists_ackLoadGo hr hf (by simp [rRespVal, hs])
  | data hs => exact exists_ackLoadGo hr hf (by simp [rRespVal, hs])
  | waiting hs => exact exists_ackLoadGo_of_rready hr hf (by simp [rready, hs])
  | idle hs =>
    -- all that have been answered have left, so another is queued
    cases hreads.queue with
    | free =>
      rw [hreads.split] at h
      simp only [Option.toList_none, List.append_nil, List.length_nil] at h hlen
      omega
    | full hq => exact exists_ackLoadGo_of_arvalid hr hf (by simp [arvalid, hs, hq])

theorem loads_le (hr : bridgeTransfers.IsRun r w) (hinv : ∀ n, Inv (r n))
    (hok : ∀ n, Served (r n) (w n)) {n m : Nat} (h : n ≤ m) :
    loads (r n).2.accepted <+: loads (r m).2.accepted ∧
      stores (r n).2.accepted <+: stores (r m).2.accepted := by
  have hstep : ∀ k, Incoming (r k).1 (w k) (r k).2.accepted (r (k + 1)).2.accepted := by
    intro k
    rw [hr k]
    exact ((hinv k).parses.step (served_go (hok k))).2
  constructor
  · refine prefix_of_le (f := fun k => loads (r k).2.accepted) (fun k => ?_) h
    cases hstep k with
    | nothing hl => exact hl ▸ List.prefix_refl _
    | load l hl => exact hl ▸ List.prefix_append _ _
    | store st hl => exact hl ▸ List.prefix_refl _
  · refine prefix_of_le (f := fun k => stores (r k).2.accepted) (fun k => ?_) h
    cases hstep k with
    | nothing _ hs => exact hs ▸ List.prefix_refl _
    | load l _ hs => exact hs ▸ List.prefix_refl _
    | store st _ hs => exact hs ▸ List.prefix_append _ _

theorem loadOut_le (hr : bridgeTransfers.IsRun r w) {n m : Nat} (h : n ≤ m) :
    fromSource .load (r n).2.sent <+: fromSource .load (r m).2.sent := by
  refine prefix_of_le (f := fun k => fromSource .load (r k).2.sent) (fun k => ?_) h
  rw [sent_step hr, fromSource_load, loadOutNext]
  split
  · exact List.prefix_append _ _
  · exact List.prefix_refl _

/-- Every load is answered. -/
theorem eventually_loaded (hr : bridgeTransfers.IsRun r w) (hinv : ∀ n, Inv (r n))
    (hok : ∀ n, Served (r n) (w n)) (hf : Fair r w) (n : Nat) :
    ∃ m, n ≤ m ∧ (loads (r n).2.accepted).map loadAddr <+: (r m).2.ar ∧
      (loads (r n).2.accepted).length ≤ (r m).2.r.length ∧
      (List.zipWith loadResponse (loads (r n).2.accepted) (r m).2.r).flatten <+:
        fromSource .load (r m).2.sent := by
  obtain ⟨m, hm, hlen⟩ := exists_ge (f := fun m => (fromSource .load (r m).2.sent).length)
    (k := 9 * (loads (r n).2.accepted).length) (n := n) (by
      intro m hm hlt
      have hmono := (loads_le hr hinv hok hm).1.length_le
      obtain ⟨p, hp, hgo⟩ := exists_ackLoadGo_of_lt hr hinv hf (n := m) (by omega)
      refine ⟨p + 1, by omega, ?_⟩
      have hle := (loadOut_le hr hp).length_le
      rw [sent_step hr, fromSource_load, loadOutNext, if_pos hgo, List.length_append]
      exact Nat.lt_succ_of_le hle)
  refine ⟨m, hm, ?_⟩
  obtain ⟨done, waiting, queued, rest, hreads⟩ := (hinv m).reads
  have hall := congrArg List.length hreads.responses
  rw [length_responses hreads.length_eq.ge, List.length_append] at hall
  have hdone : loads (r n).2.accepted <+: done := by
    refine List.prefix_of_prefix_length_le (loads_le hr hinv hok hm).1 ?_ (by omega)
    rw [hreads.split, List.append_assoc]
    exact List.prefix_append _ _
  have hread : (loads (r n).2.accepted).length ≤ (r m).2.r.length := by
    rw [hreads.length_eq]
    exact hdone.length_le
  refine ⟨?_, hread, ?_⟩
  · rw [hreads.ar_eq]
    exact (hdone.trans (List.prefix_append _ _)).map loadAddr
  · refine List.prefix_of_prefix_length_le (responses_le hdone _) ?_ ?_
    · rw [hreads.responses]
      exact List.prefix_append _ _
    · rw [length_responses hread]
      exact hlen

/-! ### Stores -/

/-- A store that waits for its response has it taken. -/
theorem exists_ackStoreGo_of_bready (hr : bridgeTransfers.IsRun r w) (hinv : ∀ n, Inv (r n))
    (hf : Fair r w) {n : Nat} (h : (r n).1.bready = true) :
    ∃ m, n ≤ m ∧ (r m).1.ackStoreGo (w m) = true := by
  obtain ⟨p, hp, hready, hvalid⟩ := exists_taken (fun m => (r m).1.bready = true)
    (fun m => (w m).bvalid = true) h
    (fun m _ hm hnv => by
      show (r (m + 1)).1.bready = true
      obtain ⟨done, cur, req, a, c, hwrites⟩ := (hinv m).writes
      rw [state_step hr]
      exact bready_next hwrites.writing hm (by simpa using hnv))
    (hf.bvalid n h)
  have hgo : (r p).1.bGo (w p) = true := by rw [bGo, hready, hvalid]; rfl
  have hval : (r (p + 1)).1.wRespVal = true := by
    obtain ⟨done, cur, req, a, c, hwrites⟩ := (hinv p).writes
    rw [bready, decide_eq_true_iff] at hready
    obtain ⟨h3, h4⟩ := wRespStatus_waitresp hwrites.writing hready
    rw [state_step hr]
    exact wRespVal_answer (awGo_of_ne (by simp [h3])) (wGo_of_ne (by simp [h4])) hgo
  obtain ⟨m, hm, hs⟩ := exists_ackStoreGo hr hinv hf hval
  exact ⟨m, by omega, hs⟩

/-- While no response is waited for, a transfer that is done stays done. -/
theorem waitresp_le (hr : bridgeTransfers.IsRun r w) {n m : Nat}
    (hb : ∀ k, n ≤ k → (r k).1.bGo (w k) = false) (h : n ≤ m) :
    ((r n).1.wAddrRespStatus = .waitresp → (r m).1.wAddrRespStatus = .waitresp) ∧
      ((r n).1.wDataRespStatus = .waitresp → (r m).1.wDataRespStatus = .waitresp) := by
  induction m, h using Nat.le_induction with
  | base => exact ⟨id, id⟩
  | succ m hm ih =>
    rw [state_step hr]
    exact ⟨fun h => wAddrRespStatus_next (ih.1 h) (hb m hm),
      fun h => wDataRespStatus_next (ih.2 h) (hb m hm)⟩

/-- The address and the data of a store are both transferred, in any order. -/
theorem exists_bready (hr : bridgeTransfers.IsRun r w) (hinv : ∀ n, Inv (r n)) (hf : Fair r w)
    {n : Nat} {st : Store} {a c : Bool} (h : Writing (r n).1 none (some st) a c) :
    ∃ m, n ≤ m ∧ (r m).1.bready = true := by
  by_contra hnone
  have hb : ∀ k, n ≤ k → (r k).1.bGo (w k) = false := by
    intro k hk
    rw [← Bool.not_eq_true]
    intro hgo
    rw [bGo, Bool.and_eq_true] at hgo
    exact hnone ⟨k, hk, hgo.1⟩
  have hcomp : (r n).1.wReqStatus = .comp := by
    have hne : (r n).1.wReqStatus ≠ .incomp := fun h0 => by simpa using h.req_none h0
    rw [wReqStatus] at hne ⊢
    split at hne
    · exact absurd rfl hne
    · exact if_neg ‹_›
  obtain ⟨h3, h4⟩ : (r n).1.wAddrRespStatus = respStatus a ∧
      (r n).1.wDataRespStatus = respStatus c := by
    cases h with
    | sending _ _ _ h3 h4 => exact ⟨h3, h4⟩
  have haddr : ∃ p, n ≤ p ∧ (r p).1.wAddrRespStatus = .waitresp := by
    cases a with
    | true => exact ⟨n, Nat.le_refl n, h3⟩
    | false =>
      have hv : (r n).1.awvalid = true := by simp [awvalid, hcomp, h3, respStatus]
      obtain ⟨p, hp, hvalid, hready⟩ := exists_taken (fun m => (r m).1.awvalid = true)
        (fun m => (w m).awready = true) hv
        (fun m _ hm hnr => by
          show (r (m + 1)).1.awvalid = true
          obtain ⟨done, cur, req, a, c, hwrites⟩ := (hinv m).writes
          rw [state_step hr]
          exact awvalid_next hwrites.writing hm (by simpa using hnr))
        (hf.awready n hv)
      refine ⟨p + 1, by omega, ?_⟩
      have hgo : (r p).1.awGo (w p) = true := by rw [awGo, hvalid, hready]; rfl
      rw [state_step hr]
      simp [next, hgo]
  have hdata : ∃ p, n ≤ p ∧ (r p).1.wDataRespStatus = .waitresp := by
    cases c with
    | true => exact ⟨n, Nat.le_refl n, h4⟩
    | false =>
      have hv : (r n).1.wvalid = true := by simp [wvalid, hcomp, h4, respStatus]
      obtain ⟨p, hp, hvalid, hready⟩ := exists_taken (fun m => (r m).1.wvalid = true)
        (fun m => (w m).wready = true) hv
        (fun m _ hm hnr => by
          show (r (m + 1)).1.wvalid = true
          obtain ⟨done, cur, req, a, c, hwrites⟩ := (hinv m).writes
          rw [state_step hr]
          exact wvalid_next hwrites.writing hm (by simpa using hnr))
        (hf.wready n hv)
      refine ⟨p + 1, by omega, ?_⟩
      have hgo : (r p).1.wGo (w p) = true := by rw [wGo, hvalid, hready]; rfl
      rw [state_step hr]
      simp [next, hgo]
  obtain ⟨p, hp, hp'⟩ := haddr
  obtain ⟨q, hq, hq'⟩ := hdata
  have h3' := (waitresp_le hr (fun k hk => hb k (by omega)) (Nat.le_max_left p q)).1 hp'
  have h4' := (waitresp_le hr (fun k hk => hb k (by omega)) (Nat.le_max_right p q)).2 hq'
  refine hnone ⟨max p q, by omega, ?_⟩
  rw [bready, wRespStatus_of_eq h3' h4']
  rfl

/-- While a store lacks its response, one more is taken. -/
theorem exists_ackStoreGo_of_lt (hr : bridgeTransfers.IsRun r w) (hinv : ∀ n, Inv (r n))
    (hf : Fair r w) {n : Nat}
    (h : (fromSource .store (r n).2.sent).length < (stores (r n).2.accepted).length) :
    ∃ m, n ≤ m ∧ (r m).1.ackStoreGo (w m) = true := by
  obtain ⟨done, cur, req, a, c, hwrites⟩ := (hinv n).writes
  rw [hwrites.out_eq, hwrites.split] at h
  have hwriting := hwrites.writing
  cases cur with
  | none =>
    cases req with
    | none => simp at h
    | some st =>
      obtain ⟨p, hp, hready⟩ := exists_bready hr hinv hf hwriting
      obtain ⟨m, hm, hs⟩ := exists_ackStoreGo_of_bready hr hinv hf hready
      exact ⟨m, by omega, hs⟩
  | some cur =>
    cases hwriting with
    | answering hx _ _ h3 h4 =>
      obtain rfl | rfl := hx
      · exact exists_ackStoreGo_of_bready hr hinv hf (by simp [bready, wRespStatus_of_eq h3 h4])
      · exact exists_ackStoreGo hr hinv hf (by simp [wRespVal, wRespStatus_of_eq h3 h4])

theorem storeOut_le (hr : bridgeTransfers.IsRun r w) {n m : Nat} (h : n ≤ m) :
    fromSource .store (r n).2.sent <+: fromSource .store (r m).2.sent := by
  refine prefix_of_le (f := fun k => fromSource .store (r k).2.sent) (fun k => ?_) h
  rw [sent_step hr, fromSource_store, storeOutNext]
  split
  · exact List.prefix_append _ _
  · exact List.prefix_refl _

/-- Every store is answered. -/
theorem eventually_stored (hr : bridgeTransfers.IsRun r w) (hinv : ∀ n, Inv (r n))
    (hok : ∀ n, Served (r n) (w n)) (hf : Fair r w) (n : Nat) :
    ∃ m, n ≤ m ∧ (stores (r n).2.accepted).map storeAddr <+: (r m).2.aw ∧
      (stores (r n).2.accepted).map storeData <+: (r m).2.w ∧
      (stores (r n).2.accepted).map storeResponse <+: fromSource .store (r m).2.sent := by
  obtain ⟨m, hm, hlen⟩ := exists_ge (f := fun m => (fromSource .store (r m).2.sent).length)
    (k := (stores (r n).2.accepted).length) (n := n) (by
      intro m hm hlt
      have hmono := (loads_le hr hinv hok hm).2.length_le
      obtain ⟨p, hp, hgo⟩ := exists_ackStoreGo_of_lt hr hinv hf (n := m) (by omega)
      refine ⟨p + 1, by omega, ?_⟩
      have hle := (storeOut_le hr hp).length_le
      rw [sent_step hr, fromSource_store, storeOutNext, if_pos hgo, List.length_append]
      exact Nat.lt_succ_of_le hle)
  refine ⟨m, hm, ?_⟩
  obtain ⟨done, cur, req, a, c, hwrites⟩ := (hinv m).writes
  have hdone : stores (r n).2.accepted <+: done := by
    refine List.prefix_of_prefix_length_le (loads_le hr hinv hok hm).2 ?_ ?_
    · rw [hwrites.split, List.append_assoc]
      exact List.prefix_append _ _
    · rwa [hwrites.out_eq, List.length_map] at hlen
  refine ⟨?_, ?_, ?_⟩
  · rw [hwrites.aw_eq, List.append_assoc]
    exact (hdone.trans (List.prefix_append _ _)).map storeAddr
  · rw [hwrites.w_eq, List.append_assoc]
    exact (hdone.trans (List.prefix_append _ _)).map storeData
  · rw [hwrites.out_eq]
    exact hdone.map storeResponse

end Runs

end AxiBridge

/-- Every load and every store is transferred and answered at some time. -/
structure Completes (r : Nat → AxiBridge × Transfers) : Prop where
  loads : ∀ n, ∃ m, n ≤ m ∧ (loads (r n).2.accepted).map loadAddr <+: (r m).2.ar ∧
    (loads (r n).2.accepted).length ≤ (r m).2.r.length ∧
    (List.zipWith loadResponse (loads (r n).2.accepted) (r m).2.r).flatten <+:
      fromSource .load (r m).2.sent
  stores : ∀ n, ∃ m, n ≤ m ∧ (stores (r n).2.accepted).map storeAddr <+: (r m).2.aw ∧
    (stores (r n).2.accepted).map storeData <+: (r m).2.w ∧
    (stores (r n).2.accepted).map storeResponse <+: fromSource .store (r m).2.sent

/-- In every run each request has its own transfers and its own whole response and the buffers in use
are kept, and where the channels are answered every request is. -/
theorem transactions_correspond {r : Nat → AxiBridge × Transfers} {w : Nat → AxiInput}
    (hr : bridgeTransfers.IsRun r w) (h0 : bridgeTransfers.init (r 0))
    (hok : ∀ n, Served (r n) (w n)) :
    (∀ n, Corresponds (r n)) ∧ (∀ n, AxiBridge.Kept (r n).1 (r (n + 1)).1) ∧
      (Fair r w → Completes r) := by
  have hreach := hr.reachable (.init h0) hok
  have hinv : ∀ n, AxiBridge.Inv (r n) := fun n => inv_of_reachable (hreach n)
  refine ⟨fun n => corresponds_of_reachable (hreach n), ?_, ?_⟩
  · intro n
    rw [AxiBridge.state_step hr]
    exact AxiBridge.kept_next
  · intro hf
    exact ⟨AxiBridge.eventually_loaded hr hinv hok hf, AxiBridge.eventually_stored hr hinv hok hf⟩

/-- A load of `0x40` and a store of `7` to `0x80`, whose data is accepted before its address. -/
def loadAndStore (n : Nat) : AxiInput where
  val := n < 7
  data :=
    match n with
    | 0 => 0#34 ++ 2#8 ++ 31#8 ++ 5#8 ++ 0#6
    | 1 => 0#8 ++ 64#40 ++ 0#5 ++ 4#3 ++ 0#8
    | 3 => 0#34 ++ 3#8 ++ 2#8 ++ 9#8 ++ 0#6
    | 4 => 0#8 ++ 128#40 ++ 0#5 ++ 4#3 ++ 0#8
    | 6 => 7
    | _ => 1#34 ++ 0#30
  rdy := true
  awready := 9 ≤ n
  wready := true
  arready := true
  rdata := 3
  rresp := 0
  rvalid := true
  bresp := 0
  bvalid := true

/-- The bridge after `reset`, for the run below. -/
def bridgeStart : AxiBridge × Transfers := (.init, .init)

theorem init_bridgeStart : bridgeTransfers.init bridgeStart := ⟨rfl, rfl⟩

theorem served_loadAndStore (n : Nat) :
    Served (bridgeTransfers.trace bridgeStart loadAndStore n) (loadAndStore n) := by
  match n with
  | 0 => decide +kernel
  | 1 => decide +kernel
  | 2 => decide +kernel
  | 3 => decide +kernel
  | 4 => decide +kernel
  | 5 => decide +kernel
  | 6 => decide +kernel
  | n + 7 =>
    intro hval
    have hlt : n + 7 < 7 := of_decide_eq_true hval
    omega

theorem transactions_correspond_loadAndStore :
    Corresponds (bridgeTransfers.trace bridgeStart loadAndStore 20) ∧
      (bridgeTransfers.trace bridgeStart loadAndStore 20).2.ar = [64] ∧
      (bridgeTransfers.trace bridgeStart loadAndStore 20).2.aw = [128] ∧
      (bridgeTransfers.trace bridgeStart loadAndStore 20).2.w = [(7, 255)] ∧
      (bridgeTransfers.trace bridgeStart loadAndStore 20).2.sent.length = 10 :=
  ⟨(transactions_correspond (Machine.isRun_trace _ _) init_bridgeStart served_loadAndStore).1 20,
    by decide +kernel⟩

end Piton.Chipset
