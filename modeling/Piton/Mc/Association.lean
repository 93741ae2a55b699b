import Piton.Mc.Entries
import Piton.Mc.Responses

/-! Association in the memory bridge: commands, write data, lines and responses belong to the requests
in the order in which they arrived. -/

namespace Piton.Mc

open Hw Piton.Noc

variable {p : Config}

/-! ### The requests that a pointer has passed -/

/-- The first `n` requests. -/
def upTo (y : State p × History p) (n : Nat) : List (List Flit) :=
  (requests y.2.accepted).take n

section Passed

variable {y : State p × History p} {e : Input p} {m m' n : Nat}

theorem loads_eq (qs : List (List Flit)) :
    loads qs = (qs.filter fun q => isLoad (kind q)).length :=
  List.countP_eq_length_filter

theorem upTo_succ (h : RingInv y) (hn : n < y.2.nIn) :
    upTo y (n + 1) = upTo y n ++ [pkt y.2.accepted n] := by
  rw [h.parse.nIn_eq] at hn
  rw [upTo, upTo, List.take_succ_eq_append_getElem hn, pkt_of_lt hn]

theorem upTo_all (h : RingInv y) (hn : y.2.nIn ≤ n) : upTo y n = requests y.2.accepted :=
  List.take_of_length_le (by rw [← h.parse.nIn_eq]; exact hn)

/-- The requests up to a place that is complete do not change. -/
theorem upTo_next (h : RingInv y) (ho : Obeys y e) (hc : Clear y.1 e) (hn : n ≤ y.2.nIn) :
    upTo ((recorded p).step y e) n = upTo y n := by
  rw [upTo, upTo, requests_next h.parse ho hc]
  split
  · exact List.take_append_of_le_length (by rw [← h.parse.nIn_eq]; exact hn)
  · rfl

/-- One more clock edge and one more place, of the requests of a kind `k`: a place that is not
complete is of another kind. -/
theorem filter_upTo_next (h : RingInv y) (ho : Obeys y e) (hc : Clear y.1 e)
    {k : BitVec 8 → Bool}
    (hm : m ≤ y.2.nIn ∨ (m = y.2.nIn + 1 ∧ Filling y.1 ∧ k (kind (cur y.2.accepted)) = false)) :
    ((upTo ((recorded p).step y e) m).filter fun q => k (kind q)) =
      (upTo y m).filter fun q => k (kind q) := by
  obtain hm | ⟨rfl, hf, hk⟩ := hm
  · rw [upTo_next h ho hc hm]
  · rw [upTo_all h (Nat.le_succ _), upTo, requests_next h.parse ho hc]
    cases hcomp : completes y.1 e with
    | true =>
      have hq : k (kind (cur y.2.accepted ++ e.flitIn.toList)) = false := by
        rw [kind, hdr_append (h.parse.cur_ne_nil hf), ← kind, hk]
      have hlen : (requests y.2.accepted ++ [cur y.2.accepted ++ e.flitIn.toList]).length ≤
          y.2.nIn + 1 := by
        rw [List.length_append, ← h.parse.nIn_eq]
        exact Nat.le_refl _
      rw [if_pos rfl, List.take_of_length_le hlen, List.filter_append, List.filter_singleton, hq]
      simp
    | false =>
      have hlen : (requests y.2.accepted).length ≤ y.2.nIn + 1 := by
        rw [← h.parse.nIn_eq]
        exact Nat.le_succ _
      rw [if_neg Bool.false_ne_true, List.take_of_length_le hlen]

/-- A place is passed that is of another kind. -/
theorem filter_upTo_skip (h : RingInv y) {k : BitVec 8 → Bool}
    (hm : m < y.2.nIn ∨ (m = y.2.nIn ∧ Filling y.1))
    (hk : k (kind (pkt y.2.accepted m)) = false) :
    ((upTo y (m + 1)).filter fun q => k (kind q)) = (upTo y m).filter fun q => k (kind q) := by
  obtain hm | ⟨rfl, -⟩ := hm
  · rw [upTo_succ h hm, List.filter_append, List.filter_singleton, hk]
    simp
  · rw [upTo_all h (Nat.le_refl _), upTo_all h (Nat.le_succ _)]

theorem nOut_le_next : y.2.nOut ≤ ((recorded p).step y e).2.nOut := by
  rw [nOut_next]
  split <;> omega

theorem pkt_mem_window (h : RingInv y) (hn : y.2.nOut ≤ n) (hn' : n < y.2.nIn) :
    y.2.nOut ≤ n ∧ n ≤ y.2.nOut + 15 :=
  ⟨hn, by have := h.pointers.in_le; omega⟩

end Passed

/-! ### Commands -/

/-- The command register sends the commands of the requests that its pointer has passed. -/
structure CmdInv (y : State p × History p) : Prop where
  split : Split commandPart p.ratio ((upTo y y.2.nCmd).map (command p)) y.2.issued y.1.appEnReg
    (y.1.appCmdReg, y.1.clAddrReg) y.1.cmdPart
  pend : y.1.cmdPending = true → y.1.appEnReg = true

section CmdStep

variable {y : State p × History p} {e : Input p}

theorem cmd_step (h : RingInv y) (hi : CmdInv y) (ho : Obeys y e) (hc : Clear y.1 e) :
    CmdInv ((recorded p).step y e) where
  split := by
    have hstep := Splitter.split_step (s := cmdSplitter y.1) (a := e.appRdy) hi.split
      p.ratio_pos hi.pend y.1.rAppEn (appCmd y.1, clAddr y.1)
    have hitems : (if (cmdSplitter y.1).trans p.ratio e.appRdy && y.1.rAppEn then
          (upTo y y.2.nCmd).map (command p) ++ [(appCmd y.1, clAddr y.1)]
        else (upTo y y.2.nCmd).map (command p)) =
        (upTo ((recorded p).step y e) ((recorded p).step y e).2.nCmd).map (command p) := by
      have hm : ((cmdSplitter y.1).trans p.ratio e.appRdy && y.1.rAppEn) = cmdMoves y.1 e :=
        Bool.and_comm _ _
      rw [hm, nCmd_next]
      cases hmv : cmdMoves y.1 e with
      | false =>
        rw [if_neg Bool.false_ne_true, if_neg Bool.false_ne_true,
          upTo_next h ho hc h.pointers.cmd_le_in]
      | true =>
        have hlt := (cmdMoves_at h hmv).1
        have hlo := (cmd_window h).1
        have hlen : 2 ≤ (pkt y.2.accepted y.2.nCmd).length := by
          obtain ⟨-, hl⟩ | ⟨-, hl⟩ := whole_pkt h.parse hlt <;> omega
        have hcom : (appCmd y.1, clAddr y.1) = command p (pkt y.2.accepted y.2.nCmd) := by
          rw [appCmd, clAddr, h.pointers.cmd_eq, cmdBuf_eq h hlo (.inl hlt),
            h.entries.second _ hlo (Nat.le_of_lt hlt) hlen]
          rfl
        rw [if_pos rfl, if_pos rfl, upTo_next h ho hc hlt, upTo_succ h hlt, List.map_append,
          List.map_singleton, hcom]
    rw [hitems, ← cmdSplitter_next] at hstep
    exact hstep
  pend := by
    have hstep := Splitter.pending_step (s := cmdSplitter y.1) (r := p.ratio) (a := e.appRdy)
      hi.pend y.1.rAppEn (appCmd y.1, clAddr y.1)
    rwa [← cmdSplitter_next] at hstep

end CmdStep

/-! ### Lines -/

/-- The lines that have been returned are those of the loads that the pointer has passed, and the one
that is being put into its entry. -/
structure RdInv (y : State p × History p) : Prop where
  part_eq : y.1.rdPart = y.2.returned.length % p.ratio
  parts : ∀ k, k < y.1.rdPart →
    y.1.appRdDataPart k = y.2.returned.getD (y.2.returned.length / p.ratio * p.ratio + k) 0
  count : (lines p y.2.returned).length =
    loads (upTo y y.2.nRcv) + y.1.appRdDataValidReg.toNat
  line : y.1.appRdDataValidReg = true →
    y.1.appRdDataReg = (lines p y.2.returned).getD (loads (upTo y y.2.nRcv)) 0

section RdStep

variable {y : State p × History p} {e : Input p}

theorem lines_next (hi : RdInv y) : lines p ((recorded p).step y e).2.returned =
    lines p y.2.returned ++
      if rdLast y.1 e then [appRdDataTrans y.1 (e.appRdData.getD 0)] else [] := by
  show lines p (y.2.returned ++ e.appRdData.toList) = _
  cases hd : e.appRdData with
  | none => simp [rdLast, hd]
  | some d =>
    rw [Option.toList_some, lines_snoc, rdLast, hd, hi.part_eq]
    by_cases hl : y.2.returned.length % p.ratio = p.ratio - 1
    · have hlast : lastLine y.2.returned d = appRdDataTrans y.1 d := by
        have hdm := Nat.div_add_mod' y.2.returned.length p.ratio
        refine joinParts_congr fun k hk => ?_
        by_cases hkl : k = p.ratio - 1
        · rw [if_pos hkl, hkl, ← hl, hdm, getD_snoc_length]
        · rw [if_neg hkl, hi.parts k (by rw [hi.part_eq]; omega)]
          exact getD_snoc_of_lt (by omega)
      simp [hl, hlast]
    · simp [hl]

theorem loads_rcv_next (h : RingInv y) (ho : Obeys y e) (hc : Clear y.1 e) :
    loads (upTo ((recorded p).step y e) ((recorded p).step y e).2.nRcv) =
      loads (upTo y y.2.nRcv) + y.1.appRdDataValidReg.toNat := by
  rw [loads_eq, loads_eq, nRcv_next]
  cases hm : rcvMoves y.1 with
  | false =>
    have hv : y.1.appRdDataValidReg = false := by
      rw [← Bool.not_eq_true]
      intro hv
      simp [rcvMoves, hv, h.lineEnd] at hm
    rw [if_neg Bool.false_ne_true, filter_upTo_next h ho hc, hv]
    · rfl
    · obtain hr | ⟨hr, hf, hk⟩ := h.pointers.rcv_le
      · exact .inl hr
      · refine .inr ⟨hr, hf, ?_⟩
        rw [← Bool.not_eq_true]
        intro hl
        rw [isLoad_not_isStore hl] at hk
        cases hk
  | true =>
    rw [if_pos rfl]
    obtain ⟨hlt, hk, -, hv⟩ | ⟨hlt, hk⟩ := rcvMoves_at h hc hm
    · have hl := (whole_pkt h.parse hlt).isLoad_iff.2 hk
      rw [upTo_next h ho hc hlt, upTo_succ h hlt, List.filter_append, List.length_append, hv]
      simp [hl]
    · have hl : isLoad (kind (pkt y.2.accepted y.2.nRcv)) = false := by
        rw [← Bool.not_eq_true]
        intro hl
        rw [isLoad_not_isStore hl] at hk
        cases hk
      have hv : y.1.appRdDataValidReg = false := by
        rw [← Bool.not_eq_true]
        intro hv
        rw [(line_at h hc hv).2.1] at hk
        cases hk
      rw [filter_upTo_next h ho hc, filter_upTo_skip h hlt hl, hv]
      · rfl
      · obtain hlt | ⟨heq, hf⟩ := hlt
        · exact .inl hlt
        · rw [heq, pkt_nIn h.parse] at hl
          exact .inr ⟨by rw [heq], hf, hl⟩

theorem rd_step (h : RingInv y) (hi : RdInv y) (ho : Obeys y e) (hc : Clear y.1 e) :
    RdInv ((recorded p).step y e) := by
  have hdm := Nat.div_add_mod' y.2.returned.length p.ratio
  have hlt := Nat.mod_lt y.2.returned.length p.ratio_pos
  have hpart := hi.part_eq
  have hret : ((recorded p).step y e).2.returned = y.2.returned ++ e.appRdData.toList := rfl
  have hrd : ((recorded p).step y e).1.rdPart =
      if e.appRdData.isSome then partNext p y.1.rdPart else y.1.rdPart := rfl
  have hvalid : ((recorded p).step y e).1.appRdDataValidReg = rdLast y.1 e := rfl
  have hlines := lines_next (e := e) hi
  refine ⟨?_, ?_, ?_, ?_⟩
  · rw [hrd, hret]
    cases hd : e.appRdData with
    | none => simpa using hpart
    | some d =>
      simp only [Option.isSome_some, if_true, Option.toList_some, List.length_append,
        List.length_singleton, partNext]
      rw [hpart]
      split
      next hl =>
        have h1 : y.2.returned.length + 1 = (y.2.returned.length / p.ratio + 1) * p.ratio := by
          rw [Nat.succ_mul]
          omega
        rw [h1, Nat.mul_mod_left]
      next hl =>
        rw [← Nat.mod_add_mod, Nat.mod_eq_of_lt (a := y.2.returned.length % p.ratio + 1) (by omega)]
  · intro k hk
    rw [hrd] at hk
    show (if y.1.rdPart = k then e.appRdData.getD 0 else y.1.appRdDataPart k) = _
    rw [hret]
    cases hd : e.appRdData with
    | none =>
      rw [hd] at hk
      simp only [Option.isSome_none, Bool.false_eq_true, if_false] at hk
      rw [if_neg (Nat.ne_of_gt hk), hi.parts k hk, Option.toList_none, List.append_nil]
    | some d =>
      rw [hd] at hk
      simp only [Option.isSome_some, if_true, partNext] at hk
      split at hk
      · exact absurd hk (Nat.not_lt_zero _)
      next hl =>
        have hdiv : (y.2.returned ++ [d]).length / p.ratio = y.2.returned.length / p.ratio := by
          rw [List.length_append, List.length_singleton]
          apply Nat.div_eq_of_lt_le
          · omega
          · rw [Nat.succ_mul]
            omega
        rw [Option.toList_some, hdiv]
        split
        next heq =>
          rw [← heq, hpart, hdm, getD_snoc_length]
          rfl
        next hne => rw [hi.parts k (by omega), getD_snoc_of_lt (by omega)]
  · rw [hlines, List.length_append, hi.count, loads_rcv_next h ho hc, hvalid]
    cases rdLast y.1 e <;> rfl
  · intro hv
    rw [hvalid] at hv
    rw [hlines, hv, if_pos rfl, loads_rcv_next h ho hc, ← hi.count, getD_snoc_length]
    rfl

end RdStep

/-! ### The data of the entries -/

/-- A store's data is in its entry, and a load's line once it has come. -/
structure DataInv (y : State p × History p) : Prop where
  store : ∀ n, y.2.nOut ≤ n → n < y.2.nIn → isStore (kind (pkt y.2.accepted n)) = true →
    y.1.pktDataBuf (idx n) = storeData (pkt y.2.accepted n)
  load : ∀ n, y.2.nOut ≤ n → n < y.2.nIn → isStore (kind (pkt y.2.accepted n)) = false →
    n < y.2.nRcv →
    y.1.pktDataBuf (idx n) = (lines p y.2.returned).getD (loads (upTo y n)) 0
  incoming : Filling y.1 → ∀ j, 3 ≤ j → j < (cur y.2.accepted).length →
    y.1.inDataBuf (BitVec.ofNat 4 (10 - j)) = (cur y.2.accepted).getD j 0

section DataStep

variable {y : State p × History p} {e : Input p} {n : Nat}

theorem loads_upTo_le {a b : Nat} (hab : a ≤ b) : loads (upTo y a) ≤ loads (upTo y b) :=
  (List.take_prefix_take_left hab).sublist.countP_le

/-- The line of a load that the pointer has passed has been returned. -/
theorem loads_lt (h : RingInv y) (hi : RdInv y) (hn : n < y.2.nIn) (hr : n < y.2.nRcv)
    (hk : isStore (kind (pkt y.2.accepted n)) = false) :
    loads (upTo y n) < (lines p y.2.returned).length := by
  have hl := (whole_pkt h.parse hn).isLoad_iff.2 hk
  have h1 : loads (upTo y (n + 1)) = loads (upTo y n) + 1 := by
    rw [upTo_succ h hn, loads_append, loads_cons, hl]
    rfl
  have h2 := loads_upTo_le (y := y) (show n + 1 ≤ y.2.nRcv from hr)
  rw [hi.count]
  omega

theorem getD_lines_next (hi : RdInv y) {i : Nat} (hlt : i < (lines p y.2.returned).length) :
    (lines p ((recorded p).step y e).2.returned).getD i 0 =
      (lines p y.2.returned).getD i 0 := by
  rw [lines_next hi, List.getD_eq_getElem?_getD, List.getElem?_append_left hlt,
    ← List.getD_eq_getElem?_getD]

/-- The packet that goes on has one more flit when one is taken. -/
theorem cur_next (h : RingInv y) (ho : Obeys y e) (hc : Clear y.1 e)
    (hcomp : completes y.1 e = false) :
    cur ((recorded p).step y e).2.accepted = cur y.2.accepted ++ taken y.1 e := by
  have hn : ((recorded p).step y e).2.nIn = y.2.nIn := by rw [nIn_next, hcomp]; rfl
  rw [← pkt_incoming h ho hc, ← pkt_nIn (parse_step h.parse ho hc), hn]

theorem inDataBuf_step (h : RingInv y) (hi : DataInv y) (ho : Obeys y e) (hc : Clear y.1 e)
    (hcomp : completes y.1 e = false) {j : Nat} (hj : 3 ≤ j)
    (hlt : j < (cur ((recorded p).step y e).2.accepted).length) :
    ((recorded p).step y e).1.inDataBuf (BitVec.ofNat 4 (10 - j)) =
      (cur ((recorded p).step y e).2.accepted).getD j 0 := by
  rw [cur_next h ho hc hcomp] at hlt ⊢
  show writeFlit y.1 e y.1.inDataBuf .acceptData y.1.remainingFlits id _ = _
  have hfill : 1 ≤ (cur y.2.accepted).length → Filling y.1 := by
    intro hl
    obtain hf | hw := filling_or y.1
    · exact hf
    · rw [cur_eq_nil (h.parse.between hw)] at hl
      exact absurd hl (by decide)
  have hold : ∀ hlt' : j < (cur y.2.accepted).length,
      y.1.inDataBuf (BitVec.ofNat 4 (10 - j)) = (cur y.2.accepted).getD j 0 :=
    fun hlt' => hi.incoming (hfill (by omega)) j hj hlt'
  by_cases hs : y.1.accState = .stalled
  · rw [taken, if_pos hs, List.append_nil] at hlt ⊢
    rw [← hold hlt]
    cases he : e.flitIn <;> simp [writeFlit, he, hs]
  · rw [taken, if_neg hs] at hlt ⊢
    cases he : e.flitIn with
    | none =>
      rw [he] at hlt
      rw [Option.toList_none, List.append_nil] at hlt ⊢
      rw [← hold hlt]
      simp [writeFlit, he]
    | some f =>
      rw [he, Option.toList_some, List.length_append, List.length_singleton] at hlt
      have hf := hfill (by omega)
      obtain ⟨-, -, hrem⟩ := h.parse.inside hf
      by_cases hlt' : j < (cur y.2.accepted).length
      · rw [Option.toList_some, getD_snoc_of_lt hlt', ← hold hlt']
        -- the flit goes to a lower place
        have hne : BitVec.ofNat 4 (10 - j) ≠ y.1.remainingFlits := by
          rw [hrem]
          intro heq
          have := congrArg BitVec.toNat heq
          simp only [BitVec.toNat_ofNat] at this
          have hd := (h.parse.inside hf).1
          obtain ⟨-, hl⟩ | ⟨-, hl⟩ := h.parse.lacks hf <;> omega
        simp [writeFlit, he, hne]
      · obtain rfl : j = (cur y.2.accepted).length := by omega
        have ha : y.1.accState = .acceptData := by
          obtain ⟨h1, h2, h3⟩ := h.parse.length_iff hs
          cases ha : y.1.accState with
          | acceptW1 => have := h1.1 ha; omega
          | acceptW2 => have := h2.1 ha; omega
          | acceptW3 => have := h3.1 ha; omega
          | acceptData => rfl
          | stalled => exact absurd ha hs
        have hidx : BitVec.ofNat 4 (10 - (cur y.2.accepted).length) = y.1.remainingFlits := by
          rw [hrem]
          have h11 : (cur y.2.accepted).length + due Flit.len y.2.accepted = 11 := by
            obtain ⟨-, hl⟩ | ⟨-, hl⟩ := h.parse.lacks hf
            · have := (h.parse.inside hf).1
              omega
            · exact hl
          exact congrArg (BitVec.ofNat 4) (by omega)
        rw [Option.toList_some, getD_snoc_length]
        simp [writeFlit, he, ha, hidx]

/-- The line of a store when its last flit comes in. -/
theorem inData_eq (hi : DataInv y) (hf : Filling y.1)
    (hl : (cur y.2.accepted).length = 10) (f : Flit) :
    inData y.1 f = storeData (cur y.2.accepted ++ [f]) := by
  have hj : ∀ j, 3 ≤ j → j < 10 →
      y.1.inDataBuf (BitVec.ofNat 4 (10 - j)) = (cur y.2.accepted ++ [f]).getD j 0 := by
    intro j h3 h10
    rw [getD_snoc_of_lt (by omega)]
    exact hi.incoming hf j h3 (by omega)
  have hlast : (cur y.2.accepted ++ [f]).getD 10 0 = f := by
    rw [← hl]
    exact getD_snoc_length
  rw [storeData, hlast, ← hj 3 (by decide) (by decide), ← hj 4 (by decide) (by decide),
    ← hj 5 (by decide) (by decide), ← hj 6 (by decide) (by decide),
    ← hj 7 (by decide) (by decide), ← hj 8 (by decide) (by decide),
    ← hj 9 (by decide) (by decide)]
  rfl

/-- The data of an entry with a request changes when its line comes in. -/
theorem pktDataBuf_next (h : RingInv y) (hlo : y.2.nOut ≤ n) (hlt : n < y.2.nIn) :
    ((recorded p).step y e).1.pktDataBuf (idx n) =
      if n = y.2.nRcv ∧ y.1.appRdDataValidReg = true then y.1.appRdDataReg
      else y.1.pktDataBuf (idx n) := by
  have hp := h.pointers
  have hn := pkt_mem_window h hlo hlt
  have hin : idx n ≠ idx y.2.nIn := fun heq => by
    have := (idx_iff (in_window h) hn).1 heq
    omega
  show pktDataBufNext y.1 e (idx n) = _
  rw [pktDataBufNext, hp.in_eq, hp.rcv_eq]
  simp only [hin, false_and, if_false, idx_iff (rcv_window h) hn]
  cases e.flitIn <;> rfl

theorem data_step (h : RingInv y) (hr : RdInv y) (hi : DataInv y) (ho : Obeys y e)
    (hc : Clear y.1 e) : DataInv ((recorded p).step y e) := by
  have hlo' : ∀ {n}, ((recorded p).step y e).2.nOut ≤ n → y.2.nOut ≤ n :=
    fun hlo => Nat.le_trans nOut_le_next hlo
  have hnew : ∀ {n}, n < ((recorded p).step y e).2.nIn → ¬ n < y.2.nIn →
      completes y.1 e = true ∧ n = y.2.nIn := by
    intro n hlt hold
    have hcomp : completes y.1 e = true := by
      by_contra hcomp
      rw [nIn_next, if_neg hcomp] at hlt
      exact hold hlt
    rw [nIn_next, if_pos hcomp] at hlt
    exact ⟨hcomp, by omega⟩
  refine ⟨?_, ?_, ?_⟩
  · intro n hlo hlt hk
    by_cases hold : n < y.2.nIn
    · rw [pkt_next h.parse ho hc hold] at hk ⊢
      rw [pktDataBuf_next h (hlo' hlo) hold, if_neg]
      · exact hi.store n (hlo' hlo) hold hk
      · rintro ⟨rfl, hv⟩
        rw [(line_at h hc hv).2.1] at hk
        cases hk
    · obtain ⟨hcomp, rfl⟩ := hnew hlt hold
      have hf := filling_of_completes hcomp
      rw [pkt_completed h.parse ho hc hcomp] at hk ⊢
      obtain ⟨f, he⟩ : ∃ f, e.flitIn = some f := by
        cases he : e.flitIn with
        | none => rw [completes_none he] at hcomp; cases hcomp
        | some f => exact ⟨f, rfl⟩
      rw [kind, hdr_append (h.parse.cur_ne_nil hf), ← kind] at hk
      have hd := ((completes_iff h.parse he).1 hcomp).2
      have hl : (cur y.2.accepted).length = 10 := by
        obtain ⟨hl, -⟩ | ⟨-, hl⟩ := h.parse.lacks hf
        · rw [isLoad_not_isStore hl] at hk
          cases hk
        · omega
      have ha : y.1.accState = .acceptData ∧ y.1.remainingFlits = 0 := by
        have h3 := (h.parse.length_iff (filling_ne_stalled hf)).2.2
        simp only [completes, Bool.and_eq_true, Bool.or_eq_true, decide_eq_true_iff] at hcomp
        obtain ⟨⟨-, ha | ha⟩, hrem⟩ := hcomp
        · have := h3.1 ha
          omega
        · exact ⟨ha, hrem⟩
      rw [he, Option.toList_some, ← inData_eq hi hf hl]
      show pktDataBufNext y.1 e (idx y.2.nIn) = _
      rw [pktDataBufNext, he, h.pointers.in_eq]
      exact if_pos ⟨rfl, ha⟩
  · intro n hlo hlt hk hrcv
    by_cases hold : n < y.2.nIn
    · rw [pkt_next h.parse ho hc hold] at hk
      rw [upTo_next h ho hc (Nat.le_of_lt hold), pktDataBuf_next h (hlo' hlo) hold]
      by_cases hv : n = y.2.nRcv ∧ y.1.appRdDataValidReg = true
      · have hcount := hr.count
        rw [if_pos hv, hr.line hv.2, hv.1, getD_lines_next hr]
        rw [hcount, hv.2]
        exact Nat.lt_succ_self _
      · have hrcv' : n < y.2.nRcv := by
          obtain hx | hx := (rcv_next h hc hk).1 hrcv
          · exact hx
          · exact absurd hx hv
        rw [if_neg hv, getD_lines_next hr (loads_lt h hr hold hrcv' hk)]
        exact hi.load n (hlo' hlo) hold hk hrcv'
    · obtain ⟨hcomp, rfl⟩ := hnew hlt hold
      have hf := filling_of_completes hcomp
      rw [pkt_completed h.parse ho hc hcomp, kind, hdr_append (h.parse.cur_ne_nil hf), ← kind] at hk
      exact absurd hrcv (not_rcv_incoming h hc hk)
  · intro hf j hj hlt
    refine inDataBuf_step h hi ho hc ?_ hj hlt
    rw [← Bool.not_eq_true]
    intro hcomp
    -- a completed packet leaves nothing behind
    have hn : ((recorded p).step y e).2.nIn = y.2.nIn + 1 := by rw [nIn_next, if_pos hcomp]
    rw [← pkt_nIn (parse_step h.parse ho hc), hn, cur_completed h ho hc hcomp] at hlt
    exact absurd hlt (Nat.not_lt_zero _)

end DataStep

/-! ### Write data -/

/-- The data register sends the lines of the stores that its pointer has passed; the store at the
pointer may be in the registers before it. -/
structure WdfInv (y : State p × History p) : Prop where
  split : Split (lineParts p) p.ratio ((stores (upTo y y.2.nWdf)).map storeData) y.2.written
    y.1.appWdfWrenReg y.1.appWdfDataReg y.1.wdfPart
  r : y.1.appWdfWrenR = true → y.1.appWdfDataR = storeData (pkt y.2.accepted y.2.nWdf)
  rr : y.1.appWdfWrenRR = true → y.1.appWdfDataRR = storeData (pkt y.2.accepted y.2.nWdf)

section WdfStep

variable {y : State p × History p} {e : Input p}

theorem stores_wdf_next (h : RingInv y) (ho : Obeys y e) (hc : Clear y.1 e) :
    stores (upTo ((recorded p).step y e) ((recorded p).step y e).2.nWdf) =
      if y.1.appWdfWrenRR then stores (upTo y y.2.nWdf) ++ [pkt y.2.accepted y.2.nWdf]
      else stores (upTo y y.2.nWdf) := by
  rw [nWdf_next, stores, stores]
  cases hrr : y.1.appWdfWrenRR with
  | true =>
    obtain ⟨hlt, hk⟩ := h.pipeline.store (.inr hrr)
    rw [wdfMoves_of_rr h hrr, if_pos rfl, if_pos rfl, upTo_next h ho hc hlt, upTo_succ h hlt,
      List.filter_append, List.filter_singleton, hk]
    rfl
  | false =>
    rw [if_neg Bool.false_ne_true]
    cases hm : wdfMoves y.1 e with
    | false =>
      rw [if_neg Bool.false_ne_true]
      refine filter_upTo_next h ho hc ?_
      obtain hw | ⟨hw, hf, hk⟩ := h.pointers.wdf_le
      · exact .inl hw
      · exact .inr ⟨hw, hf, isLoad_not_isStore hk⟩
    | true =>
      rw [if_pos rfl]
      obtain ⟨-, hrr'⟩ | ⟨hlt, hk⟩ := wdfMoves_at h hc hm
      · rw [hrr] at hrr'
        cases hrr'
      · have hs := isLoad_not_isStore hk
        rw [filter_upTo_next h ho hc, filter_upTo_skip h hlt hs]
        obtain hlt | ⟨heq, hf⟩ := hlt
        · exact .inl hlt
        · rw [heq, pkt_nIn h.parse] at hs
          exact .inr ⟨by rw [heq], hf, hs⟩

theorem wdf_step (h : RingInv y) (hd : DataInv y) (hi : WdfInv y) (ho : Obeys y e)
    (hc : Clear y.1 e) : WdfInv ((recorded p).step y e) := by
  have hstay : wdfMoves y.1 e = false → y.2.nWdf < y.2.nIn →
      pkt ((recorded p).step y e).2.accepted ((recorded p).step y e).2.nWdf =
        pkt y.2.accepted y.2.nWdf := by
    intro hm hlt
    rw [nWdf_next, hm, if_neg Bool.false_ne_true, pkt_next h.parse ho hc hlt]
  refine ⟨?_, ?_, ?_⟩
  · have hstep := Splitter.split_step (s := wdfSplitter y.1) (a := e.appWdfRdy) hi.split
      p.ratio_pos h.pipeline.pend y.1.appWdfWrenRR y.1.appWdfDataRR
    have hitems : (if (wdfSplitter y.1).trans p.ratio e.appWdfRdy && y.1.appWdfWrenRR then
          (stores (upTo y y.2.nWdf)).map storeData ++ [y.1.appWdfDataRR]
        else (stores (upTo y y.2.nWdf)).map storeData) =
        (stores (upTo ((recorded p).step y e) ((recorded p).step y e).2.nWdf)).map storeData := by
      rw [stores_wdf_next h ho hc]
      cases hrr : y.1.appWdfWrenRR with
      | false => simp
      | true =>
        have ht : (wdfSplitter y.1).trans p.ratio e.appWdfRdy = true :=
          rdyTrans_of_idle h (h.pipeline.rr hrr)
        rw [ht, hi.rr hrr]
        simp
    rw [hitems, ← wdfSplitter_next] at hstep
    exact hstep
  · intro hr
    rw [wrenR_next h, Bool.and_eq_true] at hr
    obtain ⟨hlt, hk, -⟩ := wren_at h hr.1
    rw [hstay (wdfMoves_of_wren h hc (.inl hr.1)) hlt]
    show (if appWdfRdyTrans y.1 e then appWdfData y.1 else y.1.appWdfDataR) = _
    rw [if_pos hr.2, appWdfData, h.pointers.wdf_eq]
    exact hd.store _ (wdf_window h).1 hlt hk
  · intro hrr
    rw [wrenRR_next h] at hrr
    obtain ⟨-, hreg⟩ := h.pipeline.r hrr
    rw [hstay (wdfMoves_of_wren h hc (.inr hrr)) (h.pipeline.store (.inl hrr)).1]
    show (if appWdfRdyTrans y.1 e then y.1.appWdfDataR else y.1.appWdfDataRR) = _
    rw [if_pos (rdyTrans_of_idle h hreg)]
    exact hi.r hrr

end WdfStep

/-! ### Responses -/

/-- The flits that are still to be sent, and those that were, are the responses up to the one that is
being sent. -/
structure OutInv (y : State p × History p) : Prop where
  sent : y.2.sent ++ (List.range y.1.remainingFltOut.toNat).reverse.map
      (fun k => y.1.flitOutBuffer (BitVec.ofNat 4 k)) =
    responses (upTo y y.2.nOut) (lines p y.2.returned)

section OutStep

variable {y : State p × History p} {e : Input p}

theorem loads_out_le (h : RingInv y) (hr : RdInv y) :
    loads (upTo y y.2.nOut) ≤ (lines p y.2.returned).length := by
  have := loads_upTo_le (y := y) h.pointers.out_le_rcv
  rw [hr.count]
  omega

/-- The flits of the response that is loaded. -/
theorem loaded (h : RingInv y) (hd : DataInv y) (hl : loadsNext y.1 = true) :
    (List.range (remainingFltOutNext y.1 e).toNat).reverse.map
        (fun k => flitOutBufferNext y.1 (BitVec.ofNat 4 k)) =
      if isLoad (kind (pkt y.2.accepted y.2.nOut)) then
        loadReply (pkt y.2.accepted y.2.nOut)
          ((lines p y.2.returned).getD (loads (upTo y y.2.nOut)) 0)
      else storeReply (pkt y.2.accepted y.2.nOut) := by
  obtain ⟨hlt, hexp, -⟩ := loadsNext_at h hl
  have hlo := Nat.le_refl y.2.nOut
  have hle := Nat.le_of_lt hlt
  have ho : y.1.bufCurrentOut + 1 = idx y.2.nOut := by
    rw [h.pointers.out_eq, idx_succ]
    apply BitVec.eq_of_toNat_eq
    simp only [idx, BitVec.toNat_ofNat]
    omega
  have hlen : 3 ≤ (pkt y.2.accepted y.2.nOut).length := by
    obtain ⟨-, hl⟩ | ⟨-, hl⟩ := whole_pkt h.parse hlt <;> omega
  have hcmd := cmdBuf_eq h hlo (.inl hlt)
  have hw1 := (h.entries.first _ hlo hle (by omega)).2
  have hw3 := h.entries.third _ hlo hle hlen
  have hw := whole_pkt h.parse hlt
  cases hk : isLoad (kind (pkt y.2.accepted y.2.nOut)) with
  | true =>
    have hks := isLoad_not_isStore hk
    have hrcv : y.2.nOut < y.2.nRcv := by
      obtain ⟨hs, -⟩ | ⟨-, hrcv⟩ := expected_ready hexp
      · rw [hks] at hs
        cases hs
      · exact hrcv
    have hdata := hd.load _ hlo hlt hks hrcv
    have hrem : remainingFltOutNext y.1 e = 9 := by
      rw [remainingFltOutNext, if_pos hl, ho, hcmd, hk]
      rfl
    rw [hrem]
    simp only [flitOutBufferNext, hl, if_true, ho, hcmd, hw1, hw3, hk, hdata]
    rfl
  | false =>
    have hks : isStore (kind (pkt y.2.accepted y.2.nOut)) = true := by
      obtain ⟨hl, -⟩ | ⟨hs, -⟩ := hw
      · rw [hk] at hl
        cases hl
      · exact hs
    have hrem : remainingFltOutNext y.1 e = 1 := by
      rw [remainingFltOutNext, if_pos hl, ho, hcmd, hk]
      rfl
    have hack : ∀ old, storeAck (kind (pkt y.2.accepted y.2.nOut)) old =
        storeAck (kind (pkt y.2.accepted y.2.nOut)) 0 := by
      intro old
      simp only [isStore, Bool.or_eq_true, decide_eq_true_iff] at hks
      obtain hks | hks := hks <;> rw [hks] <;> rfl
    rw [hrem]
    simp only [flitOutBufferNext, hl, if_true, ho, hcmd, hw1, hw3, hk, hack]
    rfl

theorem sent_next : ((recorded p).step y e).2.sent =
    if flitOutVal y.1 && e.flitOutRdy then y.2.sent ++ [flitOut y.1] else y.2.sent := rfl

theorem remainingFltOut_next :
    ((recorded p).step y e).1.remainingFltOut = remainingFltOutNext y.1 e := rfl

theorem flitOutBuffer_next :
    ((recorded p).step y e).1.flitOutBuffer = flitOutBufferNext y.1 := rfl

theorem out_sent_step (h : RingInv y) (hr : RdInv y) (hd : DataInv y) (hi : OutInv y)
    (ho : Obeys y e) (hc : Clear y.1 e) : OutInv ((recorded p).step y e) := by
  have hle := loads_out_le h hr
  have hgrow : responses (upTo y y.2.nOut) (lines p ((recorded p).step y e).2.returned) =
      responses (upTo y y.2.nOut) (lines p y.2.returned) := by
    rw [lines_next hr, responses_lines _ _ _ hle]
  refine ⟨?_⟩
  rw [sent_next, remainingFltOut_next, flitOutBuffer_next]
  cases hl : loadsNext y.1 with
  | true =>
    obtain ⟨hlt, hexp, hrem⟩ := loadsNext_at h hl
    have hval : flitOutVal y.1 = false := by simp [flitOutVal, hrem]
    have hsent : y.2.sent = responses (upTo y y.2.nOut) (lines p y.2.returned) := by
      have hs := hi.sent
      rw [hrem] at hs
      simpa using hs
    have hq : isLoad (kind (pkt y.2.accepted y.2.nOut)) = true →
        loads (upTo y y.2.nOut) < (lines p y.2.returned).length := by
      intro hk
      have hks := isLoad_not_isStore hk
      obtain ⟨hs, -⟩ | ⟨-, hrcv⟩ := expected_ready hexp
      · rw [hks] at hs
        cases hs
      · exact loads_lt h hr hlt hrcv hks
    have hle' : (lines p y.2.returned).length ≤
        (lines p ((recorded p).step y e).2.returned).length := by
      rw [lines_next hr, List.length_append]
      exact Nat.le_add_right _ _
    have hresp : responses (upTo ((recorded p).step y e) ((recorded p).step y e).2.nOut)
        (lines p ((recorded p).step y e).2.returned) =
          responses (upTo y y.2.nOut) (lines p y.2.returned) ++
            if isLoad (kind (pkt y.2.accepted y.2.nOut)) then
              loadReply (pkt y.2.accepted y.2.nOut)
                ((lines p y.2.returned).getD (loads (upTo y y.2.nOut)) 0)
            else storeReply (pkt y.2.accepted y.2.nOut) := by
      rw [nOut_of_loads hl, upTo_next h ho hc hlt, upTo_succ h hlt,
        responses_snoc (Nat.le_trans hle hle') fun hk => Nat.lt_of_lt_of_le (hq hk) hle', hgrow]
      cases hk : isLoad (kind (pkt y.2.accepted y.2.nOut)) with
      | true => rw [getD_lines_next hr (hq hk)]
      | false => rw [if_neg Bool.false_ne_true, if_neg Bool.false_ne_true]
    rw [hresp, ← hsent, hval, Bool.false_and, if_neg Bool.false_ne_true, loaded h hd hl]
  | false =>
    have hn : ((recorded p).step y e).2.nOut = y.2.nOut := by rw [nOut_next, hl]; rfl
    have hbuf : flitOutBufferNext y.1 = y.1.flitOutBuffer := by
      funext a
      simp [flitOutBufferNext, hl]
    have hout := Nat.le_trans h.pointers.out_le_cmd h.pointers.cmd_le_in
    rw [hn, upTo_next h ho hc hout, hgrow, ← hi.sent, hbuf, remainingFltOutNext, hl,
      if_neg Bool.false_ne_true]
    by_cases hv : flitOutVal y.1 = true ∧ e.flitOutRdy = true
    · have hne : y.1.remainingFltOut ≠ 0 := by
        intro hrem
        simp [flitOutVal, hrem] at hv
      obtain ⟨m, hm⟩ : ∃ m, y.1.remainingFltOut.toNat = m + 1 := by
        refine Nat.exists_eq_succ_of_ne_zero fun hz => hne ?_
        exact BitVec.eq_of_toNat_eq hz
      have hpred : y.1.remainingFltOut - 1 = BitVec.ofNat 4 m := by
        have hb : y.1.remainingFltOut = BitVec.ofNat 4 (m + 1) := by
          rw [← hm, BitVec.ofNat_toNat, BitVec.setWidth_eq]
        rw [hb, ofNat_sub_one (Nat.succ_ne_zero m), Nat.succ_sub_one]
      have hmlt : m < 16 := by
        have := y.1.remainingFltOut.isLt
        omega
      have hb : (flitOutVal y.1 && e.flitOutRdy) = true := by simpa using hv
      rw [if_pos hb, if_pos hv, hm, flitOut, hpred, BitVec.toNat_ofNat, Nat.mod_eq_of_lt hmlt,
        List.range_succ, List.reverse_append, List.map_append, List.append_assoc]
      rfl
    · have hb : ¬ (flitOutVal y.1 && e.flitOutRdy) = true := by simpa using hv
      rw [if_neg hb, if_neg hv]

end OutStep

/-! ### All requests -/

/-- What holds in every reachable state, of the ring and of each stream at the ports. -/
structure BridgeInv (y : State p × History p) : Prop where
  ring : RingInv y
  cmd : CmdInv y
  rd : RdInv y
  data : DataInv y
  wdf : WdfInv y
  out : OutInv y

section Bridge

variable {y : State p × History p} {e : Input p}

theorem bridge_step (h : BridgeInv y) (ho : Obeys y e) (hc : Clear y.1 e) :
    BridgeInv ((recorded p).step y e) where
  ring := ring_step h.ring ho hc
  cmd := cmd_step h.ring h.cmd ho hc
  rd := rd_step h.ring h.rd ho hc
  data := data_step h.ring h.rd h.data ho hc
  wdf := wdf_step h.ring h.data h.wdf ho hc
  out := out_sent_step h.ring h.rd h.data h.out ho hc

theorem bridge_init {s : State p} (hs : Reset s) : BridgeInv (s, .init) := by
  have hlines : lines p ([] : List (BitVec p.width)) = [] := by
    rw [← List.length_eq_zero_iff, length_lines, List.length_nil, Nat.zero_div]
  have hf : ¬ Filling s := not_filling (y := (s, .init)) (.inl hs.accState)
  refine
    { ring := ring_init hs
      cmd := ⟨?_, fun hx => ?_⟩
      rd := ⟨?_, fun k hk => ?_, ?_, fun hx => ?_⟩
      data := ⟨fun n _ hn => absurd hn (Nat.not_lt_zero _),
        fun n _ hn => absurd hn (Nat.not_lt_zero _), fun hx => absurd hx hf⟩
      wdf := ⟨?_, fun hx => ?_, fun hx => ?_⟩
      out := ⟨?_⟩ }
  · rw [hs.appEnReg, hs.cmdPart]
    exact .idle _ rfl
  · rw [hs.cmdPending] at hx
    cases hx
  · exact hs.rdPart.trans (Nat.zero_mod _).symm
  · rw [hs.rdPart] at hk
    exact absurd hk (Nat.not_lt_zero _)
  · rw [hs.appRdDataValidReg]
    exact congrArg List.length hlines
  · rw [hs.appRdDataValidReg] at hx
    cases hx
  · rw [hs.appWdfWrenReg, hs.wdfPart]
    exact .idle _ rfl
  · rw [hs.appWdfWrenR] at hx
    cases hx
  · rw [hs.appWdfWrenRR] at hx
    cases hx
  · rw [hs.remainingFltOut]
    rfl

theorem commands_initial (qs : List (List Flit)) (n : Nat) :
    ((qs.take n).map (command p)).flatMap (pieces commandPart p.ratio) <+: commands p qs := by
  conv_rhs => rw [commands, ← List.take_append_drop n qs, List.map_append, List.flatMap_append]
  exact List.prefix_append _ _

theorem writes_initial (qs : List (List Flit)) (n : Nat) :
    ((stores (qs.take n)).map storeData).flatMap (pieces (lineParts p) p.ratio) <+:
      writes p qs := by
  conv_rhs => rw [writes, ← List.take_append_drop n qs, stores, List.filter_append,
    List.map_append, List.flatMap_append]
  exact List.prefix_append _ _

theorem associated_of_inv (h : BridgeInv y) : Associated y where
  issued := h.cmd.split.initial.trans (commands_initial _ _)
  written := h.wdf.split.initial.trans (writes_initial _ _)
  sent := by
    have hle := loads_out_le h.ring h.rd
    have hpre : responses (upTo y y.2.nOut) (lines p y.2.returned) <+:
        responses (requests y.2.accepted) (lines p y.2.returned) := by
      conv_rhs => rw [← List.take_append_drop y.2.nOut (requests y.2.accepted)]
      exact responses_initial hle
    rw [← h.out.sent] at hpre
    exact (List.prefix_append _ _).trans hpre
  done := by
    intro hr
    have hp := h.ring.pointers
    have hout : y.2.nOut = y.2.nIn := by
      have hempty := hr.empty
      rw [hp.in_eq, hp.out_eq, idx_succ] at hempty
      have hw := in_window h.ring
      have h16 : idx (y.2.nOut + 15 + 1) = idx y.2.nOut := by
        apply BitVec.eq_of_toNat_eq
        simp only [idx, BitVec.toNat_ofNat]
        omega
      rw [h16] at hempty
      exact idx_inj (Nat.le_refl _) (Nat.le_add_right _ _) hw.1 hw.2 hempty
    have hcmd : upTo y y.2.nCmd = requests y.2.accepted :=
      upTo_all h.ring (by have := hp.out_le_cmd; omega)
    have hwdf : upTo y y.2.nWdf = requests y.2.accepted :=
      upTo_all h.ring (by have := hp.out_le_cmd; have := hp.cmd_le_wdf; omega)
    have hsent := h.out.sent
    rw [hr.flitOut, upTo_all h.ring (Nat.le_of_eq hout.symm)] at hsent
    have hissued := h.cmd.split.eq_of_idle hr.command
    have hwritten := h.wdf.split.eq_of_idle hr.data
    rw [hcmd] at hissued
    rw [hwdf] at hwritten
    exact ⟨hissued, hwritten, (List.append_nil _).symm.trans hsent⟩

end Bridge

/-- While the pointers skip requests only and each line finds its entry, the bridge keeps commands,
data and responses with their requests. -/
theorem responses_associated (p : Config) (y : State p × History p)
    (h : (recorded p).Reachable (fun y e => Obeys y e ∧ Clear y.1 e) y) : Associated y := by
  refine associated_of_inv (h.invariant ?_ ?_)
  · rintro ⟨s, g⟩ ⟨hs, rfl⟩
    exact bridge_init hs
  · rintro y e hi ⟨ho, hc⟩
    exact bridge_step hi ho hc

/-! ### Runs -/

section Runs

instance (f : Flit) : Decidable (IsHeader f) :=
  inferInstanceAs (Decidable (_ ∨ _))

/-- A condition on the flit that is there. -/
def decidableForallSome {P : Flit → Prop} [DecidablePred P] :
    (o : Option Flit) → Decidable (∀ f, o = some f → P f)
  | none => .isTrue fun _ h => nomatch h
  | some g => decidable_of_iff (P g) ⟨fun h _ hf => Option.some.inj hf ▸ h, fun h => h g rfl⟩

instance (y : State p × History p) (e : Input p) : Decidable (Obeys y e) :=
  @decidable_of_iff _
    ((∀ f, e.flitIn = some f →
        flitInRdy y.1 e = true → due Flit.len y.2.accepted = 0 → IsHeader f) ∧
      ∀ f, y.2.held = some f → e.flitIn = some f)
    ⟨fun h => ⟨h.1, h.2⟩, fun h => ⟨h.header, h.held⟩⟩
    (@instDecidableAnd _ _ (decidableForallSome e.flitIn) (decidableForallSome y.2.held))

instance (y : State p × History p) (e : Input p) : Decidable (Returns y e) :=
  inferInstanceAs (Decidable (_ → _))

instance (s : State p) : Decidable (Filling s) :=
  inferInstanceAs (Decidable (_ ∨ _))

instance (s : State p) (a : BitVec 4) : Decidable (Occupied s a) :=
  inferInstanceAs (Decidable (_ ∨ _))

instance (s : State p) (e : Input p) : Decidable (Clear s e) :=
  decidable_of_iff
    ((wdfSkips s = true → Occupied s s.bufCurrentWdf) ∧
      (rcvSkips s = true → Occupied s s.bufCurrentDataRcv) ∧
      (s.appRdDataValidReg = true → s.pktStateBuf s.bufCurrentDataRcv = .waitingData) ∧
      (e.flitIn.isSome = true → e.phyInitDone = true))
    ⟨fun h => ⟨h.1, h.2.1, h.2.2.1, h.2.2.2⟩, fun h => ⟨h.wdf, h.rcv, h.line, h.calibrated⟩⟩

/-- A port as wide as a line. -/
def widePort : Config := ⟨1, 512, by decide, by decide, by decide, false, fun _ => 0⟩

/-- The bridge after reset. -/
def bridgeStart : State widePort where
  pktW1 := fun _ => 0
  pktW2 := fun _ => 0
  pktW3 := fun _ => 0
  pktDataBuf := fun _ => 0
  pktStateBuf := fun _ => .inactive
  pktCmdBuf := fun _ => 0
  inDataBuf := fun _ => 0
  bufCurrentIn := 0
  bufCurrentOut := 15
  bufCurrentCmd := 0
  bufCurrentDataRcv := 0
  bufCurrentWdf := 0
  remainingFlits := 0
  accState := .acceptW1
  rAppEn := false
  remainingFltOut := 0
  flitOutBuffer := fun _ => 0
  appWdfWrenR := false
  appWdfDataR := 0
  appWdfWrenRR := false
  appWdfDataRR := 0
  appWdfWrenReg := false
  appWdfDataReg := 0
  appEnReg := false
  clAddrReg := 0
  appCmdReg := .rd
  cmdPart := 0
  cmdPending := false
  wdfPart := 0
  wdfPending := false
  rdPart := 0
  appRdDataPart := fun _ => 0
  appRdDataReg := 0
  appRdDataEndReg := false
  appRdDataValidReg := false

theorem init_bridgeStart : (recorded widePort).init (bridgeStart, .init) :=
  ⟨⟨fun _ => rfl, fun _ => rfl, rfl, rfl, rfl, rfl, rfl, rfl, rfl, rfl, rfl, rfl, rfl, rfl, rfl,
    rfl, rfl, rfl, rfl, rfl, rfl⟩, rfl⟩

/-- Cycles in which all receivers are ready: a flit comes in, a line is returned, or nothing. -/
def flitCycle (f : Flit) : Input widePort := ⟨some f, true, true, true, none, true⟩

/-- A cycle in which the memory controller returns a line. -/
def lineCycle (d : BitVec 512) : Input widePort := ⟨none, true, true, true, some d, true⟩

/-- A cycle in which nothing arrives and all ports are ready. -/
def idleCycle : Input widePort := ⟨none, true, true, true, none, true⟩

/-- The flits of a request with data `0`. -/
def request (type len tag : BitVec 8) : List (Input widePort) :=
  flitCycle (0#34 ++ (len ++ (type ++ (tag ++ 0#6)))) ::
    List.replicate len.toNat (flitCycle 0)

/-- The cycles in which a load arrives. -/
def loadRequest (tag : BitVec 8) : List (Input widePort) := request msgTypeLoadMem 2 tag

/-- The cycles in which a store arrives. -/
def storeRequest (tag : BitVec 8) : List (Input widePort) := request msgTypeStoreMem 10 tag

/-- A cycle in which no receiver is ready. -/
def stalledCycle : Input widePort := ⟨none, false, false, false, none, true⟩

/-- Two loads and a store between them; the commands, the write data and the responses are held up, and
each line is returned some cycles after its command. -/
def loadsAndStore : List (Input widePort) :=
  loadRequest 1 ++ List.replicate 2 stalledCycle ++ storeRequest 2 ++ [lineCycle 5] ++
    loadRequest 3 ++ List.replicate 3 stalledCycle ++ List.replicate 6 idleCycle ++ [lineCycle 7] ++
    List.replicate 24 idleCycle

set_option maxRecDepth 20000 in
theorem responses_associated_loadsAndStore :
    Associated ((recorded widePort).run (bridgeStart, .init) loadsAndStore) ∧
      ((recorded widePort).run (bridgeStart, .init) loadsAndStore).2.sent.length = 19 := by
  refine ⟨responses_associated _ _ ((Machine.Reachable.init init_bridgeStart).run ?_), ?_⟩
  · decide +kernel
  · decide +kernel

/-- Three loads, the second behind a store: the lines of the first two come back to back. -/
def backToBack : List (Input widePort) :=
  loadRequest 1 ++ storeRequest 2 ++ loadRequest 3 ++ loadRequest 4 ++ [lineCycle 5, lineCycle 6] ++
    List.replicate 2 idleCycle ++ [lineCycle 7] ++ List.replicate 15 idleCycle

set_option maxRecDepth 20000 in
theorem not_responses_associated :
    ¬ ∀ (p : Config) (y : State p × History p),
      (recorded p).Reachable (fun y e => Obeys y e ∧ Returns y e) y → Associated y := by
  intro h
  have hr : (recorded widePort).Reachable (fun y e => Obeys y e ∧ Returns y e)
      ((recorded widePort).run (bridgeStart, .init) backToBack) :=
    (Machine.Reachable.init init_bridgeStart).run (by decide +kernel)
  have hs := (h widePort _ hr).sent
  revert hs
  decide +kernel

end Runs

end Piton.Mc
