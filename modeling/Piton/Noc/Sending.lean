import Piton.Noc.Formats

/-! What the encoders send of a request until its acknowledgement: the flits of its message, under any
back-pressure and stall. -/

namespace Piton.Noc

open Hw

theorem drop_map_range {α : Type} (f : Nat → α) {k n : Nat} (hk : k ≤ n) :
    ((List.range (n + 1)).map f).drop k = f k :: ((List.range (n + 1)).map f).drop (k + 1) := by
  have hlt : k < ((List.range (n + 1)).map f).length := by
    rw [List.length_map, List.length_range]
    omega
  rw [List.drop_eq_getElem_cons hlt, List.getElem_map, List.getElem_range]

/-! ### noc1encoder -/

/-- The request of a source is valid. -/
def Noc1EncoderIn.val (i : Noc1EncoderIn) : Noc1Source → Bool
  | .l15 => i.noc1bufferVal
  | .csm => i.csmVal

/-- The request of a source. -/
def Noc1EncoderIn.select (p : Place) (i : Noc1EncoderIn) : Noc1Source → SelectedReq
  | .l15 => i.noc1buffer.select
  | .csm => i.csm.select p

namespace Noc1Encoder

/-- The acknowledgement to a source. -/
def reqAck (p : Place) (e : Noc1Encoder) (i : Noc1EncoderIn) : Noc1Source → Bool
  | .l15 => e.noc1bufferAck p i
  | .csm => e.csmAck p i

/-- The flits of a source's request that the network takes until the request is acknowledged. -/
def sendUntilAck (p : Place) (src : Noc1Source) :
    Noc1Encoder → List Noc1EncoderIn → Option (List Flit)
  | _, [] => none
  | e, i :: is =>
    let fs := if e.reqSource i = src then (e.taken p i).toList else []
    if e.reqAck p i src then some fs else (sendUntilAck p src (e.step p i) is).map (fs ++ ·)

/-- A source holds its request, and a message under way is that of a valid request. -/
def Held (p : Place) (src : Noc1Source) (q : SelectedReq) : Noc1Encoder → List Noc1EncoderIn → Prop
  | _, [] => True
  | e, i :: is =>
    (i.val src = true ∧ i.select p src = q ∧
      (e.flitState ≠ 0 → i.val e.lastReqSource = true)) ∧ Held p src q (e.step p i) is

instance Held.decidable (p : Place) (src : Noc1Source) (q : SelectedReq) :
    (e : Noc1Encoder) → (is : List Noc1EncoderIn) → Decidable (Held p src q e is)
  | _, [] => .isTrue trivial
  | e, i :: is => @instDecidableAnd _ _ inferInstance (Held.decidable p src q (e.step p i) is)

/-- `k` flits of the source's request have been taken. -/
def Sending (src : Noc1Source) (e : Noc1Encoder) (k : Nat) : Prop :=
  k = 0 ∧ (e.flitState = 0 ∨ e.lastReqSource ≠ src) ∨
    0 < k ∧ e.flitState = BitVec.ofNat 4 k ∧ e.lastReqSource = src

variable {p : Place} {q : SelectedReq} {e : Noc1Encoder} {i : Noc1EncoderIn}
  {is : List Noc1EncoderIn} {src : Noc1Source} {k : Nat}

theorem length_bounds (hnone : q.reqType ≠ .none) :
    1 ≤ (q.msg p).length.toNat ∧ (q.msg p).length.toNat ≤ 4 := by
  unfold SelectedReq.msg
  cases h : q.reqType with
  | none => exact absurd h hnone
  | _ => simp [SelectedReq.msgTo, SelectedReq.interruptMsg]

theorem state_ne_zero (hpos : 0 < k) (hk : k ≤ 4) : BitVec.ofNat 4 k ≠ 0#4 := by
  intro h0
  have hnat := congrArg BitVec.toNat h0
  rw [BitVec.toNat_ofNat, Nat.mod_eq_of_lt (by omega)] at hnat
  exact absurd hnat (by simp; omega)

theorem drop_flits (hk : k ≤ (q.msg p).length.toNat) :
    (q.flits p).drop k = q.flit p (BitVec.ofNat 4 k) :: (q.flits p).drop (k + 1) :=
  drop_map_range _ hk

theorem last_iff (hk : k ≤ 4) (hst : e.flitState = BitVec.ofNat 4 k) :
    e.last p i = true ↔ k = ((e.req p i).msg p).length.toNat := by
  unfold last
  rw [decide_eq_true_eq, hst, ← BitVec.toNat_inj, BitVec.toNat_setWidth, BitVec.toNat_ofNat,
    Nat.mod_eq_of_lt (show k < 2 ^ 4 by omega), Nat.mod_eq_of_lt (by omega)]

theorem req_eq : e.req p i = i.select p (e.reqSource i) := by
  unfold req
  cases e.reqSource i <;> rfl

theorem reqAck_eq : e.reqAck p i src =
    (i.val src && e.last p i && i.noc1outReady && e.reqSource i = src) := by
  cases src <;> rfl

theorem sending_eq (hval : i.val src = true) :
    e.sending i = !(i.dmbrStall && e.flitState = 0) := by
  unfold sending
  cases src with
  | l15 => rw [show i.noc1bufferVal = true from hval, Bool.true_or, Bool.true_and]
  | csm => rw [show i.csmVal = true from hval, Bool.or_true, Bool.true_and]

/-- In the middle of a message of a valid request the source stays. -/
theorem reqSource_kept (hne : e.flitState ≠ 0) (hval : i.val e.lastReqSource = true) :
    e.reqSource i = e.lastReqSource := by
  unfold reqSource
  cases hlast : e.lastReqSource with
  | l15 => rw [decide_eq_true hne]; rfl
  | csm =>
    rw [hlast] at hval
    rw [show i.csmVal = true from hval]
    rfl

/-- While another source has the turn nothing of the request is taken. -/
theorem Sending.eq_zero (hs : Sending src e k) (hk : k ≤ 4) (hval : i.val src = true)
    (hsrc : e.reqSource i ≠ src) : k = 0 := by
  rcases hs with ⟨rfl, -⟩ | ⟨hpos, hst, hlast⟩
  · rfl
  · have hne : e.flitState ≠ 0 := by
      rw [hst]
      exact state_ne_zero hpos hk
    rw [← hlast] at hval
    exact absurd ((reqSource_kept hne hval).trans hlast) hsrc

/-- When the source has the turn the encoder is where its message is. -/
theorem Sending.flitState (hs : Sending src e k) (hsrc : e.reqSource i = src)
    (hother : e.flitState ≠ 0 → i.val e.lastReqSource = true) :
    e.flitState = BitVec.ofNat 4 k := by
  rcases hs with ⟨rfl, h0 | hlast⟩ | ⟨-, hst, -⟩
  · exact h0
  · by_contra hne
    exact hlast ((reqSource_kept hne (hother hne)).symm.trans hsrc)
  · exact hst

/-- The source with the turn sends its next flit unless the throttle stalls its first one. -/
theorem turn_taken (hsrc : e.reqSource i = src) (hq : i.select p src = q)
    (hst : e.flitState = BitVec.ofNat 4 k) (hk : k ≤ (q.msg p).length.toNat) :
    (e.taken p i).toList =
      if e.sending i && i.noc1outReady then ((q.flits p).drop k).take 1 else [] := by
  unfold taken
  rw [req_eq, hsrc, hq, hst, drop_flits hk]
  split <;> rfl

/-- The acknowledgement comes with the last flit. -/
theorem turn_ack (hsrc : e.reqSource i = src) (hval : i.val src = true)
    (hq : i.select p src = q) (hst : e.flitState = BitVec.ofNat 4 k)
    (hk : k ≤ (q.msg p).length.toNat) (hnone : q.reqType ≠ .none) :
    e.reqAck p i src = true ↔
      (e.sending i && i.noc1outReady) = true ∧ k = (q.msg p).length.toNat := by
  have hbound := length_bounds (p := p) hnone
  have hlast := last_iff (p := p) (i := i) (show k ≤ 4 by omega) hst
  rw [req_eq, hsrc, hq] at hlast
  rw [reqAck_eq, hval, Bool.true_and, hsrc, decide_eq_true rfl, Bool.and_true, Bool.and_eq_true,
    Bool.and_eq_true, hlast, sending_eq hval]
  constructor
  · rintro ⟨hend, hready⟩
    -- only the first flit can be stalled, and a message has more
    have hne : e.flitState ≠ 0 := by
      rw [hst]
      exact state_ne_zero (by omega) (by omega)
    rw [decide_eq_false hne, Bool.and_false]
    exact ⟨⟨rfl, hready⟩, hend⟩
  · rintro ⟨⟨-, hready⟩, hend⟩
    exact ⟨hend, hready⟩

/-- Another flit is taken, or none. -/
theorem turn_step (hsrc : e.reqSource i = src) (hval : i.val src = true)
    (hst : e.flitState = BitVec.ofNat 4 k) (hk : k ≤ 4) (hack : e.reqAck p i src = false) :
    Sending src (e.step p i) (if e.sending i && i.noc1outReady then k + 1 else k) := by
  have hlastSrc : (e.step p i).lastReqSource = src := hsrc
  have hstate : (e.step p i).flitState = if e.sending i = true then
      if i.noc1outReady = true then if e.last p i = true then 0 else e.flitState + 1
      else e.flitState else 0 := rfl
  cases hs : e.sending i with
  | false =>
    rw [hs, if_neg Bool.false_ne_true] at hstate
    rw [Bool.false_and, if_neg Bool.false_ne_true]
    have h0 : k = 0 := by
      by_contra hpos
      have hne : e.flitState ≠ 0 := by
        rw [hst]
        exact state_ne_zero (by omega) (by omega)
      rw [sending_eq hval, decide_eq_false hne, Bool.and_false] at hs
      cases hs
    exact .inl ⟨h0, .inl hstate⟩
  | true =>
    rw [hs, if_pos rfl] at hstate
    rw [Bool.true_and]
    cases hready : i.noc1outReady with
    | false =>
      rw [hready, if_neg Bool.false_ne_true, hst] at hstate
      rw [if_neg Bool.false_ne_true]
      rcases Nat.eq_zero_or_pos k with rfl | hpos
      · exact .inl ⟨rfl, .inl hstate⟩
      · exact .inr ⟨hpos, hstate, hlastSrc⟩
    | true =>
      have hlast : ¬ e.last p i = true := by
        intro hl
        rw [reqAck_eq, hval, hl, hready, hsrc, decide_eq_true rfl] at hack
        cases hack
      rw [hready, if_pos rfl, if_neg hlast, hst] at hstate
      rw [if_pos rfl]
      refine .inr ⟨Nat.succ_pos k, hstate.trans ?_, hlastSrc⟩
      rw [BitVec.ofNat_add]
      rfl

/-- What the network takes of a source's request until it is acknowledged are its flits. -/
theorem Sending.sendUntilAck {fs : List Flit} (hnone : q.reqType ≠ .none)
    (hs : Sending src e k) (hk : k ≤ (q.msg p).length.toNat) (hheld : Held p src q e is)
    (hsent : sendUntilAck p src e is = some fs) : fs = (q.flits p).drop k := by
  have hbound := length_bounds (p := p) hnone
  induction is generalizing e k fs with
  | nil => cases hsent
  | cons i is ih =>
    obtain ⟨⟨hval, hq, hother⟩, hheld⟩ := hheld
    unfold Noc1Encoder.sendUntilAck at hsent
    by_cases hsrc : e.reqSource i = src
    · have hst := hs.flitState hsrc hother
      have hack := turn_ack hsrc hval hq hst hk hnone
      rw [if_pos hsrc, turn_taken hsrc hq hst hk] at hsent
      cases ha : e.reqAck p i src with
      | true =>
        obtain ⟨htaken, hend⟩ := hack.1 ha
        rw [ha, if_pos rfl, if_pos htaken] at hsent
        rw [← Option.some.inj hsent, List.take_of_length_le]
        rw [List.length_drop, SelectedReq.flits_length]
        omega
      | false =>
        have hnext := turn_step hsrc hval hst (by omega) ha
        rw [ha, if_neg Bool.false_ne_true] at hsent
        obtain ⟨gs, hgs, rfl⟩ := Option.map_eq_some_iff.mp hsent
        by_cases htaken : (e.sending i && i.noc1outReady) = true
        · rw [if_pos htaken] at hnext ⊢
          have hne : k ≠ (q.msg p).length.toNat := by
            intro hend
            rw [hack.2 ⟨htaken, hend⟩] at ha
            cases ha
          rw [ih hnext (by omega) hheld hgs, ← List.drop_drop, List.take_append_drop]
        · rw [if_neg htaken] at hnext ⊢
          exact ih hnext hk hheld hgs
    · -- a message of the other source: nothing of the request is taken
      have hk0 : k = 0 := hs.eq_zero (by omega) hval hsrc
      have hack : e.reqAck p i src = false := by
        rw [reqAck_eq, decide_eq_false hsrc, Bool.and_false]
      rw [hack, if_neg Bool.false_ne_true, if_neg hsrc] at hsent
      obtain ⟨gs, hgs, rfl⟩ := Option.map_eq_some_iff.mp hsent
      exact ih (.inl ⟨hk0, .inr hsrc⟩) hk hheld hgs

end Noc1Encoder

/-! ### noc3encoder -/

namespace Noc3Encoder

variable {p : Place} {r : Noc3Req} {e : Noc3Encoder} {is : List Noc3EncoderIn}

/-- The flits that the network takes until the request is acknowledged. -/
def sendUntilAck (p : Place) : Noc3Encoder → List Noc3EncoderIn → Option (List Flit)
  | _, [] => none
  | e, i :: is =>
    if e.reqAck i then some (e.taken p i).toList
    else (sendUntilAck p (e.step i) is).map ((e.taken p i).toList ++ ·)

/-- `k` flits have been taken, and the data register holds the word of the next one. -/
structure Sending (p : Place) (r : Noc3Req) (e : Noc3Encoder) (k : Nat) : Prop where
  state : e.flitState = BitVec.ofNat 4 k
  data : r.flit p e.dataF e.flitState = r.flit p (r.dataOf e.flitState) e.flitState

theorem length_le : r.msgLength.toNat ≤ 4 := by
  cases h : r.isRequest with
  | true => rw [Noc3Req.msgLength_cases.1 h]; decide
  | false => rcases Noc3Req.msgLength_cases.2 h with h | h <;> rw [h] <;> decide

/-- Only the data flits read the data register. -/
theorem flit_data {d d' : Flit} {k : BitVec 4}
    (h : r.isRequest = true ∧ (k = 3 ∨ k = 4) ∨ r.isRequest = false ∧ (k = 1 ∨ k = 2) → d = d') :
    r.flit p d k = r.flit p d' k := by
  cases hreq : r.isRequest with
  | true =>
    rw [Noc3Req.flit_of_request hreq, Noc3Req.flit_of_request hreq]
    by_cases hk : k = 3 ∨ k = 4
    · rw [h (.inl ⟨hreq, hk⟩)]
    · unfold Noc3Req.requestFlit
      split
      case h_4 => exact absurd (.inl rfl) hk
      case h_5 => exact absurd (.inr rfl) hk
      all_goals rfl
  | false =>
    rw [Noc3Req.flit_of_response hreq, Noc3Req.flit_of_response hreq]
    by_cases hk : k = 1 ∨ k = 2
    · rw [h (.inr ⟨hreq, hk⟩)]
    · unfold Noc3Req.responseFlit
      split
      case h_2 => exact absurd (.inl rfl) hk
      case h_3 => exact absurd (.inr rfl) hk
      all_goals rfl

theorem last_iff {i : Noc3EncoderIn} {k : Nat} (hk : k ≤ 4) (hst : e.flitState = BitVec.ofNat 4 k) :
    e.last i = true ↔ k = i.req.msgLength.toNat := by
  unfold last
  rw [decide_eq_true_eq, hst, ← BitVec.toNat_inj, BitVec.toNat_setWidth, BitVec.toNat_ofNat,
    Nat.mod_eq_of_lt (show k < 2 ^ 4 by omega), Nat.mod_eq_of_lt (by omega)]

/-- The data register follows the state of the encoder. -/
theorem step_data {i : Noc3EncoderIn} (hval : i.val = true) (hreq : i.req = r) :
    r.flit p (e.step i).dataF (e.step i).flitState =
      r.flit p (r.dataOf (e.step i).flitState) (e.step i).flitState := by
  apply flit_data
  subst hreq
  show _ ∧ (e.flitStateNext i = 3 ∨ e.flitStateNext i = 4) ∨
    _ ∧ (e.flitStateNext i = 1 ∨ e.flitStateNext i = 2) → _ = i.req.dataOf (e.flitStateNext i)
  unfold step Noc3Req.dataOf
  rintro (⟨hq, hk | hk⟩ | ⟨hq, hk | hk⟩) <;> simp [hval, hq, hk]

theorem Sending.start (h : e.flitState = 0) : Sending p r e 0 := by
  refine ⟨h, flit_data ?_⟩
  rw [h]
  rintro (⟨-, h | h⟩ | ⟨-, h | h⟩) <;> exact absurd h (by decide)

section

variable {i : Noc3EncoderIn} {k : Nat}

theorem Sending.last_iff (hs : Sending p r e k) (hk : k ≤ r.msgLength.toNat) (hreq : i.req = r) :
    e.last i = true ↔ k = r.msgLength.toNat := by
  have hbound := length_le (r := r)
  rw [Noc3Encoder.last_iff (show k ≤ 4 by omega) hs.state, hreq]

/-- The network takes the next flit when it is ready. -/
theorem Sending.taken (hs : Sending p r e k) (hk : k ≤ r.msgLength.toNat) (hval : i.val = true)
    (hreq : i.req = r) :
    (e.taken p i).toList =
      if i.noc3outReady then ((r.flits p).drop k).take 1 else [] := by
  have hdrop : (r.flits p).drop k =
      r.flit p (r.dataOf (BitVec.ofNat 4 k)) (BitVec.ofNat 4 k) :: (r.flits p).drop (k + 1) :=
    drop_map_range _ hk
  unfold Noc3Encoder.taken
  rw [hval, hreq, Bool.true_and, hs.data, hs.state, hdrop]
  cases i.noc3outReady <;> rfl

theorem Sending.reqAck_iff (hs : Sending p r e k) (hk : k ≤ r.msgLength.toNat) (hval : i.val = true)
    (hreq : i.req = r) :
    e.reqAck i = true ↔ i.noc3outReady = true ∧ k = r.msgLength.toNat := by
  unfold reqAck
  rw [hval, Bool.true_and, Bool.and_eq_true, hs.last_iff hk hreq]
  exact And.comm

/-- A flit that is not the last one has been taken. -/
theorem Sending.step_taken (hs : Sending p r e k) (hk : k < r.msgLength.toNat) (hval : i.val = true)
    (hreq : i.req = r) (hready : i.noc3outReady = true) : Sending p r (e.step i) (k + 1) := by
  have hlast : ¬ e.last i = true := by
    rw [hs.last_iff (Nat.le_of_lt hk) hreq]
    exact Nat.ne_of_lt hk
  refine ⟨?_, step_data hval hreq⟩
  change e.flitStateNext i = _
  rw [flitStateNext, if_pos hval, if_pos hready, if_neg hlast, hs.state, BitVec.ofNat_add]
  rfl

theorem Sending.step_stall (hs : Sending p r e k) (hval : i.val = true) (hreq : i.req = r)
    (hready : i.noc3outReady = false) : Sending p r (e.step i) k := by
  refine ⟨?_, step_data hval hreq⟩
  change e.flitStateNext i = _
  rw [flitStateNext, if_pos hval, hready, if_neg Bool.false_ne_true, hs.state]

/-- After an acknowledgement the encoder starts again. -/
theorem step_ack (h : e.reqAck i = true) : (e.step i).flitState = 0 := by
  rw [reqAck, Bool.and_eq_true, Bool.and_eq_true] at h
  obtain ⟨⟨hval, hlast⟩, hready⟩ := h
  change e.flitStateNext i = 0
  rw [flitStateNext, if_pos hval, if_pos hready, if_pos hlast]

end

/-- What the network takes of a request until it is acknowledged are its flits. -/
theorem Sending.sendUntilAck {k : Nat} {fs : List Flit} (hs : Sending p r e k)
    (hk : k ≤ r.msgLength.toNat) (hheld : ∀ i ∈ is, i.val = true ∧ i.req = r)
    (hsent : sendUntilAck p e is = some fs) : fs = (r.flits p).drop k := by
  induction is generalizing e k fs with
  | nil => cases hsent
  | cons i is ih =>
    obtain ⟨hval, hreq⟩ := hheld i List.mem_cons_self
    have hheld' : ∀ i ∈ is, i.val = true ∧ i.req = r := fun j hj =>
      hheld j (List.mem_cons_of_mem i hj)
    have hack := hs.reqAck_iff hk hval hreq
    unfold Noc3Encoder.sendUntilAck at hsent
    rw [hs.taken hk hval hreq] at hsent
    cases hready : i.noc3outReady with
    | true =>
      rw [hready] at hack hsent
      by_cases hend : k = r.msgLength.toNat
      · rw [hack.2 ⟨rfl, hend⟩, if_pos rfl, if_pos rfl] at hsent
        rw [← Option.some.inj hsent, List.take_of_length_le]
        rw [List.length_drop, Noc3Req.flits_length]
        omega
      · rw [if_neg fun h => hend (hack.1 h).2, if_pos rfl] at hsent
        obtain ⟨gs, hgs, rfl⟩ := Option.map_eq_some_iff.mp hsent
        have hlt : k < r.msgLength.toNat := by omega
        rw [ih (hs.step_taken hlt hval hreq hready) (by omega) hheld' hgs, ← List.drop_drop,
          List.take_append_drop]
    | false =>
      rw [hready] at hack hsent
      rw [if_neg fun h => Bool.false_ne_true (hack.1 h).1, if_neg Bool.false_ne_true] at hsent
      obtain ⟨gs, hgs, rfl⟩ := Option.map_eq_some_iff.mp hsent
      exact ih (hs.step_stall hval hreq hready) hk hheld' hgs

end Noc3Encoder

end Piton.Noc
