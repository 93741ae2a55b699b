import Piton.Lib.Packets
import Piton.Noc.Agreement

/-! The stream that `noc1encoder` sends for its two sources: whole messages that do not mix. -/

namespace Piton.Noc

open Hw

/-- What a source shows the encoder: a request once it is valid. -/
structure Offer (α : Type) where
  val : Bool
  req : α

/-- A source keeps its request until the ack. -/
def Offer.next {α : Type} (o fresh : Offer α) (ack : Bool) : Offer α :=
  if o.val && !ack then o else fresh

/-- The request offered, if there is one. -/
def Offer.toOption {α : Type} (o : Offer α) : Option α := if o.val then some o.req else none

/-- A request of either source. -/
abbrev Noc1Request := Noc1Req ⊕ CsmReq

namespace Noc1Request

variable (p : Place)

/-- `req_*` for a request of either source. -/
def select : Noc1Request → SelectedReq
  | .inl r => r.select
  | .inr r => r.select p

/-- The message of a request. -/
def flits (r : Noc1Request) : List Flit := (select p r).flits p

end Noc1Request

/-- `noc1encoder` and the requests that its sources offer. -/
structure Noc1Sender where
  noc1buffer : Offer Noc1Req
  csm : Offer CsmReq
  encoder : Noc1Encoder

/-- The inputs of `noc1encoder` in one cycle, and what the sources offer after it once they have no
request. -/
structure Noc1SenderIn where
  noc1buffer : Offer Noc1Req
  csm : Offer CsmReq
  noc1outReady : Bool
  dmbrStall : Bool

namespace Noc1Sender

variable (p : Place) (s : Noc1Sender) (i : Noc1SenderIn)

/-- What `noc1encoder` sees. -/
def encoderIn : Noc1EncoderIn where
  noc1bufferVal := s.noc1buffer.val
  noc1buffer := s.noc1buffer.req
  csmVal := s.csm.val
  csm := s.csm.req
  noc1outReady := i.noc1outReady
  dmbrStall := i.dmbrStall

/-- `noc1encoder_noc1buffer_req_ack`. -/
def noc1bufferAck : Bool := s.encoder.noc1bufferAck p (s.encoderIn i)

/-- `noc1encoder_csm_req_ack`. -/
def csmAck : Bool := s.encoder.csmAck p (s.encoderIn i)

/-- The flit that the network takes in this cycle. -/
def taken : Option Flit := s.encoder.taken p (s.encoderIn i)

/-- `req_source`, which the network has no part in. -/
def source : Noc1Source := s.encoder.reqSource (s.encoderIn ⟨s.noc1buffer, s.csm, false, false⟩)

/-- The request of the selected source. -/
def request : Noc1Request :=
  match s.source with
  | .l15 => .inl s.noc1buffer.req
  | .csm => .inr s.csm.req

/-- The requests acknowledged in this cycle. -/
def acks : List Noc1Request :=
  (if s.noc1bufferAck p i then [.inl s.noc1buffer.req] else []) ++
    if s.csmAck p i then [.inr s.csm.req] else []

/-- One clock edge. -/
def step : Noc1Sender where
  noc1buffer := s.noc1buffer.next i.noc1buffer (s.noc1bufferAck p i)
  csm := s.csm.next i.csm (s.csmAck p i)
  encoder := s.encoder.step p (s.encoderIn i)

end Noc1Sender

/-- The requests that the sources have offered, the ones that have been acknowledged, and the flits
that the network has taken. -/
structure Noc1History where
  noc1buffer : List Noc1Req
  csm : List CsmReq
  acked : List Noc1Request
  sent : List Flit

/-- The requests that a source newly offers. -/
def Offer.fresh {α : Type} (o fresh : Offer α) (ack : Bool) : List α :=
  if o.val && !ack then [] else fresh.toOption.toList

/-- What one cycle offers anew, acknowledges and sends. -/
def Noc1History.record (p : Place) (g : Noc1History) (s : Noc1Sender) (i : Noc1SenderIn) :
    Noc1History where
  noc1buffer := g.noc1buffer ++ s.noc1buffer.fresh i.noc1buffer (s.noc1bufferAck p i)
  csm := g.csm ++ s.csm.fresh i.csm (s.csmAck p i)
  acked := g.acked ++ s.acks p i
  sent := g.sent ++ (s.taken p i).toList

/-- The encoder after reset, with the record of what has passed it. -/
def noc1Sender (p : Place) : Machine (Noc1Sender × Noc1History) Noc1SenderIn :=
  Machine.withHistory
    { init := fun s => s.noc1buffer.val = false ∧ s.csm.val = false ∧ s.encoder = ⟨0, .l15⟩
      step := Noc1Sender.step p }
    ⟨[], [], [], []⟩ (Noc1History.record p)

/-- A request that is offered has a type. -/
def Offer.Typed {α : Type} (type : α → L15.Noc1Reqtype) (o : Offer α) : Prop :=
  o.val = true → type o.req ≠ .none

/-- The requests that the sources offer have types. -/
def TypedOffers (_ : Noc1Sender × Noc1History) (i : Noc1SenderIn) : Prop :=
  i.noc1buffer.Typed Noc1Req.reqType ∧ i.csm.Typed CsmReq.reqType

namespace SelectedReq

variable (p : Place) (q : SelectedReq)

/-- The header flits: an interrupt has its data word in the second flit, the others have the address
there and the source in the third. -/
def headerFlits : List Flit :=
  if q.reqType = .interruptFwd then [q.flit p 0, setSlice q.data0 9 (0 : BitVec 7)]
  else [q.flit p 0, q.flit p 1, q.flit p 2]

variable {p q}

/-- A message is its header flits and then its data words. -/
theorem flits_eq (hnone : q.reqType ≠ .none) : q.flits p = q.headerFlits p ++ q.dataWords := by
  unfold flits headerFlits dataWords
  cases hr : q.reqType <;>
    first
    | exact absurd hr hnone
    | simp [msg, msgTo, interruptMsg, hr, List.range_succ, flit]

end SelectedReq

namespace Noc1Encoder

variable {p : Place} {e : Noc1Encoder} {i : Noc1EncoderIn}

theorem last_iff_toNat (hk : e.flitState.toNat ≤ ((e.req p i).msg p).length.toNat)
    (hnone : (e.req p i).reqType ≠ .none) :
    e.last p i = true ↔ e.flitState.toNat = ((e.req p i).msg p).length.toNat := by
  have hbound := length_bounds (p := p) hnone
  refine last_iff (by omega) ?_
  rw [BitVec.ofNat_toNat, BitVec.setWidth_eq]

/-- The network takes the next flit of the selected request. -/
theorem taken_eq (hk : e.flitState.toNat ≤ ((e.req p i).msg p).length.toNat) :
    (e.taken p i).toList =
      if e.sending i && i.noc1outReady then
        (((e.req p i).flits p).drop e.flitState.toNat).take 1
      else [] := by
  have hdrop := drop_flits hk
  rw [BitVec.ofNat_toNat, BitVec.setWidth_eq] at hdrop
  unfold taken
  rw [hdrop]
  split <;> rfl

end Noc1Encoder

namespace Offer

variable {α : Type} {o fresh : Offer α} {ack : Bool}

/-- What is offered has been acknowledged or is offered still. -/
theorem append_fresh (h : ack = true → o.val = true) (l : List α) :
    l ++ o.toOption.toList ++ o.fresh fresh ack =
      (l ++ if ack then [o.req] else []) ++ (o.next fresh ack).toOption.toList := by
  unfold Offer.fresh Offer.next toOption
  cases hv : o.val with
  | false =>
    have ha : ack = false := by
      rw [← Bool.not_eq_true]
      intro ha
      rw [h ha] at hv
      cases hv
    simp [ha]
  | true => cases ack <;> simp [hv]

theorem next_of_kept (hv : o.val = true) (ha : ack = false) : o.next fresh ack = o := by
  rw [next, hv, ha]
  rfl

theorem Typed.next {type : α → L15.Noc1Reqtype} (ho : o.Typed type) (hf : fresh.Typed type) :
    (o.next fresh ack).Typed type := by
  unfold Offer.next
  split
  · exact ho
  · exact hf

end Offer

namespace Noc1Sender

variable {p : Place} {s : Noc1Sender} {g : Noc1History} {i : Noc1SenderIn}

/-- The selected source offers a request. -/
def offered (s : Noc1Sender) : Bool :=
  match s.source with
  | .l15 => s.noc1buffer.val
  | .csm => s.csm.val

/-- `flit_state` is the length of the message. -/
def last (p : Place) (s : Noc1Sender) (i : Noc1SenderIn) : Bool := s.encoder.last p (s.encoderIn i)

/-- The network takes the last flit. -/
def finishes (p : Place) (s : Noc1Sender) (i : Noc1SenderIn) : Bool :=
  s.offered && s.last p i && i.noc1outReady

theorem req_eq : s.encoder.req p (s.encoderIn i) = s.request.select p := by
  change (match s.source with | .l15 => _ | .csm => _) = _
  unfold request
  cases s.source <;> rfl

theorem noc1bufferAck_eq : s.noc1bufferAck p i = (s.finishes p i && s.source = .l15) := by
  change (s.noc1buffer.val && s.last p i && i.noc1outReady && s.source = .l15) = _
  unfold finishes offered
  cases s.source with
  | l15 => rfl
  | csm => simp

theorem csmAck_eq : s.csmAck p i = (s.finishes p i && s.source = .csm) := by
  change (s.csm.val && s.last p i && i.noc1outReady && s.source = .csm) = _
  unfold finishes offered
  cases s.source with
  | l15 => simp
  | csm => rfl

/-- The request that is acknowledged is the selected one. -/
theorem acks_eq : s.acks p i = if s.finishes p i then [s.request] else [] := by
  unfold acks request
  rw [noc1bufferAck_eq, csmAck_eq]
  cases s.finishes p i with
  | false => rfl
  | true => cases s.source <;> rfl

theorem noc1bufferAck_val (h : s.noc1bufferAck p i = true) : s.noc1buffer.val = true := by
  simp only [noc1bufferAck, Noc1Encoder.noc1bufferAck, Bool.and_eq_true] at h
  exact h.1.1.1

theorem csmAck_val (h : s.csmAck p i = true) : s.csm.val = true := by
  simp only [csmAck, Noc1Encoder.csmAck, Bool.and_eq_true] at h
  exact h.1.1.1

/-- The flits taken are the messages acknowledged and then the first flits of the selected request. -/
structure Streams (p : Place) (s : Noc1Sender) (g : Noc1History) : Prop where
  noc1buffer : g.noc1buffer = g.acked.filterMap Sum.getLeft? ++ s.noc1buffer.toOption.toList
  csm : g.csm = g.acked.filterMap Sum.getRight? ++ s.csm.toOption.toList
  noc1bufferTyped : s.noc1buffer.Typed Noc1Req.reqType
  csmTyped : s.csm.Typed CsmReq.reqType
  sent : g.sent = g.acked.flatMap (Noc1Request.flits p) ++
    (s.request.flits p).take s.encoder.flitState.toNat
  inside : s.encoder.flitState ≠ 0 → s.encoder.lastReqSource = s.source ∧ s.offered = true ∧
    s.encoder.flitState.toNat ≤ ((s.request.select p).msg p).length.toNat

/-- At the start of a message the CSM comes first. -/
theorem source_start (h : s.encoder.flitState = 0) :
    s.source = if s.csm.val then .csm else .l15 := by
  unfold source Noc1Encoder.reqSource encoderIn
  rw [h]
  cases s.csm.val <;> simp

theorem Streams.offered_eq (h : Streams p s g) : s.offered = (s.noc1buffer.val || s.csm.val) := by
  by_cases hz : s.encoder.flitState = 0
  · have hsrc := source_start hz
    unfold offered
    cases hc : s.csm.val with
    | false =>
      rw [hc, if_neg Bool.false_ne_true] at hsrc
      rw [hsrc, Bool.or_false]
    | true =>
      rw [hc, if_pos rfl] at hsrc
      rw [hsrc, Bool.or_true]
  · obtain ⟨-, ho, -⟩ := h.inside hz
    rw [ho]
    unfold offered at ho
    cases hsrc : s.source <;> rw [hsrc] at ho <;> simp [ho]

/-- The selected request has a type. -/
theorem Streams.typed (h : Streams p s g) (ho : s.offered = true) :
    (s.request.select p).reqType ≠ .none := by
  unfold offered at ho
  unfold request
  cases hsrc : s.source with
  | l15 =>
    rw [hsrc] at ho
    exact h.noc1bufferTyped ho
  | csm =>
    rw [hsrc] at ho
    exact h.csmTyped ho

theorem Streams.state_le (h : Streams p s g) :
    s.encoder.flitState.toNat ≤ ((s.request.select p).msg p).length.toNat := by
  by_cases hz : s.encoder.flitState = 0
  · rw [hz]
    exact Nat.zero_le _
  · exact (h.inside hz).2.2

theorem Streams.last_iff (h : Streams p s g) (ho : s.offered = true) :
    s.last p i = true ↔
      s.encoder.flitState.toNat = ((s.request.select p).msg p).length.toNat := by
  have hreq : s.encoder.req p (s.encoderIn i) = s.request.select p := req_eq
  have hiff := Noc1Encoder.last_iff_toNat (p := p) (e := s.encoder) (i := s.encoderIn i)
    (hreq ▸ h.state_le) (hreq ▸ h.typed ho)
  rw [hreq] at hiff
  exact hiff

/-! ### One clock edge -/

theorem flits_length (r : Noc1Request) :
    (r.flits p).length = ((r.select p).msg p).length.toNat + 1 := SelectedReq.flits_length

theorem Streams.sending_eq (h : Streams p s g) :
    s.encoder.sending (s.encoderIn i) =
      (s.offered && !(i.dmbrStall && s.encoder.flitState = 0)) := by
  rw [h.offered_eq]
  rfl

theorem Streams.taken_eq (h : Streams p s g) :
    (s.taken p i).toList = if s.encoder.sending (s.encoderIn i) && i.noc1outReady then
      ((s.request.flits p).drop s.encoder.flitState.toNat).take 1 else [] := by
  have hreq : s.encoder.req p (s.encoderIn i) = s.request.select p := req_eq
  have htaken := Noc1Encoder.taken_eq (p := p) (e := s.encoder) (i := s.encoderIn i)
    (hreq ▸ h.state_le)
  rw [hreq] at htaken
  exact htaken

theorem flitState_step : (s.step p i).encoder.flitState =
    if s.encoder.sending (s.encoderIn i) then
      if i.noc1outReady then if s.last p i then 0 else s.encoder.flitState + 1
      else s.encoder.flitState
    else 0 := rfl

/-- A message is finished only while it is sent: every message has more than one flit. -/
theorem Streams.finishes_sending (h : Streams p s g) (hf : s.finishes p i = true) :
    s.encoder.sending (s.encoderIn i) = true := by
  simp only [finishes, Bool.and_eq_true] at hf
  obtain ⟨⟨ho, hl⟩, -⟩ := hf
  rw [h.last_iff ho] at hl
  have hbound := (Noc1Encoder.length_bounds (p := p) (h.typed ho)).1
  have hz : s.encoder.flitState ≠ 0 := by
    intro hz
    rw [hz] at hl
    exact absurd hl.symm (by simp; omega)
  rw [h.sending_eq, ho, decide_eq_false hz, Bool.and_false]
  rfl

/-- While the encoder does not send it is at the start of a message. -/
theorem Streams.state_of_not_sending (h : Streams p s g)
    (hs : s.encoder.sending (s.encoderIn i) = false) : s.encoder.flitState = 0 := by
  by_contra hz
  rw [h.sending_eq, (h.inside hz).2.1, decide_eq_false hz, Bool.and_false] at hs
  cases hs

/-- The request that is being sent stays selected. -/
theorem request_step (ho : s.offered = true) (hf : s.finishes p i = false)
    (hz : (s.step p i).encoder.flitState ≠ 0) :
    (s.step p i).encoder.lastReqSource = (s.step p i).source ∧ (s.step p i).offered = true ∧
      (s.step p i).request = s.request := by
  have hlast : (s.step p i).encoder.lastReqSource = s.source := rfl
  have h15 : s.noc1bufferAck p i = false := by rw [noc1bufferAck_eq, hf, Bool.false_and]
  have hcsm : s.csmAck p i = false := by rw [csmAck_eq, hf, Bool.false_and]
  unfold offered at ho
  cases hsrc : s.source with
  | l15 =>
    rw [hsrc] at ho hlast
    have hkept : (s.step p i).noc1buffer = s.noc1buffer := Offer.next_of_kept ho h15
    have hnext : (s.step p i).source = .l15 := by
      unfold source Noc1Encoder.reqSource
      rw [hlast, decide_eq_true hz]
      rfl
    refine ⟨hlast.trans hnext.symm, ?_, ?_⟩
    · rw [offered, hnext]
      exact (congrArg Offer.val hkept).trans ho
    · rw [request, request, hnext, hsrc, hkept]
  | csm =>
    rw [hsrc] at ho hlast
    have hkept : (s.step p i).csm = s.csm := Offer.next_of_kept ho hcsm
    have hval : (s.step p i).csm.val = true := (congrArg Offer.val hkept).trans ho
    have hnext : (s.step p i).source = .csm := by
      unfold source Noc1Encoder.reqSource encoderIn
      rw [hlast, hval]
      rfl
    refine ⟨hlast.trans hnext.symm, ?_, ?_⟩
    · rw [offered, hnext]
      exact hval
    · rw [request, request, hnext, hsrc, hkept]

theorem record_sent : (g.record p s i).sent = g.sent ++ (s.taken p i).toList := rfl

theorem record_acked : (g.record p s i).acked = g.acked ++ s.acks p i := rfl

/-- After the last flit. -/
theorem Streams.sent_finish (h : Streams p s g) (hf : s.finishes p i = true) :
    (s.step p i).encoder.flitState = 0 ∧
      (g.record p s i).sent = (g.record p s i).acked.flatMap (Noc1Request.flits p) := by
  have hsend := h.finishes_sending hf
  have htaken := h.taken_eq (i := i)
  have hacks := acks_eq (p := p) (s := s) (i := i)
  rw [hf, if_pos rfl] at hacks
  simp only [finishes, Bool.and_eq_true] at hf
  obtain ⟨⟨ho, hl⟩, hready⟩ := hf
  refine ⟨by rw [flitState_step, if_pos hsend, if_pos hready, if_pos hl], ?_⟩
  rw [h.last_iff ho] at hl
  rw [hsend, hready, Bool.and_self, if_pos rfl, List.take_of_length_le] at htaken
  · rw [record_sent, record_acked, htaken, hacks, h.sent, List.append_assoc,
      List.take_append_drop, List.flatMap_append, List.flatMap_singleton]
  · rw [List.length_drop, flits_length]
    omega

/-- Within a message or before one. -/
theorem Streams.sent_more (h : Streams p s g) (hf : s.finishes p i = false) :
    ((s.step p i).encoder.flitState ≠ 0 → s.offered = true ∧
      (s.step p i).encoder.flitState.toNat ≤ ((s.request.select p).msg p).length.toNat) ∧
      (g.record p s i).acked = g.acked ∧
      (g.record p s i).sent = g.acked.flatMap (Noc1Request.flits p) ++
        (s.request.flits p).take (s.step p i).encoder.flitState.toNat := by
  have htaken := h.taken_eq (i := i)
  have hacked : (g.record p s i).acked = g.acked := by
    rw [record_acked, acks_eq, hf, if_neg Bool.false_ne_true, List.append_nil]
  rw [record_sent, flitState_step, h.sent]
  cases hsend : s.encoder.sending (s.encoderIn i) with
  | false =>
    rw [hsend, Bool.false_and, if_neg Bool.false_ne_true] at htaken
    rw [htaken, if_neg Bool.false_ne_true, List.append_nil, h.state_of_not_sending hsend]
    exact ⟨fun hz => absurd rfl hz, hacked, rfl⟩
  | true =>
    have ho : s.offered = true := by
      rw [h.sending_eq, Bool.and_eq_true] at hsend
      exact hsend.1
    rw [if_pos rfl]
    cases hready : i.noc1outReady with
    | false =>
      rw [hready, Bool.and_false, if_neg Bool.false_ne_true] at htaken
      rw [htaken, if_neg Bool.false_ne_true, List.append_nil]
      exact ⟨fun _ => ⟨ho, h.state_le⟩, hacked, rfl⟩
    | true =>
      have hl : ¬ s.last p i = true := by
        intro hl
        rw [finishes, ho, hl, hready] at hf
        cases hf
      have hne : s.encoder.flitState.toNat ≠ ((s.request.select p).msg p).length.toNat :=
        fun heq => hl ((h.last_iff ho).2 heq)
      have hle := h.state_le
      have hbound := (Noc1Encoder.length_bounds (p := p) (h.typed ho)).2
      have hnext : (s.encoder.flitState + 1).toNat = s.encoder.flitState.toNat + 1 := by
        rw [BitVec.toNat_add]
        exact Nat.mod_eq_of_lt (by simp; omega)
      rw [hsend, hready, Bool.and_self, if_pos rfl] at htaken
      rw [htaken, if_pos rfl, if_neg hl, hnext, List.append_assoc, ← List.take_add]
      exact ⟨fun _ => ⟨ho, by omega⟩, hacked, rfl⟩

/-- The stream after a clock edge, whether it finishes a message or not. -/
theorem Streams.sent_step (h : Streams p s g) :
    (g.record p s i).sent = (g.record p s i).acked.flatMap (Noc1Request.flits p) ++
        ((s.step p i).request.flits p).take (s.step p i).encoder.flitState.toNat ∧
      ((s.step p i).encoder.flitState ≠ 0 →
        (s.step p i).encoder.lastReqSource = (s.step p i).source ∧ (s.step p i).offered = true ∧
          (s.step p i).encoder.flitState.toNat ≤
            (((s.step p i).request.select p).msg p).length.toNat) := by
  cases hf : s.finishes p i with
  | false =>
    obtain ⟨hmore, hacked, hsent⟩ := h.sent_more hf
    by_cases hz : (s.step p i).encoder.flitState = 0
    · have hnat : (s.step p i).encoder.flitState.toNat = 0 := by
        rw [hz]
        rfl
      refine ⟨?_, fun hne => absurd hz hne⟩
      rw [hsent, hacked, hnat, List.take_zero, List.take_zero]
    · obtain ⟨ho, hle⟩ := hmore hz
      obtain ⟨hsrc, hoff, hreq⟩ := request_step ho hf hz
      rw [hsent, hacked, hreq]
      exact ⟨rfl, fun _ => ⟨hsrc, hoff, hle⟩⟩
  | true =>
    obtain ⟨hz, hsent⟩ := h.sent_finish hf
    have hnat : (s.step p i).encoder.flitState.toNat = 0 := by
      rw [hz]
      rfl
    refine ⟨?_, fun hne => absurd hz hne⟩
    rw [hsent, hnat, List.take_zero, List.append_nil]

theorem Streams.step (h : Streams p s g) (h15 : i.noc1buffer.Typed Noc1Req.reqType)
    (hcsm : i.csm.Typed CsmReq.reqType) : Streams p (s.step p i) (g.record p s i) := by
  have hleft : (s.acks p i).filterMap Sum.getLeft? =
      if s.noc1bufferAck p i then [s.noc1buffer.req] else [] := by
    unfold acks
    cases s.noc1bufferAck p i <;> cases s.csmAck p i <;> rfl
  have hright : (s.acks p i).filterMap Sum.getRight? =
      if s.csmAck p i then [s.csm.req] else [] := by
    unfold acks
    cases s.noc1bufferAck p i <;> cases s.csmAck p i <;> rfl
  obtain ⟨hsent, hinside⟩ := h.sent_step (i := i)
  refine ⟨?_, ?_, h.noc1bufferTyped.next h15, h.csmTyped.next hcsm, hsent, hinside⟩
  · rw [record_acked, List.filterMap_append, hleft]
    change g.noc1buffer ++ _ = _
    rw [h.noc1buffer]
    exact Offer.append_fresh noc1bufferAck_val _
  · rw [record_acked, List.filterMap_append, hright]
    change g.csm ++ _ = _
    rw [h.csm]
    exact Offer.append_fresh csmAck_val _

/-! ### Whole runs -/

theorem Streams.finishes_iff (h : Streams p s g) :
    s.finishes p i = true ↔ ∃ f, s.taken p i = some f ∧
      g.sent ++ [f] = (g.acked ++ [s.request]).flatMap (Noc1Request.flits p) := by
  have htaken := h.taken_eq (i := i)
  have hlen := flits_length (p := p) s.request
  have hle := h.state_le
  have hdrop : ((s.request.flits p).drop s.encoder.flitState.toNat).take 1 =
      [(s.request.flits p)[s.encoder.flitState.toNat]] := by
    rw [List.drop_eq_getElem_cons (by omega)]
    rfl
  rw [List.flatMap_append, List.flatMap_singleton, h.sent]
  constructor
  · intro hf
    have hsend := h.finishes_sending hf
    simp only [finishes, Bool.and_eq_true] at hf
    obtain ⟨⟨ho, hl⟩, hready⟩ := hf
    rw [h.last_iff ho] at hl
    rw [hsend, hready, Bool.and_self, if_pos rfl, hdrop] at htaken
    refine ⟨_, Option.toList_eq_singleton_iff.1 htaken, ?_⟩
    rw [List.append_assoc, List.take_append_getElem, List.take_of_length_le (by omega)]
  · rintro ⟨f, hf, heq⟩
    rw [hf] at htaken
    rw [List.append_assoc] at heq
    have hlength := congrArg List.length (List.append_cancel_left heq)
    rw [List.length_append, List.length_take, List.length_singleton] at hlength
    have hboth : (s.encoder.sending (s.encoderIn i) && i.noc1outReady) = true := by
      by_contra hn
      rw [if_neg hn] at htaken
      cases htaken
    rw [Bool.and_eq_true, h.sending_eq, Bool.and_eq_true] at hboth
    obtain ⟨⟨ho, -⟩, hready⟩ := hboth
    have hl : s.last p i = true := by
      rw [h.last_iff ho]
      omega
    rw [finishes, ho, hl, hready]
    rfl

/-- Whatever the two sources offer, the network takes and the throttle stalls, the flits taken are
the messages acknowledged and then a part of the message of the selected request; a request is
acknowledged with the last flit of its message. -/
theorem requests_sent {y : Noc1Sender × Noc1History}
    (h : (noc1Sender p).Reachable TypedOffers y) :
    (y.2.noc1buffer = y.2.acked.filterMap Sum.getLeft? ++ y.1.noc1buffer.toOption.toList ∧
      y.2.csm = y.2.acked.filterMap Sum.getRight? ++ y.1.csm.toOption.toList) ∧
    (∃ k, k < (y.1.request.flits p).length ∧ (k ≠ 0 → y.1.offered = true) ∧
      y.2.sent = y.2.acked.flatMap (Noc1Request.flits p) ++ (y.1.request.flits p).take k) ∧
    (∀ i, (y.1.acks p i).length ≤ 1 ∧ ∀ r, r ∈ y.1.acks p i ↔ r = y.1.request ∧
      ∃ f, y.1.taken p i = some f ∧
        y.2.sent ++ [f] = (y.2.acked ++ [r]).flatMap (Noc1Request.flits p)) ∧
    ∀ q : SelectedReq, q.reqType ≠ .none →
      q.flits p = q.headerFlits p ++ q.dataWords ∧ IsPacket Flit.len (q.flits p) 0 := by
  have hs : Streams p y.1 y.2 := by
    refine h.invariant (P := fun y => Streams p y.1 y.2) ?_ ?_
    · rintro ⟨s, g⟩ ⟨⟨h15, hcsm, he⟩, hg⟩
      obtain rfl : g = _ := hg
      have hz : s.encoder.flitState = 0 := congrArg Noc1Encoder.flitState he
      have hnat : s.encoder.flitState.toNat = 0 := by
        rw [hz]
        rfl
      refine ⟨?_, ?_, fun hv => ?_, fun hv => ?_, ?_, fun hne => absurd hz hne⟩
      · rw [Offer.toOption, h15]
        rfl
      · rw [Offer.toOption, hcsm]
        rfl
      · rw [h15] at hv
        cases hv
      · rw [hcsm] at hv
        cases hv
      · rw [hnat]
        rfl
    · rintro ⟨s, g⟩ i hs ⟨h15, hcsm⟩
      exact hs.step h15 hcsm
  refine ⟨⟨hs.noc1buffer, hs.csm⟩, ⟨y.1.encoder.flitState.toNat, ?_, ?_, hs.sent⟩, ?_,
    fun q hq => ⟨SelectedReq.flits_eq hq, SelectedReq.flits_isPacket⟩⟩
  · rw [flits_length]
    exact Nat.lt_succ_of_le hs.state_le
  · intro hk
    refine (hs.inside fun hz => hk ?_).2.1
    rw [hz]
    rfl
  · intro i
    have hiff := hs.finishes_iff (i := i)
    rw [acks_eq]
    cases hf : y.1.finishes p i with
    | true =>
      refine ⟨Nat.le_refl 1, fun r => ?_⟩
      rw [if_pos rfl, List.mem_singleton]
      constructor
      · rintro rfl
        exact ⟨rfl, hiff.1 hf⟩
      · exact fun hr => hr.1
    | false =>
      refine ⟨Nat.zero_le 1, fun r => ⟨fun hr => absurd hr List.not_mem_nil, ?_⟩⟩
      rintro ⟨rfl, hr⟩
      rw [hiff.2 hr] at hf
      cases hf

/-- A cycle in which the sources have new requests or not. -/
def cycle (l15 csm ready stall : Bool) : Noc1SenderIn :=
  ⟨⟨l15, swapRequest⟩, ⟨csm, refillRequest⟩, ready, stall⟩

/-- The CSM offers its request while the swap is being sent, with cycles in which the network is not
ready or the throttle stalls. -/
def swapAndRefill : List Noc1SenderIn :=
  [cycle true false true false, cycle false false true true, cycle false true true false,
    cycle false false false false, cycle false false true true, cycle false false true false,
    cycle false false true false, cycle false false true true, cycle false false true false,
    cycle false false false true, cycle false false true false, cycle false false true false]

theorem swapAndRefill_typed : ∀ i ∈ swapAndRefill,
    i.noc1buffer.Typed Noc1Req.reqType ∧ i.csm.Typed CsmReq.reqType := by
  unfold Offer.Typed
  decide

/-- The encoder after `reset`, for the run below. -/
def idleSender : Noc1Sender × Noc1History :=
  (⟨⟨false, swapRequest⟩, ⟨false, refillRequest⟩, ⟨0, .l15⟩⟩, ⟨[], [], [], []⟩)

theorem idleSender_init : (noc1Sender originPlace).init idleSender := ⟨⟨rfl, rfl, rfl⟩, rfl⟩

theorem requests_sent_swapAndRefill :
    ∃ y, y = (noc1Sender originPlace).run idleSender swapAndRefill ∧
      (∃ k, k < (y.1.request.flits originPlace).length ∧ (k ≠ 0 → y.1.offered = true) ∧
        y.2.sent = y.2.acked.flatMap (Noc1Request.flits originPlace) ++
          (y.1.request.flits originPlace).take k) ∧
      y.2.acked.length = 2 ∧ y.2.sent.length = 7 ∧ y.2.sent[3]? = some 7 := by
  have h := requests_sent ((Machine.Reachable.init idleSender_init).run
    (Machine.runOk_of_mem swapAndRefill_typed _))
  obtain ⟨-, hstream, -⟩ := h
  exact ⟨_, rfl, hstream, by decide +kernel, by decide +kernel, by decide +kernel⟩

end Noc1Sender

end Piton.Noc
