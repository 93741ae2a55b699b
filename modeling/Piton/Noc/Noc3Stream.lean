import Piton.L15.Buffers
import Piton.Lib.Packets
import Piton.Noc.Agreement

/-! The stream that `noc3buffer` and `noc3encoder` send: whole messages of the requests in order. -/

namespace Piton.Noc

open Hw

/-- `L15_MSHR_ID_*`. -/
def mshrIdCode : L15.MshrId → BitVec 2
  | .none => 0
  | .ifill => 1
  | .ld => 2
  | .st => 3

/-- A request of the L1.5 for the home `homeid`. -/
def Noc3Req.ofL15 (r : L15.Noc3Request) (homeid : BitVec 30) : Noc3Req where
  reqType := r.reqtype
  data0 := r.data0
  data1 := r.data1
  mshrid := mshrIdCode r.mshrid
  threadid := BitVec.ofNat 1 r.threadid
  sequenceid := r.sequenceid
  address := r.address
  withData := r.withData
  wasInval := r.wasInval
  fwdackVector := r.fwdackVector
  homeid := homeid

/-- `noc3buffer`, with the register of the home, and `noc3encoder`. -/
structure Noc3Sender where
  buffer : L15.Noc3Buffer
  homeidBuf : BitVec 30
  encoder : Noc3Encoder

/-- The inputs of the two units in one cycle. -/
structure Noc3SenderIn where
  req : L15.Noc3Request
  homeid : BitVec 30
  noc3outReady : Bool

namespace Noc3Sender

variable (p : Place) (s : Noc3Sender) (i : Noc3SenderIn)

/-- The request in the buffer. -/
def req : Noc3Req := .ofL15 s.buffer.buffer s.homeidBuf

/-- What `noc3encoder` sees. -/
def encoderIn : Noc3EncoderIn where
  val := s.buffer.bufferVal
  req := s.req
  noc3outReady := i.noc3outReady

/-- `noc3encoder_noc3buffer_req_ack`. -/
def encoderAck : Bool := s.encoder.reqAck (s.encoderIn i)

/-- `noc3buffer_l15_req_ack`. -/
def l15Ack : Bool := s.buffer.reqAck i.req.val (s.encoderAck i)

/-- The flit that the network takes in this cycle. -/
def taken : Option Flit := s.encoder.taken p (s.encoderIn i)

/-- One clock edge. -/
def step : Noc3Sender where
  buffer := s.buffer.tick i.req (s.encoderAck i)
  homeidBuf := if s.l15Ack i then i.homeid else s.homeidBuf
  encoder := s.encoder.step (s.encoderIn i)

/-- The request that waits or is being sent. -/
def pending : Option Noc3Req := if s.buffer.bufferVal then some s.req else none

end Noc3Sender

/-- The requests that the L1.5 has put into the buffer, the ones that have been acknowledged by the
encoder, and the flits that the network has taken. -/
structure Noc3History where
  accepted : List Noc3Req
  acked : List Noc3Req
  sent : List Flit

/-- What one cycle accepts, acknowledges and sends. -/
def Noc3History.record (p : Place) (g : Noc3History) (s : Noc3Sender) (i : Noc3SenderIn) :
    Noc3History where
  accepted := g.accepted ++ if s.l15Ack i then [.ofL15 i.req i.homeid] else []
  acked := g.acked ++ if s.encoderAck i then [s.req] else []
  sent := g.sent ++ (s.taken p i).toList

/-- The two units after reset, with the record of what has passed them. -/
def noc3Sender (p : Place) : Machine (Noc3Sender × Noc3History) Noc3SenderIn :=
  Machine.withHistory
    { init := fun s => s.buffer.bufferVal = false ∧ s.encoder = ⟨0, 0⟩
      step := Noc3Sender.step }
    ⟨[], [], []⟩ (Noc3History.record p)

namespace Noc3Req

variable (p : Place) (r : Noc3Req)

/-- The header flits: the header alone of an acknowledgement, and the header, the address and the
source of a write-back. -/
def headerFlits : List Flit :=
  if r.isRequest then [r.requestFlit p 0 0, r.requestFlit p 0 1, r.requestFlit p 0 2]
  else [r.responseFlit 0 0]

variable {p r}

/-- A message is its header flits and then the halves of the line. -/
theorem flits_eq : r.flits p = r.headerFlits p ++ r.dataWords := by
  unfold flits headerFlits dataWords
  cases hreq : r.isRequest with
  | true =>
    rw [msgLength_cases.1 hreq, if_pos rfl]
    simp only [BitVec.reduceToNat, Nat.reduceAdd, List.range_succ, List.range_zero, List.nil_append,
      List.cons_append, List.map_cons, List.map_nil, flit_of_request hreq, dataOf, hreq]
    rfl
  | false =>
    rw [if_neg Bool.false_ne_true]
    rcases msgLength_cases.2 hreq with hlen | hlen <;> rw [hlen] <;>
      simp only [BitVec.reduceToNat, Nat.reduceAdd, List.range_succ, List.range_zero,
        List.nil_append, List.cons_append, List.map_cons, List.map_nil, flit_of_response hreq,
        dataOf, hreq] <;>
      rfl

end Noc3Req

namespace Noc3Sender

variable {p : Place} {s : Noc3Sender} {g : Noc3History} {i : Noc3SenderIn} {k : Nat}

/-- `k` flits of the request in the buffer have been sent. -/
structure Streams (p : Place) (s : Noc3Sender) (g : Noc3History) (k : Nat) : Prop where
  accepted : g.accepted = g.acked ++ s.pending.toList
  sent : g.sent = g.acked.flatMap (Noc3Req.flits p) ++ (s.req.flits p).take k
  sending : s.buffer.bufferVal = true →
    Noc3Encoder.Sending p s.req s.encoder k ∧ k ≤ s.req.msgLength.toNat
  idle : s.buffer.bufferVal = false → s.encoder.flitState = 0 ∧ k = 0

theorem pending_eq (h : s.buffer.bufferVal = true) : s.pending = some s.req := if_pos h

theorem pending_eq_none (h : s.buffer.bufferVal = false) : s.pending = none := by
  rw [pending, h, if_neg Bool.false_ne_true]

/-- An acknowledgement needs a request. -/
theorem encoderAck_val (h : s.encoderAck i = true) : s.buffer.bufferVal = true := by
  rw [encoderAck, Noc3Encoder.reqAck, Bool.and_eq_true, Bool.and_eq_true] at h
  exact h.1.1

theorem l15Ack_iff : s.l15Ack i = true ↔
    i.req.val = true ∧ (s.buffer.bufferVal = false ∨ s.encoderAck i = true) := by
  simp [l15Ack, L15.Noc3Buffer.reqAck]

/-- The request in the buffer after a clock edge. -/
theorem req_step : (s.step i).req = if s.l15Ack i then .ofL15 i.req i.homeid else s.req := by
  unfold req step L15.Noc3Buffer.tick
  change Noc3Req.ofL15 (if s.l15Ack i then i.req else s.buffer.buffer) _ = _
  split <;> rfl

theorem bufferVal_step : (s.step i).buffer.bufferVal =
    if s.l15Ack i then true else if s.encoderAck i then false else s.buffer.bufferVal := rfl

/-- Between two messages. -/
theorem Streams.between (hstate : s.encoder.flitState = 0)
    (haccepted : g.accepted = g.acked ++ s.pending.toList)
    (hsent : g.sent = g.acked.flatMap (Noc3Req.flits p)) : Streams p s g 0 where
  accepted := haccepted
  sent := by rw [hsent, List.take_zero, List.append_nil]
  sending := fun _ => ⟨.start hstate, Nat.zero_le _⟩
  idle := fun _ => ⟨hstate, rfl⟩

/-- A request goes into the buffer when the buffer is empty or being emptied. -/
theorem pending_step (hfree : s.buffer.bufferVal = false ∨ s.encoderAck i = true) :
    (s.step i).pending.toList = if s.l15Ack i then [.ofL15 i.req i.homeid] else [] := by
  rw [pending, bufferVal_step, req_step]
  cases hl : s.l15Ack i with
  | true => rfl
  | false =>
    rcases hfree with hv | ha
    · rw [hv, ite_self]
      rfl
    · rw [ha]
      rfl

theorem Streams.step_idle (h : Streams p s g k) (hv : s.buffer.bufferVal = false) :
    Streams p (s.step i) (g.record p s i) 0 := by
  have hack : s.encoderAck i = false := by
    rw [← Bool.not_eq_true]
    intro ha
    rw [encoderAck_val ha] at hv
    cases hv
  have htaken : s.taken p i = none := by
    unfold taken Noc3Encoder.taken encoderIn
    rw [hv]
    rfl
  obtain ⟨-, rfl⟩ := h.idle hv
  refine .between ?_ ?_ ?_
  · change s.encoder.flitStateNext (s.encoderIn i) = 0
    unfold Noc3Encoder.flitStateNext encoderIn
    rw [hv]
    rfl
  · rw [pending_step (.inl hv)]
    simp only [Noc3History.record, hack, h.accepted, pending_eq_none hv, Bool.false_eq_true, if_false,
      Option.toList_none, List.append_nil]
  · simp only [Noc3History.record, hack, htaken, h.sent, Bool.false_eq_true, if_false,
      Option.toList_none, List.append_nil, List.take_zero]

/-- The last flit is taken and the request acknowledged. -/
theorem Streams.step_ack (h : Streams p s g k) (hack : s.encoderAck i = true) :
    Streams p (s.step i) (g.record p s i) 0 := by
  have hv := encoderAck_val hack
  obtain ⟨hs, hk⟩ := h.sending hv
  obtain ⟨hready, hend⟩ := (hs.reqAck_iff (i := s.encoderIn i) hk hv rfl).1 hack
  have htaken : (s.taken p i).toList = ((s.req.flits p).drop k).take 1 := by
    rw [taken, hs.taken hk hv rfl, if_pos hready]
  have hwhole : ((s.req.flits p).drop k).take 1 = (s.req.flits p).drop k := by
    rw [List.take_of_length_le]
    rw [List.length_drop, Noc3Req.flits_length]
    omega
  refine .between (Noc3Encoder.step_ack hack) ?_ ?_
  · rw [pending_step (.inr hack)]
    simp only [Noc3History.record, hack, h.accepted, pending_eq hv, if_true, Option.toList_some]
  · simp only [Noc3History.record, hack, htaken, hwhole, h.sent, if_true, List.append_assoc,
      List.take_append_drop, List.flatMap_append, List.flatMap_singleton]

/-- The message goes on: a flit that is not the last is taken, or none. -/
theorem Streams.step_more (h : Streams p s g k) (hv : s.buffer.bufferVal = true)
    (hack : s.encoderAck i = false) : ∃ k', Streams p (s.step i) (g.record p s i) k' := by
  obtain ⟨hs, hk⟩ := h.sending hv
  have hl15 : s.l15Ack i = false := by
    rw [← Bool.not_eq_true, l15Ack_iff, hv, hack]
    simp
  have hreq : (s.step i).req = s.req := by rw [req_step, hl15, if_neg Bool.false_ne_true]
  have hval : (s.step i).buffer.bufferVal = true := by
    rw [bufferVal_step, hl15, hack, if_neg Bool.false_ne_true, if_neg Bool.false_ne_true, hv]
  have haccepted : (g.record p s i).accepted =
      (g.record p s i).acked ++ (s.step i).pending.toList := by
    rw [pending_eq hval, hreq, ← pending_eq hv]
    simp only [Noc3History.record, hl15, hack, h.accepted, Bool.false_eq_true, if_false,
      List.append_nil]
  have hacked : (g.record p s i).acked = g.acked := by
    simp only [Noc3History.record, hack, Bool.false_eq_true, if_false, List.append_nil]
  have hsent : (g.record p s i).sent = g.acked.flatMap (Noc3Req.flits p) ++
      ((s.req.flits p).take k ++
        if i.noc3outReady then ((s.req.flits p).drop k).take 1 else []) := by
    rw [← List.append_assoc, ← h.sent]
    exact congrArg (g.sent ++ ·) (hs.taken (i := s.encoderIn i) hk hv rfl)
  cases hready : i.noc3outReady with
  | true =>
    have hlt : k < s.req.msgLength.toNat := by
      refine Nat.lt_of_le_of_ne hk fun hend => ?_
      have := (hs.reqAck_iff (i := s.encoderIn i) hk hv rfl).2 ⟨hready, hend⟩
      rw [encoderAck, this] at hack
      cases hack
    refine ⟨k + 1, haccepted, ?_, fun _ => ⟨?_, ?_⟩, fun hf => ?_⟩
    · rw [hreq, hacked, hsent, hready, if_pos rfl, List.take_add]
    · rw [hreq]
      exact hs.step_taken hlt hv rfl hready
    · rw [hreq]
      exact hlt
    · rw [hval] at hf
      cases hf
  | false =>
    refine ⟨k, haccepted, ?_, fun _ => ⟨?_, ?_⟩, fun hf => ?_⟩
    · rw [hreq, hacked, hsent, hready, if_neg Bool.false_ne_true, List.append_nil]
    · rw [hreq]
      exact hs.step_stall hv rfl hready
    · rw [hreq]
      exact hk
    · rw [hval] at hf
      cases hf

theorem Streams.step (h : Streams p s g k) :
    ∃ k', Streams p (s.step i) (g.record p s i) k' := by
  cases hv : s.buffer.bufferVal with
  | false => exact ⟨0, h.step_idle hv⟩
  | true =>
    cases hack : s.encoderAck i with
    | true => exact ⟨0, h.step_ack hack⟩
    | false => exact h.step_more hv hack

/-- The request is acknowledged with the flit that completes its message. -/
theorem Streams.encoderAck_iff (h : Streams p s g k) :
    s.encoderAck i = true ↔ ∃ f, s.taken p i = some f ∧
      g.sent ++ [f] = (g.acked ++ s.pending.toList).flatMap (Noc3Req.flits p) := by
  cases hv : s.buffer.bufferVal with
  | false =>
    constructor
    · intro ha
      rw [encoderAck_val ha] at hv
      cases hv
    · rintro ⟨f, hf, -⟩
      rw [taken, Noc3Encoder.taken, encoderIn, hv] at hf
      cases hf
  | true =>
    obtain ⟨hs, hk⟩ := h.sending hv
    have htaken := hs.taken (i := s.encoderIn i) hk hv rfl
    change (s.taken p i).toList = _ at htaken
    have hlen : (s.req.flits p).length = s.req.msgLength.toNat + 1 := Noc3Req.flits_length
    have hdrop : ((s.req.flits p).drop k).take 1 = [(s.req.flits p)[k]] := by
      rw [List.drop_eq_getElem_cons (by omega)]
      rfl
    rw [encoderAck, hs.reqAck_iff hk hv rfl, pending_eq hv, Option.toList_some,
      List.flatMap_append, List.flatMap_singleton, h.sent]
    constructor
    · rintro ⟨hready, hend⟩
      rw [if_pos hready, hdrop] at htaken
      refine ⟨(s.req.flits p)[k], ?_, ?_⟩
      · exact Option.toList_eq_singleton_iff.1 htaken
      · rw [List.append_assoc, List.take_append_getElem, List.take_of_length_le (by omega)]
    · rintro ⟨f, hf, heq⟩
      rw [hf] at htaken
      constructor
      · by_contra hready
        rw [if_neg hready] at htaken
        cases htaken
      · rw [List.append_assoc] at heq
        have hlength := congrArg List.length (List.append_cancel_left heq)
        rw [List.length_append, List.length_take, List.length_singleton] at hlength
        omega

/-- Whatever the network takes in a cycle, the flits that it has taken are the messages of the
requests in order, and a request is acknowledged with the last flit of its message. -/
theorem messages_sent {y : Noc3Sender × Noc3History}
    (h : (noc3Sender p).Reachable (fun _ _ => True) y) :
    (∃ k, y.2.accepted = y.2.acked ++ y.1.pending.toList ∧
      y.2.sent = y.2.acked.flatMap (Noc3Req.flits p) ++
        (y.1.pending.toList.flatMap (Noc3Req.flits p)).take k ∧
      (∀ r ∈ y.1.pending, k < (r.flits p).length) ∧
      ∀ i, y.1.encoderAck i = true ↔ ∃ f, y.1.taken p i = some f ∧
        y.2.sent ++ [f] = y.2.accepted.flatMap (Noc3Req.flits p)) ∧
    ∀ r : Noc3Req, r.flits p = r.headerFlits p ++ r.dataWords ∧ IsPacket Flit.len (r.flits p) 0 := by
  have hinv : ∃ k, Streams p y.1 y.2 k := by
    refine h.invariant (P := fun y => ∃ k, Streams p y.1 y.2 k) ?_ ?_
    · rintro ⟨s, g⟩ ⟨⟨hv, he⟩, hg⟩
      obtain rfl : g = _ := hg
      refine ⟨0, .between ?_ ?_ rfl⟩
      · exact congrArg Noc3Encoder.flitState he
      · rw [pending_eq_none hv]
        rfl
    · rintro ⟨s, g⟩ i ⟨k, hs⟩ -
      exact hs.step
  obtain ⟨k, hs⟩ := hinv
  refine ⟨⟨k, hs.accepted, ?_, ?_, ?_⟩, fun r => ⟨Noc3Req.flits_eq, Noc3Req.flits_isPacket⟩⟩
  · rw [hs.sent]
    cases hv : y.1.buffer.bufferVal with
    | false =>
      rw [(hs.idle hv).2, List.take_zero, List.take_zero]
    | true => rw [pending_eq hv, Option.toList_some, List.flatMap_singleton]
  · intro r hr
    rw [pending] at hr
    split at hr
    case isTrue hv =>
      obtain rfl := Option.some.inj hr
      rw [Noc3Req.flits_length]
      exact Nat.lt_succ_of_le (hs.sending hv).2
    case isFalse => cases hr
  · intro i
    rw [hs.accepted]
    exact hs.encoderAck_iff

/-- A write-back of the line whose halves are `3` and `5`. -/
def writeback : L15.Noc3Request :=
  ⟨true, .writeback, 3, 5, .st, 0, 0, 0x40, true, false, 0⟩

/-- The write-back, and cycles in which the network is ready now and then. -/
def stalledWriteback : List Noc3SenderIn :=
  [⟨writeback, 0, true⟩, ⟨{ writeback with val := false }, 0, true⟩,
    ⟨{ writeback with val := false, data0 := 9 }, 0, false⟩,
    ⟨{ writeback with val := false }, 0, true⟩, ⟨{ writeback with val := false }, 0, true⟩,
    ⟨{ writeback with val := false }, 0, false⟩, ⟨{ writeback with val := false }, 0, true⟩,
    ⟨{ writeback with val := false }, 0, false⟩, ⟨{ writeback with val := false }, 0, true⟩]

/-- The first tile of the first chip. -/
def firstPlace : Place := ⟨0, 0, 0, fun _ => (0, 0)⟩

/-- The buffer and the encoder after `reset`, for the run below. -/
def resetSender : Noc3Sender × Noc3History :=
  (⟨⟨false, writeback⟩, 0, ⟨0, 0⟩⟩, ⟨[], [], []⟩)

theorem resetSender_init : (noc3Sender firstPlace).init resetSender := ⟨⟨rfl, rfl⟩, rfl⟩

theorem messages_sent_stalledWriteback :
    ∃ y, y = (noc3Sender firstPlace).run resetSender stalledWriteback ∧
      (∃ k, y.2.accepted = y.2.acked ++ y.1.pending.toList ∧
        y.2.sent = y.2.acked.flatMap (Noc3Req.flits firstPlace) ++
          (y.1.pending.toList.flatMap (Noc3Req.flits firstPlace)).take k) ∧
      y.2.sent.drop 3 = [3, 5] ∧ y.2.acked.length = 1 := by
  have hok : (noc3Sender firstPlace).RunOk (fun _ _ => True) resetSender stalledWriteback :=
    Machine.runOk_of_mem (p := fun _ => True) (fun _ _ => trivial) _
  have h := messages_sent ((Machine.Reachable.init resetSender_init).run hok)
  obtain ⟨⟨k, haccepted, hsent, -⟩, -⟩ := h
  exact ⟨_, rfl, ⟨k, haccepted, hsent⟩, by decide +kernel, by decide +kernel⟩

end Noc3Sender

end Piton.Noc
