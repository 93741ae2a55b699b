import Piton.Pcx.Buffer
import Mathlib.Data.List.Forall2

/-! `pcx_buffer` gives every request that is not squashed to the L1.5, once and in order, and never
overwrites one that is waiting. -/

namespace Piton.Pcx

open Hw

/-- A request: one packet, or the two packets of an atomic request. -/
inductive Request where
  | single (p : Packet)
  | atomic (p q : Packet)
deriving DecidableEq

/-- The request an acknowledgement takes as the L1.5 sees it, and whether it is an atomic request
whose second packet is not in the buffer yet. -/
structure Delivery where
  request : Request
  early : Bool
deriving DecidableEq

/-- The requests that the core has sent, those that have been delivered, and what the core sends in
the present cycle: the data of a request that was not squashed, and the second packet of an atomic
request after its first one. -/
structure Log where
  sent : List Request
  delivered : List Delivery
  sending : Bool
  sendingAtomic : Bool
  sendingSecond : Bool
  first : Packet

namespace Log

variable (g : Log) (s : State) (i : Input)

/-- The request that is complete with the packet of this cycle. -/
def completes : Option Request :=
  if g.sendingSecond then some (.atomic g.first i.pcxData)
  else if g.sending && !g.sendingAtomic then some (.single i.pcxData)
  else none

/-- The request that is acknowledged in this cycle. -/
def takes : Option Delivery :=
  if s.pcxbufAck i then
    if s.buf.bufferAtomic s.buf.readPos then
      some ⟨.atomic s.buf.dataOut s.buf.dataBuf1, !s.buf.bufferVal (!s.buf.readPos)⟩
    else some ⟨.single s.buf.dataOut, false⟩
  else none

/-- What one cycle sends to the L1.5's buffer, and what the L1.5 takes. -/
def record : Log where
  sent := g.sent ++ (g.completes i).toList
  delivered := g.delivered ++ (takes s i).toList
  sending := s.lsu.spcPcxReqPq && !s.lsu.pcxReqSquash s.buf.uncoreSpcGrant
  sendingAtomic := s.lsu.spcPcxAtomPq && !s.lsu.pcxReqSquash s.buf.uncoreSpcGrant
  sendingSecond := g.sendingAtomic
  first := if g.sending then i.pcxData else g.first

/-- Before anything is sent. -/
def empty : Log := ⟨[], [], false, false, false, ⟨0, 0⟩⟩

end Log

/-- The machine with the log. -/
def logged : Machine (State × Log) Input :=
  machine.withHistory Log.empty fun g s i => g.record s i

/-! ### The contents of the buffer -/

/-- The requests in the buffer, the oldest first; `half` is an atomic request without its second
packet. -/
inductive Content where
  | empty
  | one (p : Packet)
  | two (p q : Packet)
  | half (p : Packet)
  | pair (p q : Packet)

namespace Content

/-- The entries in use. -/
def size : Content → Nat
  | .empty => 0
  | .one _ | .half _ => 1
  | .two _ _ | .pair _ _ => 2

/-- The complete requests. -/
def held : Content → List Request
  | .empty | .half _ => []
  | .one p => [.single p]
  | .two p q => [.single p, .single q]
  | .pair p q => [.atomic p q]

/-- A packet enters; `atomic` is set for the first packet of an atomic request. -/
def push (d : Packet) (atomic : Bool) : Content → Content
  | .empty => if atomic then .half d else .one d
  | .one p => .two p d
  | .half p => .pair p d
  | c => c

/-- The oldest request leaves. -/
def pop : Content → Content
  | .two _ q => .one q
  | _ => .empty

end Content

namespace PcxBuffer

variable {s : PcxBuffer} {c : Content} {d : Packet}

/-- The registers hold the contents. -/
def Holds (s : PcxBuffer) : Content → Prop
  | .empty =>
    s.bufferVal s.readPos = false ∧ s.bufferVal (!s.readPos) = false ∧ s.writePos = s.readPos
  | .one p =>
    s.bufferVal s.readPos = true ∧ s.bufferVal (!s.readPos) = false ∧ s.writePos = !s.readPos ∧
      s.bufferAtomic s.readPos = false ∧ s.buffer s.readPos = p
  | .two p q =>
    s.bufferVal s.readPos = true ∧ s.bufferVal (!s.readPos) = true ∧ s.writePos = s.readPos ∧
      s.bufferAtomic s.readPos = false ∧ s.buffer s.readPos = p ∧
      s.bufferAtomic (!s.readPos) = false ∧ s.buffer (!s.readPos) = q
  | .half p =>
    s.bufferVal s.readPos = true ∧ s.bufferVal (!s.readPos) = false ∧ s.writePos = !s.readPos ∧
      s.bufferAtomic s.readPos = true ∧ s.buffer s.readPos = p
  | .pair p q =>
    s.bufferVal s.readPos = true ∧ s.bufferVal (!s.readPos) = true ∧ s.writePos = s.readPos ∧
      s.bufferAtomic s.readPos = true ∧ s.buffer s.readPos = p ∧ s.buffer (!s.readPos) = q

theorem Holds.valid (h : s.Holds c) : s.valid = true ↔ 0 < c.size := by
  unfold PcxBuffer.valid
  cases c with
  | empty => simp [h.1, Content.size]
  | one p => simp [h.1, Content.size]
  | two p q => simp [h.1, Content.size]
  | half p => simp [h.1, Content.size]
  | pair p q => simp [h.1, Content.size]

/-- What a write does to the contents. -/
theorem Holds.write (h : s.Holds c) (hw : s.writeReq = true) (hroom : c.size ≤ 1)
    (ha : s.bufferAtomicNextNext = true → c = .empty) :
    (s.write d).Holds (c.push d s.bufferAtomicNextNext) := by
  unfold PcxBuffer.write
  rw [if_pos hw]
  cases c with
  | empty =>
    obtain ⟨h1, h2, h3⟩ := h
    cases hn : s.bufferAtomicNextNext <;> cases hr : s.readPos <;>
      simp_all [Holds, Content.push, Function.update]
  | one p =>
    obtain ⟨h1, h2, h3, h4, h5⟩ := h
    have hn : s.bufferAtomicNextNext = false := by
      cases hn : s.bufferAtomicNextNext with
      | false => rfl
      | true => cases ha hn
    cases hr : s.readPos <;> simp_all [Holds, Content.push, Function.update]
  | two p q => simp [Content.size] at hroom
  | half p =>
    obtain ⟨h1, h2, h3, h4, h5⟩ := h
    cases hr : s.readPos <;> simp_all [Holds, Content.push, Function.update]
  | pair p q => simp [Content.size] at hroom

/-- An entry of one packet is freed. -/
theorem Holds.free_single {t : PcxBuffer} (h : t.Holds c) (hpos : t.readPos = s.readPos)
    (ha : s.bufferAtomic s.readPos = false) (hc : ∃ p q, c = .one p ∨ c = .two p q) :
    (s.free t).Holds c.pop := by
  unfold PcxBuffer.free
  rw [ha, if_neg Bool.false_ne_true]
  obtain ⟨p, q, rfl | rfl⟩ := hc
  · obtain ⟨h1, h2, h3, h4, h5⟩ := h
    cases hr : s.readPos <;> simp_all [Holds, Content.pop, Function.update]
  · obtain ⟨h1, h2, h3, h4, h5, h6, h7⟩ := h
    cases hr : s.readPos <;> simp_all [Holds, Content.pop, Function.update]

/-- The two entries of an atomic request are freed. -/
theorem Holds.free_pair {t : PcxBuffer} {p q : Packet} (h : t.Holds (.pair p q))
    (ha : s.bufferAtomic s.readPos = true) : (s.free t).Holds .empty := by
  unfold PcxBuffer.free
  rw [ha, if_pos rfl]
  exact ⟨rfl, rfl, h.2.2.1⟩

theorem step_atomicAckSecond (s : PcxBuffer) (i : BufferInput) :
    (s.step i).atomicAckSecond = (i.pcxdecoderPcxbufAck && s.bufferAtomic s.readPos) := by
  unfold step
  cases hack : i.pcxdecoderPcxbufAck with
  | false => simp
  | true => cases ha : s.bufferAtomic s.readPos <;> simp [free, ha]

/-- A change of the other registers keeps the contents. -/
theorem Holds.congr {t : PcxBuffer} (h : s.Holds c) (hbuf : t.buffer = s.buffer)
    (hatomic : t.bufferAtomic = s.bufferAtomic) (hval : t.bufferVal = s.bufferVal)
    (hread : t.readPos = s.readPos) (hwrite : t.writePos = s.writePos) : t.Holds c := by
  unfold Holds at h ⊢
  rw [hbuf, hatomic, hval, hread, hwrite]
  exact h

end PcxBuffer

/-! ### The credits of the core -/

namespace Lsu

/-- The entries that the core takes for full. -/
def count (s : Lsu) : Nat := s.entry0Full.toNat + s.entry1Full.toNat

/-- The entries fill up from entry 0. -/
def Ordered (s : Lsu) : Prop := s.entry1Full = true → s.entry0Full = true

variable {s : Lsu} {grant : Bool} {want : Option Requester} {st : Fin 4 → BitVec 5}

theorem ordered_step (h : s.Ordered) : (s.step grant want st).Ordered := by
  unfold Ordered step entry0En entry1En at *
  cases h0 : s.entry0Full <;> cases h1 : s.entry1Full <;> cases grant <;>
    cases h2 : s.spcPcxReqUpdateW2 <;> simp_all

/-- A grant frees an entry and a packet takes one, unless it comes with the queue full and no
grant. -/
theorem count_step (grant : Bool) (want : Option Requester) (st : Fin 4 → BitVec 5) (h : s.Ordered)
    (hg : grant = true → 1 ≤ s.count) :
    (s.step grant want st).count + grant.toNat = s.count +
      (s.spcPcxReqUpdateW2 && !(!s.qwrite && !grant)).toNat := by
  unfold Ordered count step qwrite entry0En entry1En at *
  cases h0 : s.entry0Full <;> cases h1 : s.entry1Full <;> cases grant <;>
    cases h2 : s.spcPcxReqUpdateW2 <;> simp_all

theorem count_le (s : Lsu) : s.count ≤ 2 := by
  unfold count
  have h0 := Bool.toNat_le s.entry0Full
  have h1 := Bool.toNat_le s.entry1Full
  omega

/-- Nothing is picked while an atomic request is made. -/
theorem picked_of_atomPq (h : s.spcPcxAtomPq = true) : s.picked want st = none := by
  unfold picked pcxRqSelTmp
  rw [h, Option.filter_eq_none_iff]
  intro r _
  simp

/-- An atomic request is picked when both entries are free and nothing is on its way. -/
theorem of_spcPcxAtomW (h : s.spcPcxAtomW want st = true) :
    s.pcxRqSel want st = true ∧ s.entry0Full = false ∧ s.spcPcxReqUpdateW2 = false := by
  unfold spcPcxAtomW at h
  rw [Option.any_eq_true] at h
  obtain ⟨r, hr, hatomic⟩ := h
  refine ⟨Option.isSome_of_mem hr, ?_⟩
  unfold picked at hr
  rw [Option.filter_eq_some_iff, Bool.and_eq_true, hatomic] at hr
  have hfree : s.selQentry0 = true := hr.2.2
  unfold selQentry0 at hfree
  simpa using hfree

theorem qwrite_eq_false (h : s.Ordered) : s.qwrite = false ↔ s.count = 2 := by
  unfold Ordered qwrite count at *
  cases h0 : s.entry0Full <;> cases h1 : s.entry1Full <;> simp_all

end Lsu

/-! ### The invariant -/

/-- What ties the core to the buffer: `c` is what the buffer holds. -/
structure Inv (s : State) (c : Content) : Prop where
  holds : s.buf.Holds c
  ordered : s.lsu.Ordered
  /-- The core counts the entries in use, the packet on its way and the grants on their way. -/
  count : s.lsu.count = c.size + s.buf.writeReq.toNat + s.buf.uncoreSpcGrant.toNat +
    s.buf.atomicAckSecond.toNat
  ackSecond : s.buf.atomicAckSecond = true → s.buf.uncoreSpcGrant = true
  secondComing : s.buf.atomicReqSecondPacketComing = s.buf.bufferAtomicNextNext
  /-- The first packet of an atomic request comes into the empty buffer. -/
  first : s.buf.bufferAtomicNextNext = true → c = .empty ∧ s.buf.writeReq = true ∧
    s.buf.uncoreSpcGrant = false ∧ s.lsu.spcPcxReqPq = false
  /-- Its second packet follows at once. -/
  half : ∀ p, c = .half p → s.buf.writeReq = true ∧ s.buf.bufferAtomicNextNext = false
  update : s.lsu.spcPcxReqUpdateW2 = (s.lsu.spcPcxReqPq || s.buf.bufferAtomicNextNext)
  /-- An atomic request is made when nothing is outstanding. -/
  atom : s.lsu.spcPcxAtomPq = true → s.lsu.spcPcxReqPq = true ∧ s.lsu.count = 0

/-- What the log says about the contents. -/
structure LogInv (s : State) (c : Content) (g : Log) : Prop where
  sendingAtomic : g.sendingAtomic = s.buf.bufferAtomicNextNext
  sendingSecond : g.sendingSecond = true ↔ ∃ p, c = .half p
  sending : g.sending = (s.buf.writeReq && !g.sendingSecond)
  half : ∀ p, c = .half p → g.first = p

namespace Inv

variable {s : State} {c : Content} {i : Input}

/-- The grant of a second packet shows in both grants. -/
theorem ackSecond_of_not_grant (h : Inv s c) (hg : s.buf.uncoreSpcGrant = false) :
    s.buf.atomicAckSecond = false := by
  rw [← Bool.not_eq_true]
  intro ha
  rw [h.ackSecond ha] at hg
  cases hg

/-- After a cycle the second grant follows the acknowledgement of an atomic request. -/
theorem step_ackSecond (s : State) (i : Input) : (s.step i).buf.atomicAckSecond =
    (s.pcxbufAck i && s.buf.bufferAtomic s.buf.readPos) :=
  PcxBuffer.step_atomicAckSecond _ _

/-- The core and the buffer agree on which requests are squashed. -/
theorem squash_eq (h : Inv s c) :
    s.buf.isReqSquashed (s.bufferInput i) = s.lsu.pcxReqSquash s.buf.uncoreSpcGrant := by
  have hle := h.count ▸ s.lsu.count_le
  have hfull : (s.buf.isBufferFull = true) ↔
      s.lsu.qwrite = false ∧ s.buf.uncoreSpcGrant = false := by
    rw [Lsu.qwrite_eq_false h.ordered, h.count]
    have hholds := h.holds
    unfold PcxBuffer.isBufferFull PcxBuffer.writePosNext
    cases hg : s.buf.uncoreSpcGrant with
    | true => simp
    | false =>
      rw [h.ackSecond_of_not_grant hg]
      cases c <;> cases hw : s.buf.writeReq <;> cases hr : s.buf.readPos <;>
        simp_all [PcxBuffer.Holds, Content.size]
  unfold PcxBuffer.isReqSquashed Lsu.pcxReqSquash
  change (s.buf.isBufferFull && s.lsu.spcPcxReqPq) = _
  rw [Bool.eq_iff_iff, Bool.and_eq_true, hfull]
  cases s.lsu.qwrite <;> cases s.buf.uncoreSpcGrant <;> simp

theorem count_le (h : Inv s c) : c.size + s.buf.writeReq.toNat + s.buf.uncoreSpcGrant.toNat +
    s.buf.atomicAckSecond.toNat ≤ 2 := h.count ▸ s.lsu.count_le

/-- A packet on its way finds room. -/
theorem room (h : Inv s c) (hw : s.buf.writeReq = true) : c.size ≤ 1 := by
  have := h.count_le
  rw [hw, Bool.toNat_true] at this
  omega

end Inv

namespace Content

variable {s : State} {c : Content} {i : Input}

/-- The contents after the packet of the cycle has come in. -/
def written (s : State) (i : Input) (c : Content) : Content :=
  if s.buf.writeReq then c.push i.pcxData s.buf.bufferAtomicNextNext else c

/-- The contents after the cycle. -/
def next (s : State) (i : Input) (c : Content) : Content :=
  if s.pcxbufAck i then (written s i c).pop else written s i c

end Content

namespace Inv

variable {s : State} {c : Content} {i : Input}

/-- An acknowledgement is for something in the buffer: one request that the L1.5 sees whole, or an
atomic request whose second packet comes in this cycle. -/
theorem ack_cases (h : Inv s c) (hok : s.AckOk i) (hack : s.pcxbufAck i = true) :
    (s.buf.bufferAtomic s.buf.readPos = false ∧
      ∃ p q, c = .one p ∨ (c = .two p q ∧ s.buf.writeReq = false)) ∨
    (s.buf.bufferAtomic s.buf.readPos = true ∧
      ∃ p q, (c = .half p ∧ s.buf.writeReq = true) ∨
        (c = .pair p q ∧ s.buf.writeReq = false)) := by
  have hvalid : s.buf.valid = true := by
    unfold State.pcxbufAck at hack
    rw [Bool.or_eq_true, Bool.and_eq_true] at hack
    obtain hl15 | hinvalid := hack
    · exact (hok hl15).1
    · exact hinvalid.1
  have hsize := h.holds.valid.1 hvalid
  have hholds := h.holds
  have hfull : c.size = 2 → s.buf.writeReq = false := by
    intro hc
    cases hw : s.buf.writeReq with
    | false => rfl
    | true =>
      have := h.room hw
      omega
  cases c with
  | empty => exact absurd hsize (by decide)
  | one p => exact .inl ⟨hholds.2.2.2.1, p, p, .inl rfl⟩
  | two p q => exact .inl ⟨hholds.2.2.2.1, p, q, .inr ⟨rfl, hfull rfl⟩⟩
  | half p => exact .inr ⟨hholds.2.2.2.1, p, p, .inl ⟨rfl, (h.half p rfl).1⟩⟩
  | pair p q => exact .inr ⟨hholds.2.2.2.1, p, q, .inr ⟨rfl, hfull rfl⟩⟩

theorem written_holds (h : Inv s c) : (s.buf.write i.pcxData).Holds (c.written s i) := by
  unfold Content.written
  cases hw : s.buf.writeReq with
  | true =>
    rw [if_pos rfl]
    exact h.holds.write hw (h.room hw) fun hn => (h.first hn).1
  | false =>
    unfold PcxBuffer.write
    rw [hw, if_neg Bool.false_ne_true, if_neg Bool.false_ne_true]
    exact h.holds

theorem write_readPos (b : PcxBuffer) (d : Packet) : (b.write d).readPos = b.readPos := by
  unfold PcxBuffer.write
  cases b.writeReq <;> rfl

theorem step_holds (h : Inv s c) (hok : s.AckOk i) : (s.step i).buf.Holds (c.next s i) := by
  have hwritten := h.written_holds (i := i)
  have hpos := write_readPos s.buf i.pcxData
  unfold Content.next
  cases hack : s.pcxbufAck i with
  | false =>
    rw [if_neg Bool.false_ne_true]
    change PcxBuffer.Holds (PcxBuffer.step _ _) _
    refine hwritten.congr ?_ ?_ ?_ ?_ ?_ <;>
      simp only [PcxBuffer.step, State.bufferInput, hack, if_neg Bool.false_ne_true]
  | true =>
    rw [if_pos rfl]
    have hfree : (s.buf.free (s.buf.write i.pcxData)).Holds (c.written s i).pop := by
      obtain ⟨hatomic, p, q, hc⟩ | ⟨hatomic, p, q, hc⟩ := h.ack_cases hok hack
      · apply hwritten.free_single hpos hatomic
        obtain rfl | ⟨rfl, hw⟩ := hc
        · unfold Content.written
          cases s.buf.writeReq with
          | true => exact ⟨p, i.pcxData, .inr rfl⟩
          | false => exact ⟨p, p, .inl rfl⟩
        · unfold Content.written
          rw [hw]
          exact ⟨p, q, .inr rfl⟩
      · have hpair : ∃ p q, c.written s i = .pair p q := by
          unfold Content.written
          obtain ⟨rfl, hw⟩ | ⟨rfl, hw⟩ := hc
          · rw [hw]
            exact ⟨p, i.pcxData, rfl⟩
          · rw [hw]
            exact ⟨p, q, rfl⟩
        obtain ⟨p', q', heq⟩ := hpair
        rw [heq] at hwritten ⊢
        exact hwritten.free_pair hatomic
    change PcxBuffer.Holds (PcxBuffer.step _ _) _
    refine hfree.congr ?_ ?_ ?_ ?_ ?_ <;>
      simp only [PcxBuffer.step, State.bufferInput, hack, if_true]

/-- The entries that an acknowledgement frees. -/
def freed (s : State) (i : Input) : Nat :=
  if s.pcxbufAck i then (if s.buf.bufferAtomic s.buf.readPos then 2 else 1) else 0

theorem size_written (h : Inv s c) :
    (c.written s i).size = c.size + s.buf.writeReq.toNat := by
  unfold Content.written
  cases hw : s.buf.writeReq with
  | false => rfl
  | true =>
    rw [if_pos rfl]
    have hroom := h.room hw
    cases c with
    | empty => cases s.buf.bufferAtomicNextNext <;> rfl
    | one p => rfl
    | two p q => exact absurd hroom (Nat.not_succ_le_self 1)
    | half p => rfl
    | pair p q => exact absurd hroom (Nat.not_succ_le_self 1)

theorem size_next (h : Inv s c) (hok : s.AckOk i) :
    (c.next s i).size + freed s i = c.size + s.buf.writeReq.toNat := by
  unfold Content.next freed
  cases hack : s.pcxbufAck i with
  | false =>
    rw [if_neg Bool.false_ne_true, if_neg Bool.false_ne_true, h.size_written]
    rfl
  | true =>
    rw [if_pos rfl, if_pos rfl]
    obtain ⟨hatomic, p, q, hc⟩ | ⟨hatomic, p, q, hc⟩ := h.ack_cases hok hack
    · rw [hatomic]
      obtain rfl | ⟨rfl, hw⟩ := hc
      · unfold Content.written
        cases s.buf.writeReq <;> rfl
      · unfold Content.written
        rw [hw]
        rfl
    · rw [hatomic]
      unfold Content.written
      obtain ⟨rfl, hw⟩ | ⟨rfl, hw⟩ := hc
      · rw [hw]
        rfl
      · rw [hw]
        rfl

/-- The request of the cycle that is not squashed. -/
def accepted (s : State) : Bool :=
  s.lsu.spcPcxReqPq && !s.lsu.pcxReqSquash s.buf.uncoreSpcGrant

theorem step_writeReq (h : Inv s c) :
    (s.step i).buf.writeReq = (accepted s || s.buf.bufferAtomicNextNext) := by
  change (s.lsu.spcPcxReqPq && !s.buf.isReqSquashed (s.bufferInput i) ||
    s.buf.atomicReqSecondPacketComing) = _
  rw [h.squash_eq, h.secondComing]
  rfl

theorem step_nextNext (h : Inv s c) : (s.step i).buf.bufferAtomicNextNext = s.lsu.spcPcxAtomPq := by
  change (s.lsu.spcPcxAtomPq && !s.buf.isReqSquashed (s.bufferInput i)) = _
  rw [h.squash_eq]
  cases ha : s.lsu.spcPcxAtomPq with
  | false => rfl
  | true =>
    have hpre : s.lsu.qwrite = true := by
      rw [← Bool.not_eq_false, Lsu.qwrite_eq_false h.ordered, (h.atom ha).2]
      decide
    rw [Lsu.pcxReqSquash, hpre]
    simp

/-- What is left of the credits after the cycle. -/
theorem step_count (h : Inv s c) (hok : s.AckOk i) :
    (s.step i).lsu.count = (c.next s i).size + (s.step i).buf.writeReq.toNat +
      (s.step i).buf.uncoreSpcGrant.toNat + (s.step i).buf.atomicAckSecond.toNat := by
  have hcount := h.count
  have hsize := h.size_next hok
  have hlsu := Lsu.count_step s.buf.uncoreSpcGrant i.want i.stL2bnkDest h.ordered (by
    intro hg
    rw [hcount, hg, Bool.toNat_true]
    omega)
  change (s.step i).lsu.count + _ = _ at hlsu
  rw [h.step_writeReq]
  have hsend : (s.lsu.spcPcxReqUpdateW2 && !(!s.lsu.qwrite && !s.buf.uncoreSpcGrant)) =
      (accepted s || s.buf.bufferAtomicNextNext) := by
    rw [h.update]
    unfold accepted Lsu.pcxReqSquash
    cases hn : s.buf.bufferAtomicNextNext with
    | false => cases s.lsu.spcPcxReqPq <;> simp
    | true =>
      obtain ⟨rfl, hw, hg, -⟩ := h.first hn
      have hpre : s.lsu.qwrite = true := by
        rw [← Bool.not_eq_false, Lsu.qwrite_eq_false h.ordered, hcount, hw, hg,
          h.ackSecond_of_not_grant hg]
        decide
      rw [hpre]
      simp
  rw [hsend] at hlsu
  have hgrants : (s.step i).buf.uncoreSpcGrant.toNat + (s.step i).buf.atomicAckSecond.toNat =
      freed s i + s.buf.atomicAckSecond.toNat := by
    change (s.pcxbufAck i || s.buf.atomicAckSecond).toNat + _ = _
    rw [step_ackSecond]
    unfold freed
    cases hack : s.pcxbufAck i with
    | false => simp
    | true =>
      -- the grant of the second packet is over before the next request can be acknowledged
      have hno : s.buf.atomicAckSecond = false := by
        cases ha : s.buf.atomicAckSecond with
        | false => rfl
        | true =>
          have hle := h.count_le
          have hfreed : 1 ≤ freed s i := by
            unfold freed
            rw [hack, if_pos rfl]
            cases s.buf.bufferAtomic s.buf.readPos <;> decide
          rw [ha, h.ackSecond ha, Bool.toNat_true] at hle
          omega
      rw [hno]
      cases s.buf.bufferAtomic s.buf.readPos <;> rfl
  omega

/-- Nothing happens to the empty buffer without a packet on its way. -/
theorem next_of_idle (h : Inv s c) (hok : s.AckOk i) (hcount : s.lsu.count = 0) :
    c.next s i = .empty ∧ s.pcxbufAck i = false ∧ s.buf.atomicAckSecond = false := by
  have hc := h.count
  rw [hcount] at hc
  have hsize : c.size = 0 := by omega
  have hw : s.buf.writeReq = false := by
    cases hw : s.buf.writeReq with
    | false => rfl
    | true =>
      rw [hw, Bool.toNat_true] at hc
      omega
  have hack : s.pcxbufAck i = false := by
    cases hack : s.pcxbufAck i with
    | false => rfl
    | true =>
      obtain ⟨-, p, q, rfl | ⟨rfl, -⟩⟩ | ⟨-, p, q, ⟨rfl, -⟩ | ⟨rfl, -⟩⟩ := h.ack_cases hok hack <;>
        exact absurd hsize (Nat.succ_ne_zero _)
  have hsecond : s.buf.atomicAckSecond = false := by
    cases ha : s.buf.atomicAckSecond with
    | false => rfl
    | true =>
      rw [ha, Bool.toNat_true] at hc
      omega
  refine ⟨?_, hack, hsecond⟩
  unfold Content.next Content.written
  rw [hack, hw, if_neg Bool.false_ne_true, if_neg Bool.false_ne_true]
  cases c with
  | empty => rfl
  | one p => cases hsize
  | two p q => cases hsize
  | half p => cases hsize
  | pair p q => cases hsize

/-- Half a request is left only by the first packet of an atomic request. -/
theorem next_eq_half (h : Inv s c) {p : Packet} (hp : c.next s i = .half p) :
    c = .empty ∧ s.buf.bufferAtomicNextNext = true ∧ p = i.pcxData := by
  unfold Content.next Content.written at hp
  cases hack : s.pcxbufAck i with
  | true =>
    rw [hack, if_pos rfl] at hp
    generalize (if s.buf.writeReq = true then _ else _ : Content) = c₁ at hp
    cases c₁ <;> cases hp
  | false =>
    rw [hack, if_neg Bool.false_ne_true] at hp
    cases hw : s.buf.writeReq with
    | false =>
      rw [hw, if_neg Bool.false_ne_true] at hp
      have := (h.half p hp).1
      rw [hw] at this
      cases this
    | true =>
      rw [hw, if_pos rfl] at hp
      have hroom := h.room hw
      cases c with
      | empty =>
        cases hn : s.buf.bufferAtomicNextNext with
        | false =>
          rw [hn] at hp
          cases hp
        | true =>
          rw [hn] at hp
          cases hp
          exact ⟨rfl, rfl, rfl⟩
      | one p => cases hp
      | two p q => exact absurd hroom (Nat.not_succ_le_self 1)
      | half p => cases hp
      | pair p q => exact absurd hroom (Nat.not_succ_le_self 1)

theorem step (h : Inv s c) (hok : s.AckOk i) : Inv (s.step i) (c.next s i) where
  holds := h.step_holds hok
  ordered := Lsu.ordered_step h.ordered
  count := h.step_count hok
  ackSecond := by
    rw [step_ackSecond, Bool.and_eq_true]
    intro ha
    change (s.pcxbufAck i || _) = true
    rw [ha.1, Bool.true_or]
  secondComing := rfl
  first := by
    intro hn
    rw [h.step_nextNext] at hn
    obtain ⟨hreq, hcount⟩ := h.atom hn
    obtain ⟨hempty, hack, hsecond⟩ := h.next_of_idle hok hcount
    refine ⟨hempty, ?_, ?_, ?_⟩
    · rw [h.step_writeReq]
      have hnext := h.step_nextNext (i := i)
      change (s.lsu.spcPcxAtomPq && !s.buf.isReqSquashed (s.bufferInput i)) = _ at hnext
      rw [hn, Bool.true_and, h.squash_eq] at hnext
      unfold accepted
      rw [hreq, hnext]
      rfl
    · change (s.pcxbufAck i || s.buf.atomicAckSecond) = false
      rw [hack, hsecond]
      rfl
    · change (s.lsu.picked i.want i.stL2bnkDest).isSome = false
      rw [Lsu.picked_of_atomPq hn, Option.isSome_none]
  half := by
    intro p hp
    obtain ⟨hempty, hn, -⟩ := h.next_eq_half hp
    refine ⟨?_, ?_⟩
    · rw [h.step_writeReq, hn, Bool.or_true]
    · rw [h.step_nextNext, ← Bool.not_eq_true]
      intro ha
      have hcount := h.count
      rw [(h.atom ha).2, (h.first hn).2.1, Bool.toNat_true] at hcount
      omega
  update := by
    rw [h.step_nextNext]
    change (if s.lsu.spcPcxAtomPq then s.lsu.spcPcxReqPq else s.lsu.pcxRqSel i.want i.stL2bnkDest) =
      (s.lsu.pcxRqSel i.want i.stL2bnkDest || s.lsu.spcPcxAtomPq)
    cases ha : s.lsu.spcPcxAtomPq with
    | false => rw [if_neg Bool.false_ne_true, Bool.or_false]
    | true => rw [if_pos rfl, (h.atom ha).1, Bool.or_true]
  atom := by
    intro ha
    obtain ⟨hsel, h0, hu⟩ := Lsu.of_spcPcxAtomW ha
    refine ⟨hsel, ?_⟩
    have hcount0 : s.lsu.count = 0 := by
      have hordered := h.ordered
      unfold Lsu.Ordered at hordered
      unfold Lsu.count
      cases h1 : s.lsu.entry1Full with
      | false => rw [h0]; rfl
      | true =>
        rw [hordered h1] at h0
        cases h0
    obtain ⟨hempty, hack, hsecond⟩ := h.next_of_idle hok hcount0
    have hquiet := h.update
    rw [hu] at hquiet
    obtain ⟨hreq, hn⟩ := Bool.or_eq_false_iff.1 hquiet.symm
    have hw : (s.step i).buf.writeReq = false := by
      rw [h.step_writeReq, hn, Bool.or_false]
      unfold accepted
      rw [hreq, Bool.false_and]
    have hg : (s.step i).buf.uncoreSpcGrant = false := by
      change (s.pcxbufAck i || s.buf.atomicAckSecond) = false
      rw [hack, hsecond]
      rfl
    have ha2 : (s.step i).buf.atomicAckSecond = false := by
      rw [step_ackSecond, hack, Bool.false_and]
    rw [h.step_count hok, hempty, hw, hg, ha2]
    rfl

end Inv

namespace LogInv

variable {s : State} {c : Content} {g : Log} {i : Input}

theorem step (hl : LogInv s c g) (h : Inv s c) (hok : s.AckOk i) :
    LogInv (s.step i) (c.next s i) (g.record s i) where
  sendingAtomic := by
    change (s.lsu.spcPcxAtomPq && !s.lsu.pcxReqSquash s.buf.uncoreSpcGrant) =
      (s.lsu.spcPcxAtomPq && !s.buf.isReqSquashed (s.bufferInput i))
    rw [h.squash_eq]
  sendingSecond := by
    change g.sendingAtomic = true ↔ _
    rw [hl.sendingAtomic]
    constructor
    · intro hn
      obtain ⟨rfl, hw, -⟩ := h.first hn
      refine ⟨i.pcxData, ?_⟩
      unfold Content.next Content.written
      cases hack : s.pcxbufAck i with
      | false =>
        rw [hw, hn]
        rfl
      | true =>
        obtain ⟨-, p, q, hc | ⟨hc, -⟩⟩ | ⟨-, p, q, ⟨hc, -⟩ | ⟨hc, -⟩⟩ := h.ack_cases hok hack <;>
          cases hc
    · rintro ⟨p, hp⟩
      exact (h.next_eq_half hp).2.1
  sending := by
    change Inv.accepted s = ((s.step i).buf.writeReq && !g.sendingAtomic)
    rw [h.step_writeReq, hl.sendingAtomic]
    cases hn : s.buf.bufferAtomicNextNext with
    | false => simp
    | true =>
      unfold Inv.accepted
      rw [(h.first hn).2.2.2]
      rfl
  half := by
    intro p hp
    obtain ⟨rfl, hn, rfl⟩ := h.next_eq_half hp
    have hsecond : g.sendingSecond = false := by
      rw [← Bool.not_eq_true, hl.sendingSecond]
      rintro ⟨p, hp⟩
      cases hp
    change (if g.sending then i.pcxData else g.first) = i.pcxData
    rw [hl.sending, hsecond, (h.first hn).2.1]
    rfl

theorem sendingSecond_eq_false (hl : LogInv s c g) (hc : ∀ p, c ≠ .half p) :
    g.sendingSecond = false := by
  rw [← Bool.not_eq_true, hl.sendingSecond]
  rintro ⟨p, hp⟩
  exact hc p hp

/-- What the core sends in the cycle is what comes into the buffer. -/
theorem held_written (hl : LogInv s c g) (h : Inv s c) :
    (c.written s i).held = c.held ++ (g.completes i).toList := by
  unfold Content.written Log.completes
  rw [hl.sending, hl.sendingAtomic]
  cases hw : s.buf.writeReq with
  | false =>
    have hsecond := hl.sendingSecond_eq_false fun p hp => by
      have := (h.half p hp).1
      rw [hw] at this
      cases this
    rw [hsecond, if_neg Bool.false_ne_true, if_neg Bool.false_ne_true]
    simp
  | true =>
    have hroom := h.room hw
    rw [if_pos rfl]
    cases c with
    | empty =>
      have hsecond := hl.sendingSecond_eq_false fun p hp => Content.noConfusion hp
      rw [hsecond, if_neg Bool.false_ne_true]
      cases s.buf.bufferAtomicNextNext <;> rfl
    | one p =>
      have hn : s.buf.bufferAtomicNextNext = false := by
        rw [← Bool.not_eq_true]
        intro hn
        cases (h.first hn).1
      have hsecond := hl.sendingSecond_eq_false fun p hp => Content.noConfusion hp
      rw [hsecond, hn]
      rfl
    | two p q => exact absurd hroom (Nat.not_succ_le_self 1)
    | half p =>
      rw [hl.sendingSecond.2 ⟨p, rfl⟩, if_pos rfl, hl.half p rfl]
      rfl
    | pair p q => exact absurd hroom (Nat.not_succ_le_self 1)

end LogInv

/-- A delivery is the request that was sent. Of an atomic request that is acknowledged before its
second packet is in the buffer, the first packet is. -/
def Delivery.Of (r : Request) (d : Delivery) : Prop :=
  (d.early = false → d.request = r) ∧
  (d.early = true → ∃ p q stale, r = .atomic p q ∧ d.request = .atomic p stale)

section Deliver

variable {s : State} {c : Content} {i : Input}

/-- What an acknowledgement takes is the oldest request in the buffer. -/
theorem Inv.takes (h : Inv s c) (hok : s.AckOk i) (hack : s.pcxbufAck i = true) :
    ∃ r d, Log.takes s i = some d ∧ Delivery.Of r d ∧
      (c.written s i).held = r :: (c.written s i).pop.held := by
  have hholds := h.holds
  unfold Log.takes Content.written
  rw [hack, if_pos rfl]
  obtain ⟨hatomic, p, q, hc⟩ | ⟨hatomic, p, q, hc⟩ := h.ack_cases hok hack
  · rw [hatomic, if_neg Bool.false_ne_true]
    refine ⟨.single p, _, rfl, ⟨?_, fun he => by cases he⟩, ?_⟩
    · intro _
      obtain rfl | ⟨rfl, -⟩ := hc
      · exact congrArg Request.single hholds.2.2.2.2
      · exact congrArg Request.single hholds.2.2.2.2.1
    · obtain rfl | ⟨rfl, hw⟩ := hc
      · cases s.buf.writeReq <;> rfl
      · rw [hw]
        rfl
  · rw [hatomic, if_pos rfl]
    obtain ⟨rfl, hw⟩ | ⟨rfl, hw⟩ := hc
    · refine ⟨.atomic p i.pcxData, _, rfl, ⟨?_, ?_⟩, ?_⟩
      · intro he
        rw [hholds.2.1] at he
        cases he
      · intro _
        refine ⟨p, i.pcxData, s.buf.dataBuf1, rfl, ?_⟩
        unfold PcxBuffer.dataOut
        rw [hholds.2.2.2.2]
      · rw [hw]
        rfl
    · refine ⟨.atomic p q, _, rfl, ⟨?_, ?_⟩, ?_⟩
      · intro _
        unfold PcxBuffer.dataOut PcxBuffer.dataBuf1
        rw [hholds.2.2.2.2.1, hholds.2.2.2.2.2]
      · intro he
        rw [hholds.2.1] at he
        cases he
      · rw [hw]
        rfl

/-- The requests sent are those delivered, in order, and after them those in the buffer. -/
def Balanced (c : Content) (g : Log) : Prop :=
  ∃ old, g.sent = old ++ c.held ∧ List.Forall₂ Delivery.Of old g.delivered

theorem Balanced.step {g : Log} (hb : Balanced c g) (hl : LogInv s c g) (h : Inv s c)
    (hok : s.AckOk i) : Balanced (c.next s i) (g.record s i) := by
  obtain ⟨old, hsent, hold⟩ := hb
  have hsent' : (g.record s i).sent = old ++ (c.written s i).held := by
    change g.sent ++ _ = _
    rw [hsent, hl.held_written h, List.append_assoc]
  unfold Content.next
  cases hack : s.pcxbufAck i with
  | false =>
    refine ⟨old, ?_, ?_⟩
    · rw [hsent', if_neg Bool.false_ne_true]
    · change List.Forall₂ _ old (g.delivered ++ (Log.takes s i).toList)
      unfold Log.takes
      rw [hack, if_neg Bool.false_ne_true, Option.toList_none, List.append_nil]
      exact hold
  | true =>
    obtain ⟨r, d, htakes, hof, hheld⟩ := h.takes hok hack
    refine ⟨old ++ [r], ?_, ?_⟩
    · rw [hsent', hheld, if_pos rfl, List.append_assoc]
      rfl
    · change List.Forall₂ _ _ (g.delivered ++ (Log.takes s i).toList)
      rw [htakes, Option.toList_some]
      exact List.rel_append hold (List.Forall₂.cons hof .nil)

theorem Inv.of_isReset {s : State} (h : s.IsReset) : Inv s .empty where
  holds := by
    refine ⟨?_, ?_, ?_⟩
    · rw [h.bufferVal]
    · rw [h.bufferVal]
    · rw [h.writePos, h.readPos]
  ordered := by
    rw [h.lsu]
    exact id
  count := by
    rw [h.lsu, h.writeReq, h.uncoreSpcGrant, h.atomicAckSecond]
    rfl
  ackSecond := by
    rw [h.atomicAckSecond]
    exact fun ha => Bool.noConfusion ha
  secondComing := by rw [h.atomicReqSecondPacketComing, h.bufferAtomicNextNext]
  first := by
    rw [h.bufferAtomicNextNext]
    exact fun hn => Bool.noConfusion hn
  half p hp := Content.noConfusion hp
  update := by
    rw [h.lsu, h.bufferAtomicNextNext]
    rfl
  atom := by
    rw [h.lsu]
    exact fun ha => Bool.noConfusion ha

theorem LogInv.of_isReset {s : State} (h : s.IsReset) : LogInv s .empty Log.empty where
  sendingAtomic := h.bufferAtomicNextNext.symm
  sendingSecond := by
    constructor
    · exact fun hs => Bool.noConfusion hs
    · rintro ⟨p, hp⟩
      cases hp
  sending := by
    rw [h.writeReq]
    rfl
  half p hp := Content.noConfusion hp

theorem exists_content {z : State × Log}
    (hz : logged.Reachable (fun z i => z.1.AckOk i) z) :
    ∃ c, Inv z.1 c ∧ LogInv z.1 c z.2 ∧ Balanced c z.2 := by
  refine hz.invariant (P := fun z => ∃ c, Inv z.1 c ∧ LogInv z.1 c z.2 ∧ Balanced c z.2) ?_ ?_
  · rintro ⟨s, g⟩ ⟨hreset, rfl⟩
    exact ⟨.empty, .of_isReset hreset, .of_isReset hreset, [], rfl, .nil⟩
  · rintro ⟨s, g⟩ i ⟨c, hinv, hlog, hbal⟩ hok
    exact ⟨c.next s i, hinv.step hok, hlog.step hinv hok, hbal.step hlog hinv hok⟩

end Deliver

/-! ### What holds in every run -/

/-- The complete requests in the buffer, the oldest first. -/
def PcxBuffer.waiting (b : PcxBuffer) : List Request :=
  if b.bufferVal b.readPos then
    if b.bufferAtomic b.readPos then
      if b.bufferVal (!b.readPos) then [.atomic b.dataOut b.dataBuf1] else []
    else .single b.dataOut :: if b.bufferVal (!b.readPos) then [.single b.dataBuf1] else []
  else []

theorem PcxBuffer.Holds.waiting {b : PcxBuffer} {c : Content} (h : b.Holds c) :
    b.waiting = c.held := by
  unfold PcxBuffer.waiting PcxBuffer.dataOut PcxBuffer.dataBuf1
  cases c with
  | empty => simp [h.1, Content.held]
  | one p => simp [h.1, h.2.1, h.2.2.2.1, h.2.2.2.2, Content.held]
  | two p q => simp [h.1, h.2.1, h.2.2.2.1, h.2.2.2.2.1, h.2.2.2.2.2.2, Content.held]
  | half p => simp [h.1, h.2.1, h.2.2.2.1, Content.held]
  | pair p q => simp [h.1, h.2.1, h.2.2.2.1, h.2.2.2.2.1, h.2.2.2.2.2, Content.held]

/-- The L1.5 sees the request: the fields of its packet, and with them the data of the second packet
of an atomic request. -/
def Request.Seen : Request → Decoded → Prop
  | .single p, d => ∃ q, d = decode p q
  | .atomic p q, d => d = decode p q

/-- A reachable state and the inputs of its cycle. -/
structure Lossless (z : State × Log) (i : Input) : Prop where
  /-- Every request sent has been delivered, once and in order, or waits in the buffer. -/
  balanced : ∃ old, z.2.sent = old ++ z.1.buf.waiting ∧
    List.Forall₂ Delivery.Of old z.2.delivered
  /-- What the L1.5 is shown is the oldest request in the buffer, or an atomic request whose second
  packet comes in the same cycle. -/
  presented : z.1.l15Val = true →
    (∃ r rest, z.1.buf.waiting = r :: rest ∧ r.Seen z.1.l15Request) ∨
      ∃ p stale, z.2.completes i = some (.atomic p i.pcxData) ∧ z.1.l15Request = decode p stale
  /-- A delivery is early only if the second packet of the request comes in the same cycle. -/
  early : ∀ d, Log.takes z.1 i = some d → d.early = true →
    ∃ p stale, z.2.completes i = some (.atomic p i.pcxData) ∧ d.request = .atomic p stale
  /-- The core and the buffer agree on the requests that are squashed. -/
  squashed : z.1.buf.isReqSquashed (z.1.bufferInput i) =
    z.1.lsu.pcxReqSquash z.1.buf.uncoreSpcGrant
  /-- A packet is written into a free entry. -/
  noOverwrite : z.1.buf.writeReq = true → z.1.buf.bufferVal z.1.buf.writePos = false

theorem Inv.noOverwrite {s : State} {c : Content} (h : Inv s c) (hw : s.buf.writeReq = true) :
    s.buf.bufferVal s.buf.writePos = false := by
  have hroom := h.room hw
  have hholds := h.holds
  cases c with
  | empty =>
    rw [hholds.2.2]
    exact hholds.1
  | one p =>
    rw [hholds.2.2.1]
    exact hholds.2.1
  | two p q => exact absurd hroom (Nat.not_succ_le_self 1)
  | half p =>
    rw [hholds.2.2.1]
    exact hholds.2.1
  | pair p q => exact absurd hroom (Nat.not_succ_le_self 1)

theorem Inv.early {s : State} {c : Content} {g : Log} {i : Input} (h : Inv s c)
    (hl : LogInv s c g) (hok : s.AckOk i) {d : Delivery} (hd : Log.takes s i = some d)
    (he : d.early = true) :
    ∃ p stale, g.completes i = some (.atomic p i.pcxData) ∧ d.request = .atomic p stale := by
  have hholds := h.holds
  unfold Log.takes at hd
  cases hack : s.pcxbufAck i with
  | false =>
    rw [hack] at hd
    cases hd
  | true =>
    rw [hack, if_pos rfl] at hd
    obtain ⟨hatomic, -⟩ | ⟨hatomic, p, q, hc⟩ := h.ack_cases hok hack
    · rw [hatomic] at hd
      cases hd
      cases he
    · rw [hatomic, if_pos rfl] at hd
      cases hd
      obtain ⟨rfl, -⟩ | ⟨rfl, -⟩ := hc
      · refine ⟨p, s.buf.dataBuf1, ?_, ?_⟩
        · unfold Log.completes
          rw [hl.sendingSecond.2 ⟨p, rfl⟩, if_pos rfl, hl.half p rfl]
        · unfold PcxBuffer.dataOut
          rw [hholds.2.2.2.2]
      · rw [hholds.2.1] at he
        cases he

theorem Inv.presented {s : State} {c : Content} {g : Log} {i : Input} (h : Inv s c)
    (hl : LogInv s c g) (hval : s.l15Val = true) :
    (∃ r rest, s.buf.waiting = r :: rest ∧ r.Seen s.l15Request) ∨
      ∃ p stale, g.completes i = some (.atomic p i.pcxData) ∧ s.l15Request = decode p stale := by
  have hholds := h.holds
  unfold State.l15Val at hval
  rw [Bool.and_eq_true, Bool.and_eq_true] at hval
  have hsize := hholds.valid.1 hval.1.1
  rw [hholds.waiting]
  unfold State.l15Request PcxBuffer.dataOut PcxBuffer.dataBuf1
  cases c with
  | empty => exact absurd hsize (Nat.lt_irrefl 0)
  | one p => exact .inl ⟨.single p, [], rfl, _, by rw [hholds.2.2.2.2]⟩
  | two p q => exact .inl ⟨.single p, [.single q], rfl, _, by rw [hholds.2.2.2.2.1]⟩
  | half p =>
    refine .inr ⟨p, s.buf.buffer (!s.buf.readPos), ?_, by rw [hholds.2.2.2.2]⟩
    unfold Log.completes
    rw [hl.sendingSecond.2 ⟨p, rfl⟩, if_pos rfl, hl.half p rfl]
  | pair p q =>
    refine .inl ⟨.atomic p q, [], rfl, ?_⟩
    change decode _ _ = decode p q
    rw [hholds.2.2.2.2.1, hholds.2.2.2.2.2]

/-- In every run the buffer delivers the requests that are not squashed once each and in order; an
atomic request that is acknowledged in the first cycle in which it is presented loses its second
packet, which comes in that cycle. -/
theorem pcxBuffer_lossless (z : State × Log) (hz : logged.Reachable (fun z i => z.1.AckOk i) z)
    (i : Input) (hok : z.1.AckOk i) : Lossless z i := by
  obtain ⟨c, hinv, hlog, old, hsent, hold⟩ := exists_content hz
  exact
    { balanced := ⟨old, by rw [hinv.holds.waiting]; exact hsent, hold⟩
      presented := fun hval => hinv.presented hlog hval
      early := fun _ hd he => hinv.early hlog hok hd he
      squashed := hinv.squash_eq
      noOverwrite := hinv.noOverwrite }

/-- The state after a reset, with zeros beside the packets. -/
def resetState : State where
  lsu := ⟨false, false, fun _ => false, false, 0, false, false, false⟩
  buf := ⟨fun _ => ⟨0, 0⟩, fun _ => false, false, fun _ => false, false, false, false, false, false,
    false⟩
  isMessageNew := true

theorem resetState_init : logged.init (resetState, Log.empty) :=
  ⟨{ lsu := rfl, buffer := fun _ => rfl, bufferAtomic := rfl, bufferVal := rfl,
     bufferAtomicNextNext := rfl, readPos := rfl, writePos := rfl, writeReq := rfl,
     atomicReqSecondPacketComing := rfl, atomicAckSecond := rfl, uncoreSpcGrant := rfl,
     isMessageNew := rfl }, rfl⟩

/-- A valid packet with the given data. -/
def packet (d : BitVec 64) : Packet := ⟨1#60 <<< 59 ++ d, 0⟩

/-- Nothing is asked for or acknowledged; the stores are for bank 0. -/
def quietInput : Input where
  want := none
  stL2bnkDest := fun _ => 1
  pcxData := ⟨0, 0⟩
  l15PcxdecoderAck := false
  l15PcxdecoderHeaderAck := false

/-- A request of bank `d` is asked for. -/
def askInput (d : BitVec 5) : Input := { quietInput with want := some (.other d) }

/-- An atomic request; the L1.5 acknowledges it as soon as its first packet is in the buffer, or a
cycle later. -/
def atomicRun (wait : Bool) : List Input :=
  [{ quietInput with want := some .fpop }, quietInput, { quietInput with pcxData := packet 1 },
    { quietInput with pcxData := packet 2, l15PcxdecoderAck := !wait },
    { quietInput with l15PcxdecoderAck := wait }]

theorem atomicRun_ok (wait : Bool) : logged.RunOk (fun z i => z.1.AckOk i)
    (resetState, Log.empty) (atomicRun wait) := by
  cases wait <;> decide

/-- Two requests fill the queue; two for another bank follow, of which the first is squashed and the
second comes with the grant. An atomic store waits for both entries and keeps another request from
its bank. -/
def squashRun : List Input :=
  [askInput 1, askInput 1, { quietInput with pcxData := packet 1 },
    { askInput 2 with pcxData := packet 2 }, { askInput 2 with l15PcxdecoderAck := true },
    quietInput, { quietInput with pcxData := packet 3, l15PcxdecoderAck := true },
    { quietInput with l15PcxdecoderAck := true }, { quietInput with want := some (.store 0 true) },
    askInput 1, { quietInput with want := some (.store 0 true) }, quietInput,
    { quietInput with pcxData := packet 4 }, { quietInput with pcxData := packet 5 },
    { quietInput with l15PcxdecoderAck := true }]

theorem squashRun_ok :
    logged.RunOk (fun z i => z.1.AckOk i) (resetState, Log.empty) squashRun := by
  decide +kernel

theorem pcxBuffer_lossless_squashRun :
    Lossless (logged.run (resetState, Log.empty) squashRun) quietInput ∧
      (logged.run (resetState, Log.empty) squashRun).2.delivered.map Delivery.request =
        [.single (packet 1), .single (packet 2), .single (packet 3),
          .atomic (packet 4) (packet 5)] :=
  ⟨pcxBuffer_lossless _ (.run (.init resetState_init) squashRun_ok) _ (by decide),
    by decide +kernel⟩

/-- What has been delivered need not be what was sent: the L1.5 sees an old packet in place of the
second one. -/
theorem not_pcxBuffer_delivers : ¬∀ z, logged.Reachable (fun z i => z.1.AckOk i) z →
    z.2.delivered.map Delivery.request <+: z.2.sent := by
  intro h
  have hrun := h _ (.run (.init resetState_init) (atomicRun_ok false))
  revert hrun
  decide +kernel

end Piton.Pcx
