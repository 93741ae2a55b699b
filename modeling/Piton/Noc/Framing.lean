import Mathlib.Data.Fintype.Basic
import Mathlib.Tactic.FinCases
import Piton.Lib.Machine
import Piton.Lib.Packets
import Piton.Noc.Decoder

/-! `simplenocbuffer` cuts the flits that it takes into messages and presents them one at a time. -/

namespace Piton.Noc

open Hw

/-- The inputs of `simplenocbuffer` in one cycle. -/
structure SimpleNocBufferIn where
  nocIn : Option Flit
  msgAck : Bool

/-- What has passed the buffer: the flits taken and the messages that were presented and acked. -/
structure NocHistory where
  taken : List Flit
  acked : List (List Flit)

/-- The flits of a message, as many as its header says. -/
def messageFlits (m : BitVec 512) : List Flit :=
  (List.range (Flit.len (m.extractLsb' 0 64) + 1)).map fun k => m.extractLsb' (64 * k) 64

namespace SimpleNocBuffer

variable (b : SimpleNocBuffer) (i : SimpleNocBufferIn)

/-- The message on the output. -/
def presented : Option (List Flit) := if b.msgVal then some (messageFlits b.msg) else none

/-- The flit that the buffer takes in this cycle. -/
def takes : Option Flit := if b.nocInRdy then i.nocIn else none

/-- The message that the consumer acks in this cycle. -/
def acks : Option (List Flit) := if i.msgAck then b.presented else none

end SimpleNocBuffer

/-- What one cycle takes from the network and hands over. -/
def NocHistory.record (g : NocHistory) (b : SimpleNocBuffer) (i : SimpleNocBufferIn) :
    NocHistory where
  taken := g.taken ++ (b.takes i).toList
  acked := g.acked ++ (b.acks i).toList

/-- The buffer with the record of what has passed it. -/
def receiver : Machine (SimpleNocBuffer × NocHistory) SimpleNocBufferIn :=
  Machine.withHistory
    { init := fun b => b = ⟨0, .idle, fun _ => 0⟩
      step := fun b i => b.step i.nocIn i.msgAck }
    ⟨[], []⟩ NocHistory.record

/-- A flit that begins a message says at most seven further flits. -/
def ShortMessages (y : SimpleNocBuffer × NocHistory) (i : SimpleNocBufferIn) : Prop :=
  due Flit.len y.2.taken = 0 → ∀ f ∈ i.nocIn, f.len ≤ 7

namespace SimpleNocBuffer

variable {b : SimpleNocBuffer} {g : NocHistory} {i : SimpleNocBufferIn} {rest : List Flit} {f : Flit}

/-- The stream taken is the messages acked and then `rest`, which the buffer holds. -/
structure Frames (b : SimpleNocBuffer) (g : NocHistory) (rest : List Flit) : Prop where
  stream : g.taken = g.acked.flatten ++ rest
  whole : ∀ m ∈ g.acked, IsPacket Flit.len m 0
  slots : ∀ k : Fin 8, ∀ h : k.val < rest.length, b.buffer k = rest[k.val]
  idle : b.state = .idle → rest = [] ∧ b.index = 0 ∧ due Flit.len g.taken = 0
  receiving : b.state = .receiving → b.index.val = rest.length ∧ due Flit.len g.taken ≠ 0 ∧
    IsPacket Flit.len rest (due Flit.len g.taken) ∧ rest.length + due Flit.len g.taken ≤ 8
  waiting : b.state = .waitingAck → due Flit.len g.taken = 0 ∧ IsPacket Flit.len rest 0 ∧
    rest.length ≤ 8

theorem nocInRdy_iff : b.nocInRdy = true ↔ b.state ≠ .waitingAck := decide_eq_true_iff

theorem extract_msg (b : SimpleNocBuffer) (k : Fin 8) :
    b.msg.extractLsb' (64 * k.val) 64 = b.buffer k := by
  unfold msg
  fin_cases k <;> simp only [Nat.reduceMul]
  all_goals
    simp (disch := omega) only [BitVec.extractLsb'_append_eq_of_add_le,
      BitVec.extractLsb'_append_eq_of_le]
    simp only [Nat.reduceAdd, Nat.reduceSub, BitVec.extractLsb'_eq_self]
    rfl

/-- A whole message in the buffer is read out as it came in. -/
theorem messageFlits_msg (hp : IsPacket Flit.len rest 0) (hle : rest.length ≤ 8)
    (hs : ∀ k : Fin 8, ∀ h : k.val < rest.length, b.buffer k = rest[k.val]) :
    messageFlits b.msg = rest := by
  obtain ⟨h, t, rfl, ht⟩ := hp
  have hhead : b.msg.extractLsb' 0 64 = h := by
    have := extract_msg b 0
    rw [hs 0 (Nat.succ_pos _)] at this
    exact this
  have hlen : (messageFlits b.msg).length = (h :: t).length := by
    rw [messageFlits, List.length_map, List.length_range, hhead, ← ht]
    rfl
  refine List.ext_getElem hlen fun k h1 h2 => ?_
  have hk : k < 8 := by omega
  rw [← hs ⟨k, hk⟩ h2, ← extract_msg b ⟨k, hk⟩]
  simp [messageFlits]

theorem Frames.presented_eq (h : Frames b g rest) :
    b.presented = if b.state = .waitingAck then some rest else none := by
  unfold presented msgVal
  by_cases hw : b.state = .waitingAck
  · obtain ⟨-, hp, hle⟩ := h.waiting hw
    rw [decide_eq_true hw, if_pos rfl, if_pos hw, messageFlits_msg hp hle h.slots]
  · rw [decide_eq_false hw, if_neg Bool.false_ne_true, if_neg hw]

/-- The buffer is empty. -/
theorem Frames.nil (hs : g.taken = g.acked.flatten) (hw : ∀ m ∈ g.acked, IsPacket Flit.len m 0)
    (hst : b.state = .idle) (hi : b.index = 0) (hd : due Flit.len g.taken = 0) :
    Frames b g [] where
  stream := by rw [hs, List.append_nil]
  whole := hw
  slots := fun k hk => absurd hk (Nat.not_lt_zero _)
  idle := fun _ => ⟨rfl, hi, hd⟩
  receiving := fun h => by rw [hst] at h; cases h
  waiting := fun h => by rw [hst] at h; cases h

theorem record_none (ht : b.takes i = none) (ha : b.acks i = none) : g.record b i = g := by
  simp only [NocHistory.record, ht, ha, Option.toList_none, List.append_nil]

theorem takes_of_ready (hr : b.state ≠ .waitingAck) : b.takes i = i.nocIn :=
  if_pos (nocInRdy_iff.2 hr)

theorem acks_of_ready (hr : b.state ≠ .waitingAck) : b.acks i = none := by
  have hp : b.presented = none := by
    unfold presented msgVal
    rw [decide_eq_false hr, if_neg Bool.false_ne_true]
  rw [acks, hp, ite_self]

/-- A flit that is taken goes to the slot after those of its message. -/
theorem Frames.slot (h : Frames b g rest) (hr : b.state ≠ .waitingAck) :
    b.index.val = rest.length := by
  cases hs : b.state with
  | idle =>
    obtain ⟨rfl, hi, -⟩ := h.idle hs
    rw [hi]
    rfl
  | receiving => exact (h.receiving hs).1
  | waitingAck => exact absurd hs hr

theorem buffer_step (h : b.state = .idle → b.index = 0) (hr : b.state ≠ .waitingAck) (f : Flit)
    (ack : Bool) (k : Fin 8) :
    (b.step (some f) ack).buffer k = if k = b.index then f else b.buffer k := by
  unfold step
  cases hs : b.state with
  | idle =>
    rw [h hs]
    simp only
    split <;> rfl
  | receiving =>
    simp only
    split <;> rfl
  | waitingAck => exact absurd hs hr

/-- The slots of a message after one more flit. -/
theorem Frames.slots_snoc (h : Frames b g rest) (hr : b.state ≠ .waitingAck) (ack : Bool)
    (k : Fin 8) (hk : k.val < (rest ++ [f]).length) :
    (b.step (some f) ack).buffer k = (rest ++ [f])[k.val] := by
  rw [buffer_step (fun hi => (h.idle hi).2.1) hr]
  rw [List.length_append, List.length_singleton] at hk
  have hslot := h.slot hr
  by_cases hlt : k.val < rest.length
  · have hne : k ≠ b.index := by
      rintro rfl
      omega
    rw [if_neg hne, List.getElem_append_left hlt]
    exact h.slots k hlt
  · have heq : k = b.index := Fin.ext (by omega)
    subst heq
    rw [if_pos rfl, List.getElem_append_right (by omega)]
    simp [hslot]

theorem record_take (hr : b.state ≠ .waitingAck) (hf : i.nocIn = some f) :
    (g.record b i).taken = g.taken ++ [f] ∧ (g.record b i).acked = g.acked := by
  unfold NocHistory.record
  rw [takes_of_ready hr, acks_of_ready hr, hf]
  exact ⟨rfl, List.append_nil _⟩

/-- One more flit that leaves its message unfinished or finishes it. -/
theorem Frames.grow {n : Nat} (h : Frames b g rest) (hr : b.state ≠ .waitingAck)
    (hf : i.nocIn = some f) (hdue : due Flit.len (g.taken ++ [f]) = n)
    (hpk : IsPacket Flit.len (rest ++ [f]) n) (hle : (rest ++ [f]).length + n ≤ 8)
    (hmore : n ≠ 0 → (b.step (some f) i.msgAck).state = .receiving ∧
      (b.step (some f) i.msgAck).index.val = rest.length + 1)
    (hend : n = 0 → (b.step (some f) i.msgAck).state = .waitingAck) :
    Frames (b.step i.nocIn i.msgAck) (g.record b i) (rest ++ [f]) := by
  obtain ⟨ht, ha⟩ := record_take (g := g) hr hf
  rw [hf]
  by_cases hn : n = 0
  · have hst := hend hn
    refine ⟨?_, ha ▸ h.whole, fun k hk => h.slots_snoc hr i.msgAck k hk, ?_, ?_, fun _ => ?_⟩
    · rw [ht, ha, h.stream, List.append_assoc]
    · rw [hst]
      exact fun hc => by cases hc
    · rw [hst]
      exact fun hc => by cases hc
    · rw [ht, hdue, hn]
      exact ⟨rfl, hn ▸ hpk, by omega⟩
  · obtain ⟨hst, hindex⟩ := hmore hn
    refine ⟨?_, ha ▸ h.whole, fun k hk => h.slots_snoc hr i.msgAck k hk, ?_, fun _ => ?_, ?_⟩
    · rw [ht, ha, h.stream, List.append_assoc]
    · rw [hst]
      exact fun hc => by cases hc
    · rw [ht, hdue]
      refine ⟨?_, hn, hpk, hle⟩
      rw [hindex, List.length_append, List.length_singleton]
    · rw [hst]
      exact fun hc => by cases hc

/-- The first flit of a message. -/
theorem Frames.step_first (h : Frames b g rest) (hs : b.state = .idle) (hf : i.nocIn = some f)
    (hlen : f.len ≤ 7) : Frames (b.step i.nocIn i.msgAck) (g.record b i) [f] := by
  obtain ⟨rfl, hi, hd⟩ := h.idle hs
  have hzero : f.length = 0 ↔ f.len = 0 := by
    rw [Flit.len, ← BitVec.toNat_inj]
    rfl
  refine h.grow (n := f.len) (by rw [hs]; decide) hf ?_ ⟨f, [], rfl, Nat.zero_add _⟩ ?_ ?_ ?_
  · rw [due_snoc, if_pos hd]
  · rw [List.nil_append, List.length_singleton]
    omega
  · intro hn
    unfold step
    rw [hs]
    simp only [mt hzero.1 hn, if_false, true_and, hi]
    rfl
  · intro hn
    unfold step
    rw [hs]
    simp only [hzero.2 hn, if_true]

/-- A later flit of a message. -/
theorem Frames.step_more (h : Frames b g rest) (hs : b.state = .receiving) (hf : i.nocIn = some f) :
    Frames (b.step i.nocIn i.msgAck) (g.record b i) (rest ++ [f]) := by
  obtain ⟨hindex, hdue, ⟨hd, t, rfl, ht⟩, hle⟩ := h.receiving hs
  rw [List.length_cons] at hindex hle
  have hfirst : b.buffer 0 = hd := h.slots 0 (Nat.succ_pos _)
  -- the last flit is the one that nothing is due after
  have hlast : BitVec.ofNat 8 b.index = (b.buffer 0).length ↔ due Flit.len g.taken - 1 = 0 := by
    rw [hfirst, ← BitVec.toNat_inj, BitVec.toNat_ofNat, hindex, Nat.mod_eq_of_lt (by omega)]
    change _ = hd.len ↔ _
    omega
  refine h.grow (n := due Flit.len g.taken - 1) (by rw [hs]; decide) hf ?_ ?_ ?_ ?_ ?_
  · rw [due_snoc, if_neg hdue]
  · refine ⟨hd, t ++ [f], rfl, ?_⟩
    rw [List.length_append, List.length_singleton]
    omega
  · rw [List.length_append, List.length_singleton, List.length_cons]
    omega
  · intro hn
    unfold step
    rw [hs]
    simp only [mt hlast.1 hn, if_false, true_and, List.length_cons]
    change (b.index.val + 1) % 8 = _
    omega
  · intro hn
    unfold step
    rw [hs]
    simp only [hlast.2 hn, if_true]

/-- One clock edge keeps the stream in messages. -/
theorem Frames.step (h : Frames b g rest)
    (hok : due Flit.len g.taken = 0 → ∀ f ∈ i.nocIn, f.len ≤ 7) :
    ∃ rest', Frames (b.step i.nocIn i.msgAck) (g.record b i) rest' := by
  cases hs : b.state with
  | idle =>
    obtain ⟨rfl, hi, hd⟩ := h.idle hs
    have hr : b.state ≠ .waitingAck := by rw [hs]; decide
    cases hf : i.nocIn with
    | none =>
      have hb : b.step none i.msgAck = b := by
        unfold SimpleNocBuffer.step
        rw [hs]
        simp only [← hs]
      rw [hb, record_none ((takes_of_ready hr).trans hf) (acks_of_ready hr)]
      exact ⟨[], h⟩
    | some f =>
      have hstep := h.step_first hs hf (hok hd f hf)
      rw [hf] at hstep
      exact ⟨[f], hstep⟩
  | receiving =>
    have hr : b.state ≠ .waitingAck := by rw [hs]; decide
    cases hf : i.nocIn with
    | none =>
      have hb : b.step none i.msgAck = b := by
        unfold SimpleNocBuffer.step
        rw [hs]
      rw [hb, record_none ((takes_of_ready hr).trans hf) (acks_of_ready hr)]
      exact ⟨rest, h⟩
    | some f =>
      have hstep := h.step_more hs hf
      rw [hf] at hstep
      exact ⟨rest ++ [f], hstep⟩
  | waitingAck =>
    obtain ⟨hd, hp, -⟩ := h.waiting hs
    have ht : b.takes i = none := by
      unfold takes nocInRdy
      rw [hs]
      rfl
    have hpres : b.presented = some rest := by rw [h.presented_eq, if_pos hs]
    cases ha : i.msgAck with
    | false =>
      have hb : b.step i.nocIn false = b := by
        unfold SimpleNocBuffer.step
        rw [hs]
        rfl
      have hacks : b.acks i = none := by
        rw [acks, ha]
        rfl
      rw [hb, record_none ht hacks]
      exact ⟨rest, h⟩
    | true =>
      have hb : b.step i.nocIn true = { b with index := 0, state := .idle } := by
        unfold SimpleNocBuffer.step
        rw [hs]
        rfl
      have hrec : g.record b i = ⟨g.taken, g.acked ++ [rest]⟩ := by
        simp only [NocHistory.record, ht, acks, ha, hpres, Option.toList_none, List.append_nil]
        rfl
      rw [hb, hrec]
      refine ⟨[], Frames.nil ?_ ?_ rfl rfl hd⟩
      · rw [h.stream, List.flatten_append, List.flatten_singleton]
      · intro m hm
        rcases List.mem_append.1 hm with hm | hm
        · exact h.whole m hm
        · rw [List.mem_singleton.1 hm]
          exact hp

/-! ### Whole runs -/

/-- The flits taken are the messages acked, each whole, and then `rest`, the flits so far of one
more message. The message is presented exactly when `rest` is all of it. A flit that is taken is
stored in the slot after the others of its message, and nothing else changes; while the buffer is not
ready nothing changes until the ack, which leaves it empty. -/
structure Framed (b : SimpleNocBuffer) (g : NocHistory) (rest : List Flit) : Prop where
  stream : g.taken = g.acked.flatten ++ rest
  whole : ∀ m ∈ g.acked, IsPacket Flit.len m 0
  part : rest = [] ∨ ∃ lack, IsPacket Flit.len rest lack
  presents : ∀ m, b.presented = some m ↔ m = rest ∧ IsPacket Flit.len m 0
  stores : b.nocInRdy = true → ∀ f ack, ∃ k : Fin 8, k.val = rest.length ∧
    (b.step (some f) ack).buffer = Function.update b.buffer k f
  keeps : b.nocInRdy = false → ∀ f, b.step f false = b
  acked : b.nocInRdy = false → ∀ f, (b.step f true).state = .idle ∧ (b.step f true).index = 0
  empty : b.state = .idle → rest = [] ∧ b.index = 0

theorem isPacket_zero_iff {n : Nat} (hp : IsPacket Flit.len rest n) :
    IsPacket Flit.len rest 0 ↔ n = 0 := by
  constructor
  · rintro ⟨h, t, rfl, ht⟩
    obtain ⟨h', t', heq, ht'⟩ := hp
    obtain ⟨rfl, rfl⟩ := List.cons.inj heq
    omega
  · rintro rfl
    exact hp

theorem Frames.presents (h : Frames b g rest) (m : List Flit) :
    b.presented = some m ↔ m = rest ∧ IsPacket Flit.len m 0 := by
  rw [h.presented_eq]
  cases hs : b.state with
  | idle =>
    obtain ⟨rfl, -, -⟩ := h.idle hs
    refine ⟨fun hc => (by cases hc), ?_⟩
    rintro ⟨rfl, hd, t, heq, -⟩
    cases heq
  | receiving =>
    obtain ⟨-, hd, hp, -⟩ := h.receiving hs
    refine ⟨fun hc => (by cases hc), ?_⟩
    rintro ⟨rfl, hp0⟩
    exact absurd ((isPacket_zero_iff hp).1 hp0) hd
  | waitingAck =>
    obtain ⟨-, hp, -⟩ := h.waiting hs
    rw [if_pos rfl, Option.some_inj]
    constructor
    · rintro rfl
      exact ⟨rfl, hp⟩
    · exact fun hm => hm.1.symm

theorem Frames.framed (h : Frames b g rest) : Framed b g rest where
  stream := h.stream
  whole := h.whole
  part := by
    cases hs : b.state with
    | idle => exact .inl (h.idle hs).1
    | receiving => exact .inr ⟨_, (h.receiving hs).2.2.1⟩
    | waitingAck => exact .inr ⟨_, (h.waiting hs).2.1⟩
  presents := h.presents
  stores := by
    intro hr f ack
    rw [nocInRdy_iff] at hr
    refine ⟨b.index, h.slot hr, funext fun k => ?_⟩
    rw [buffer_step (fun hi => (h.idle hi).2.1) hr, Function.update_apply]
  keeps := by
    intro hr f
    have hs : b.state = .waitingAck := by simpa [nocInRdy] using hr
    unfold SimpleNocBuffer.step
    rw [hs]
    rfl
  acked := by
    intro hr f
    have hs : b.state = .waitingAck := by simpa [nocInRdy] using hr
    unfold SimpleNocBuffer.step
    rw [hs]
    exact ⟨rfl, rfl⟩
  empty := fun hs => ⟨(h.idle hs).1, (h.idle hs).2.1⟩

/-- Whatever the gaps between the flits and the delays of the acks, the buffer presents the messages
of its stream one at a time and in order. -/
theorem messages_framed {y : SimpleNocBuffer × NocHistory} (h : receiver.Reachable ShortMessages y) :
    ∃ rest, Framed y.1 y.2 rest := by
  have hinv : ∃ rest, Frames y.1 y.2 rest := by
    refine h.invariant (P := fun y => ∃ rest, Frames y.1 y.2 rest) ?_ ?_
    · rintro ⟨b, g⟩ ⟨hb, hg⟩
      obtain rfl : b = _ := hb
      obtain rfl : g = _ := hg
      exact ⟨[], Frames.nil rfl (fun m hm => absurd hm List.not_mem_nil) rfl rfl rfl⟩
    · rintro ⟨b, g⟩ i ⟨rest, hf⟩ hok
      exact hf.step hok
  obtain ⟨rest, hf⟩ := hinv
  exact ⟨rest, hf.framed⟩

/-- A header that says one more flit, a gap, that flit, an early and a late ack, and a message of one
flit. -/
def twoMessages : List SimpleNocBufferIn :=
  [⟨some 0x400000, true⟩, ⟨none, false⟩, ⟨some 5, false⟩, ⟨some 7, false⟩, ⟨some 7, true⟩,
    ⟨some 7, false⟩, ⟨none, false⟩]

theorem twoMessages_short : ∀ i ∈ twoMessages, ∀ f ∈ i.nocIn, f.len ≤ 7 := by
  simp [twoMessages]
  decide

/-- The buffer after `reset`, for the run below. -/
def emptyBuffer : SimpleNocBuffer × NocHistory := (⟨0, .idle, fun _ => 0⟩, ⟨[], []⟩)

theorem receiver_init : receiver.init emptyBuffer := ⟨rfl, rfl⟩

theorem messages_framed_twoMessages :
    (∃ rest, Framed (receiver.run emptyBuffer twoMessages).1
      (receiver.run emptyBuffer twoMessages).2 rest) ∧
      (receiver.run emptyBuffer twoMessages).2.acked = [[0x400000#64, 5#64]] ∧
      (receiver.run emptyBuffer twoMessages).1.presented = some [7#64] :=
  ⟨messages_framed (((Machine.Reachable.init receiver_init).run
      (Machine.runOk_of_mem twoMessages_short _)).mono fun _ _ h _ => h),
    rfl, rfl⟩

end SimpleNocBuffer

end Piton.Noc
