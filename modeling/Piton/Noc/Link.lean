import Piton.Lib.Wire
import Piton.Noc.Wormhole

/-! The link between two routers: `space_avail_top` at an output of one counts the free elements of
an input queue of the other, over wires that take any number of cycles. -/

namespace Piton.Noc

open Hw

variable {d d' : DynamicNode} {wire yummyWire : Nat}

/-! ### The machine -/

/-- Two routers and the wires of one link between them. -/
structure Link (d d' : DynamicNode) (wire yummyWire : Nat) where
  upstream : d.State
  downstream : d'.State
  flits : Wire wire (Option Flit)
  yummies : Wire yummyWire Bool

/-- The other wires into the two routers. -/
structure LinkInput (d d' : DynamicNode) where
  upstream : d.Input
  downstream : d'.Input

namespace Link

variable (l : Link d d' wire yummyWire) (o : Fin d.ports) (i : Fin d'.ports)

/-- `space_avail_top` at the output. -/
def space : SpaceAvail := (l.upstream.outputs o).space

/-- The queue of the input that the output feeds. -/
def queue : Fifo (d'.log2Elements i) Flit := (l.downstream.inputs i).blk

/-- The flit that leaves output `o`. -/
def sent : Option Flit :=
  if DynamicNode.validOut l.upstream o then some (DynamicNode.dataOut l.upstream o) else none

/-- The flit that comes in at input `i`. -/
def dataIn : Option Flit := l.flits.out (l.sent o)

/-- The downstream router takes a flit from that queue. -/
def thanks : Bool := DynamicNode.thanksAllTemp l.downstream i

/-- The downstream router gives a credit back. -/
def yummyOut : Bool := (l.downstream.inputs i).yummyOut

/-- The upstream router sees the credit. -/
def yummyIn : Bool := l.yummies.out (l.yummyOut i)

/-- One clock edge. -/
def next (e : LinkInput d d') : Link d d' wire yummyWire where
  upstream := DynamicNode.next l.upstream
    { e.upstream with yummyIn := Function.update e.upstream.yummyIn o (l.yummyIn i) }
  downstream := DynamicNode.next l.downstream
    { e.downstream with dataIn := Function.update e.downstream.dataIn i (l.dataIn o) }
  flits := l.flits.step (l.sent o)
  yummies := l.yummies.step (l.yummyOut i)

/-- What the link has not given back: flits on the wire, elements of the queue and yummies under
way. -/
def outstanding : Nat :=
  l.flits.load Option.isSome + (l.queue i).count.toNat +
    ((l.yummyOut i).toNat + l.yummies.load id)

end Link

/-- Output `o` of one router drives input `i` of the other. -/
def link (d d' : DynamicNode) (wire yummyWire : Nat) (o : Fin d.ports) (i : Fin d'.ports) :
    Machine (Link d d' wire yummyWire) (LinkInput d d') where
  init l := d.machine.init l.upstream ∧ d'.machine.init l.downstream ∧
    l.flits = .still wire none ∧ l.yummies = .still yummyWire false
  step l e := l.next o i e

/-! ### The sender -/

namespace SpaceAvail

/-- The flags say what the count is, and a flit was sent on a credit. -/
structure Counts (a : SpaceAvail) : Prop where
  isOne : a.isOne = decide (a.count.toNat = 1)
  isTwoOrMore : a.isTwoOrMore = decide (2 ≤ a.count.toNat)
  sent : a.valid = true → 1 ≤ a.count.toNat

theorem isOne_bits : ∀ c : BitVec 3,
    (decide (c.extractLsb' 1 2 = 0) && c.getLsbD 0) = decide (c.toNat = 1) := by
  decide

theorem isTwoOrMore_bits : ∀ c : BitVec 3,
    decide (c.extractLsb' 1 2 ≠ 0) = decide (2 ≤ c.toNat) := by
  decide

theorem counts_init : init.Counts where
  isOne := rfl
  isTwoOrMore := rfl
  sent := fun h => absurd h Bool.false_ne_true

variable {a : SpaceAvail}

theorem spcAvail_iff (h : a.Counts) :
    a.spcAvail = true ↔ a.valid.toNat < a.count.toNat + a.yummy.toNat := by
  have hs := h.sent
  rw [spcAvail, h.isOne, h.isTwoOrMore]
  cases hv : a.valid <;> cases a.yummy <;> simp [hv] at hs ⊢ <;> omega

/-- The count takes in the registered send and the registered yummy: at its ends nothing is lost. -/
theorem toNat_countTemp (h : a.Counts)
    (hle : a.count.toNat + a.yummy.toNat ≤ 4 + a.valid.toNat) :
    a.countTemp.toNat + a.valid.toNat = a.count.toNat + a.yummy.toNat := by
  have hs := h.sent
  rw [countTemp]
  generalize a.count = c at hs hle ⊢
  generalize a.valid = v at hs hle ⊢
  generalize a.yummy = y at hle ⊢
  revert c v y
  decide

/-- A flit is sent while there is space. -/
theorem Counts.step (h : a.Counts)
    (hle : a.count.toNat + a.yummy.toNat ≤ 4 + a.valid.toNat) {valid : Bool}
    (hv : valid = true → a.spcAvail = true) (yummy : Bool) : (a.step valid yummy).Counts where
  isOne := isOne_bits _
  isTwoOrMore := isTwoOrMore_bits _
  sent := by
    intro hval
    have hsp := (spcAvail_iff h).1 (hv hval)
    have hc := toNat_countTemp h hle
    show 1 ≤ a.countTemp.toNat
    omega

end SpaceAvail

/-! ### The two routers -/

/-- An output sends while it has space. -/
theorem DynamicNode.spcAvail_of_validOut {s : d.State} {o : Fin d.ports}
    (h : validOut s o = true) : (s.outputs o).space.spcAvail = true := by
  simp only [validOut, OutputControl.validOut, Bool.and_eq_true] at h
  exact h.2

/-- An input is thanked for a flit of its queue. -/
theorem DynamicNode.nonempty_of_thanks {s : d.State} {i : Fin d.ports}
    (h : thanksAllTemp s i = true) : (s.inputs i).blk.count ≠ 0 := by
  simp only [thanksAllTemp, thanksTo, OutputControl.thanks, OutputControl.validOut, outputIn,
    List.any_eq_true, List.mem_finRange, true_and, Bool.and_eq_true, decide_eq_true_iff] at h
  obtain ⟨o, k, hk, rfl, ⟨hv, -⟩, -⟩ := h
  rw [hk] at hv
  simpa [InputUnit.validOut, Fifo.nonempty] using hv

namespace Link

variable {l : Link d d' wire yummyWire} {o : Fin d.ports} {i : Fin d'.ports}

/-- What holds in every reachable state: the flags of `space_avail_top` fit its count, and the
count, what is under way and the elements used add up to the four elements of the queue. -/
structure Inv (l : Link d d' wire yummyWire) (o : Fin d.ports) (i : Fin d'.ports) : Prop where
  counts : (l.space o).Counts
  conserved : (l.space o).count.toNat + (l.space o).yummy.toNat + l.outstanding i =
    4 + (l.space o).valid.toNat

theorem Inv.count_le (h : Inv l o i) :
    (l.space o).count.toNat + (l.space o).yummy.toNat ≤ 4 + (l.space o).valid.toNat := by
  have := h.conserved
  omega

theorem Inv.spcAvail_iff (h : Inv l o i) :
    (l.space o).spcAvail = true ↔ l.outstanding i < 4 := by
  have := h.conserved
  rw [SpaceAvail.spcAvail_iff h.counts]
  omega

theorem sent_isSome : (l.sent o).isSome = DynamicNode.validOut l.upstream o := by
  rw [sent]
  cases DynamicNode.validOut l.upstream o <;> rfl

/-- What leaves the wire was sent on a credit, so that the queue has room for it. -/
theorem Inv.room (h : Inv l o i) (hd : (l.dataIn o).isSome = true) :
    (l.queue i).count.toNat < 4 := by
  have hout := l.flits.out_le (l.sent o) Option.isSome hd
  have hle := h.conserved
  have hcount := h.count_le
  rw [sent_isSome] at hout
  have hout' : l.outstanding i = l.flits.load Option.isSome + (l.queue i).count.toNat +
    ((l.yummyOut i).toNat + l.yummies.load id) := rfl
  cases hv : DynamicNode.validOut l.upstream o with
  | true =>
    have := h.spcAvail_iff.1 (DynamicNode.spcAvail_of_validOut hv)
    omega
  | false =>
    have hsent := h.counts.sent
    rw [hv, Bool.toNat_false] at hout
    cases hval : (l.space o).valid with
    | true =>
      have := hsent hval
      rw [hval, Bool.toNat_true] at hle
      omega
    | false =>
      rw [hval, Bool.toNat_false] at hle
      omega

theorem thanks_nonempty (h : l.thanks i = true) : (l.queue i).count.toNat ≠ 0 := by
  intro h0
  exact DynamicNode.nonempty_of_thanks h (BitVec.eq_of_toNat_eq h0)

/-! ### One clock edge -/

theorem space_next (e : LinkInput d d') :
    (l.next o i e).space o =
      (l.space o).step (DynamicNode.validOut l.upstream o) (l.yummyIn i) := by
  simp [next, space, DynamicNode.next]

theorem queue_next (e : LinkInput d d') :
    (l.next o i e).queue i = (l.queue i).step (l.dataIn o) (l.thanks i) := by
  simp [next, queue, DynamicNode.next, InputUnit.step, thanks]

theorem yummyOut_next (e : LinkInput d d') : (l.next o i e).yummyOut i = l.thanks i := rfl

/-- A flit that is sent becomes outstanding, a yummy that arrives makes up for one. -/
theorem outstanding_next (hi : d'.log2Elements i = 2) (h : Inv l o i) (e : LinkInput d d') :
    (l.next o i e).outstanding i + (l.yummyIn i).toNat =
      l.outstanding i + (DynamicNode.validOut l.upstream o).toNat := by
  have hflits := l.flits.load_step (l.sent o) Option.isSome
  have hyummies := l.yummies.load_step (l.yummyOut i) id
  have hsize : 2 ^ d'.log2Elements i = 4 := by simp [hi]
  have hqueue := (l.queue i).toNat_count_step
    (fun hd => Nat.lt_of_lt_of_eq (h.room hd) hsize.symm) (thanks_nonempty (l := l) (i := i))
  rw [sent_isSome] at hflits
  have hd : l.flits.out (l.sent o) = l.dataIn o := rfl
  have hy : l.yummies.out (l.yummyOut i) = l.yummyIn i := rfl
  rw [hd] at hflits
  rw [hy, id, id] at hyummies
  rw [outstanding, queue_next, yummyOut_next, outstanding]
  have hf' : (l.next o i e).flits = l.flits.step (l.sent o) := rfl
  have hy' : (l.next o i e).yummies = l.yummies.step (l.yummyOut i) := rfl
  rw [hf', hy']
  omega

theorem Inv.step (hi : d'.log2Elements i = 2) (h : Inv l o i) (e : LinkInput d d') :
    Inv (l.next o i e) o i where
  counts := by
    rw [space_next]
    exact h.counts.step h.count_le DynamicNode.spcAvail_of_validOut _
  conserved := by
    have hout := outstanding_next hi h e
    have hcount := SpaceAvail.toNat_countTemp h.counts h.count_le
    have hcons := h.conserved
    rw [space_next]
    show (l.space o).countTemp.toNat + (l.yummyIn i).toNat + _ = 4 +
      (DynamicNode.validOut l.upstream o).toNat
    omega

theorem inv_init (h : (link d d' wire yummyWire o i).init l) : Inv l o i := by
  obtain ⟨⟨-, hup⟩, ⟨hdown, -⟩, hf, hy⟩ := h
  have hspace : l.space o = .init := by rw [space, hup o]
  have hq : (l.queue i).count = 0 := (hdown i).count
  have hout : l.yummyOut i = false := (hdown i).yummyOut
  refine ⟨hspace ▸ SpaceAvail.counts_init, ?_⟩
  rw [hspace, outstanding, hq, hout, hf, hy, Wire.load_still _ _ rfl, Wire.load_still _ _ rfl]
  simp [SpaceAvail.init]

/-! ### Every run -/

/-- The count with the send and the yummy it has not seen yet, and what is outstanding, make up the
queue. There is space exactly while an element is free, the queue neither overflows nor underflows, and
the count takes in each send and each yummy. -/
structure Balanced (l : Link d d' wire yummyWire) (o : Fin d.ports) (i : Fin d'.ports) : Prop where
  conserved : (l.space o).count.toNat + (l.space o).yummy.toNat + l.outstanding i =
    4 + (l.space o).valid.toNat
  spcAvail_iff : (l.space o).spcAvail = true ↔ l.outstanding i < 4
  not_full : (l.dataIn o).isSome = true → (l.queue i).count.toNat < 4
  not_empty : l.thanks i = true → (l.queue i).count.toNat ≠ 0
  exact : (l.space o).countTemp.toNat + (l.space o).valid.toNat =
    (l.space o).count.toNat + (l.space o).yummy.toNat

theorem Inv.balanced (h : Inv l o i) : Balanced l o i where
  conserved := h.conserved
  spcAvail_iff := h.spcAvail_iff
  not_full := h.room
  not_empty := thanks_nonempty
  exact := SpaceAvail.toNat_countTemp h.counts h.count_le

/-- The link keeps its balance whatever the two routers send and consume. -/
theorem link_balanced (d d' : DynamicNode) (wire yummyWire : Nat) (o : Fin d.ports)
    (i : Fin d'.ports) (hi : d'.log2Elements i = 2) {l : Link d d' wire yummyWire}
    (h : (link d d' wire yummyWire o i).Reachable (fun _ _ => True) l) : Balanced l o i := by
  have hinv := h.invariant (P := fun l => Inv l o i) (fun _ => inv_init)
    (fun _ e hl _ => hl.step hi e)
  exact hinv.balanced

/-- The tiles at (0, 0) and (1, 0) after reset. -/
def start (wire yummyWire : Nat) : Link (meshNode 0 0 0) (meshNode 1 0 0) wire yummyWire where
  upstream := (meshNode 0 0 0).start.1
  downstream := (meshNode 1 0 0).start.1
  flits := .still wire none
  yummies := .still yummyWire false

/-- A message of two flits for the tile at (1, 0) comes into the tile at (0, 0) from its processor. -/
def eastward : List (LinkInput (meshNode 0 0 0) (meshNode 1 0 0)) :=
  [⟨⟨![none, none, none, none, some (1#64 <<< 42 ||| 1#64 <<< 22)], fun _ => false⟩,
      ⟨fun _ => none, fun _ => false⟩⟩,
    ⟨⟨![none, none, none, none, some 7], fun _ => false⟩, ⟨fun _ => none, fun _ => false⟩⟩,
    ⟨⟨fun _ => none, fun _ => false⟩, ⟨fun _ => none, fun _ => false⟩⟩,
    ⟨⟨fun _ => none, fun _ => false⟩, ⟨fun _ => none, fun _ => false⟩⟩]

theorem init_start (wire yummyWire : Nat) :
    (link (meshNode 0 0 0) (meshNode 1 0 0) wire yummyWire (1 : Fin 5) (3 : Fin 5)).init
      (start wire yummyWire) :=
  ⟨(Noc.init_start _).1, (Noc.init_start _).1, rfl, rfl⟩

theorem link_balanced_eastward :
    Balanced ((link (meshNode 0 0 0) (meshNode 1 0 0) 1 1 (1 : Fin 5) (3 : Fin 5)).run (start 1 1)
      eastward) (1 : Fin 5) (3 : Fin 5) ∧
    ((link (meshNode 0 0 0) (meshNode 1 0 0) 1 1 (1 : Fin 5) (3 : Fin 5)).run (start 1 1)
      eastward).outstanding (3 : Fin 5) = 2 := by
  refine ⟨link_balanced (meshNode 0 0 0) (meshNode 1 0 0) 1 1 (1 : Fin 5) (3 : Fin 5) rfl
    ((Machine.Reachable.init (init_start 1 1)).run
      (Machine.runOk_of_mem (p := fun _ => True) (fun _ _ => trivial) _)), ?_⟩
  decide +kernel

end Link

end Piton.Noc
