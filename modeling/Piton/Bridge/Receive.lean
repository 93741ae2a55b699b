import Piton.Bridge.Link

/-! `fpga_bridge_rcv_32` and `chip_bridge_in`: the halves of a flit are put together and sorted into the
queue of their network, and the credits from their queue go onto the wires. -/

namespace Piton.Bridge

open Hw

/-! ### The FPGA -/

/-- `fpga_bridge_rcv_32`, but for its queues. A word is `data_channel_f` and `data_from_chip_f`. -/
structure FpgaIn where
  wordF : Word
  wordFf : Word
  wordFff : Word
  channelBuffer : BitVec 32
  channelBufferCount : Bool
  bufferedChannel : Channel
  creditFifoOutF : Credits
  creditToChipR : Credits

namespace FpgaIn

variable (s : FpgaIn)

/-- A whole flit of the network is ready: both its halves came over the same channel. -/
def sortVal (n : Net) : Bool :=
  s.bufferedChannel = some n && s.bufferedChannel = s.wordFff.1 && s.channelBufferCount

/-- The three registers for the word, and the buffer. -/
def next (w : Word) (creditVal : Bool) (creditFifoOut : Credits) : FpgaIn where
  wordF := w
  wordFf := s.wordF
  wordFff := s.wordFf
  channelBuffer :=
    if !s.channelBufferCount && s.wordFff.1 ≠ none then s.wordFff.2 else s.channelBuffer
  channelBufferCount :=
    if !s.channelBufferCount && s.wordFff.1 ≠ none then true
    else if s.channelBufferCount && s.bufferedChannel = s.wordFff.1 then false
    else s.channelBufferCount
  bufferedChannel :=
    if !s.channelBufferCount && s.wordFff.1 ≠ none then s.wordFff.1
    else if s.channelBufferCount && s.bufferedChannel = s.wordFff.1 then none
    else s.bufferedChannel
  creditFifoOutF := if creditVal then creditFifoOut else fun _ => false
  creditToChipR := s.creditFifoOutF

end FpgaIn

/-- `fpga_bridge_rcv_32` as a receiver of the link. -/
def fpgaIn : Receiver FpgaIn where
  init s := s.wordF.1 = none ∧ s.wordFf.1 = none ∧ s.wordFff.1 = none ∧
    s.channelBufferCount = false ∧ s.bufferedChannel = none ∧ s.creditFifoOutF = (fun _ => false) ∧
    s.creditToChipR = fun _ => false
  sortVal s n := s.sortVal n
  sortData s _ n := if s.sortVal n then join s.channelBuffer s.wordFff.2 else 0
  credit s := s.creditToChipR
  next s w creditVal creditFifoOut := s.next w creditVal creditFifoOut

namespace FpgaIn

/-- The words that are still to be put together. -/
def held (s : FpgaIn) : List Word :=
  (if s.channelBufferCount then [(s.bufferedChannel, s.channelBuffer)] else []) ++
    [s.wordFff, s.wordFf, s.wordF]

variable {s : FpgaIn} {w : Word} {l : List Word} {creditVal : Bool} {creditFifoOut : Credits}

theorem next_held (hs : s.channelBufferCount = true → s.bufferedChannel ≠ none)
    (h : Paired (s.held ++ w :: l)) : Paired ((s.next w creditVal creditFifoOut).held ++ l) ∧
      ∀ n, crossing join n (s.held ++ w :: l) =
        (if s.sortVal n then [join s.channelBuffer s.wordFff.2] else []) ++
          crossing join n ((s.next w creditVal creditFifoOut).held ++ l) := by
  obtain ⟨c, half, hfff⟩ : ∃ c half, s.wordFff = (c, half) := ⟨_, _, rfl⟩
  cases hcount : s.channelBufferCount with
  | false =>
    cases c with
    | none =>
      simp only [held, hcount, hfff] at h
      simpa [held, next, sortVal, hcount, hfff] using h
    | some m =>
      simp only [held, hcount, hfff] at h
      simpa [held, next, sortVal, hcount, hfff] using h
  | true =>
    obtain ⟨m, hm⟩ := Option.ne_none_iff_exists'.1 (hs hcount)
    simp only [held, hcount, hm, hfff, if_true, List.cons_append, List.nil_append, paired_pair] at h
    obtain ⟨rfl, h⟩ := h
    refine ⟨by simpa [held, next, hcount, hm, hfff] using h, fun n => ?_⟩
    simp [held, next, sortVal, hcount, hm, hfff]

theorem next_count (h : s.channelBufferCount = true → s.bufferedChannel ≠ none)
    (hc : (s.next w creditVal creditFifoOut).channelBufferCount = true) :
    (s.next w creditVal creditFifoOut).bufferedChannel ≠ none := by
  simp only [next] at hc ⊢
  grind

theorem init_count (h : fpgaIn.init s) (hc : s.channelBufferCount = true) :
    s.bufferedChannel ≠ none := by
  rw [h.2.2.2.1] at hc
  cases hc

theorem init_held (h : fpgaIn.init s) :
    Paired s.held ∧ ∀ n, crossing join n s.held = [] := by
  obtain ⟨h1, h2, h3, hcount, -⟩ := h
  obtain ⟨w1, hw1⟩ : ∃ x, s.wordF = (none, x) := ⟨s.wordF.2, Prod.ext h1 rfl⟩
  obtain ⟨w2, hw2⟩ : ∃ x, s.wordFf = (none, x) := ⟨s.wordFf.2, Prod.ext h2 rfl⟩
  obtain ⟨w3, hw3⟩ : ∃ x, s.wordFff = (none, x) := ⟨s.wordFff.2, Prod.ext h3 rfl⟩
  simp [held, hcount, hw1, hw2, hw3]

theorem init_returning (h : fpgaIn.init s) (n : Net) :
    (s.creditFifoOutF n).toNat + (s.creditToChipR n).toNat = 0 := by
  obtain ⟨-, -, -, -, -, hout, hr⟩ := h
  rw [hout, hr]
  rfl

theorem next_crossing (hs : s.channelBufferCount = true → s.bufferedChannel ≠ none)
    (h : Paired (s.held ++ w :: l)) : Paired ((s.next w creditVal creditFifoOut).held ++ l) ∧
      ∀ n, crossing join n (s.held ++ w :: l) =
        (if fpgaIn.sortVal s n then [fpgaIn.sortData s w n] else []) ++
          crossing join n ((s.next w creditVal creditFifoOut).held ++ l) := by
  obtain ⟨hp, hcross⟩ := next_held hs h
  refine ⟨hp, fun n => (hcross n).trans ?_⟩
  change _ = (if s.sortVal n then [if s.sortVal n then _ else _] else []) ++ _
  cases s.sortVal n <;> rfl

theorem next_returning (n : Net) :
    ((s.next w creditVal creditFifoOut).creditFifoOutF n).toNat +
        ((s.next w creditVal creditFifoOut).creditToChipR n).toNat + (fpgaIn.credit s n).toNat =
      (s.creditFifoOutF n).toNat + (s.creditToChipR n).toNat + (creditVal && creditFifoOut n).toNat := by
  change ((if creditVal then creditFifoOut else fun _ => false : Credits) n).toNat +
    (s.creditFifoOutF n).toNat + (s.creditToChipR n).toNat = _
  cases creditVal
  · simp
  · simp only [if_true, Bool.true_and]
    omega

end FpgaIn

/-- `fpga_bridge_rcv_32` keeps to the law of a receiver. -/
def fpgaInLaw : fpgaIn.Law where
  Ok s := s.channelBufferCount = true → s.bufferedChannel ≠ none
  held := FpgaIn.held
  returning s n := (s.creditFifoOutF n).toNat + (s.creditToChipR n).toNat
  init_ok := FpgaIn.init_count
  init_held := FpgaIn.init_held
  init_returning := FpgaIn.init_returning
  next_ok := FpgaIn.next_count
  next_held := FpgaIn.next_crossing
  next_returning := FpgaIn.next_returning

/-! ### The chip -/

/-- `chip_bridge_in`, but for its queues. -/
structure ChipIn where
  channelBuffer : BitVec 32
  channelBufferCount : Bool
  bufferedChannel : Channel
  creditToFpgaR : Credits

namespace ChipIn

variable (s : ChipIn)

/-- The channel of the word on the wires is not looked at. -/
def sortVal (n : Net) : Bool := s.bufferedChannel = some n && s.channelBufferCount

/-- The clock edge of `chip_bridge_in`. -/
def next (w : Word) (creditVal : Bool) (creditFifoOut : Credits) : ChipIn where
  channelBuffer := if w.1 ≠ none then w.2 else s.channelBuffer
  channelBufferCount := w.1 ≠ none && !s.channelBufferCount
  bufferedChannel := w.1
  creditToFpgaR := if creditVal then creditFifoOut else fun _ => false

end ChipIn

/-- `chip_bridge_in` as a receiver of the link. -/
def chipIn : Receiver ChipIn where
  init s := s.channelBuffer = 0 ∧ s.channelBufferCount = false ∧ s.creditToFpgaR = fun _ => false
  sortVal s n := s.sortVal n
  sortData s w n := if s.sortVal n then join s.channelBuffer w.2 else 0
  credit s := s.creditToFpgaR
  next s w creditVal creditFifoOut := s.next w creditVal creditFifoOut

namespace ChipIn

/-- The half of a flit that the receiver keeps until the other one arrives. -/
def held (s : ChipIn) : List Word :=
  if s.channelBufferCount then [(s.bufferedChannel, s.channelBuffer)] else []

variable {s : ChipIn} {w : Word} {l : List Word} {creditVal : Bool} {creditFifoOut : Credits}

theorem next_held (hs : s.channelBufferCount = true → s.bufferedChannel ≠ none)
    (h : Paired (s.held ++ w :: l)) : Paired ((s.next w creditVal creditFifoOut).held ++ l) ∧
      ∀ n, crossing join n (s.held ++ w :: l) =
        (if s.sortVal n then [join s.channelBuffer w.2] else []) ++
          crossing join n ((s.next w creditVal creditFifoOut).held ++ l) := by
  obtain ⟨c, half⟩ := w
  cases hcount : s.channelBufferCount with
  | false =>
    cases c with
    | none =>
      simp only [held, hcount] at h
      simpa [held, next, sortVal, hcount] using h
    | some m =>
      simp only [held, hcount] at h
      simpa [held, next, sortVal, hcount] using h
  | true =>
    obtain ⟨m, hm⟩ := Option.ne_none_iff_exists'.1 (hs hcount)
    simp only [held, hcount, hm, if_true, List.cons_append, List.nil_append, paired_pair] at h
    obtain ⟨rfl, h⟩ := h
    refine ⟨by simpa [held, next, hcount] using h, fun n => ?_⟩
    simp [held, next, sortVal, hcount, hm]

theorem init_count (h : chipIn.init s) (hc : s.channelBufferCount = true) :
    s.bufferedChannel ≠ none := by
  rw [h.2.1] at hc
  cases hc

theorem init_held (h : chipIn.init s) :
    Paired s.held ∧ ∀ n, crossing join n s.held = [] := by
  simp [held, h.2.1]

theorem init_returning (h : chipIn.init s) (n : Net) : (s.creditToFpgaR n).toNat = 0 := by
  rw [h.2.2]
  rfl

theorem next_count (_ : s.channelBufferCount = true → s.bufferedChannel ≠ none)
    (hc : (s.next w creditVal creditFifoOut).channelBufferCount = true) :
    (s.next w creditVal creditFifoOut).bufferedChannel ≠ none := by
  simp only [next] at hc ⊢
  grind

theorem next_crossing (hs : s.channelBufferCount = true → s.bufferedChannel ≠ none)
    (h : Paired (s.held ++ w :: l)) : Paired ((s.next w creditVal creditFifoOut).held ++ l) ∧
      ∀ n, crossing join n (s.held ++ w :: l) =
        (if chipIn.sortVal s n then [chipIn.sortData s w n] else []) ++
          crossing join n ((s.next w creditVal creditFifoOut).held ++ l) := by
  obtain ⟨hp, hcross⟩ := next_held hs h
  refine ⟨hp, fun n => (hcross n).trans ?_⟩
  change _ = (if s.sortVal n then [if s.sortVal n then _ else _] else []) ++ _
  cases s.sortVal n <;> rfl

theorem next_returning (n : Net) :
    ((s.next w creditVal creditFifoOut).creditToFpgaR n).toNat + (chipIn.credit s n).toNat =
      (s.creditToFpgaR n).toNat + (creditVal && creditFifoOut n).toNat := by
  change ((if creditVal then creditFifoOut else fun _ => false : Credits) n).toNat +
    (s.creditToFpgaR n).toNat = _
  cases creditVal
  · simp
  · simp only [if_true, Bool.true_and]
    omega

end ChipIn

/-- `chip_bridge_in` keeps to the law of a receiver. -/
def chipInLaw : chipIn.Law where
  Ok s := s.channelBufferCount = true → s.bufferedChannel ≠ none
  held := ChipIn.held
  returning s n := (s.creditToFpgaR n).toNat
  init_ok := ChipIn.init_count
  init_held := ChipIn.init_held
  init_returning := ChipIn.init_returning
  next_ok := ChipIn.next_count
  next_held := ChipIn.next_crossing
  next_returning := ChipIn.next_returning

end Piton.Bridge
