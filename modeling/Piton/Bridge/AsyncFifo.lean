import Piton.Lib.Gray
import Piton.Lib.Machine
import Piton.Lib.Sizes

/-! `async_fifo`: a queue between two clock domains, whose pointers cross as Gray codes. In every order of
the two clocks' edges, what is read is what was written, in order. -/

namespace Piton.Bridge

open Hw

variable {k : Nat} {α : Type}

/-- `ASIZE` is `k + 2` and `MEMSIZE` is `2 ^ (k + 1)`. -/
structure AsyncFifo (k : Nat) (α : Type) where
  fifo : BitVec (k + 1) → α
  gWptr : BitVec (k + 2)
  gRptr : BitVec (k + 2)
  gRsync1 : BitVec (k + 2)
  gRsync2 : BitVec (k + 2)
  gWsync1 : BitVec (k + 2)
  gWsync2 : BitVec (k + 2)

/-- Which clocks have an edge. The blurs are the bits in which a synchroniser already sees the new value
of a pointer that changes at the same time. -/
structure FifoInput (k : Nat) (α : Type) where
  wclk : Bool
  wval : Bool
  wdata : α
  rclk : Bool
  ren : Bool
  blurR : BitVec (k + 2)
  blurW : BitVec (k + 2)

namespace AsyncFifo

/-- After reset. -/
def init (fifo : BitVec (k + 1) → α) : AsyncFifo k α := ⟨fifo, 0, 0, 0, 0, 0, 0⟩

variable (f : AsyncFifo k α) (i : FifoInput k α)

/-- The write pointer in binary. -/
def bWptr : BitVec (k + 2) := ofGray f.gWptr

/-- The read pointer in binary. -/
def bRptr : BitVec (k + 2) := ofGray f.gRptr

/-- The writer sees the queue full: its Gray pointer is half a turn ahead of the read pointer it
last sampled. -/
def wfull : Bool := halfTurn f.gWptr f.gRsync2

/-- The reader sees the queue empty: the write pointer it last sampled is its own pointer. -/
def rempty : Bool := f.gWsync2 = f.gRptr

/-- The element under the read pointer. -/
def rdata : α := f.fifo (f.bRptr.setWidth (k + 1))

/-- An element is stored at this edge. -/
def writes : Bool := i.wclk && i.wval && !f.wfull

/-- An element is taken at this edge. -/
def reads : Bool := i.rclk && i.ren && !f.rempty

/-- The Gray write pointer after the edge. -/
def gWptrNext : BitVec (k + 2) := if f.writes i then toGray (f.bWptr + 1) else f.gWptr

/-- The Gray read pointer after the edge. -/
def gRptrNext : BitVec (k + 2) := if f.reads i then toGray (f.bRptr + 1) else f.gRptr

/-- The edges of one instant. -/
def next : AsyncFifo k α where
  fifo := if f.writes i then Function.update f.fifo (f.bWptr.setWidth (k + 1)) i.wdata else f.fifo
  gWptr := f.gWptrNext i
  gRptr := f.gRptrNext i
  gRsync1 := if i.wclk then blend i.blurR f.gRptr (f.gRptrNext i) else f.gRsync1
  gRsync2 := if i.wclk then f.gRsync1 else f.gRsync2
  gWsync1 := if i.rclk then blend i.blurW f.gWptr (f.gWptrNext i) else f.gWsync1
  gWsync2 := if i.rclk then f.gWsync1 else f.gWsync2

end AsyncFifo

/-- What was written and read, and the counts that the synchronisers hold. -/
structure FifoLog (α : Type) where
  written : List α
  out : List α
  r1 : Nat
  r2 : Nat
  w1 : Nat
  w2 : Nat

namespace FifoLog

/-- The history of a queue that has seen no edge. -/
def empty : FifoLog α := ⟨[], [], 0, 0, 0, 0⟩

/-- What one edge adds to the history. A pointer caught in the middle of its change is recorded as
either of its two values. -/
def update (l : FifoLog α) (f : AsyncFifo k α) (i : FifoInput k α) : FifoLog α where
  written := if f.writes i then l.written ++ [i.wdata] else l.written
  out := if f.reads i then l.out ++ [f.rdata] else l.out
  r1 := if i.wclk then if (f.next i).gRsync1 = f.gRptr then l.out.length else l.out.length + 1
    else l.r1
  r2 := if i.wclk then l.r1 else l.r2
  w1 := if i.rclk then
      if (f.next i).gWsync1 = f.gWptr then l.written.length else l.written.length + 1
    else l.w1
  w2 := if i.rclk then l.w1 else l.w2

/-- What is in the queue. -/
def held (l : FifoLog α) : List α := l.written.drop l.out.length

end FifoLog

/-- The code of a count. -/
def code (k n : Nat) : BitVec (k + 2) := toGray (BitVec.ofNat (k + 2) n)

/-- The registers show the counts. -/
structure Tracks (f : AsyncFifo k α) (l : FifoLog α) : Prop where
  wptr : f.gWptr = code k l.written.length
  rptr : f.gRptr = code k l.out.length
  rsync1 : f.gRsync1 = code k l.r1
  rsync2 : f.gRsync2 = code k l.r2
  wsync1 : f.gWsync1 = code k l.w1
  wsync2 : f.gWsync2 = code k l.w2
  order : l.r2 ≤ l.r1 ∧ l.r1 ≤ l.out.length ∧ l.out.length ≤ l.w2 ∧ l.w2 ≤ l.w1 ∧
    l.w1 ≤ l.written.length ∧ l.written.length ≤ l.r2 + 2 ^ (k + 1)
  out : l.out <+: l.written
  mem : ∀ j, l.out.length ≤ j → j < l.written.length →
    l.written[j]? = some (f.fifo (BitVec.ofNat (k + 1) j))

section Codes

variable {a b : Nat}

theorem half_lt : 2 ^ (k + 1) + 2 ^ (k + 1) = 2 ^ (k + 2) := by
  rw [Nat.pow_succ 2 (k + 1)]
  omega

theorem ofNat_inj_of_le {n : Nat} (hab : a ≤ b) (h : b < a + 2 ^ n) :
    BitVec.ofNat n b = BitVec.ofNat n a ↔ b = a := by
  constructor
  · intro he
    have hmod := congrArg BitVec.toNat he
    simp only [BitVec.toNat_ofNat] at hmod
    have hz := Nat.sub_mod_eq_zero_of_mod_eq hmod
    rw [Nat.mod_eq_of_lt (by omega)] at hz
    omega
  · rintro rfl
    rfl

theorem code_succ (n : Nat) : toGray (BitVec.ofNat (k + 2) n + 1) = code k (n + 1) := by
  rw [code, BitVec.ofNat_add]
  rfl

@[simp] theorem ofGray_code (n : Nat) : ofGray (code k n) = BitVec.ofNat (k + 2) n := ofGray_toGray _

theorem code_inj (hab : a ≤ b) (h : b ≤ a + 2 ^ (k + 1)) : code k b = code k a ↔ b = a := by
  have := half_lt (k := k)
  have := Nat.two_pow_pos (k + 1)
  rw [code, code, toGray_inj, ofNat_inj_of_le hab (by omega)]

theorem halfTurn_code (hab : a ≤ b) (h : b ≤ a + 2 ^ (k + 1)) :
    halfTurn (code k b) (code k a) = true ↔ b = a + 2 ^ (k + 1) := by
  have := half_lt (k := k)
  have := Nat.two_pow_pos (k + 1)
  have hadd : BitVec.ofNat (k + 2) a + BitVec.twoPow (k + 2) (k + 1) =
      BitVec.ofNat (k + 2) (a + 2 ^ (k + 1)) := by
    rw [BitVec.ofNat_add]
    congr 1
    apply BitVec.eq_of_toNat_eq
    rw [BitVec.toNat_twoPow, BitVec.toNat_ofNat]
  rw [code, code, halfTurn_toGray, hadd, eq_comm, ofNat_inj_of_le h (by omega), eq_comm]

/-- What a synchroniser catches of a count that may grow is the code of a count. -/
theorem caught_code (mask : BitVec (k + 2)) {grows : Bool} {c : BitVec (k + 2)}
    (hc : c = blend mask (code k a) (if grows then code k (a + 1) else code k a)) :
    ∃ n, (if c = code k a then a else a + 1) = n ∧ c = code k n ∧ a ≤ n ∧ n ≤ a + grows.toNat := by
  by_cases hold : c = code k a
  · exact ⟨a, if_pos hold, hold, Nat.le_refl a, Nat.le_add_right _ _⟩
  · refine ⟨a + 1, if_neg hold, ?_, Nat.le_succ a, ?_⟩ <;> cases grows
    · exact absurd (hc.trans (blend_self _ _)) hold
    · have h := blend_toGray mask (BitVec.ofNat (k + 2) a)
      rw [code_succ] at h
      obtain h | h := h
      · exact absurd (hc.trans h) hold
      · exact hc.trans h
    · exact absurd (hc.trans (blend_self _ _)) hold
    · exact Nat.le_refl _

end Codes

namespace Tracks

section Flags

variable {f : AsyncFifo k α} {l : FifoLog α} {i : FifoInput k α}

theorem rempty_iff (h : Tracks f l) : f.rempty = true ↔ l.out.length = l.w2 := by
  obtain ⟨h2, h1, hr, hw2, hw1, hw⟩ := h.order
  rw [AsyncFifo.rempty, h.wsync2, h.rptr, decide_eq_true_iff, code_inj hr (by omega), eq_comm]

theorem wfull_iff (h : Tracks f l) : f.wfull = true ↔ l.written.length = l.r2 + 2 ^ (k + 1) := by
  obtain ⟨h2, h1, hr, hw2, hw1, hw⟩ := h.order
  rw [AsyncFifo.wfull, h.wptr, h.rsync2, halfTurn_code (by omega) hw]

/-- What is read is the next element. -/
theorem rdata_eq (h : Tracks f l) (hlt : l.out.length < l.written.length) :
    l.written[l.out.length]? = some f.rdata := by
  rw [h.mem _ (Nat.le_refl _) hlt, AsyncFifo.rdata, AsyncFifo.bRptr, h.rptr, ofGray_code]
  congr 2
  apply BitVec.eq_of_toNat_eq
  simp [Nat.pow_succ]

theorem gWptrNext_eq (h : Tracks f l) : f.gWptrNext i =
    if f.writes i then code k (l.written.length + 1) else code k l.written.length := by
  rw [AsyncFifo.gWptrNext, AsyncFifo.bWptr, h.wptr, ofGray_code, code_succ]

theorem gRptrNext_eq (h : Tracks f l) : f.gRptrNext i =
    if f.reads i then code k (l.out.length + 1) else code k l.out.length := by
  rw [AsyncFifo.gRptrNext, AsyncFifo.bRptr, h.rptr, ofGray_code, code_succ]

theorem reads_iff : f.reads i = true ↔ i.rclk = true ∧ i.ren = true ∧ f.rempty = false := by
  simp [AsyncFifo.reads, and_assoc]

theorem writes_iff : f.writes i = true ↔ i.wclk = true ∧ i.wval = true ∧ f.wfull = false := by
  simp [AsyncFifo.writes, and_assoc]

/-- A read takes an element that the reader has seen. -/
theorem lt_of_reads (h : Tracks f l) (hr : f.reads i = true) :
    i.rclk = true ∧ l.out.length < l.w2 := by
  obtain ⟨hclk, -, he⟩ := reads_iff.1 hr
  have hne : l.out.length ≠ l.w2 := fun heq => by
    rw [h.rempty_iff.2 heq] at he
    cases he
  have := h.order.2.2.1
  exact ⟨hclk, by omega⟩

/-- A write finds room. -/
theorem lt_of_writes (h : Tracks f l) (hw : f.writes i = true) :
    i.wclk = true ∧ l.written.length < l.r2 + 2 ^ (k + 1) := by
  obtain ⟨hclk, -, hf⟩ := writes_iff.1 hw
  have hne : l.written.length ≠ l.r2 + 2 ^ (k + 1) := fun heq => by
    rw [h.wfull_iff.2 heq] at hf
    cases hf
  have := h.order.2.2.2.2.2
  exact ⟨hclk, by omega⟩

end Flags

section Step

variable {f : AsyncFifo k α} {l : FifoLog α} {i : FifoInput k α}

theorem length_written : (l.update f i).written.length = l.written.length + (f.writes i).toNat := by
  unfold FifoLog.update
  cases f.writes i <;> simp

theorem length_out : (l.update f i).out.length = l.out.length + (f.reads i).toNat := by
  unfold FifoLog.update
  cases f.reads i <;> simp

/-- The count that the writer's first synchroniser catches. -/
theorem rsync1_next (h : Tracks f l) : (f.next i).gRsync1 = code k (l.update f i).r1 ∧
    (i.wclk = true → l.out.length ≤ (l.update f i).r1 ∧
      (l.update f i).r1 ≤ (l.update f i).out.length) ∧
    (i.wclk = false → (l.update f i).r1 = l.r1) := by
  rw [length_out]
  cases hclk : i.wclk with
  | false => simp [FifoLog.update, AsyncFifo.next, hclk, h.rsync1]
  | true =>
    have hnext : (f.next i).gRsync1 = blend i.blurR (code k l.out.length)
        (if f.reads i then code k (l.out.length + 1) else code k l.out.length) := by
      rw [← h.gRptrNext_eq, ← h.rptr]
      exact if_pos hclk
    obtain ⟨n, hn, hcode, hle, hge⟩ := caught_code i.blurR hnext
    have hr1 : (l.update f i).r1 = n := by
      rw [← hn, ← h.rptr]
      exact if_pos hclk
    rw [hr1]
    exact ⟨hcode, fun _ => ⟨hle, hge⟩, fun hf => by cases hf⟩

theorem wsync1_next (h : Tracks f l) : (f.next i).gWsync1 = code k (l.update f i).w1 ∧
    (i.rclk = true → l.written.length ≤ (l.update f i).w1 ∧
      (l.update f i).w1 ≤ (l.update f i).written.length) ∧
    (i.rclk = false → (l.update f i).w1 = l.w1) := by
  rw [length_written]
  cases hclk : i.rclk with
  | false => simp [FifoLog.update, AsyncFifo.next, hclk, h.wsync1]
  | true =>
    have hnext : (f.next i).gWsync1 = blend i.blurW (code k l.written.length)
        (if f.writes i then code k (l.written.length + 1) else code k l.written.length) := by
      rw [← h.gWptrNext_eq, ← h.wptr]
      exact if_pos hclk
    obtain ⟨n, hn, hcode, hle, hge⟩ := caught_code i.blurW hnext
    have hw1 : (l.update f i).w1 = n := by
      rw [← hn, ← h.wptr]
      exact if_pos hclk
    rw [hw1]
    exact ⟨hcode, fun _ => ⟨hle, hge⟩, fun hf => by cases hf⟩

theorem order_next (h : Tracks f l) : (l.update f i).r2 ≤ (l.update f i).r1 ∧
    (l.update f i).r1 ≤ (l.update f i).out.length ∧
    (l.update f i).out.length ≤ (l.update f i).w2 ∧ (l.update f i).w2 ≤ (l.update f i).w1 ∧
    (l.update f i).w1 ≤ (l.update f i).written.length ∧
    (l.update f i).written.length ≤ (l.update f i).r2 + 2 ^ (k + 1) := by
  obtain ⟨h2, h1, hr, hw2, hw1, hw⟩ := h.order
  obtain ⟨-, hron, hroff⟩ := h.rsync1_next (i := i)
  obtain ⟨-, hwon, hwoff⟩ := h.wsync1_next (i := i)
  have hwside : ((l.update f i).r2 = l.r2 ∧ (l.update f i).r1 = l.r1 ∧ (f.writes i).toNat = 0) ∨
      ((l.update f i).r2 = l.r1 ∧ l.out.length ≤ (l.update f i).r1 ∧
        (l.update f i).r1 ≤ (l.update f i).out.length) := by
    cases hclk : i.wclk with
    | false => exact .inl ⟨by simp [FifoLog.update, hclk], hroff hclk, by simp [AsyncFifo.writes, hclk]⟩
    | true => exact .inr ⟨by simp [FifoLog.update, hclk], hron hclk⟩
  have hrside : ((l.update f i).w2 = l.w2 ∧ (l.update f i).w1 = l.w1 ∧ (f.reads i).toNat = 0) ∨
      ((l.update f i).w2 = l.w1 ∧ l.written.length ≤ (l.update f i).w1 ∧
        (l.update f i).w1 ≤ (l.update f i).written.length) := by
    cases hclk : i.rclk with
    | false => exact .inl ⟨by simp [FifoLog.update, hclk], hwoff hclk, by simp [AsyncFifo.reads, hclk]⟩
    | true => exact .inr ⟨by simp [FifoLog.update, hclk], hwon hclk⟩
  have hout := length_out (l := l) (f := f) (i := i)
  have hwr := length_written (l := l) (f := f) (i := i)
  have hrlt : (f.reads i).toNat = 0 ∨ l.out.length < l.w2 := by
    cases he : f.reads i with
    | false => exact .inl rfl
    | true => exact .inr (h.lt_of_reads he).2
  have hwlt : (f.writes i).toNat = 0 ∨ l.written.length < l.r2 + 2 ^ (k + 1) := by
    cases he : f.writes i with
    | false => exact .inl rfl
    | true => exact .inr (h.lt_of_writes he).2
  have hrb := Bool.toNat_le (f.reads i)
  have hwb := Bool.toNat_le (f.writes i)
  omega

/-- What is read was seen by the reader. -/
theorem out_seen (h : Tracks f l) : (l.update f i).out <+: l.written.take l.w2 := by
  obtain ⟨-, -, hr, hw2, hw1, -⟩ := h.order
  unfold FifoLog.update
  cases hread : f.reads i with
  | false => exact List.prefix_take_iff.2 ⟨h.out, hr⟩
  | true =>
    have hlt := (h.lt_of_reads hread).2
    have hdata := h.rdata_eq (by omega)
    obtain ⟨rest, hrest⟩ := h.out
    cases rest with
    | nil =>
      have := congrArg List.length hrest
      simp at this
      omega
    | cons a rest =>
      rw [← hrest, List.getElem?_append_right (Nat.le_refl _), Nat.sub_self] at hdata
      obtain rfl : a = f.rdata := by simpa using hdata
      refine List.prefix_take_iff.2 ⟨⟨rest, by simpa using hrest⟩, ?_⟩
      simpa [Nat.succ_le_iff] using hlt

theorem written_grows : l.written <+: (l.update f i).written := by
  unfold FifoLog.update
  cases f.writes i with
  | false => exact List.prefix_rfl
  | true => exact List.prefix_append _ _

theorem out_next (h : Tracks f l) : (l.update f i).out <+: (l.update f i).written :=
  h.out_seen.trans ((List.take_prefix _ _).trans written_grows)

theorem mem_next (h : Tracks f l) (j : Nat) (hj : (l.update f i).out.length ≤ j)
    (hj' : j < (l.update f i).written.length) :
    (l.update f i).written[j]? = some ((f.next i).fifo (BitVec.ofNat (k + 1) j)) := by
  obtain ⟨h2, h1, -, -, -, -⟩ := h.order
  rw [length_out] at hj
  rw [length_written] at hj'
  have hfifo : (f.next i).fifo =
      if f.writes i then Function.update f.fifo (f.bWptr.setWidth (k + 1)) i.wdata else f.fifo := rfl
  have hwr : (l.update f i).written = if f.writes i then l.written ++ [i.wdata] else l.written := rfl
  rw [hfifo, hwr]
  cases hwrite : f.writes i with
  | false =>
    rw [hwrite] at hj'
    exact h.mem j (by omega) hj'
  | true =>
    have hlt := (h.lt_of_writes hwrite).2
    have hidx : f.bWptr.setWidth (k + 1) = BitVec.ofNat (k + 1) l.written.length := by
      rw [AsyncFifo.bWptr, h.wptr, ofGray_code]
      apply BitVec.eq_of_toNat_eq
      simp [Nat.pow_succ]
    rw [hwrite, Bool.toNat_true] at hj'
    rw [if_pos rfl, if_pos rfl, hidx]
    by_cases hlast : j = l.written.length
    · rw [hlast, Function.update_self, List.getElem?_concat_length]
    · have hlt' : j < l.written.length := by omega
      have hne : BitVec.ofNat (k + 1) j ≠ BitVec.ofNat (k + 1) l.written.length := fun he => by
        have := (ofNat_inj_of_le (n := k + 1) (Nat.le_of_lt hlt') (by omega)).1 he.symm
        omega
      rw [Function.update_of_ne hne, List.getElem?_append_left hlt']
      exact h.mem j (by omega) hlt'

theorem step (h : Tracks f l) : Tracks (f.next i) (l.update f i) where
  wptr := by
    have hw := h.gWptrNext_eq (i := i)
    rw [length_written]
    refine hw.trans ?_
    cases f.writes i <;> rfl
  rptr := by
    have hr := h.gRptrNext_eq (i := i)
    rw [length_out]
    refine hr.trans ?_
    cases f.reads i <;> rfl
  rsync1 := h.rsync1_next.1
  rsync2 := by
    simp only [AsyncFifo.next, FifoLog.update]
    split
    · exact h.rsync1
    · exact h.rsync2
  wsync1 := h.wsync1_next.1
  wsync2 := by
    simp only [AsyncFifo.next, FifoLog.update]
    split
    · exact h.wsync1
    · exact h.wsync2
  order := h.order_next
  out := h.out_next
  mem := h.mem_next

theorem init (fifo : BitVec (k + 1) → α) : Tracks (AsyncFifo.init fifo) FifoLog.empty := by
  have hzero : code k 0 = 0 := toGray_zero
  refine ⟨hzero.symm, hzero.symm, hzero.symm, hzero.symm, hzero.symm, hzero.symm, ?_,
    List.prefix_rfl, fun j _ hj => ?_⟩
  · simp [FifoLog.empty]
  · simp [FifoLog.empty] at hj

end Step

end Tracks

/-! ### Runs -/

/-- The queue as a machine, started by `reset` with any contents of the array. -/
def asyncFifo (k : Nat) (α : Type) : Machine (AsyncFifo k α) (FifoInput k α) where
  init f := ∃ fifo, f = .init fifo
  step f i := f.next i

/-- The queue with its log. -/
def loggedFifo (k : Nat) (α : Type) : Machine (AsyncFifo k α × FifoLog α) (FifoInput k α) :=
  (asyncFifo k α).withHistory .empty fun l f i => l.update f i

theorem tracks_of_reachable {y : AsyncFifo k α × FifoLog α}
    (h : (loggedFifo k α).Reachable (fun _ _ => True) y) : Tracks y.1 y.2 := by
  refine h.invariant (P := fun y => Tracks y.1 y.2) (fun y hy => ?_) fun _ _ hs _ => hs.step
  obtain ⟨⟨fifo, hf⟩, hl⟩ := hy
  rw [hf, hl]
  exact .init fifo

section Held

variable {f : AsyncFifo k α} {l : FifoLog α} {i : FifoInput k α}

theorem written_eq (h : Tracks f l) : l.written = l.out ++ l.held := by
  obtain ⟨rest, hrest⟩ := h.out
  rw [FifoLog.held, ← hrest, List.drop_left]

theorem length_held (h : Tracks f l) : l.held.length + l.out.length = l.written.length := by
  rw [written_eq h, List.length_append, Nat.add_comm]

/-- What is shown is the first element. -/
theorem head_held (h : Tracks f l) (he : f.rempty = false) : l.held.head? = some f.rdata := by
  obtain ⟨-, -, hr, hw2, hw1, -⟩ := h.order
  have hne : l.out.length ≠ l.w2 := fun heq => by
    rw [h.rempty_iff.2 heq] at he
    cases he
  rw [FifoLog.held, List.head?_drop]
  exact h.rdata_eq (by omega)

/-- What a reader has seen stays seen. -/
theorem w2_mono (h : Tracks f l) : l.w2 ≤ (l.update f i).w2 := by
  have := h.order
  simp only [FifoLog.update]
  split <;> omega

theorem r2_mono (h : Tracks f l) : l.r2 ≤ (l.update f i).r2 := by
  have := h.order
  simp only [FifoLog.update]
  split <;> omega

/-- A queue between two sides of one clock that is read whenever it can be is nearly empty. -/
structure Draining (l : FifoLog α) : Prop where
  caught : l.written.length ≤ l.w1 + 1
  seen : l.written.length ≤ l.w2 + 2
  read : l.written.length ≤ l.out.length + 3
  released : l.out.length ≤ l.r1 + 1
  free : l.out.length ≤ l.r2 + 2

theorem draining_next (h : Tracks f l) (hd : Draining l) (hw : i.wclk = true) (hr : i.rclk = true)
    (hren : i.ren = true) : Draining (l.update f i) := by
  obtain ⟨-, hron, -⟩ := h.rsync1_next (i := i)
  obtain ⟨-, hwon, -⟩ := h.wsync1_next (i := i)
  have hout := Tracks.length_out (l := l) (f := f) (i := i)
  have hwr := Tracks.length_written (l := l) (f := f) (i := i)
  have hr2 : (l.update f i).r2 = l.r1 := by simp [FifoLog.update, hw]
  have hw2 : (l.update f i).w2 = l.w1 := by simp [FifoLog.update, hr]
  have hread : l.out.length = l.w2 ∨ (f.reads i).toNat = 1 := by
    cases he : f.rempty with
    | true => exact .inl (h.rempty_iff.1 he)
    | false => exact .inr (by simp [AsyncFifo.reads, hr, hren, he])
  have hle := h.order
  have hrb := Bool.toNat_le (f.reads i)
  have hwb := Bool.toNat_le (f.writes i)
  have hrsync := hron hw
  have hwsync := hwon hr
  obtain ⟨hcaught, hseen, hreads, hreleased, hfree⟩ := hd
  constructor <;> omega

theorem not_full_of_draining (h : Tracks f l) (hd : Draining l) (hk : 2 ≤ k) : f.wfull = false := by
  have hpow : 2 ^ 3 ≤ 2 ^ (k + 1) := Nat.pow_le_pow_right (by decide) (by omega)
  have hread := hd.read
  have hfree := hd.free
  rw [← Bool.not_eq_true, h.wfull_iff]
  omega

end Held

section Edges

variable {y : AsyncFifo k α × FifoLog α} {n : Nat}

theorem w2_run (h : Tracks y.1 y.2) (is : List (FifoInput k α)) (hn : n ≤ y.2.w2) :
    n ≤ ((loggedFifo k α).run y is).2.w2 := by
  induction is generalizing y with
  | nil => exact hn
  | cons i is ih => exact ih h.step (Nat.le_trans hn (w2_mono h))

theorem w1_run (h : Tracks y.1 y.2) (is : List (FifoInput k α)) (hn : n ≤ y.2.w1)
    (hedge : 1 ≤ is.countP FifoInput.rclk) : n ≤ ((loggedFifo k α).run y is).2.w2 := by
  induction is generalizing y with
  | nil => exact absurd hedge (by simp)
  | cons i is ih =>
    cases hclk : i.rclk with
    | false =>
      refine ih h.step ?_ (by simpa [hclk] using hedge)
      exact Nat.le_trans hn (h.wsync1_next.2.2 hclk).ge
    | true =>
      refine w2_run h.step is ?_
      change n ≤ (y.2.update y.1 i).w2
      simpa [FifoLog.update, hclk] using hn

/-- After two edges of its clock the reader has seen what was written before. -/
theorem written_run (h : Tracks y.1 y.2) (is : List (FifoInput k α)) (hn : n ≤ y.2.written.length)
    (hedge : 2 ≤ is.countP FifoInput.rclk) : n ≤ ((loggedFifo k α).run y is).2.w2 := by
  induction is generalizing y with
  | nil => exact absurd hedge (by simp)
  | cons i is ih =>
    cases hclk : i.rclk with
    | false =>
      refine ih h.step ?_ (by simpa [hclk] using hedge)
      exact Nat.le_trans hn (Tracks.length_written.symm ▸ Nat.le_add_right _ _)
    | true =>
      refine w1_run h.step is (Nat.le_trans hn (h.wsync1_next.2.1 hclk).1) ?_
      rw [List.countP_cons_of_pos hclk] at hedge
      omega

theorem r2_run (h : Tracks y.1 y.2) (is : List (FifoInput k α)) (hn : n ≤ y.2.r2) :
    n ≤ ((loggedFifo k α).run y is).2.r2 := by
  induction is generalizing y with
  | nil => exact hn
  | cons i is ih => exact ih h.step (Nat.le_trans hn (r2_mono h))

theorem r1_run (h : Tracks y.1 y.2) (is : List (FifoInput k α)) (hn : n ≤ y.2.r1)
    (hedge : 1 ≤ is.countP FifoInput.wclk) : n ≤ ((loggedFifo k α).run y is).2.r2 := by
  induction is generalizing y with
  | nil => exact absurd hedge (by simp)
  | cons i is ih =>
    cases hclk : i.wclk with
    | false =>
      refine ih h.step ?_ (by simpa [hclk] using hedge)
      exact Nat.le_trans hn (h.rsync1_next.2.2 hclk).ge
    | true =>
      refine r2_run h.step is ?_
      change n ≤ (y.2.update y.1 i).r2
      simpa [FifoLog.update, hclk] using hn

theorem out_run (h : Tracks y.1 y.2) (is : List (FifoInput k α)) (hn : n ≤ y.2.out.length)
    (hedge : 2 ≤ is.countP FifoInput.wclk) : n ≤ ((loggedFifo k α).run y is).2.r2 := by
  induction is generalizing y with
  | nil => exact absurd hedge (by simp)
  | cons i is ih =>
    cases hclk : i.wclk with
    | false =>
      refine ih h.step ?_ (by simpa [hclk] using hedge)
      exact Nat.le_trans hn (Tracks.length_out.symm ▸ Nat.le_add_right _ _)
    | true =>
      refine r1_run h.step is (Nat.le_trans hn (h.rsync1_next.2.1 hclk).1) ?_
      rw [List.countP_cons_of_pos hclk] at hedge
      omega

theorem tracks_run (h : Tracks y.1 y.2) (is : List (FifoInput k α)) :
    Tracks ((loggedFifo k α).run y is).1 ((loggedFifo k α).run y is).2 := by
  induction is generalizing y with
  | nil => exact h
  | cons i is ih => exact ih h.step

theorem out_unread (is : List (FifoInput k α)) (hread : ∀ i ∈ is, i.ren = false) :
    ((loggedFifo k α).run y is).2.out = y.2.out := by
  induction is generalizing y with
  | nil => rfl
  | cons i is ih =>
    refine (ih fun j hj => hread j (List.mem_cons_of_mem i hj)).trans ?_
    change (y.2.update y.1 i).out = _
    simp [FifoLog.update, AsyncFifo.reads, hread i List.mem_cons_self]

theorem written_unwritten (is : List (FifoInput k α)) (hwrite : ∀ i ∈ is, i.wval = false) :
    ((loggedFifo k α).run y is).2.written = y.2.written := by
  induction is generalizing y with
  | nil => rfl
  | cons i is ih =>
    refine (ih fun j hj => hwrite j (List.mem_cons_of_mem i hj)).trans ?_
    change (y.2.update y.1 i).written = _
    simp [FifoLog.update, AsyncFifo.writes, hwrite i List.mem_cons_self]

end Edges

/-- What was written was read or is held, there is room for it, an element that is held can be read after
two edges of the read clock, and a free place can be written after two edges of the write clock. -/
structure Lossless (y : AsyncFifo k α × FifoLog α) : Prop where
  written : y.2.written = y.2.out ++ y.2.held
  room : y.2.held.length ≤ 2 ^ (k + 1)
  front : y.1.rempty = false → y.2.held.head? = some y.1.rdata
  readable : ∀ is : List (FifoInput k α), (∀ i ∈ is, i.ren = false) → 2 ≤ is.countP FifoInput.rclk →
    y.2.held ≠ [] → ((loggedFifo k α).run y is).1.rempty = false
  writable : ∀ is : List (FifoInput k α), (∀ i ∈ is, i.wval = false) → 2 ≤ is.countP FifoInput.wclk →
    y.2.held.length < 2 ^ (k + 1) → ((loggedFifo k α).run y is).1.wfull = false

/-- In every order of the edges of the two clocks the queue is lossless. -/
theorem fifo_lossless {y : AsyncFifo k α × FifoLog α}
    (h : (loggedFifo k α).Reachable (fun _ _ => True) y) : Lossless y := by
  have ht := tracks_of_reachable h
  have hlen := length_held ht
  obtain ⟨h2, h1, -, -, -, hw⟩ := ht.order
  refine ⟨written_eq ht, by omega, head_held ht, fun is hread hedge hheld => ?_,
    fun is hwrite hedge hheld => ?_⟩
  · have hseen := written_run ht is (Nat.le_refl _) hedge
    rw [← Bool.not_eq_true, (tracks_run ht is).rempty_iff, out_unread is hread]
    have := List.length_pos_iff.2 hheld
    omega
  · have hseen := out_run ht is (Nat.le_refl _) hedge
    rw [← Bool.not_eq_true, (tracks_run ht is).wfull_iff, written_unwritten is hwrite]
    omega

namespace TwoClocks

/-- A write at an edge of the write clock, and perhaps of the read clock. -/
def write (n : Nat) (rclk : Bool) (blurW : BitVec 3) : FifoInput 1 Nat :=
  ⟨true, true, n, rclk, false, 0, blurW⟩

/-- A read at an edge of the read clock, and perhaps of the write clock. -/
def read (wclk : Bool) (blurR : BitVec 3) : FifoInput 1 Nat := ⟨wclk, false, 0, true, true, blurR, 0⟩

/-- A write and a read at one instant. -/
def both (n : Nat) (blur : BitVec 3) : FifoInput 1 Nat := ⟨true, true, n, true, true, blur, ~~~blur⟩

/-- Four writes fill the queue and a fifth finds it full; reads empty it and more writes follow, until
the pointers have gone round. -/
def edges : List (FifoInput 1 Nat) :=
  [write 1 false 0, write 2 true 3, write 3 true 0, write 4 false 0, write 5 true 7, read false 0,
    read true 7, read true 2, both 6 5, both 7 1, both 8 2, both 9 7, both 10 0, read true 0, read true 0]

/-- A queue of two bits of address, for the run below. -/
def start : AsyncFifo 1 Nat × FifoLog Nat := (.init fun _ => 0, .empty)

theorem init_start : (loggedFifo 1 Nat).init start := ⟨⟨_, rfl⟩, rfl⟩

theorem run_ok : (loggedFifo 1 Nat).RunOk (fun _ _ => True) start edges := by
  decide +kernel

end TwoClocks

open TwoClocks in
theorem fifo_lossless_twoClocks : Lossless ((loggedFifo 1 Nat).run start edges) ∧
    ((loggedFifo 1 Nat).run start edges).2.out = [1, 2, 3, 4, 6, 7, 8, 9] :=
  ⟨fifo_lossless (Machine.Reachable.run (.init init_start) run_ok), by decide +kernel⟩

end Piton.Bridge
