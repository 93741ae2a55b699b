import Piton.L15.Types
import Piton.Lib.MaskedWrite

/-! The miss status holding registers, `l15_mshr`: one instruction fill, one load and one store
entry for each thread. -/

namespace Piton.L15

open Hw

/-- The registers of `l15_mshr`. -/
structure Mshr where
  ldAddress : ThreadId → Paddr
  ldControl : ThreadId → Control
  ldVal : ThreadId → Bool
  ifillControl : ThreadId → Control
  ifillVal : ThreadId → Bool
  stAddress : ThreadId → Paddr
  stControl : ThreadId → Control
  stVal : ThreadId → Bool
  stState : ThreadId → TransState
  stWay : ThreadId → Way
  stWriteBuffer : ThreadId → Line
  stWriteBufferByteMask : ThreadId → ByteMask

/-- `L15_MSHR_WRITE_TYPE_*` of the S1 port. -/
inductive MshrS1WriteType where
  | allocation | updateWriteCache
  deriving DecidableEq, Repr

/-- The S1 write request. -/
structure MshrS1Write where
  val : Bool
  op : MshrS1WriteType
  address : Paddr
  control : Control
  mshrid : MshrId
  threadid : ThreadId
  data : Line
  byteMask : ByteMask

/-- `L15_MSHR_WRITE_TYPE_*` of the S3 port. -/
inductive MshrS3WriteType where
  | deallocation | updateStState
  deriving DecidableEq, Repr

/-- The S3 write request. -/
structure MshrS3Write where
  val : Bool
  op : MshrS3WriteType
  mshrid : MshrId
  threadid : ThreadId
  updateState : TransState
  updateWay : Way

namespace Mshr

/-- `mshr_val_array[t][id]`; no entry has the identifier `0`. -/
def val (m : Mshr) (id : MshrId) (t : ThreadId) : Bool :=
  match id with
  | .none => false
  | .ifill => m.ifillVal t
  | .ld => m.ldVal t
  | .st => m.stVal t

/-- `mshr_pipe_readres_control_s1`. -/
def readControl (m : Mshr) (id : MshrId) (t : ThreadId) : Control :=
  match id with
  | .none => Control.zero
  | .ifill => m.ifillControl t
  | .ld => m.ldControl t
  | .st => m.stControl t

end Mshr

/-- A mask of bytes as a mask of bits: bit `i` is the bit of byte `i / 8`. -/
def bitMask (m : ByteMask) : Line := spreadMask 8 16 m

theorem bitMask_getLsbD (m : ByteMask) (i : Nat) :
    (bitMask m).getLsbD i = m.getLsbD (i / 8) :=
  spreadMask_getLsbD (by decide) 16 m i

namespace MshrS1Write

/-- The request allocates the entry `id` of thread `t`. -/
def allocates (w : MshrS1Write) (id : MshrId) (t : ThreadId) : Bool :=
  w.val && w.op = .allocation && w.mshrid = id && w.threadid = t

/-- The request merges store bytes into the store entry of thread `t`. -/
def merges (w : MshrS1Write) (t : ThreadId) : Bool :=
  w.val && w.op = .updateWriteCache && w.threadid = t

end MshrS1Write

namespace MshrS3Write

/-- The request frees the entry `id` of thread `t`. -/
def deallocates (w : MshrS3Write) (id : MshrId) (t : ThreadId) : Bool :=
  w.val && w.op = .deallocation && w.mshrid = id && w.threadid = t

/-- The request writes the state and the way of the store entry of thread `t`. -/
def updates (w : MshrS3Write) (t : ThreadId) : Bool :=
  w.val && w.op = .updateStState && w.threadid = t

end MshrS3Write

/-- A valid bit after an edge: an allocation wins over a deallocation. -/
def mshrValNext (val dealloc alloc : Bool) : Bool := (val && !dealloc) || alloc

/-- One clock edge of `l15_mshr`. -/
def Mshr.tick (m : Mshr) (s1 : MshrS1Write) (s3 : MshrS3Write) : Mshr where
  ldAddress t := if s1.allocates .ld t then s1.address else m.ldAddress t
  ldControl t := if s1.allocates .ld t then s1.control else m.ldControl t
  ldVal t := mshrValNext (m.ldVal t) (s3.deallocates .ld t) (s1.allocates .ld t)
  ifillControl t := if s1.allocates .ifill t then s1.control else m.ifillControl t
  ifillVal t := mshrValNext (m.ifillVal t) (s3.deallocates .ifill t) (s1.allocates .ifill t)
  stAddress t := if s1.allocates .st t then s1.address else m.stAddress t
  stControl t := if s1.allocates .st t then s1.control else m.stControl t
  stVal t := mshrValNext (m.stVal t) (s3.deallocates .st t) (s1.allocates .st t)
  stState t := if s3.updates t then s3.updateState else m.stState t
  stWay t := if s3.updates t then s3.updateWay else m.stWay t
  stWriteBuffer t :=
    if s1.allocates .st t then s1.data &&& bitMask s1.byteMask
    else if s1.merges t then maskedWrite (m.stWriteBuffer t) s1.data (bitMask s1.byteMask)
    else m.stWriteBuffer t
  stWriteBufferByteMask t :=
    if s1.allocates .st t then s1.byteMask
    else if s1.merges t then m.stWriteBufferByteMask t ||| s1.byteMask
    else m.stWriteBufferByteMask t

/-- A valid bit after an edge, for each kind of entry. -/
theorem Mshr.tick_val (m : Mshr) (s1 : MshrS1Write) (s3 : MshrS3Write) (id : MshrId)
    (t : ThreadId) (hid : id ≠ .none) :
    (m.tick s1 s3).val id t =
      mshrValNext (m.val id t) (s3.deallocates id t) (s1.allocates id t) := by
  cases id with
  | none => exact absurd rfl hid
  | ifill => rfl
  | ld => rfl
  | st => rfl

end Piton.L15
