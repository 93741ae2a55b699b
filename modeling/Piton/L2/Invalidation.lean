import Piton.L2.Mshr
import Piton.L2.SharerLoop

/-! Invalidation rounds of the L2, with the coherence domain maps off. A request in stage S4 of the first
pipeline sends an `INV_FWD` to each sharer of a line, and the acknowledgements come back through the
second pipeline, which counts them in an MSHR and in the owner field of the line. -/

namespace Piton.L2

open Hw

variable {w t : Nat}

/-- `L2_MESI_*`. No line is in state B while the domain maps are off. -/
inductive L2Mesi
  | i
  | s
  | e
  | b
  deriving DecidableEq, Repr

/-- The fields of a way in the state array that a round reads and writes. -/
structure LineState where
  mesi : L2Mesi
  owner : BitVec 6
  deriving DecidableEq

/-- The state array, by `L2_TAG_INDEX` and way. -/
abbrev Lines (w t : Nat) := BitVec t → BitVec w → LineState

/-- The state array with one line written. -/
def Lines.set (l : Lines w t) (n : BitVec t) (k : BitVec w) (a : LineState) : Lines w t :=
  Function.update l n (Function.update (l n) k a)

namespace MshrEntry

/-- `L2_MSHR_ADDR`. -/
def addr (e : MshrEntry w) : BitVec 40 := e.extractLsb' 0 40

/-- `L2_TAG_INDEX` of the address. -/
def tagIndex (t : Nat) (e : MshrEntry w) : BitVec t := e.addr.extractLsb' 6 t

/-- `L2_MSHR_WAY`. -/
def way (e : MshrEntry w) : BitVec w := e.extractLsb' 40 w

/-- `L2_MSHR_INV_FWD_PENDING`. -/
def invFwdPending (e : MshrEntry w) : Bool := e.getLsbD (119 + w)

end MshrEntry

/-- A request in S4 that has an `INV_FWD` to send and does not come back from an MSHR; `fields` are the
bits of `mshr_data_in_S4` below `inv_fwd_pending_S4`. -/
structure InvRequest (w : Nat) where
  dirData : BitVec 64
  fields : BitVec (119 + w)

/-- `mshr_data_in_S4`. -/
def InvRequest.mshrDataIn (q : InvRequest w) (pending : Bool) : MshrEntry w :=
  (BitVec.ofBool pending ++ q.fields).setWidth (120 + w)

/-- The set of the line to be invalidated. -/
def InvRequest.tagIndex (t : Nat) (q : InvRequest w) : BitVec t := (q.mshrDataIn false).tagIndex t

/-- The way of the line to be invalidated. -/
def InvRequest.way (q : InvRequest w) : BitVec w := (q.mshrDataIn false).way

/-- What S4 of the first pipeline holds. -/
inductive StageS4 (w : Nat)
  | empty
  | other
  | inv (q : InvRequest w)

/-- What S2 or S3 of the second pipeline holds: nothing, a message of another kind for a set or an
acknowledgement. -/
inductive Stage (α : Type) (t : Nat)
  | empty
  | other (tagIndex : BitVec t)
  | ack (a : α)

/-- The message at the head of the second pipeline. -/
inductive Header (t : Nat)
  | other (tagIndex : BitVec t)
  | invFwdAck (mshrid : Fin 8) (tagIndex : BitVec t)

/-- An `INV_FWDACK` in S2 with `L2_STATE_OWNER` of its way, and the bit of its MSHR. -/
structure AckS2 (w t : Nat) where
  mshrid : Fin 8
  tagIndex : BitVec t
  way : BitVec w
  invFwdPending : Bool
  owner : BitVec 6

/-- An `INV_FWDACK` in S3, the owner field that it writes, and whether it writes `L2_MESI_I` to the line
and `L2_MSHR_STATE_PENDING` to the MSHR. -/
structure AckS3 (w t : Nat) where
  mshrid : Fin 8
  tagIndex : BitVec t
  way : BitVec w
  owner : BitVec 6
  completes : Bool

/-- The write of a request or a message of another kind to the state array. -/
structure LineWrite (w t : Nat) where
  tagIndex : BitVec t
  way : BitVec w
  state : LineState

/-- The write of a request of another kind to an MSHR. -/
structure EntryWrite (w : Nat) where
  index : Fin 8
  state : MshrState
  data : MshrEntry w

/-- One cycle: what S3 hands to S4 of the first pipeline, the head of the second pipeline, and the stalls
and writes of requests and messages of other kinds. -/
structure InvInput (w t : Nat) where
  mshrCamEn : Bool
  mshrAddrIn : BitVec t
  mshrPendingReady : Bool
  msgSendReady : Bool
  enters : StageS4 w
  header : Option (Header t)
  otherStall1 : Bool
  otherEntry1 : Option (EntryWrite w)
  otherLine1 : Option (LineWrite w t)
  otherStall2 : Bool
  otherEntry2 : Option (Fin 8)
  otherLine2 : Option (LineWrite w t)

/-- The registers of the loop: the request in S4 with the sharers it still has to ask, the second
pipeline's stages, the MSHRs and the state array. -/
structure InvState (w t : Nat) where
  stage4 : StageS4 w
  sharer : SharerState
  dirSharerCounter : BitVec 6
  mshrEmptyIndexBuf : Fin 8
  stage2 : Stage (AckS2 w t) t
  stage3 : Stage (AckS3 w t) t
  mshr : Mshr w
  lines : Lines w t

/-- `empty_index`. -/
def Mshr.emptyIndex (s : Mshr w) : Fin 8 :=
  ((List.finRange 8).find? fun k => s.stateMem k = .inval).getD 0

namespace Stage

variable {α : Type}

/-- No request is in the stage. -/
def isEmpty : Stage α t → Bool
  | .empty => true
  | _ => false

/-- An acknowledgement is in the stage. -/
def isAck : Stage α t → Bool
  | .ack _ => true
  | _ => false

end Stage

/-- The header is that of an acknowledgement. -/
def Header.isAck : Header t → Bool
  | .invFwdAck _ _ => true
  | _ => false

namespace AckS2

variable (a : AckS2 w t)

/-- `state_mesi_en_S2` and `mshr_wr_state_en_S2` of an acknowledgement with the last subline. -/
def completes : Bool := a.owner = 1 && !a.invFwdPending

/-- What the acknowledgement writes in S3. -/
def toS3 : AckS3 w t where
  mshrid := a.mshrid
  tagIndex := a.tagIndex
  way := a.way
  owner := if a.completes then 0 else a.owner - 1
  completes := a.completes

end AckS2

namespace InvState

variable (x : InvState w t) (i : InvInput w t)

/-! ### The second pipeline, S1 and S2 -/

/-- The set that S2 and S3 hold. -/
def indexS2 : Option (BitVec t) :=
  match x.stage2 with
  | .empty => none
  | .other n => some n
  | .ack a => some a.tagIndex

/-- The set that S3 of the second pipeline may write. -/
def indexS3 : Option (BitVec t) :=
  match x.stage3 with
  | .empty => none
  | .other n => some n
  | .ack a => some a.tagIndex

/-- `msg_from_mshr_S1`. -/
def fromMshr (k : Fin 8) : Bool := x.mshr.stateMem k ≠ .inval

/-- `L2_TAG_INDEX` of `addr_S1`. -/
def indexS1 : Header t → BitVec t
  | .other n => n
  | .invFwdAck k n => if x.fromMshr k then (x.mshr.dataMem k).tagIndex t else n

/-- `stall_S2`: an acknowledgement never stalls. -/
def stallS2 : Bool :=
  match x.stage2 with
  | .other _ => i.otherStall2
  | _ => false

/-- `stall_hazard_S1`. -/
def stallHazardS1 (h : Header t) : Bool :=
  x.indexS2 = some (x.indexS1 h) || x.indexS3 = some (x.indexS1 h)

/-- The header stays in S1. -/
def stallS1 (h : Header t) : Bool := x.stallS2 i || x.stallHazardS1 h

/-- The message that leaves S1. -/
def taken : Option (Header t) := i.header.filter fun h => !x.stallS1 i h

/-- `stall_inv_counter_S4`. -/
def stallInvCounter : Bool := i.header.any Header.isAck || x.stage2.isAck

/-! ### S4 of the first pipeline -/

/-- `global_stall_S4`. -/
def globalStall : Bool := !x.stage3.isEmpty

/-- What the sharer loop of `l2_pipe1_ctrl` sees. -/
def sharerInput (q : InvRequest w) : SharerInput where
  dirData := q.dirData
  mshrSmcMissF := false
  mshrMissLsid := 0
  smcMiss := false
  smcStall := false
  globalStall := x.globalStall
  stallInvCounter := x.stallInvCounter i
  msgSendReady := i.msgSendReady

/-- `stall_S4`. -/
def stallS4 : Bool :=
  match x.stage4 with
  | .empty => false
  | .other => x.globalStall || i.otherStall1
  | .inv q => SharerLoop.stall x.sharer (x.sharerInput i q)

/-- `msg_send_valid_S4 && msg_send_ready_S4`. -/
def sends (q : InvRequest w) : Bool :=
  SharerLoop.msgSendValid (x.sharerInput i q) && i.msgSendReady

/-- `mshr_empty_index_sel_S4`. -/
def mshrEmptyIndexSel : Fin 8 :=
  if x.sharer.stallBefore then x.mshrEmptyIndexBuf else x.mshr.emptyIndex

/-- `mshr_wr_state_en_S4` and `mshr_wr_data_en_S4`. -/
def mshrWrEn (q : InvRequest w) : Bool :=
  (x.sends i q && x.dirSharerCounter = 1) || !x.stallS4 i

/-- `inv_fwd_pending_S4`. -/
def invFwdPending (q : InvRequest w) : Bool :=
  x.sends i q && x.dirSharerCounter = 1 && x.stallS4 i

/-- The sharers that are left after this cycle. -/
def sharerNext : SharerState :=
  match x.stage4 with
  | .inv q => SharerLoop.step x.sharer (x.sharerInput i q)
  | _ => ⟨x.sharer.dirDataBuf, x.stallS4 i⟩

/-- The number of the sharer that S4 asks next, from one. -/
def dirSharerCounterNext : BitVec 6 :=
  match x.stage4 with
  | .inv q =>
    if x.sends i q then
      if SharerLoop.dirDataStall x.sharer (x.sharerInput i q) then x.dirSharerCounter + 1 else 1
    else x.dirSharerCounter
  | _ => x.dirSharerCounter

/-- The owner field of `state_data_in_real_S4`. -/
def ownerS4 : BitVec 6 := x.dirSharerCounter - x.mshr.counterMem x.mshrEmptyIndexSel

/-! ### The arrays -/

/-- What the pipelines write to the MSHRs: `pipe_wr_sel` is S3 of the second one. -/
def entryWrite : Option (Fin 8 × MshrState × Option (MshrEntry w)) :=
  match x.stage3 with
  | .ack a => if a.completes then some (a.mshrid, .pending, none) else none
  | .other _ => i.otherEntry2.map fun k => (k, .pending, none)
  | .empty =>
    match x.stage4 with
    | .inv q =>
      if x.mshrWrEn i q then
        some (x.mshrEmptyIndexSel, .wait, some (q.mshrDataIn (x.invFwdPending i q)))
      else none
    | .other => i.otherEntry1.map fun e => (e.index, e.state, some e.data)
    | .empty => none

/-- The entry whose acknowledgement S3 counts: `mshr_inc_counter_en_S3`. -/
def counted : Option (Fin 8) :=
  match x.stage3 with
  | .ack a => some a.mshrid
  | _ => none

/-- The ports of `l2_mshr_wrap`: `pipe_rd_sel` is S1 of the second pipeline, which neither searches nor
pops. -/
def mshrInput : MshrInput w t where
  camEn := i.header.isNone && i.mshrCamEn
  wrStateEn := (x.entryWrite i).isSome
  wrDataEn := (x.entryWrite i).any fun e => e.2.2.isSome
  pendingReady := i.header.isNone && i.mshrPendingReady
  incCounterEn := x.counted.isSome
  stateIn := (x.entryWrite i).elim .inval fun e => e.2.1
  dataIn := (x.entryWrite i).elim 0 fun e => e.2.2.getD 0
  dataMaskIn := BitVec.allOnes _
  wrIndexIn := x.counted.getD ((x.entryWrite i).elim 0 fun e => e.1)
  addrIn := i.mshrAddrIn

/-- What the pipelines write to the state array. -/
def lineWrite : Option (LineWrite w t) :=
  match x.stage3 with
  | .ack a => some ⟨a.tagIndex, a.way,
      { mesi := if a.completes then .i else (x.lines a.tagIndex a.way).mesi, owner := a.owner }⟩
  | .other _ => i.otherLine2
  | .empty =>
    match x.stage4 with
    | .inv q =>
      if x.stallS4 i then none
      else some ⟨q.tagIndex t, q.way,
        { x.lines (q.tagIndex t) q.way with owner := x.ownerS4 }⟩
    | .other => i.otherLine1
    | .empty => none

/-- The state array after this cycle. -/
def linesNext : Lines w t :=
  (x.lineWrite i).elim x.lines fun l => x.lines.set l.tagIndex l.way l.state

/-- S2 after the clock edge: the state array returns what is written to it in the cycle that reads
it. -/
def stage2Next : Stage (AckS2 w t) t :=
  if x.stallS2 i then x.stage2
  else
    match x.taken i with
    | none => .empty
    | some (.other n) => .other n
    | some (.invFwdAck k n) => .ack
        { mshrid := k
          tagIndex := x.indexS1 (.invFwdAck k n)
          way := (x.mshr.dataMem k).way
          invFwdPending := x.fromMshr k && (x.mshr.dataMem k).invFwdPending
          owner := (x.linesNext i (x.indexS1 (.invFwdAck k n)) (x.mshr.dataMem k).way).owner }

/-- S3 after this cycle: an acknowledgement brings the owner field that it will write. -/
def stage3Next : Stage (AckS3 w t) t :=
  match x.stage2 with
  | .empty => .empty
  | .other n => if i.otherStall2 then .empty else .other n
  | .ack a => .ack a.toS3

/-- One clock edge. -/
def step : InvState w t where
  stage4 := if x.stallS4 i then x.stage4 else i.enters
  sharer := x.sharerNext i
  dirSharerCounter := x.dirSharerCounterNext i
  mshrEmptyIndexBuf :=
    if x.stallS4 i && !x.sharer.stallBefore then x.mshr.emptyIndex else x.mshrEmptyIndexBuf
  stage2 := x.stage2Next i
  stage3 := x.stage3Next i
  mshr := x.mshr.step (x.mshrInput i)
  lines := x.linesNext i

end InvState

/-- Nothing is under way after reset, and the state array may hold anything. -/
def invMachine (w t : Nat) : Machine (InvState w t) (InvInput w t) where
  init x := x.stage4 = .empty ∧ x.sharer.stallBefore = false ∧ x.dirSharerCounter = 1 ∧
    x.stage2 = .empty ∧ x.stage3 = .empty ∧ x.mshr = .init
  step := InvState.step

end Piton.L2
