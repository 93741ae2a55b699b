import Piton.L2.PriorityEncoder
import Piton.Lib.Machine
import Piton.Lib.Sizes

/-! The sharer loop of `l2_pipe1_ctrl`: a request in stage S4 that invalidates the sharers of a line
sends one message for each bit of the directory word, which is masked out as it is served. -/

namespace Piton.L2

open Hw

/-- The signals of one cycle of a valid request in S4 whose message is `MSG_TYPE_INV_FWD` for a line
that is not in state B: `cs_S4` then enables the first message only. -/
structure SharerInput where
  dirData : BitVec 64
  mshrSmcMissF : Bool
  mshrMissLsid : BitVec 6
  smcMiss : Bool
  smcStall : Bool
  globalStall : Bool
  stallInvCounter : Bool
  msgSendReady : Bool
deriving DecidableEq

/-- `dir_data_buf_S4_f` and `stall_before_S4_f`. -/
structure SharerState where
  dirDataBuf : BitVec 64
  stallBefore : Bool
deriving DecidableEq

namespace SharerLoop

/-- The encoder of `L2_OWNER_BITS` index bits. -/
def sharerEncoder (d : BitVec 64) : PriorityOut 6 := genPriorityEncoder 5 d

/-- `msg_send_valid_S4`: nothing but the network keeps a message back. -/
def msgSendValid (i : SharerInput) : Bool := !(i.globalStall || i.stallInvCounter || i.smcStall)

/-- The directory word of a request that has not stalled yet; after a miss of the sharer map it
starts again at the sharer that missed. -/
def dirDataStart (i : SharerInput) : BitVec 64 :=
  if i.mshrSmcMissF then (i.dirData >>> i.mshrMissLsid) <<< i.mshrMissLsid else i.dirData

/-- The sharers that are left: those of the directory word at first, then those of the register. -/
def dirDataSel (s : SharerState) (i : SharerInput) : BitVec 64 :=
  if s.stallBefore then s.dirDataBuf else dirDataStart i

/-- The sharer that is served now, the lowest one left. -/
def dirSharer (s : SharerState) (i : SharerInput) : Nat :=
  (sharerEncoder (dirDataSel s i)).dataOut.toNat

/-- The sharers that are left after it. -/
def dirDataTrans (s : SharerState) (i : SharerInput) : BitVec 64 :=
  dirDataSel s i &&& (sharerEncoder (dirDataSel s i)).dataOutMask

/-- A miss of the sharer map turns the message into `MSG_TYPE_NC_LOAD_REQ`. -/
def dirDataStall (s : SharerState) (i : SharerInput) : Bool := !i.smcMiss && dirDataTrans s i != 0

/-- `stall_S4`: more sharers are left, or the message cannot be sent. -/
def stall (s : SharerState) (i : SharerInput) : Bool :=
  i.globalStall || dirDataStall s i || (msgSendValid i && !i.msgSendReady) || i.stallInvCounter ||
    i.smcStall

/-- The register of the sharers left: a request that stalls without sending saves them all, and one
that sends saves the others. -/
def dirDataBufNext (s : SharerState) (i : SharerInput) : BitVec 64 :=
  if stall s i && !s.stallBefore then
    if i.smcStall || (msgSendValid i && !i.msgSendReady) || i.globalStall || i.stallInvCounter then
      dirDataStart i
    else dirDataTrans s i
  else if !((msgSendValid i && !i.msgSendReady) || i.globalStall || i.smcStall ||
      i.stallInvCounter) && dirDataStall s i then
    dirDataTrans s i
  else s.dirDataBuf

/-- One clock edge. -/
def step (s : SharerState) (i : SharerInput) : SharerState where
  dirDataBuf := dirDataBufNext s i
  stallBefore := stall s i

/-- The sharer whose invalidation is sent in a cycle. -/
def sent (s : SharerState) (i : SharerInput) : Option Nat :=
  if msgSendValid i && i.msgSendReady && !i.smcMiss then some (dirSharer s i) else none

/-- The sharers served over some cycles. -/
def served : SharerState → List SharerInput → List Nat
  | _, [] => []
  | s, i :: is => (sent s i).toList ++ served (step s i) is

/-- The request stalls in each of the cycles. -/
def Stays : SharerState → List SharerInput → Prop
  | _, [] => True
  | s, i :: is => stall s i = true ∧ Stays (step s i) is

variable {s : SharerState} {i last : SharerInput} {is : List SharerInput}

/-- The sharers that are still to be served in a cycle. -/
def due (s : SharerState) (i : SharerInput) : List Nat := setBits (dirDataSel s i)

theorem due_of_trans (h : dirDataTrans s i ≠ 0) :
    due s i = dirSharer s i :: setBits (dirDataTrans s i) := by
  apply (PriorityEncoder.lowestBit 5).setBits_of_nonzero
  apply ((PriorityEncoder.lowestBit 5).nonzero_iff _).2
  obtain ⟨k, hk⟩ := ne_zero_iff_exists_getLsbD.1 h
  unfold dirDataTrans at hk
  rw [BitVec.getLsbD_and, Bool.and_eq_true] at hk
  exact ⟨k, hk.1⟩

/-- Something other than the sharers that are left holds the message back. -/
def blocked (i : SharerInput) : Bool :=
  (msgSendValid i && !i.msgSendReady) || i.globalStall || i.smcStall || i.stallInvCounter

theorem not_blocked_iff : blocked i = false ↔ msgSendValid i = true ∧ i.msgSendReady = true := by
  unfold blocked msgSendValid
  cases i.globalStall <;> cases i.smcStall <;> cases i.stallInvCounter <;> simp

theorem stall_eq : stall s i = (blocked i || dirDataStall s i) := by
  unfold stall blocked
  cases i.globalStall <;> cases i.smcStall <;> cases i.stallInvCounter <;>
    simp [Bool.or_comm]

/-- A request that stalls keeps its word while it is blocked and masks out what it has sent. -/
theorem dirDataBufNext_of_stall (h : stall s i = true) :
    dirDataBufNext s i = if blocked i then dirDataSel s i else dirDataTrans s i := by
  have hblocked : (i.smcStall || (msgSendValid i && !i.msgSendReady) || i.globalStall ||
      i.stallInvCounter) = blocked i := by
    unfold blocked
    ac_rfl
  unfold dirDataBufNext
  rw [h, hblocked]
  change (if _ then _ else if !blocked i && dirDataStall s i then _ else _) = _
  cases hb : s.stallBefore with
  | false => simp only [Bool.not_false, Bool.and_true, if_true, dirDataSel, hb,
      if_neg Bool.false_ne_true]
  | true =>
    cases hbl : blocked i with
    | true => simp only [Bool.not_true, Bool.and_false, Bool.false_and, if_neg Bool.false_ne_true,
        if_true, dirDataSel, hb]
    | false =>
      rw [stall_eq, hbl, Bool.false_or] at h
      simp only [Bool.not_true, Bool.not_false, Bool.and_false, Bool.true_and, h, if_true,
        if_neg Bool.false_ne_true]

theorem sent_of_blocked (h : blocked i = true) : sent s i = none := by
  have hnot : ¬(msgSendValid i = true ∧ i.msgSendReady = true) := by
    rw [← not_blocked_iff, h]
    exact Bool.noConfusion
  unfold sent
  rw [if_neg]
  rw [Bool.and_eq_true, Bool.and_eq_true]
  intro hsent
  exact hnot hsent.1

theorem sent_of_not_blocked (h : blocked i = false) :
    sent s i = if i.smcMiss then none else some (dirSharer s i) := by
  obtain ⟨hvalid, hready⟩ := not_blocked_iff.1 h
  unfold sent
  rw [hvalid, hready]
  cases i.smcMiss <;> rfl

/-- A cycle that stalls serves the first sharer that is due or none. -/
theorem due_of_stall (h : stall s i = true) (j : SharerInput) :
    due s i = (sent s i).toList ++ due (step s i) j := by
  have hnext : due (step s i) j = setBits (dirDataBufNext s i) := by
    unfold due dirDataSel step
    rw [h, if_pos rfl]
  rw [hnext, dirDataBufNext_of_stall h]
  cases hb : blocked i with
  | true =>
    rw [sent_of_blocked hb, if_pos rfl]
    rfl
  | false =>
    rw [stall_eq, hb, Bool.false_or] at h
    unfold dirDataStall at h
    rw [Bool.and_eq_true, Bool.not_eq_true', bne_iff_ne] at h
    rw [sent_of_not_blocked hb, h.1, if_neg Bool.false_ne_true, if_neg Bool.false_ne_true,
      due_of_trans h.2]
    rfl

/-- The sharers due are the one that is served and those that its mask leaves. -/
theorem due_eq_cons (hne : due s i ≠ []) :
    due s i = dirSharer s i :: setBits (dirDataTrans s i) := by
  apply (PriorityEncoder.lowestBit 5).setBits_of_nonzero
  apply ((PriorityEncoder.lowestBit 5).nonzero_iff _).2
  by_contra hno
  exact hne (setBits_eq_nil.2 hno)

/-- A request that leaves has served the last sharer, or it leaves for a miss of the sharer map. -/
theorem due_of_leaves (h : stall s i = false) (hne : due s i ≠ []) :
    (i.smcMiss = false → due s i = (sent s i).toList) ∧ (i.smcMiss = true → sent s i = none) := by
  rw [stall_eq, Bool.or_eq_false_iff] at h
  rw [sent_of_not_blocked h.1]
  constructor
  · intro hmiss
    have htrans : dirDataTrans s i = 0 := by
      have hstall := h.2
      unfold dirDataStall at hstall
      rw [hmiss, Bool.not_false, Bool.true_and] at hstall
      simpa using hstall
    rw [due_eq_cons hne, htrans, hmiss, if_neg Bool.false_ne_true, Option.toList_some,
      setBits_eq_nil.2 (by simp)]
  · intro hmiss
    rw [hmiss, if_pos rfl]

/-- The first cycle of a request that stays for `is` and leaves in `last`. -/
def firstCycle (is : List SharerInput) (last : SharerInput) : SharerInput :=
  (is ++ [last]).head (by simp)

/-- Over the cycles that stall, what is served and what is left are the sharers due at first. -/
theorem due_of_stays (h : Stays s is) (last : SharerInput) :
    due s (firstCycle is last) = served s is ++ due (is.foldl step s) last := by
  induction is generalizing s with
  | nil => rfl
  | cons i is ih =>
    obtain ⟨hstall, hrest⟩ := h
    have hstep := due_of_stall hstall (firstCycle is last)
    rw [ih hrest] at hstep
    change due s i = ((sent s i).toList ++ served (step s i) is) ++ due (is.foldl step _) last
    rw [hstep, List.append_assoc]

theorem served_append (js : List SharerInput) :
    served s (is ++ js) = served s is ++ served (is.foldl step s) js := by
  induction is generalizing s with
  | nil => rfl
  | cons i is ih =>
    change (sent s i).toList ++ served (step s i) (is ++ js) = ((sent s i).toList ++ _) ++ _
    rw [ih, List.append_assoc]
    rfl

theorem due_step_ne_nil (h : stall s i = true) (hne : due s i ≠ []) (j : SharerInput) :
    due (step s i) j ≠ [] := by
  unfold due dirDataSel step
  rw [h, if_pos rfl, dirDataBufNext_of_stall h]
  cases hb : blocked i with
  | true => exact hne
  | false =>
    rw [stall_eq, hb, Bool.false_or] at h
    unfold dirDataStall at h
    rw [Bool.and_eq_true, bne_iff_ne] at h
    rw [if_neg Bool.false_ne_true, Ne, setBits_eq_nil, not_not]
    exact ne_zero_iff_exists_getLsbD.1 h.2

theorem due_foldl_ne_nil (h : Stays s is) (hne : due s (firstCycle is last) ≠ []) :
    due (is.foldl step s) last ≠ [] := by
  induction is generalizing s with
  | nil => exact hne
  | cons i is ih => exact ih h.2 (due_step_ne_nil h.1 hne _)

/-- The sharers that a request has to serve. -/
def sharers (is : List SharerInput) (last : SharerInput) : List Nat :=
  setBits (dirDataStart (firstCycle is last))

theorem due_eq_sharers (h0 : s.stallBefore = false) :
    due s (firstCycle is last) = sharers is last := by
  unfold due dirDataSel
  rw [h0, if_neg Bool.false_ne_true]
  rfl

/-- A request that enters S4, stays for some cycles and leaves serves every sharer once, in
increasing order. When it leaves for a miss of the sharer map, it has served the sharers below the
one that missed. -/
theorem served_eq_sharers (h0 : s.stallBefore = false) (h : Stays s is)
    (hleaves : stall (is.foldl step s) last = false) (hne : sharers is last ≠ []) :
    (last.smcMiss = false → served s (is ++ [last]) = sharers is last) ∧
    (last.smcMiss = true → sharers is last = served s (is ++ [last]) ++
      (sharers is last).filter fun k => dirSharer (is.foldl step s) last ≤ k) := by
  rw [← due_eq_sharers h0] at hne ⊢
  have hlast := due_foldl_ne_nil h hne
  obtain ⟨hdone, hmiss⟩ := due_of_leaves hleaves hlast
  have hdue := due_of_stays h last
  have hserved : served s (is ++ [last]) =
      served s is ++ (sent (is.foldl step s) last).toList := by
    rw [served_append]
    change _ ++ (_ ++ []) = _
    rw [List.append_nil]
  rw [hserved]
  constructor
  · intro hm
    rw [hdue, hdone hm]
  · intro hm
    have hsorted := pairwise_setBits (dirDataSel s (firstCycle is last))
    change (due s (firstCycle is last)).Pairwise (· < ·) at hsorted
    rw [hdue, due_eq_cons hlast] at hsorted ⊢
    rw [filter_le_of_pairwise hsorted, hmiss hm, Option.toList_none, List.append_nil]

/-- The request that comes back after the miss has the sharers that were left. -/
theorem sharers_resumed {js : List SharerInput} {end' : SharerInput} {m : Nat}
    (hdir : (firstCycle js end').dirData = (firstCycle is last).dirData)
    (hres : (firstCycle js end').mshrSmcMissF = true)
    (hm : (firstCycle js end').mshrMissLsid.toNat = m)
    (hmem : m ∈ sharers is last) :
    sharers js end' = (sharers is last).filter fun k => m ≤ k := by
  have hres' : sharers js end' = (setBits (firstCycle is last).dirData).filter fun k => m ≤ k := by
    unfold sharers dirDataStart
    rw [hres, if_pos rfl, hdir, BitVec.ushiftRight_eq', BitVec.shiftLeft_eq', hm, setBits_shift]
  rw [hres']
  unfold sharers dirDataStart at hmem ⊢
  cases hf : (firstCycle is last).mshrSmcMissF with
  | false => rw [if_neg Bool.false_ne_true]
  | true =>
    rw [hf, if_pos rfl] at hmem
    rw [if_pos rfl]
    rw [BitVec.ushiftRight_eq', BitVec.shiftLeft_eq', setBits_shift] at hmem ⊢
    have hle := of_decide_eq_true (List.mem_filter.1 hmem).2
    rw [List.filter_filter]
    apply List.filter_congr
    intro k _
    by_cases hk : m ≤ k
    · rw [decide_eq_true hk, decide_eq_true (Nat.le_trans hle hk)]
      rfl
    · rw [decide_eq_false hk]
      rfl

/-- The sharer at which a request leaves is one of those it has to serve. -/
theorem dirSharer_mem (h0 : s.stallBefore = false) (h : Stays s is) (hne : sharers is last ≠ []) :
    dirSharer (is.foldl step s) last ∈ sharers is last := by
  rw [← due_eq_sharers h0] at hne ⊢
  have hlast := due_foldl_ne_nil h hne
  rw [due_of_stays h last, due_eq_cons hlast]
  exact List.mem_append_right _ List.mem_cons_self

/-- A request that leaves for a miss of the sharer map at some sharer. -/
structure LeavesForMiss (s : SharerState) (is : List SharerInput) (last : SharerInput) : Prop where
  enters : s.stallBefore = false
  stays : Stays s is
  leaves : stall (is.foldl step s) last = false
  smcMiss : last.smcMiss = true

/-- A request that leaves when every sharer that is left has been served. -/
structure Completes (s : SharerState) (is : List SharerInput) (last : SharerInput) : Prop where
  enters : s.stallBefore = false
  stays : Stays s is
  leaves : stall (is.foldl step s) last = false
  smcMiss : last.smcMiss = false

theorem Completes.served_eq (h : Completes s is last) (hne : sharers is last ≠ []) :
    served s (is ++ [last]) = sharers is last :=
  (served_eq_sharers h.enters h.stays h.leaves hne).1 h.smcMiss

/-- Before the miss and after it each sharer is served once, in increasing order. -/
theorem LeavesForMiss.served_eq (h : LeavesForMiss s is last) {s' : SharerState}
    {js : List SharerInput} {end' : SharerInput} (h' : Completes s' js end')
    (hdir : (firstCycle js end').dirData = (firstCycle is last).dirData)
    (hres : (firstCycle js end').mshrSmcMissF = true)
    (hm : (firstCycle js end').mshrMissLsid.toNat = dirSharer (is.foldl step s) last)
    (hne : sharers is last ≠ []) :
    served s (is ++ [last]) ++ served s' (js ++ [end']) = sharers is last := by
  have hmem := dirSharer_mem h.enters h.stays hne
  have hresumed := sharers_resumed hdir hres hm hmem
  have hne' : sharers js end' ≠ [] := by
    rw [hresumed]
    exact List.ne_nil_of_mem (List.mem_filter.2 ⟨hmem, decide_eq_true (Nat.le_refl _)⟩)
  rw [h'.served_eq hne', hresumed]
  exact ((served_eq_sharers h.enters h.stays h.leaves hne).2 h.smcMiss).symm

end SharerLoop

-- Two sharers, with a cycle in which the message is not taken between the two.
example :
    SharerLoop.served ⟨0, false⟩
      [⟨0x28, false, 0, false, false, false, false, true⟩,
       ⟨0x28, false, 0, false, false, false, false, false⟩,
       ⟨0x28, false, 0, false, false, false, false, true⟩] = [3, 5] := by
  decide

/-- The encoder finds the lowest set bit for every number of index bits and every input, masking
out what it finds enumerates the set bits, and the sharer loop does this in any timing, also where a
request leaves for a miss of the sharer map and comes back. -/
theorem priorityEncoder_enumerates :
    (∀ n (x : BitVec (2 ^ (n + 1))), (genPriorityEncoder n x).Encodes x ∧ Enumerates n x) ∧
    (∀ (s : SharerState) (is : List SharerInput) (last : SharerInput),
      s.stallBefore = false → SharerLoop.Stays s is →
      SharerLoop.stall (is.foldl SharerLoop.step s) last = false → last.smcMiss = false →
      SharerLoop.sharers is last ≠ [] →
      SharerLoop.served s (is ++ [last]) = SharerLoop.sharers is last) ∧
    ∀ (s s' : SharerState) (is js : List SharerInput) (last end' : SharerInput),
      SharerLoop.LeavesForMiss s is last → SharerLoop.Completes s' js end' →
      (SharerLoop.firstCycle js end').dirData = (SharerLoop.firstCycle is last).dirData →
      (SharerLoop.firstCycle js end').mshrSmcMissF = true →
      (SharerLoop.firstCycle js end').mshrMissLsid.toNat =
        SharerLoop.dirSharer (is.foldl SharerLoop.step s) last →
      SharerLoop.sharers is last ≠ [] →
      SharerLoop.served s (is ++ [last]) ++ SharerLoop.served s' (js ++ [end']) =
        SharerLoop.sharers is last := by
  refine ⟨fun n x => ⟨PriorityEncoder.encodes n x, enumerates n x⟩, ?_, ?_⟩
  · intro s is last h0 hstays hleaves hmiss hne
    exact SharerLoop.Completes.served_eq ⟨h0, hstays, hleaves, hmiss⟩ hne
  · intro s s' is js last end' h h' hdir hres hm hne
    exact h.served_eq h' hdir hres hm hne

end Piton.L2
