import Mathlib.Data.FinEnum
import Piton.Lib.PseudoLru
import Piton.L15.Stages

/-! The replacement bits: the array keeps what hits, fills and invalidations make of the replacement
state of each set. -/

namespace Piton.L15

open Hw

/-- The replacement state that six bits stand for. -/
def replacementOf (d : BitVec 6) : PseudoLru 4 where
  used w := d.getLsbD w.val
  turn := Fin.ofNat 4 (d.extractLsb' 4 2).toNat

namespace State

variable (s : State) (i : Inputs)

/-- The instruction in S3 changes the replacement state by the way of the tag check. -/
def marksTagcheckWay : Bool :=
  s.valS3 && s.s3Result.tagcheckState.mes &&
    (s.s3.ops.lruarrayWriteOp = .updateAccessBitsIfTagcheckWayIsMes ||
      s.s3.ops.lruarrayWriteOp = .invalidateIfTagcheckWayIsMes)

/-- What the instruction in S3 does to a way of its set: a hit, a fill or an invalidation. -/
def wayEvent : Option (WayEvent 4) :=
  match s.s3.ops.lruarrayWriteOp with
  | .updateAccessBitsIfTagcheckWayIsMes =>
    if s.s3Result.tagcheckState.mes then some (.access s.s3Result.tagcheckWay) else none
  | .replacement => some (.fill s.s3Result.lruWay)
  | .invalidateIfTagcheckWayIsMes =>
    if s.s3Result.tagcheckState.mes then some (.invalidate s.s3Result.tagcheckWay) else none
  | .invalidateIfFlushWayIsMes =>
    if s.s3Result.flushState.mes then some (.invalidate s.s3Result.flushWay) else none
  | .eviction | .none => none

end State

/-- The replacement states, to which each instruction contributes in its first cycle in S3, and whether
S3 begins a new one. -/
structure Replacements where
  states : SetIndex → PseudoLru 4
  fresh : Bool

/-- An instruction contributes its event when it has just entered S3. -/
def replacementsNext (g : Replacements) (s : State) (i : Inputs) : Replacements where
  states :=
    match s.wayEvent.filter fun _ => s.valS3 && g.fresh with
    | some e => Function.update g.states s.indexS3 ((g.states s.indexS3).apply e)
    | none => g.states
  fresh := !s.stallS3 i

/-- The L1.5 in its surroundings with the replacement states. -/
def replacementSystem : Machine ((State × Traffic) × Replacements) Inputs :=
  system.withHistory ⟨fun _ => PseudoLru.empty, true⟩ fun g y i => replacementsNext g y.1 i

/-- The way of a tag check is one that `tagcheck_way_mask_s3` decodes, and an instruction that changes
replacement bits is not stalled while another set is in S2. -/
structure ReplacementOk (s : State) (i : Inputs) : Prop where
  way : s.marksTagcheckWay = true → s.s3Result.tagcheckWay = 0 ∨ s.s3Result.tagcheckWay = 1
  stall : s.stallS3 i = true → s.wayEvent.isSome = true → s.valS2 = true → s.indexS2 = s.indexS3

instance (s : State) (i : Inputs) : Decidable (ReplacementOk s i) :=
  decidable_of_iff
    ((s.marksTagcheckWay = true → s.s3Result.tagcheckWay = 0 ∨ s.s3Result.tagcheckWay = 1) ∧
      (s.stallS3 i = true → s.wayEvent.isSome = true → s.valS2 = true → s.indexS2 = s.indexS3))
    ⟨fun h => ⟨h.1, h.2⟩, fun h => ⟨h.way, h.stall⟩⟩

/-- A conforming cycle without a flit between the passes of an instruction cache invalidation that meets the
condition. -/
def LruOk (z : (State × Traffic) × Replacements) (i : Inputs) : Prop :=
  (Conforms z.1 i ∧ IcacheUndisturbed z.1 i) ∧ ReplacementOk z.1.1 i

instance (z : (State × Traffic) × Replacements) (i : Inputs) : Decidable (LruOk z i) :=
  inferInstanceAs (Decidable (_ ∧ _))

/-! ### Bits -/

section

variable (t : BitVec 2) (u : BitVec 4) (w : Way)

theorem replacementOf_append :
    replacementOf (t ++ u) = ⟨fun v => u.getLsbD v.val, Fin.ofNat 4 t.toNat⟩ := by
  unfold replacementOf
  congr 1
  · funext v
    rw [BitVec.getLsbD_append, if_pos v.isLt]
  · rw [BitVec.extractLsb'_append_eq_left]

theorem used_extract (d : BitVec 6) :
    (fun v : Way => (d.extractLsb' 0 4).getLsbD v.val) = (replacementOf d).used := by
  funext v
  rw [BitVec.getLsbD_extractLsb', decide_eq_true v.isLt, Bool.true_and, Nat.zero_add]
  rfl

theorem wayMask_getLsbD (v : Way) : (wayMask w).getLsbD v.val = decide (v = w) := by
  revert w v
  decide

theorem mark_used :
    (fun v : Way => (u ||| wayMask w).getLsbD v.val) =
      Function.update (fun v : Way => u.getLsbD v.val) w true := by
  funext v
  rw [BitVec.getLsbD_or, wayMask_getLsbD, Function.update_apply]
  by_cases hv : v = w
  · rw [decide_eq_true hv, if_pos hv, Bool.or_true]
  · rw [decide_eq_false hv, if_neg hv, Bool.or_false]

theorem clear_used :
    (fun v : Way => (u &&& ~~~wayMask w).getLsbD v.val) =
      Function.update (fun v : Way => u.getLsbD v.val) w false := by
  funext v
  rw [BitVec.getLsbD_and, BitVec.getLsbD_not, wayMask_getLsbD, Function.update_apply,
    decide_eq_true v.isLt, Bool.true_and]
  by_cases hv : v = w
  · rw [decide_eq_true hv, if_pos hv, Bool.not_true, Bool.and_false]
  · rw [decide_eq_false hv, if_neg hv, Bool.not_false, Bool.and_true]

theorem allUsed_iff : u = 15#4 ↔ ∀ v : Way, u.getLsbD v.val = true := by
  revert u
  decide

theorem turn_succ : Fin.ofNat 4 (t + 1).toNat = Fin.ofNat 4 t.toNat + 1 := by
  revert t
  decide

end

/-! ### The write request -/

variable {y : State × Traffic} {s : State} {i : Inputs} {g : Replacements} {e : WayEvent 4}
  {rt : Reqtype} {d : Decoded}

theorem tagcheckWayMask_eq (h : s.s3Result.tagcheckWay = 0 ∨ s.s3Result.tagcheckWay = 1) :
    s.tagcheckWayMaskS3 = wayMask s.s3Result.tagcheckWay := by
  unfold State.tagcheckWayMaskS3
  rcases h with h | h <;> rw [h] <;> rfl

theorem access_bits (d : BitVec 6) (w : Way) :
    replacementOf (d.extractLsb' 4 2 ++
        (if d.extractLsb' 0 4 ||| wayMask w = 15#4 then 0#4
          else d.extractLsb' 0 4 ||| wayMask w)) =
      (replacementOf d).apply (.access w) := by
  have hmark := mark_used (d.extractLsb' 0 4) w
  rw [used_extract] at hmark
  rw [replacementOf_append, PseudoLru.apply_access, ← hmark]
  by_cases hall : d.extractLsb' 0 4 ||| wayMask w = 15#4
  · rw [if_pos hall, if_pos ((allUsed_iff _).1 hall)]
    congr 1
    funext v
    exact BitVec.getLsbD_zero
  · rw [if_neg hall, if_neg fun h => hall ((allUsed_iff _).2 h)]
    rfl

theorem fill_bits (d : BitVec 6) (w : Way) :
    replacementOf ((d.extractLsb' 4 2 + 1) ++ (d.extractLsb' 0 4 ||| wayMask w)) =
      (replacementOf d).apply (.fill w) := by
  rw [replacementOf_append, mark_used, used_extract, turn_succ]
  rfl

theorem invalidate_bits (d : BitVec 6) (w : Way) :
    replacementOf (d.extractLsb' 4 2 ++ (d.extractLsb' 0 4 &&& ~~~wayMask w)) =
      (replacementOf d).apply (.invalidate w) := by
  rw [replacementOf_append, clear_used, used_extract]
  rfl

/-- The row that S3 writes is what its instruction makes of the row in `lru_data_s3`. -/
theorem lruWrite_some (hv : s.valS3 = true) (he : s.wayEvent = some e)
    (hway : s.marksTagcheckWay = true → s.s3Result.tagcheckWay = 0 ∨ s.s3Result.tagcheckWay = 1) :
    s.lruWrite.valid = true ∧
      replacementOf s.lruWrite.data = (replacementOf s.lruDataS3).apply e := by
  unfold State.wayEvent at he
  unfold State.marksTagcheckWay at hway
  unfold State.lruWrite
  cases hop : s.s3.ops.lruarrayWriteOp with
  | updateAccessBitsIfTagcheckWayIsMes =>
    rw [hop] at he hway
    rw [hv]
    cases hmes : s.s3Result.tagcheckState.mes with
    | false =>
      rw [hmes] at he
      cases he
    | true =>
      rw [hmes, if_pos rfl] at he
      cases he
      have hmask := tagcheckWayMask_eq (hway (by rw [hv, hmes]; rfl))
      simp only [hmask, Bool.and_self, true_and]
      exact access_bits s.lruDataS3 s.s3Result.tagcheckWay
  | replacement =>
    rw [hop] at he
    rw [hv]
    cases he
    exact ⟨rfl, fill_bits s.lruDataS3 s.s3Result.lruWay⟩
  | invalidateIfTagcheckWayIsMes =>
    rw [hop] at he hway
    rw [hv]
    cases hmes : s.s3Result.tagcheckState.mes with
    | false =>
      rw [hmes] at he
      cases he
    | true =>
      rw [hmes, if_pos rfl] at he
      cases he
      have hmask := tagcheckWayMask_eq (hway (by rw [hv, hmes]; rfl))
      simp only [hmask, Bool.and_self, true_and]
      exact invalidate_bits s.lruDataS3 s.s3Result.tagcheckWay
  | invalidateIfFlushWayIsMes =>
    rw [hop] at he
    rw [hv]
    cases hmes : s.s3Result.flushState.mes with
    | false =>
      rw [hmes] at he
      cases he
    | true =>
      rw [hmes, if_pos rfl] at he
      cases he
      exact ⟨rfl, invalidate_bits s.lruDataS3 s.s3Result.flushWay⟩
  | eviction =>
    rw [hop] at he
    cases he
  | none =>
    rw [hop] at he
    cases he

theorem lruWrite_none (he : s.wayEvent = none) : s.lruWrite.valid = false := by
  unfold State.wayEvent at he
  unfold State.lruWrite
  cases hop : s.s3.ops.lruarrayWriteOp with
  | replacement =>
    rw [hop] at he
    cases he
  | invalidateIfFlushWayIsMes =>
    rw [hop] at he
    cases hmes : s.s3Result.flushState.mes with
    | false => rfl
    | true =>
      rw [hmes] at he
      cases he
  | eviction | none => rfl
  | _ =>
    rw [hop] at he
    cases hmes : s.s3Result.tagcheckState.mes with
    | false => rfl
    | true =>
      rw [hmes] at he
      cases he

theorem valS3_of_lruWrite (h : s.lruWrite.valid = true) : s.valS3 = true := by
  unfold State.lruWrite at h
  exact (Bool.and_eq_true _ _ ▸ h).2

/-- The row of a set after a cycle in which S3 writes it. -/
theorem regfile_of_lruWrite (h : s.lruWrite.valid = true) :
    (s.step i).lruarray.regfile = Function.update s.lruarray.regfile s.indexS3 s.lruWrite.data := by
  change (s.lruarray.tick (s.s1Issues i) s.indexS1 s.lruWrite).regfile = _
  unfold RfLru.tick
  rw [if_pos h]
  change Function.update s.lruarray.regfile s.indexS3
    (maskedWrite (s.lruarray.regfile s.indexS3) s.lruWrite.data (BitVec.allOnes 6)) = _
  rw [maskedWrite_allOnes]

theorem regfile_of_quiet (h : s.lruWrite.valid = false) :
    (s.step i).lruarray.regfile = s.lruarray.regfile := by
  change (if s.lruWrite.valid then _ else _) = _
  rw [h, if_neg Bool.false_ne_true]

/-! ### Rows -/

/-- The row changes the replacement state of its set. -/
def Decoded.changesLru (d : Decoded) : Bool :=
  d.lruarrayWriteOp ≠ .none && d.lruarrayWriteOp ≠ .eviction

/-- A hit or a fill cannot stall in S3. -/
theorem Decodes.freeRow (h : Decodes rt d)
    (hop : d.lruarrayWriteOp = .updateAccessBitsIfTagcheckWayIsMes ∨
      d.lruarrayWriteOp = .replacement) :
    d.cpxOperation.twoCycles = false ∧ d.noc3Operation = .none :=
  h.of_rows (P := fun _ d => d.lruarrayWriteOp = .updateAccessBitsIfTagcheckWayIsMes ∨
    d.lruarrayWriteOp = .replacement →
      d.cpxOperation.twoCycles = false ∧ d.noc3Operation = .none) (by decide +kernel) hop

/-- A row that changes the replacement state waits for its set, or is a second pass. -/
theorem Decodes.changesRow (h : Decodes rt d) (hop : d.changesLru = true) :
    d.stallOnMatchedBypassedIndex = true ∨ d.dtagOperation = .write ∨
      d.mesiWriteOp = .invalidateFlushWayIfMes :=
  h.of_rows (P := fun _ d => d.changesLru = true →
    d.stallOnMatchedBypassedIndex = true ∨ d.dtagOperation = .write ∨
      d.mesiWriteOp = .invalidateFlushWayIfMes) (by decide +kernel) hop

/-- The first pass of a line flush leaves the replacement state alone. -/
theorem Decodes.flushFirstRow (h : Decodes .lineFlush d)
    (hop : d.mesiWriteOp ≠ .invalidateFlushWayIfMes) : d.lruarrayWriteOp = .none :=
  h.of_rows (P := fun rt d => rt = .lineFlush → d.mesiWriteOp ≠ .invalidateFlushWayIfMes →
    d.lruarrayWriteOp = .none) (by decide +kernel) rfl hop

theorem changesLru_of_wayEvent (he : s.wayEvent.isSome = true) : s.s3.ops.changesLru = true := by
  unfold Decoded.changesLru
  unfold State.wayEvent at he
  cases hop : s.s3.ops.lruarrayWriteOp with
  | none | eviction =>
    rw [hop] at he
    cases he
  | _ => rfl

/-- Only an invalidation is held in S3. -/
theorem wayEvent_of_stallS3 (hd : Decodes s.s3.reqtype s.s3.ops) (hst : s.stallS3 i = true)
    (he : s.wayEvent = some e) : ∃ w, e = .invalidate w := by
  have hfree : s.s3.ops.lruarrayWriteOp = .updateAccessBitsIfTagcheckWayIsMes ∨
      s.s3.ops.lruarrayWriteOp = .replacement → False := by
    intro hop
    obtain ⟨hcpx, hnoc3⟩ := hd.freeRow hop
    unfold State.stallS3 at hst
    rw [stallForNoc3_of_none hnoc3, Bool.or_false, Bool.and_eq_true] at hst
    have htwo := (stallForCpx_eq_true (i := i) hst.2).1
    rw [hcpx] at htwo
    exact absurd htwo Bool.false_ne_true
  unfold State.wayEvent at he
  cases hop : s.s3.ops.lruarrayWriteOp with
  | updateAccessBitsIfTagcheckWayIsMes => exact (hfree (.inl hop)).elim
  | replacement => exact (hfree (.inr hop)).elim
  | invalidateIfTagcheckWayIsMes =>
    rw [hop] at he
    cases hmes : s.s3Result.tagcheckState.mes with
    | false =>
      rw [hmes] at he
      cases he
    | true =>
      rw [hmes] at he
      exact ⟨_, (Option.some.inj he).symm⟩
  | invalidateIfFlushWayIsMes =>
    rw [hop] at he
    cases hmes : s.s3Result.flushState.mes with
    | false =>
      rw [hmes] at he
      cases he
    | true =>
      rw [hmes] at he
      exact ⟨_, (Option.some.inj he).symm⟩
  | eviction | none =>
    rw [hop] at he
    cases he

/-- Neighbours that change replacement states are in different sets. -/
theorem Stages.lru_apart (hs : Stages y.1) (h : Inv y) (hv2 : y.1.valS2 = true)
    (hc : y.1.s2.ops.changesLru = true) (hv3 : y.1.valS3 = true)
    (he : y.1.wayEvent.isSome = true) : y.1.indexS2 ≠ y.1.indexS3 := by
  have hc3 := changesLru_of_wayEvent he
  unfold Decoded.changesLru at hc3
  rw [Bool.and_eq_true] at hc3
  rcases (h.decodesS2 hv2).changesRow hc with hw | hf | hf
  · exact hs.apart hv2 hv3 hw
  · obtain ⟨-, hevicts, -, -⟩ := hs.fillFollows hv2 (decide_eq_true hf)
    exact absurd (of_decide_eq_true hevicts) (of_decide_eq_true hc3.2)
  · obtain ⟨-, hrt, hno, -⟩ := hs.flushFollows hv2 (decide_eq_true hf)
    have hdec := h.decodesS3 hv3
    rw [hrt] at hdec
    have hnone := hdec.flushFirstRow (of_decide_eq_false hno)
    exact absurd hnone (of_decide_eq_true hc3.1)

/-! ### The invariant -/

/-- The array has the replacement states, and the row in `lru_data_s3` gives the state of its set after
the instruction in S3. -/
structure LruInv (s : State) (g : Replacements) : Prop where
  states : ∀ k, replacementOf (s.lruarray.regfile k) = g.states k
  readS3 : s.valS2 = false → s.valS3 = true → s.lruarray.readIndexF = s.indexS3
  fresh : s.valS3 = true → g.fresh = true → s.wayEvent.isSome = true →
    s.lruDataS3 = s.lruarray.regfile s.indexS3
  stale : s.valS3 = true → g.fresh = false → ∀ e, s.wayEvent = some e →
    (replacementOf s.lruDataS3).apply e = g.states s.indexS3

theorem LruInv.init (hs : s.IsReset) : LruInv s ⟨fun _ => PseudoLru.empty, true⟩ := by
  have h3 : s.valS3 = true → False := fun hv => by
    rw [hs.valS3] at hv
    exact absurd hv Bool.false_ne_true
  refine ⟨fun k => ?_, fun _ hv => (h3 hv).elim, fun hv => (h3 hv).elim, fun hv => (h3 hv).elim⟩
  rw [hs.lruarray]
  unfold replacementOf PseudoLru.empty
  congr 1
  · funext w
    exact BitVec.getLsbD_zero
  · exact (by decide : Fin.ofNat 4 ((0#6).extractLsb' 4 2).toNat = 0)

theorem replacementsNext_of_none (he : s.wayEvent = none) :
    (replacementsNext g s i).states = g.states := by
  unfold replacementsNext
  rw [he]
  rfl

theorem replacementsNext_of_fresh (hv : s.valS3 = true) (hf : g.fresh = true)
    (he : s.wayEvent = some e) :
    (replacementsNext g s i).states =
      Function.update g.states s.indexS3 ((g.states s.indexS3).apply e) := by
  unfold replacementsNext
  rw [he, hv, hf]
  rfl

theorem replacementsNext_of_not (hno : (s.valS3 && g.fresh) = false) :
    (replacementsNext g s i).states = g.states := by
  unfold replacementsNext
  rw [hno]
  cases s.wayEvent <;> rfl

/-- The row that S3 writes stands for the state of its set. -/
theorem LruInv.write (hl : LruInv s g) (hok : ReplacementOk s i) (hv : s.valS3 = true)
    (he : s.wayEvent = some e) :
    replacementOf s.lruWrite.data = (replacementsNext g s i).states s.indexS3 := by
  rw [(lruWrite_some hv he hok.way).2]
  cases hf : g.fresh with
  | true =>
    rw [replacementsNext_of_fresh hv hf he, Function.update_self,
      hl.fresh hv hf (Option.isSome_of_eq_some he), hl.states]
  | false =>
    rw [replacementsNext_of_not (by rw [hf, Bool.and_false])]
    exact hl.stale hv hf e he

theorem LruInv.step_states (hl : LruInv s g) (hok : ReplacementOk s i) (k : SetIndex) :
    replacementOf ((s.step i).lruarray.regfile k) = (replacementsNext g s i).states k := by
  cases hv : s.valS3 with
  | false =>
    have hquiet : s.lruWrite.valid = false := by
      by_contra hw
      rw [valS3_of_lruWrite (by simpa using hw)] at hv
      exact absurd hv.symm Bool.false_ne_true
    rw [regfile_of_quiet hquiet, replacementsNext_of_not (by rw [hv, Bool.false_and])]
    exact hl.states k
  | true =>
    cases he : s.wayEvent with
    | none =>
      rw [regfile_of_quiet (lruWrite_none he), replacementsNext_of_none he]
      exact hl.states k
    | some e =>
      have hrow := hl.write hok hv he
      rw [regfile_of_lruWrite (lruWrite_some hv he hok.way).1]
      by_cases hk : k = s.indexS3
      · rw [hk, Function.update_self]
        exact hrow
      · rw [Function.update_of_ne hk, hl.states k]
        cases hf : g.fresh with
        | true => rw [replacementsNext_of_fresh hv hf he, Function.update_of_ne hk]
        | false => rw [replacementsNext_of_not (by rw [hf, Bool.and_false])]

/-- The read port stays on the set of an instruction that nothing follows. -/
theorem LruInv.step_readS3 (hl : LruInv s g) (hs : Stages s) (hv2 : (s.step i).valS2 = false)
    (hv3 : (s.step i).valS3 = true) :
    (s.step i).lruarray.readIndexF = (s.step i).indexS3 := by
  change (if s.s1Issues i then s.indexS1 else s.lruarray.readIndexF) = (s.step i).indexS3
  change (if s.stallS2 i then s.valS2 else s.s1Issues i) = false at hv2
  unfold State.indexS3
  rcases State.s3_cases hv3 with ⟨hst3, hvalid, hs3, -⟩ | ⟨hst3, hvalid, hs3, -⟩
  · rw [hs3]
    rw [State.stallS2_eq, hst3, Bool.and_true] at hv2
    cases hv : s.valS2 with
    | true =>
      rw [hv, if_pos rfl] at hv2
      exact absurd hv2.symm Bool.false_ne_true
    | false =>
      rw [hv, if_neg Bool.false_ne_true] at hv2
      rw [hv2, if_neg Bool.false_ne_true]
      exact hl.readS3 hv hvalid
  · rw [State.stallS2_eq, hst3, Bool.and_false, if_neg Bool.false_ne_true] at hv2
    rw [hv2, if_neg Bool.false_ne_true, hs3]
    exact hs.lruRead hvalid

theorem LruInv.step_fresh (hs : Stages y.1) (h : Inv y) (hv3 : (y.1.step i).valS3 = true)
    (hf : (replacementsNext g y.1 i).fresh = true) (he : (y.1.step i).wayEvent.isSome = true) :
    (y.1.step i).lruDataS3 = (y.1.step i).lruarray.regfile (y.1.step i).indexS3 := by
  have hc := changesLru_of_wayEvent he
  change (!y.1.stallS3 i) = true at hf
  unfold State.indexS3
  rcases State.s3_cases hv3 with ⟨hst3, -⟩ | ⟨-, hv2, hs3, -⟩
  · rw [hst3] at hf
    exact absurd hf Bool.false_ne_true
  · rw [hs3] at hc ⊢
    change y.1.lruarray.regfile y.1.lruarray.readIndexF =
      (y.1.step i).lruarray.regfile y.1.indexS2
    rw [hs.lruRead hv2, lru_step fun hw heq => ?_]
    have hsome : y.1.wayEvent.isSome = true := by
      cases hn : y.1.wayEvent with
      | none =>
        rw [lruWrite_none hn] at hw
        exact absurd hw Bool.false_ne_true
      | some e => rfl
    exact hs.lru_apart h hv2 hc (valS3_of_lruWrite hw) hsome heq.symm

theorem LruInv.step_stale (hl : LruInv s g) (hs : Stages s) (hok : ReplacementOk s i)
    (hd : s.valS3 = true → Decodes s.s3.reqtype s.s3.ops) (hv3 : (s.step i).valS3 = true)
    (hf : (replacementsNext g s i).fresh = false) (he : (s.step i).wayEvent = some e) :
    (replacementOf (s.step i).lruDataS3).apply e =
      (replacementsNext g s i).states (s.step i).indexS3 := by
  change (!s.stallS3 i) = false at hf
  unfold State.wayEvent at he
  unfold State.indexS3
  rcases State.s3_cases hv3 with ⟨hst3, hv, hs3, hres⟩ | ⟨hst3, -⟩
  · rw [hs3, hres] at he
    rw [hs3]
    change s.wayEvent = some e at he
    change (replacementOf (s.lruarray.regfile s.lruarray.readIndexF)).apply e =
      (replacementsNext g s i).states s.indexS3
    have hread : s.lruarray.readIndexF = s.indexS3 := by
      cases hv2 : s.valS2 with
      | true =>
        rw [hs.lruRead hv2]
        exact hok.stall hst3 (Option.isSome_of_eq_some he) hv2
      | false => exact hl.readS3 hv2 hv
    rw [hread, hl.states]
    cases hg : g.fresh with
    | true => rw [replacementsNext_of_fresh hv hg he, Function.update_self]
    | false =>
      -- a second write: an invalidation makes nothing new of what it has made
      obtain ⟨w, rfl⟩ := wayEvent_of_stallS3 (hd hv) hst3 he
      rw [replacementsNext_of_not (by rw [hg, Bool.and_false]), ← hl.stale hv hg _ he]
      exact PseudoLru.invalidate_idem _ w
  · rw [hst3] at hf
    exact absurd hf.symm Bool.false_ne_true

theorem LruInv.step (hl : LruInv y.1 g) (hs : Stages y.1) (h : Inv y)
    (hok : ReplacementOk y.1 i) : LruInv (y.1.step i) (replacementsNext g y.1 i) where
  states := hl.step_states hok
  readS3 := hl.step_readS3 hs
  fresh := LruInv.step_fresh hs h
  stale hv hf _ he := hl.step_stale hs hok h.decodesS3 hv hf he

theorem reachable_lruInv {z : (State × Traffic) × Replacements}
    (hz : replacementSystem.Reachable LruOk z) :
    Inv z.1 ∧ Stages z.1.1 ∧ LruInv z.1.1 z.2 := by
  induction hz with
  | @init z hinit =>
    obtain ⟨y, g⟩ := z
    obtain rfl : g = _ := hinit.2
    exact ⟨init_inv hinit.1, stages_of_isReset hinit.1.1, LruInv.init hinit.1.1⟩
  | step _ hok ih =>
    obtain ⟨h, hs, hl⟩ := ih
    exact ⟨h.step hok.1, hs.step h hok.1, hl.step hs h hok.2⟩

/-- In every run whose cycles meet the condition, the array has the replacement state of every set. -/
theorem replacementRefines {z : (State × Traffic) × Replacements}
    (hz : replacementSystem.Reachable LruOk z) (k : SetIndex) :
    replacementOf (z.1.1.lruarray.regfile k) = z.2.states k :=
  (reachable_lruInv hz).2.2.states k

theorem replacementSystem_init :
    replacementSystem.init ((State.reset, Traffic.empty), ⟨fun _ => PseudoLru.empty, true⟩) :=
  ⟨system_init, rfl⟩

/-- A load and the fill of its line. -/
def fillOf (a : Paddr) : List Inputs :=
  [Inputs.load 0 a] ++ List.replicate 4 Inputs.quiet ++ [Inputs.dataAck .ld 0 .S 5] ++
    List.replicate 4 Inputs.quiet

/-- A line is filled and hit. -/
def hitRun : List Inputs :=
  fillOf 0x12345000 ++ [Inputs.load 1 0x12345000] ++ List.replicate 3 Inputs.quiet

theorem replacementRefines_hitRun :
    ∃ z, z = replacementSystem.run
        ((State.reset, Traffic.empty), ⟨fun _ => PseudoLru.empty, true⟩) hitRun ∧
      replacementOf (z.1.1.lruarray.regfile 0) = z.2.states 0 ∧
      (z.2.states 0).used 0 = true ∧ (z.2.states 0).turn = 1 := by
  have hrun : replacementSystem.RunOk LruOk
      ((State.reset, Traffic.empty), ⟨fun _ => PseudoLru.empty, true⟩) hitRun := by
    decide +kernel
  exact ⟨_, rfl, replacementRefines (.run (.init replacementSystem_init) hrun) 0,
    by decide +kernel, by decide +kernel⟩

/-- An invalidation of the only sub-line of interest. -/
def Inputs.invalidation (a : Paddr) : Inputs :=
  ofNoc2 { Noc2Message.zero with reqtype := .invFwd, address := a, fwdSubcachelineVector := 1 }

/-- The NoC3 encoder takes nothing. -/
def Inputs.blocked (i : Inputs) : Inputs := { i with noc3encoderAck := false }

/-- A line is filled. An invalidation of another line leaves its acknowledgement in the NoC3 buffer, so
that the invalidation of the line waits in S3, with its next pass in S2. -/
def otherSetRun : List Inputs :=
  fillOf 0x12345000 ++ [(Inputs.invalidation 0x40).blocked] ++
    List.replicate 5 Inputs.quiet.blocked ++ [(Inputs.invalidation 0x12345000).blocked] ++
    List.replicate 2 Inputs.quiet.blocked

/-- The end of `otherSetRun`. -/
def otherSet : (State × Traffic) × Replacements :=
  replacementSystem.run ((State.reset, Traffic.empty), ⟨fun _ => PseudoLru.empty, true⟩) otherSetRun

theorem otherSet_state :
    otherSet.1.1.wayEvent = some (.invalidate 0) ∧
      (otherSet.1.1.step Inputs.quiet.blocked).wayEvent = some (.invalidate 0) ∧
      otherSet.1.1.s3Result.tagcheckWay = 0 ∧ otherSet.1.1.indexS3 = 0 ∧
      otherSet.1.1.stallS3 Inputs.quiet.blocked = true ∧
      otherSet.1.1.lruarray.readData = 0#6 ∧ (otherSet.2.states 0).turn = 1 := by
  decide +kernel

/-- An invalidation leaves the pointer alone. -/
theorem turn_of_invalidate {w : Way} (he : s.wayEvent = some (.invalidate w)) (k : SetIndex) :
    ((replacementsNext g s i).states k).turn = (g.states k).turn := by
  unfold replacementsNext
  rw [he]
  cases s.valS3 && g.fresh with
  | false => rfl
  | true =>
    change (Function.update g.states s.indexS3 _ k).turn = (g.states k).turn
    by_cases hk : k = s.indexS3
    · rw [hk, Function.update_self, PseudoLru.apply_invalidate]
    · rw [Function.update_of_ne hk]

/-- A stalled instruction writes what it makes of the row on the read port. -/
theorem regfile_of_stallS3 {j : Inputs} (hst : s.stallS3 i = true) (he : s.wayEvent = some e)
    (hway : s.s3Result.tagcheckWay = 0 ∨ s.s3Result.tagcheckWay = 1) :
    replacementOf (((s.step i).step j).lruarray.regfile s.indexS3) =
      (replacementOf s.lruarray.readData).apply e := by
  have hv : (s.step i).valS3 = true := by
    change (if s.stallS3 i then s.valS3 else _) = true
    rw [hst, if_pos rfl, State.valS3_of_stallS3 hst]
  have hs3 : (s.step i).s3 = s.s3 := by
    change (if s.stallS3 i then s.s3 else s.s2) = s.s3
    rw [hst, if_pos rfl]
  have hres : (s.step i).s3Result = s.s3Result := by
    change (if s.stallS3 i then s.s3Result else s.s2Result) = s.s3Result
    rw [hst, if_pos rfl]
  have he' : (s.step i).wayEvent = some e := by
    unfold State.wayEvent
    rw [hs3, hres]
    exact he
  have hindex : (s.step i).indexS3 = s.indexS3 := congrArg (fun x : Instr => cacheIndex x.address) hs3
  obtain ⟨hvalid, hdata⟩ := lruWrite_some hv he' fun _ => hres ▸ hway
  rw [regfile_of_lruWrite hvalid, hindex, Function.update_self]
  exact hdata

/-- An invalidation that is stalled over the row of another set loses the pointer of its own. -/
theorem turn_of_stallS3 {z : (State × Traffic) × Replacements} {w : Way} {j : Inputs}
    (hst : z.1.1.stallS3 i = true) (he : z.1.1.wayEvent = some (.invalidate w))
    (he' : (z.1.1.step i).wayEvent = some (.invalidate w))
    (hway : z.1.1.s3Result.tagcheckWay = 0 ∨ z.1.1.s3Result.tagcheckWay = 1) :
    let z' := replacementSystem.step (replacementSystem.step z i) j
    (replacementOf (z'.1.1.lruarray.regfile z.1.1.indexS3)).turn =
        (replacementOf z.1.1.lruarray.readData).turn ∧
      (z'.2.states z.1.1.indexS3).turn = (z.2.states z.1.1.indexS3).turn := by
  constructor
  · have hrow := regfile_of_stallS3 (j := j) hst he hway
    have hturn := congrArg PseudoLru.turn hrow
    exact hturn
  · exact (turn_of_invalidate he' _).trans (turn_of_invalidate he _)

theorem otherSet_ok :
    replacementSystem.RunOk (fun z i => InputOk z.1 i)
        ((State.reset, Traffic.empty), ⟨fun _ => PseudoLru.empty, true⟩) otherSetRun ∧
      InputOk otherSet.1 Inputs.quiet.blocked ∧
      InputOk (replacementSystem.step otherSet Inputs.quiet.blocked).1 Inputs.quiet.blocked := by
  decide +kernel

/-- The second cycle in S3 writes the row of the other set. -/
theorem not_replacementRefines :
    ¬ ∀ z, replacementSystem.Reachable (fun z i => InputOk z.1 i) z →
      ∀ k, replacementOf (z.1.1.lruarray.regfile k) = z.2.states k := by
  intro hall
  obtain ⟨he, he', hway, hindex, hst, hread, hturn⟩ := otherSet_state
  obtain ⟨hrun, hok, hok'⟩ := otherSet_ok
  have hreach : replacementSystem.Reachable (fun z i => InputOk z.1 i) otherSet :=
    .run (.init replacementSystem_init) hrun
  have hturns := congrArg PseudoLru.turn (hall _ (.step (.step hreach hok) hok') otherSet.1.1.indexS3)
  obtain ⟨hrow, hstate⟩ := turn_of_stallS3 (j := Inputs.quiet.blocked) hst he he' (.inl hway)
  rw [hread] at hrow
  rw [hindex, hturn] at hstate
  rw [hindex] at hturns hrow
  have hzero : (replacementOf 0#6).turn = 0 := by decide
  exact absurd (hzero.symm.trans (hrow.symm.trans (hturns.trans hstate))) (by decide)

end Piton.L15
