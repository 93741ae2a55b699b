import Piton.L2.Invalidation
import Piton.L2.WbGuards

/-! The invalidation rounds of the L2 as a history of its runs, and what one cycle does in S4 of the first
pipeline, in the second pipeline, in the MSHRs and in the state array. -/

namespace Piton.L2

open Hw

variable {w t : Nat}

/-! ### Rounds -/

/-- The round of an MSHR from its first `INV_FWD` on, until the MSHR is popped. `taken` counts the
acknowledgements that left S1 of the second pipeline and `answered` those that left S3. -/
structure Round (w t : Nat) where
  tagIndex : BitVec t
  way : BitVec w
  sharers : List Nat
  sent : List Nat
  left : Bool
  taken : Nat
  answered : Nat

/-- The round of each MSHR, if it has one. -/
abbrev Rounds (w t : Nat) := Fin 8 → Option (Round w t)

/-- A round that has sent nothing yet. -/
def InvRequest.round (q : InvRequest w) : Round w t where
  tagIndex := q.tagIndex t
  way := q.way
  sharers := setBits q.dirData
  sent := []
  left := false
  taken := 0
  answered := 0

namespace Round

variable (r : Round w t)

/-- The round with one more `INV_FWD`. -/
def send (d : Nat) (left : Bool) : Round w t := { r with sent := r.sent ++ [d], left := left }

/-- The round with one more acknowledgement taken or counted. -/
def count (taken answered : Bool) : Round w t :=
  { r with taken := r.taken + taken.toNat, answered := r.answered + answered.toNat }

/-- Every sharer has acknowledged. -/
def Complete : Prop := r.answered = r.sharers.length

instance : Decidable r.Complete := inferInstanceAs (Decidable (_ = _))

end Round

namespace Stage

variable {α : Type}

/-- An acknowledgement for an entry is in the stage. -/
def holds (mshrid : α → Fin 8) (s : Stage α t) (k : Fin 8) : Bool :=
  match s with
  | .ack a => mshrid a = k
  | _ => false

end Stage

namespace InvState

variable (x : InvState w t) (i : InvInput w t)

/-- The sharer that is sent an `INV_FWD` in the name of an entry. -/
def sentFor (k : Fin 8) : Option (InvRequest w × Nat) :=
  match x.stage4 with
  | .inv q =>
    if k = x.mshrEmptyIndexSel then
      (SharerLoop.sent x.sharer (x.sharerInput i q)).map fun d => (q, d)
    else none
  | _ => none

/-- An acknowledgement for an entry leaves S1. -/
def takes (k : Fin 8) : Bool :=
  match x.taken i with
  | some (.invFwdAck j _) => j = k
  | _ => false

/-- An acknowledgement for an entry leaves S3. -/
def answers (k : Fin 8) : Bool := x.stage3.holds AckS3.mshrid k

/-- The round after this cycle's `INV_FWD`. -/
def roundSent (g : Rounds w t) (k : Fin 8) : Option (Round w t) :=
  match x.sentFor i k with
  | some (q, d) => some (((g k).getD q.round).send d !(x.stallS4 i))
  | none => g k

/-- The round of MSHR `k` after a cycle: it ends when its request is taken up again. -/
def roundsNext (g : Rounds w t) (k : Fin 8) : Option (Round w t) :=
  if x.mshr.popped (x.mshrInput i) = some k then none
  else (x.roundSent i g k).map fun r => r.count (x.takes i k) (x.answers k)

end InvState

/-- The invalidation loop with its rounds. -/
def invRounds (w t : Nat) : Machine (InvState w t × Rounds w t) (InvInput w t) :=
  (invMachine w t).withHistory (fun _ => none) fun g x i => x.roundsNext i g

/-- What the rest of the L2 and the cores keep to. An acknowledgement answers an `INV_FWD` that has not
been answered. A request that comes to S4 finds its line in state S with a sharer, an MSHR free and no
other request for its set under way. What else is written to the MSHRs and to the state array belongs to
other requests. -/
structure InvOk (y : InvState w t × Rounds w t) (i : InvInput w t) : Prop where
  header : ∀ k n, i.header = some (.invFwdAck k n) → ∃ r, y.2 k = some r ∧ r.taken < r.sent.length
  sharer : ∀ q, y.1.stage4 = .inv q → y.1.sharer.stallBefore = false → setBits q.dirData ≠ []
  shared : ∀ q, y.1.stage4 = .inv q → y.1.sharer.stallBefore = false →
    (y.1.lines (q.tagIndex t) q.way).mesi = .s
  notGuard : ∀ q, y.1.stage4 = .inv q → y.1.sharer.stallBefore = false →
    (q.mshrDataIn false).isGuard = false
  free : ∀ q, y.1.stage4 = .inv q → y.1.sharer.stallBefore = false →
    ∃ k, y.1.mshr.stateMem k = .inval
  alone : ∀ q, y.1.stage4 = .inv q → y.1.sharer.stallBefore = false →
    ∀ k r, y.2 k = some r → r.tagIndex ≠ q.tagIndex t
  otherEntry1 : ∀ e, i.otherEntry1 = some e → y.2 e.index = none
  otherEntry2 : ∀ k, i.otherEntry2 = some k → y.2 k = none ∧ y.1.mshr.stateMem k ≠ .inval
  otherLine : ∀ l, i.otherLine1 = some l ∨ i.otherLine2 = some l →
    (∀ k r, y.2 k = some r → r.tagIndex ≠ l.tagIndex) ∧
      ∀ q, y.1.stage4 = .inv q → q.tagIndex t ≠ l.tagIndex

/-! ### The fields of an entry -/

namespace InvRequest

variable (q : InvRequest w) (p : Bool)

theorem getLsbD_mshrDataIn (n : Nat) :
    (q.mshrDataIn p).getLsbD n = if n < 119 + w then q.fields.getLsbD n else n = 119 + w && p := by
  unfold mshrDataIn
  rw [BitVec.getLsbD_setWidth, BitVec.getLsbD_append]
  by_cases hn : n < 119 + w
  · simp only [hn, if_true]
    rw [decide_eq_true (show n < 120 + w by omega), Bool.true_and]
  · simp only [hn, if_false]
    by_cases heq : n = 119 + w
    · subst heq
      simp
    · have hlt : ¬n < 120 + w := by omega
      simp [hlt, heq]

@[simp] theorem invFwdPending_mshrDataIn : (q.mshrDataIn p).invFwdPending = p := by
  unfold MshrEntry.invFwdPending
  rw [getLsbD_mshrDataIn, if_neg (Nat.lt_irrefl _), decide_eq_true rfl, Bool.true_and]

/-- The bit of the MSHR does not touch the fields below it. -/
theorem extract_mshrDataIn {start len : Nat} (h : start + len ≤ 119 + w) :
    (q.mshrDataIn p).extractLsb' start len = (q.mshrDataIn false).extractLsb' start len := by
  apply BitVec.eq_of_getLsbD_eq
  intro n hn
  have hlt : start + n < 119 + w := by omega
  simp only [BitVec.getLsbD_extractLsb', getLsbD_mshrDataIn, hlt, if_true]

@[simp] theorem tagIndex_mshrDataIn : (q.mshrDataIn p).tagIndex t = q.tagIndex t := by
  unfold tagIndex MshrEntry.tagIndex MshrEntry.addr
  rw [extract_mshrDataIn q p (by omega)]

@[simp] theorem way_mshrDataIn : (q.mshrDataIn p).way = q.way :=
  extract_mshrDataIn q p (by omega)

theorem isGuard_mshrDataIn : (q.mshrDataIn p).isGuard = (q.mshrDataIn false).isGuard := by
  unfold MshrEntry.isGuard MshrEntry.msgType
  rw [extract_mshrDataIn q p (by omega)]

end InvRequest

/-! ### What S4 of the first pipeline does -/

namespace InvState

variable {x : InvState w t} {i : InvInput w t} {q : InvRequest w}

/-- The sharers that have no `INV_FWD` yet. -/
def due (x : InvState w t) (q : InvRequest w) : List Nat :=
  setBits (if x.sharer.stallBefore then x.sharer.dirDataBuf else q.dirData)

theorem due_eq : SharerLoop.due x.sharer (x.sharerInput i q) = x.due q := by
  unfold SharerLoop.due SharerLoop.dirDataSel SharerLoop.dirDataStart due sharerInput
  rw [if_neg Bool.false_ne_true]

theorem due_step (hq : x.stage4 = .inv q) (i : InvInput w t) :
    (x.step i).due q = SharerLoop.due (SharerLoop.step x.sharer (x.sharerInput i q))
      (x.sharerInput i q) := by
  rw [← due_eq (i := i)]
  unfold step sharerNext
  rw [hq]
  rfl

theorem stallS4_inv (hq : x.stage4 = .inv q) :
    x.stallS4 i = SharerLoop.stall x.sharer (x.sharerInput i q) := by
  unfold stallS4
  rw [hq]

/-- An acknowledgement in S1 or S2 of the second pipeline, and any message in S3, hold S4 back. -/
theorem blocked_of_busy (h : x.globalStall = true ∨ x.stallInvCounter i = true) :
    SharerLoop.blocked (x.sharerInput i q) = true := by
  unfold SharerLoop.blocked sharerInput
  rcases h with h | h <;> simp [h]

/-- A request in S4 waits, or it sends the first of the `INV_FWD`s that are due and stays for the others.
It sends when the second pipeline has no acknowledgement and nothing to write. -/
theorem stage4_cases (hq : x.stage4 = .inv q) (hdue : x.due q ≠ []) (i : InvInput w t) :
    (x.sends i q = false ∧ SharerLoop.sent x.sharer (x.sharerInput i q) = none ∧
      x.stallS4 i = true ∧ (x.step i).due q = x.due q) ∨
    ∃ d rest, x.globalStall = false ∧ x.stallInvCounter i = false ∧ x.sends i q = true ∧
      SharerLoop.sent x.sharer (x.sharerInput i q) = some d ∧ x.due q = d :: rest ∧
      x.stallS4 i = !rest.isEmpty ∧ (rest ≠ [] → (x.step i).due q = rest) := by
  rw [due_step hq i, ← due_eq (i := i), stallS4_inv hq]
  rw [← due_eq (i := i)] at hdue
  set j := x.sharerInput i q with hj
  cases hb : SharerLoop.blocked j with
  | true =>
    have hstall : SharerLoop.stall x.sharer j = true := by rw [SharerLoop.stall_eq, hb, Bool.true_or]
    have hkept := SharerLoop.due_of_stall hstall j
    rw [SharerLoop.sent_of_blocked hb, Option.toList_none, List.nil_append] at hkept
    refine .inl ⟨?_, SharerLoop.sent_of_blocked hb, hstall, hkept.symm⟩
    by_contra hsends
    rw [Bool.not_eq_false, sends, Bool.and_eq_true, ← hj] at hsends
    rw [SharerLoop.not_blocked_iff.2 hsends] at hb
    cases hb
  | false =>
    obtain ⟨hvalid, hready⟩ := SharerLoop.not_blocked_iff.1 hb
    have hsent : SharerLoop.sent x.sharer j = some (SharerLoop.dirSharer x.sharer j) := by
      rw [SharerLoop.sent_of_not_blocked hb]
      rfl
    have hcons := SharerLoop.due_eq_cons hdue
    refine .inr ⟨_, _, ?_, ?_, ?_, hsent, hcons, ?_, ?_⟩
    · by_contra hg
      rw [hj, blocked_of_busy (.inl (Bool.eq_true_of_not_eq_false hg))] at hb
      cases hb
    · by_contra hs
      rw [hj, blocked_of_busy (.inr (Bool.eq_true_of_not_eq_false hs))] at hb
      cases hb
    · unfold sends
      rw [← hj, hvalid, Bool.true_and]
      exact hready
    · rw [SharerLoop.stall_eq, hb, Bool.false_or]
      unfold SharerLoop.dirDataStall
      change (!false && _) = _
      rw [Bool.not_false, Bool.true_and, Bool.eq_iff_iff, bne_iff_ne, ne_zero_iff_exists_getLsbD,
        ← not_iff_not, ← setBits_eq_nil]
      simp
    · intro hrest
      have hstall : SharerLoop.stall x.sharer j = true := by
        rw [SharerLoop.stall_eq, hb, Bool.false_or]
        unfold SharerLoop.dirDataStall
        change (!false && _) = _
        rw [Bool.not_false, Bool.true_and, bne_iff_ne, ne_zero_iff_exists_getLsbD]
        by_contra hno
        exact hrest (setBits_eq_nil.2 hno)
      have hkept := SharerLoop.due_of_stall hstall j
      rw [hcons, hsent] at hkept
      exact (List.cons.inj hkept).2.symm

theorem counter_of_waits (hq : x.stage4 = .inv q) (h : x.sends i q = false) :
    (x.step i).dirSharerCounter = x.dirSharerCounter := by
  unfold step dirSharerCounterNext
  simp only [hq, h, if_neg Bool.false_ne_true]

/-- The counter counts the `INV_FWD`s and starts again with the last one. -/
theorem counter_of_sends (hq : x.stage4 = .inv q) (h : x.sends i q = true) :
    (x.step i).dirSharerCounter = if x.stallS4 i then x.dirSharerCounter + 1 else 1 := by
  have hb : SharerLoop.blocked (x.sharerInput i q) = false := by
    rw [SharerLoop.not_blocked_iff]
    rw [sends, Bool.and_eq_true] at h
    exact h
  rw [stallS4_inv hq, SharerLoop.stall_eq, hb, Bool.false_or]
  unfold step dirSharerCounterNext
  simp only [hq, h, if_true]

theorem counter_of_not_inv (h : ∀ q, x.stage4 ≠ .inv q) (i : InvInput w t) :
    (x.step i).dirSharerCounter = x.dirSharerCounter := by
  unfold step dirSharerCounterNext
  cases hx : x.stage4 with
  | inv q => exact absurd hx (h q)
  | empty => rfl
  | other => rfl

theorem stallBefore_step (x : InvState w t) (i : InvInput w t) :
    (x.step i).sharer.stallBefore = x.stallS4 i := by
  unfold step sharerNext stallS4
  cases x.stage4 <;> rfl

theorem sentFor_sel (hq : x.stage4 = .inv q) :
    x.sentFor i x.mshrEmptyIndexSel =
      (SharerLoop.sent x.sharer (x.sharerInput i q)).map fun d => (q, d) := by
  unfold sentFor
  rw [hq]
  exact if_pos rfl

theorem sentFor_eq_some {k : Fin 8} {d : Nat} (h : x.sentFor i k = some (q, d)) :
    x.stage4 = .inv q ∧ k = x.mshrEmptyIndexSel ∧
      SharerLoop.sent x.sharer (x.sharerInput i q) = some d := by
  unfold sentFor at h
  cases hx : x.stage4 with
  | empty => simp [hx] at h
  | other => simp [hx] at h
  | inv p =>
    simp only [hx] at h
    by_cases hk : k = x.mshrEmptyIndexSel
    · rw [if_pos hk, Option.map_eq_some_iff] at h
      obtain ⟨d', hd, heq⟩ := h
      cases heq
      exact ⟨rfl, hk, hd⟩
    · rw [if_neg hk] at h
      cases h

end InvState

/-! ### What is written -/

namespace Mshr

variable {s : Mshr w} {i : MshrInput w t} {k : Fin 8}

theorem guardHit_isGuard (h : s.guardHit i = some k) :
    (s.dataMem k).isGuard = true ∧ s.stateMem k ≠ .inval := by
  obtain ⟨hhit, hguard⟩ := Option.filter_eq_some_iff.1 h
  refine ⟨hguard, ?_⟩
  unfold hitIndex at hhit
  split at hhit
  · have hfound := List.find?_some hhit
    rw [Bool.and_eq_true] at hfound
    exact of_decide_eq_true hfound.2
  · cases hhit

/-- An entry that is neither written nor popped keeps its state, unless it is a guard that waits. -/
theorem stateNext_kept (hw : i.wrStateEn = true → k ≠ i.wrIndexIn) (hp : s.popped i ≠ some k)
    (hg : (s.dataMem k).isGuard = false ∨ s.stateMem k = .inval) : s.stateNext i k = s.stateMem k := by
  have hwaits : s.waits k = false := by
    unfold waits
    rcases hg with hg | hg <;> rw [hg] <;> simp
  unfold stateNext
  cases hen : i.wrStateEn with
  | true => rw [if_pos rfl, if_neg (hw hen), if_neg hp]
  | false =>
    rw [if_neg Bool.false_ne_true]
    cases hpop : s.popped i with
    | some q => exact if_neg fun (heq : k = q) => hp (heq ▸ hpop)
    | none =>
      simp only [hwaits, if_neg Bool.false_ne_true, ite_self]
      cases hh : s.guardHit i with
      | none => rfl
      | some h =>
        refine if_neg fun heq => ?_
        obtain ⟨hguard, hstate⟩ := guardHit_isGuard hh
        rw [← heq] at hguard hstate
        rcases hg with hg | hg
        · rw [hg] at hguard
          cases hguard
        · exact hstate hg

theorem stateNext_written (hw : i.wrStateEn = true) : s.stateNext i i.wrIndexIn = i.stateIn := by
  unfold stateNext
  rw [if_pos hw, if_pos rfl]

theorem counterNext_popped (hp : s.popped i = some k) : s.counterNext i k = 0 := by
  unfold counterNext
  rw [hp]
  by_cases hk : k = i.wrIndexIn <;> simp [hk]

theorem counterNext_kept (hp : s.popped i ≠ some k) :
    s.counterNext i k =
      if i.incCounterEn && k = i.wrIndexIn then s.counterMem k + 1 else s.counterMem k := by
  unfold counterNext
  cases hpop : s.popped i with
  | none => rfl
  | some q =>
    have hne : k ≠ q := fun heq => hp (heq ▸ hpop)
    simp only [if_neg hne]
    by_cases hk : k = i.wrIndexIn
    · have hq : q ≠ i.wrIndexIn := fun heq => hne (hk.trans heq.symm)
      simp [hk, hq]
    · simp [hk]

theorem emptyIndex_spec (h : ∃ k, s.stateMem k = .inval) : s.stateMem s.emptyIndex = .inval := by
  obtain ⟨k, hk⟩ := h
  unfold emptyIndex
  cases hf : (List.finRange 8).find? fun k => s.stateMem k = .inval with
  | none =>
    have hno := List.find?_eq_none.1 hf k (List.mem_finRange k)
    simp [hk] at hno
  | some j => simpa using List.find?_some hf

end Mshr

namespace InvState

variable {x : InvState w t} {i : InvInput w t} {k : Fin 8}

theorem counted_eq_some : x.counted = some k ↔ x.answers k = true := by
  unfold counted answers Stage.holds
  cases x.stage3 <;> simp

/-- The entry that S3 counts is the one that it writes. -/
theorem wrIndexIn_eq {e : Fin 8 × MshrState × Option (MshrEntry w)} (h : x.entryWrite i = some e) :
    (x.mshrInput i).wrIndexIn = e.1 := by
  unfold mshrInput
  simp only [h, Option.elim_some]
  unfold entryWrite at h
  unfold counted
  cases hs : x.stage3 with
  | empty => rfl
  | other n => rfl
  | ack a =>
    simp only [hs] at h
    split at h
    · cases h
      rfl
    · cases h

theorem wrIndexIn_of_answers (h : x.answers k = true) : (x.mshrInput i).wrIndexIn = k := by
  unfold mshrInput
  simp only [counted_eq_some.2 h, Option.getD_some]

/-- The entry is not written. -/
def Spares (x : InvState w t) (i : InvInput w t) (k : Fin 8) : Prop :=
  ∀ e, x.entryWrite i = some e → e.1 ≠ k

theorem stateMem_kept (hw : x.Spares i k) (hp : x.mshr.popped (x.mshrInput i) ≠ some k)
    (hg : (x.mshr.dataMem k).isGuard = false ∨ x.mshr.stateMem k = .inval) :
    (x.step i).mshr.stateMem k = x.mshr.stateMem k := by
  apply Mshr.stateNext_kept _ hp hg
  intro hen
  obtain ⟨e, he⟩ := Option.isSome_iff_exists.1 hen
  rw [wrIndexIn_eq he]
  exact (hw e he).symm

theorem stateMem_written {st : MshrState} {d : Option (MshrEntry w)}
    (hw : x.entryWrite i = some (k, st, d)) : (x.step i).mshr.stateMem k = st := by
  have hen : (x.mshrInput i).wrStateEn = true := by
    unfold mshrInput
    rw [hw]
    rfl
  have hnext := Mshr.stateNext_written (s := x.mshr) hen
  rw [wrIndexIn_eq hw] at hnext
  refine hnext.trans ?_
  unfold mshrInput
  rw [hw]
  rfl

theorem dataMem_kept (hw : ∀ st d, x.entryWrite i ≠ some (k, st, some d)) :
    (x.step i).mshr.dataMem k = x.mshr.dataMem k := by
  refine if_neg ?_
  rw [Bool.and_eq_true, decide_eq_true_eq]
  rintro ⟨hen, hk⟩
  obtain ⟨⟨j, st, d⟩, he, hd⟩ := (Option.any_eq_true _ _).1 hen
  rw [wrIndexIn_eq he] at hk
  obtain ⟨d', rfl⟩ := Option.isSome_iff_exists.1 hd
  subst hk
  exact hw st d' he

theorem dataMem_written {st : MshrState} {d : MshrEntry w}
    (hw : x.entryWrite i = some (k, st, some d)) : (x.step i).mshr.dataMem k = d := by
  have hen : (x.mshrInput i).wrDataEn = true := by
    unfold mshrInput
    rw [hw]
    rfl
  have hdata : (x.mshrInput i).dataIn = d := by
    unfold mshrInput
    rw [hw]
    rfl
  change (if (x.mshrInput i).wrDataEn && k = (x.mshrInput i).wrIndexIn then _ else _) = d
  rw [wrIndexIn_eq hw, hen, if_pos (by simp)]
  unfold MshrInput.merge
  rw [hdata]
  change (_ &&& ~~~BitVec.allOnes _) ||| (d &&& BitVec.allOnes _) = d
  simp

theorem counterMem_popped (hp : x.mshr.popped (x.mshrInput i) = some k) :
    (x.step i).mshr.counterMem k = 0 := Mshr.counterNext_popped hp

theorem counterMem_kept (hp : x.mshr.popped (x.mshrInput i) ≠ some k) :
    (x.step i).mshr.counterMem k =
      if x.answers k then x.mshr.counterMem k + 1 else x.mshr.counterMem k := by
  refine (Mshr.counterNext_kept hp).trans ?_
  cases h : x.answers k with
  | true =>
    have hen : (x.mshrInput i).incCounterEn = true := by
      unfold mshrInput
      rw [counted_eq_some.2 h]
      rfl
    rw [wrIndexIn_of_answers h, hen, if_pos (by simp), if_pos rfl]
  | false =>
    rw [if_neg Bool.false_ne_true, if_neg]
    rw [Bool.and_eq_true, decide_eq_true_eq]
    rintro ⟨hen, hk⟩
    obtain ⟨j, hj⟩ := Option.isSome_iff_exists.1 hen
    rw [wrIndexIn_of_answers (counted_eq_some.1 hj)] at hk
    rw [hk, counted_eq_some.1 hj] at h
    cases h

end InvState

/-! ### The second pipeline -/

namespace InvState

variable {x : InvState w t} {i : InvInput w t} {k : Fin 8} {q : InvRequest w}

theorem stage3_ack {b : AckS3 w t} (h : (x.step i).stage3 = .ack b) :
    ∃ a, x.stage2 = .ack a ∧ b = a.toS3 := by
  change x.stage3Next i = _ at h
  unfold stage3Next at h
  cases hs : x.stage2 with
  | empty => simp [hs] at h
  | other n =>
    simp only [hs] at h
    split at h <;> cases h
  | ack a =>
    simp only [hs] at h
    cases h
    exact ⟨a, rfl, rfl⟩

theorem stage3_other {n : BitVec t} (h : (x.step i).stage3 = .other n) : x.stage2 = .other n := by
  change x.stage3Next i = _ at h
  unfold stage3Next at h
  cases hs : x.stage2 with
  | empty => simp [hs] at h
  | ack a => simp [hs] at h
  | other m =>
    simp only [hs] at h
    split at h
    · cases h
    · cases h
      rfl

theorem holds_stage3 (x : InvState w t) (i : InvInput w t) (k : Fin 8) :
    (x.step i).answers k = x.stage2.holds AckS2.mshrid k := by
  change (x.stage3Next i).holds _ k = _
  unfold stage3Next
  cases x.stage2 with
  | empty => rfl
  | other n =>
    simp only
    split <;> rfl
  | ack a => rfl

/-- An acknowledgement is taken from the head, when S2 is free and no stage behind S1 has its set. -/
theorem taken_eq_some {h : Header t} (ht : x.taken i = some h) :
    i.header = some h ∧ x.stallS2 i = false ∧ x.indexS2 ≠ some (x.indexS1 h) ∧
      x.indexS3 ≠ some (x.indexS1 h) := by
  obtain ⟨hh, hs⟩ := Option.filter_eq_some_iff.1 ht
  unfold stallS1 stallHazardS1 at hs
  simp only [Bool.not_or, Bool.and_eq_true, Bool.not_eq_true', decide_eq_false_iff_not] at hs
  exact ⟨hh, hs.1, hs.2.1, hs.2.2⟩

theorem takes_iff : x.takes i k = true ↔ ∃ n, x.taken i = some (.invFwdAck k n) := by
  unfold takes
  cases ht : x.taken i with
  | none => simp
  | some h =>
    cases h with
    | other n => simp
    | invFwdAck j n => simp

theorem stage2_ack {a : AckS2 w t} (h : (x.step i).stage2 = .ack a)
    (hs : ∀ b, x.stage2 = .ack b → x.stallS2 i = false) :
    x.takes i a.mshrid = true ∧ ∃ n, i.header = some (.invFwdAck a.mshrid n) ∧
      a.tagIndex = x.indexS1 (.invFwdAck a.mshrid n) ∧ a.way = (x.mshr.dataMem a.mshrid).way ∧
      a.invFwdPending = (x.fromMshr a.mshrid && (x.mshr.dataMem a.mshrid).invFwdPending) ∧
      a.owner = ((x.step i).lines a.tagIndex a.way).owner ∧ x.indexS2 ≠ some a.tagIndex := by
  change x.stage2Next i = _ at h
  unfold stage2Next at h
  split at h
  case isTrue hst => rw [hs a h] at hst; cases hst
  case isFalse =>
    cases ht : x.taken i with
    | none => simp [ht] at h
    | some m =>
      cases m with
      | other n => simp [ht] at h
      | invFwdAck j n =>
        simp only [ht] at h
        cases h
        obtain ⟨hh, -, h2, -⟩ := taken_eq_some ht
        exact ⟨takes_iff.2 ⟨n, ht⟩, n, hh, rfl, rfl, rfl, rfl, h2⟩

theorem stallS2_of_ack {a : AckS2 w t} (h : x.stage2 = .ack a) (i : InvInput w t) :
    x.stallS2 i = false := by
  unfold stallS2
  rw [h]

theorem holds_stage2 (x : InvState w t) (i : InvInput w t) (k : Fin 8) :
    (x.step i).stage2.holds AckS2.mshrid k = x.takes i k := by
  change (x.stage2Next i).holds _ k = _
  unfold stage2Next
  cases hst : x.stallS2 i with
  | true =>
    rw [if_pos rfl]
    have hno : x.takes i k = false := by
      by_contra htk
      obtain ⟨n, ht⟩ := takes_iff.1 (Bool.eq_true_of_not_eq_false htk)
      rw [(taken_eq_some ht).2.1] at hst
      cases hst
    rw [hno]
    unfold Stage.holds
    cases hs : x.stage2 with
    | empty => rfl
    | other n => rfl
    | ack a =>
      rw [stallS2_of_ack hs] at hst
      cases hst
  | false =>
    rw [if_neg Bool.false_ne_true]
    unfold takes Stage.holds
    cases x.taken i with
    | none => rfl
    | some h => cases h <;> rfl

theorem answers_iff : x.answers k = true ↔ ∃ a, x.stage3 = .ack a ∧ a.mshrid = k := by
  unfold answers Stage.holds
  cases x.stage3 <;> simp

theorem globalStall_eq_false : x.globalStall = false ↔ x.stage3 = .empty := by
  unfold globalStall Stage.isEmpty
  cases x.stage3 <;> simp

theorem quiet_of_not_stallInvCounter (h : x.stallInvCounter i = false) (k : Fin 8) :
    x.stage2.holds AckS2.mshrid k = false ∧ x.takes i k = false := by
  unfold stallInvCounter at h
  rw [Bool.or_eq_false_iff] at h
  constructor
  · have h2 := h.2
    unfold Stage.isAck at h2
    unfold Stage.holds
    cases hs : x.stage2 <;> simp_all
  · by_contra htk
    obtain ⟨n, ht⟩ := takes_iff.1 (Bool.eq_true_of_not_eq_false htk)
    rw [(taken_eq_some ht).1] at h
    exact absurd h.1 (by simp [Header.isAck])

/-! ### The writes to an entry and to a line -/

theorem entryWrite_ack {a : AckS3 w t} (h : x.stage3 = .ack a) :
    x.entryWrite i = if a.completes then some (a.mshrid, .pending, none) else none := by
  unfold entryWrite
  rw [h]

theorem entryWrite_inv (h3 : x.stage3 = .empty) (hq : x.stage4 = .inv q) :
    x.entryWrite i = if x.mshrWrEn i q then
      some (x.mshrEmptyIndexSel, .wait, some (q.mshrDataIn (x.invFwdPending i q))) else none := by
  unfold entryWrite
  rw [h3, hq]

theorem spares_of (h3 : x.answers k = false) (h2 : ∀ j, i.otherEntry2 = some j → j ≠ k)
    (h1 : x.stage4 = .other → ∀ e, i.otherEntry1 = some e → e.index ≠ k)
    (h4 : ∀ q, x.stage4 = .inv q → x.mshrWrEn i q = true → x.mshrEmptyIndexSel ≠ k) :
    x.Spares i k := by
  intro e he
  unfold entryWrite at he
  cases hs : x.stage3 with
  | ack a =>
    simp only [hs] at he
    split at he
    · cases he
      rintro rfl
      rw [answers_iff.2 ⟨a, hs, rfl⟩] at h3
      cases h3
    · cases he
  | other n =>
    simp only [hs, Option.map_eq_some_iff] at he
    obtain ⟨j, hj, rfl⟩ := he
    exact h2 j hj
  | empty =>
    simp only [hs] at he
    cases hq : x.stage4 with
    | empty => simp [hq] at he
    | other =>
      simp only [hq, Option.map_eq_some_iff] at he
      obtain ⟨o, ho, rfl⟩ := he
      exact h1 hq o ho
    | inv q =>
      simp only [hq] at he
      split at he
      case isTrue hen =>
        cases he
        exact h4 q hq hen
      case isFalse => cases he

theorem lines_kept {n : BitVec t} (h : ∀ l, x.lineWrite i = some l → l.tagIndex ≠ n) :
    (x.step i).lines n = x.lines n := by
  change x.linesNext i n = _
  unfold linesNext
  cases hl : x.lineWrite i with
  | none => rfl
  | some l => exact Function.update_of_ne (h l hl).symm _ _

theorem lines_written {l : LineWrite w t} (h : x.lineWrite i = some l) :
    (x.step i).lines l.tagIndex l.way = l.state := by
  change x.linesNext i _ _ = _
  unfold linesNext
  rw [h]
  change Function.update x.lines l.tagIndex (Function.update (x.lines l.tagIndex) l.way l.state)
    l.tagIndex l.way = _
  rw [Function.update_self, Function.update_self]

theorem lines_kept_of {n : BitVec t} (h3 : ∀ a, x.stage3 = .ack a → a.tagIndex ≠ n)
    (ho : ∀ l, i.otherLine1 = some l ∨ i.otherLine2 = some l → l.tagIndex ≠ n)
    (h4 : ∀ q, x.stage4 = .inv q → x.stallS4 i = false → q.tagIndex t ≠ n) :
    (x.step i).lines n = x.lines n := by
  apply lines_kept
  intro l hl
  unfold lineWrite at hl
  cases hs : x.stage3 with
  | ack a =>
    simp only [hs] at hl
    cases hl
    exact h3 a hs
  | other m =>
    simp only [hs] at hl
    exact ho l (.inr hl)
  | empty =>
    simp only [hs] at hl
    cases hq : x.stage4 with
    | empty => simp [hq] at hl
    | other =>
      simp only [hq] at hl
      exact ho l (.inl hl)
    | inv q =>
      simp only [hq] at hl
      split at hl
      · cases hl
      case isFalse hst =>
        cases hl
        exact h4 q hq (Bool.eq_false_of_not_eq_true hst)

end InvState

end Piton.L2
