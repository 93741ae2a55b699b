import Piton.L2.InvRounds

/-! An invalidation round sends one `INV_FWD` to each sharer, and its line becomes invalid and its MSHR
pending with the last acknowledgement and not before. -/

namespace Piton.L2

open Hw

variable {w t : Nat}

/-! ### The invariant -/

/-- What the MSHR, the line and the second pipeline hold of a round. -/
structure RoundInv (x : InvState w t) (k : Fin 8) (r : Round w t) : Prop where
  state : x.mshr.stateMem k = if r.Complete then .pending else .wait
  notGuard : (x.mshr.dataMem k).isGuard = false
  tagIndex : (x.mshr.dataMem k).tagIndex t = r.tagIndex
  way : (x.mshr.dataMem k).way = r.way
  pending : (x.mshr.dataMem k).invFwdPending = !r.left
  counter : x.mshr.counterMem k = BitVec.ofNat 6 r.answered
  mesi : (x.lines r.tagIndex r.way).mesi = if r.Complete then .i else .s
  owner : r.left = true → ¬r.Complete →
    (x.lines r.tagIndex r.way).owner = BitVec.ofNat 6 (r.sharers.length - r.answered)
  taken : r.taken = r.answered + (x.stage2.holds AckS2.mshrid k).toNat + (x.answers k).toNat
  taken_le : r.taken ≤ r.sent.length
  sent : r.left = true → r.sent = r.sharers
  unsent : r.left = false → r.sent.length < r.sharers.length
  length_le : r.sharers.length ≤ 64
  stage2 : ∀ a, x.stage2 = .ack a → a.mshrid = k → a.tagIndex = r.tagIndex ∧ a.way = r.way ∧
    a.invFwdPending = !r.left ∧ a.owner = (x.lines r.tagIndex r.way).owner
  stage3 : ∀ a, x.stage3 = .ack a → a.mshrid = k → a.tagIndex = r.tagIndex ∧ a.way = r.way ∧
    a.completes = ((x.lines r.tagIndex r.way).owner = 1 && r.left) ∧
    a.owner = if a.completes then 0 else (x.lines r.tagIndex r.way).owner - 1

/-- The request in S4 has not sent anything yet and will write the entry `k`. -/
structure Fresh (x : InvState w t) (g : Rounds w t) (q : InvRequest w) (k : Fin 8) : Prop where
  state : x.mshr.stateMem k = .inval
  unused : g k = none
  counter : x.dirSharerCounter = 1
  closed : ∀ j r, g j = some r → r.left = true
  due : x.due q = setBits q.dirData
  sharer : setBits q.dirData ≠ []
  notGuard : (q.mshrDataIn false).isGuard = false
  mesi : (x.lines (q.tagIndex t) q.way).mesi = .s
  alone : ∀ j r, g j = some r → r.tagIndex ≠ q.tagIndex t

/-- The request in S4 has begun the round `r` of the entry `k`, and some sharers are due. -/
structure Begun (x : InvState w t) (g : Rounds w t) (q : InvRequest w) (k : Fin 8)
    (r : Round w t) : Prop where
  round : g k = some r
  tagIndex : r.tagIndex = q.tagIndex t
  way : r.way = q.way
  left : r.left = false
  sent : r.sent ++ x.due q = r.sharers
  begun : r.sent ≠ []
  due : x.due q ≠ []
  counter : x.dirSharerCounter = BitVec.ofNat 6 (r.sent.length + 1)
  notGuard : (q.mshrDataIn false).isGuard = false
  closed : ∀ j r', g j = some r' → j ≠ k → r'.left = true

/-- The request in S4 serves the entry `k`. -/
def Serves (x : InvState w t) (g : Rounds w t) (q : InvRequest w) (k : Fin 8) : Prop :=
  Fresh x g q k ∨ ∃ r, Begun x g q k r

/-- What holds of all rounds in every reachable state: each is in its MSHR, its line and the
stages, rounds have lines of their own, and S4 serves the one round that is not left yet. -/
structure AcksInv (x : InvState w t) (g : Rounds w t) : Prop where
  round : ∀ k r, g k = some r → RoundInv x k r
  apart : ∀ k j r r', g k = some r → g j = some r' → r.tagIndex = r'.tagIndex → k = j
  unused : ∀ k, g k = none → x.mshr.counterMem k = 0
  stage2 : ∀ a, x.stage2 = .ack a → ∃ r, g a.mshrid = some r
  stage3 : ∀ a, x.stage3 = .ack a → ∃ r, g a.mshrid = some r
  hazard : ∀ a, x.stage2 = .ack a → x.indexS3 ≠ some a.tagIndex
  closed : (x.sharer.stallBefore = false ∨ ∀ q, x.stage4 ≠ .inv q) →
    x.dirSharerCounter = 1 ∧ ∀ k r, g k = some r → r.left = true
  serves : ∀ q, x.stage4 = .inv q → x.sharer.stallBefore = true → Serves x g q x.mshrEmptyIndexBuf

section

variable {x : InvState w t} {g : Rounds w t} {i : InvInput w t} {k : Fin 8} {q : InvRequest w}
  {r : Round w t}

theorem Serves.due_ne_nil (h : Serves x g q k) : x.due q ≠ [] := by
  rcases h with h | ⟨r, h⟩
  · rw [h.due]
    exact h.sharer
  · exact h.due

/-- A request that comes to S4 takes the entry that is free then. -/
theorem AcksInv.servesSel (h : AcksInv x g) (ok : InvOk (x, g) i) (hq : x.stage4 = .inv q) :
    Serves x g q x.mshrEmptyIndexSel := by
  unfold InvState.mshrEmptyIndexSel
  cases hs : x.sharer.stallBefore with
  | true => exact h.serves q hq hs
  | false =>
    rw [if_neg Bool.false_ne_true]
    have hempty := Mshr.emptyIndex_spec (ok.free q hq hs)
    obtain ⟨hcounter, hclosed⟩ := h.closed (.inl hs)
    refine .inl ⟨hempty, ?_, hcounter, hclosed, ?_, ok.sharer q hq hs, ok.notGuard q hq hs,
      ok.shared q hq hs, ok.alone q hq hs⟩
    · cases hr : g x.mshr.emptyIndex with
      | none => rfl
      | some r =>
        have hstate := (h.round _ _ hr).state
        rw [hempty] at hstate
        split at hstate <;> cases hstate
    · unfold InvState.due
      rw [hs, if_neg Bool.false_ne_true]

theorem RoundInv.sent_le (h : RoundInv x k r) : r.sent.length ≤ r.sharers.length := by
  cases hl : r.left with
  | true => rw [h.sent hl]
  | false => exact (h.unsent hl).le

theorem RoundInv.not_complete_of_unsent (h : RoundInv x k r) (hl : r.left = false) :
    ¬r.Complete := by
  have hunsent := h.unsent hl
  have hle := h.taken_le
  have htaken := h.taken
  unfold Round.Complete
  omega

theorem RoundInv.not_complete_of_answers (h : RoundInv x k r) (ha : x.answers k = true) :
    ¬r.Complete := by
  have hle := h.taken_le
  have hsent := h.sent_le
  have htaken := h.taken
  rw [ha, Bool.toNat_true] at htaken
  unfold Round.Complete
  omega

theorem RoundInv.state_ne_inval (h : RoundInv x k r) : x.mshr.stateMem k ≠ .inval := by
  rw [h.state]
  split <;> exact MshrState.noConfusion

theorem RoundInv.fromMshr (h : RoundInv x k r) : x.fromMshr k = true :=
  decide_eq_true h.state_ne_inval

theorem RoundInv.indexS1 (h : RoundInv x k r) (n : BitVec t) :
    x.indexS1 (.invFwdAck k n) = r.tagIndex := by
  change (if x.fromMshr k then _ else _) = _
  rw [h.fromMshr, if_pos rfl, h.tagIndex]

theorem ofNat_eq_one_iff {n : Nat} (h0 : 0 < n) (hn : n ≤ 64) : BitVec.ofNat 6 n = 1 ↔ n = 1 := by
  constructor
  · intro h
    have hval := congrArg BitVec.toNat h
    rw [BitVec.toNat_ofNat] at hval
    change n % 64 = 1 at hval
    omega
  · rintro rfl
    rfl

/-- The acknowledgement in S3 completes the round when it is the last one. -/
theorem RoundInv.completes_iff (h : RoundInv x k r) {a : AckS3 w t} (h3 : x.stage3 = .ack a)
    (ha : a.mshrid = k) : a.completes = true ↔ r.answered + 1 = r.sharers.length := by
  have hans : x.answers k = true := InvState.answers_iff.2 ⟨a, h3, ha⟩
  have hnot := h.not_complete_of_answers hans
  have htaken := h.taken
  have hle := h.taken_le
  have hsent := h.sent_le
  have hlen := h.length_le
  rw [hans, Bool.toNat_true] at htaken
  rw [(h.stage3 a h3 ha).2.2.1, Bool.and_eq_true, decide_eq_true_eq]
  constructor
  · rintro ⟨howner, hleft⟩
    rw [h.owner hleft hnot, ofNat_eq_one_iff (by omega) (by omega)] at howner
    omega
  · intro heq
    have hleft : r.left = true := by
      by_contra hno
      have hunsent := h.unsent (Bool.eq_false_of_not_eq_true hno)
      omega
    refine ⟨?_, hleft⟩
    rw [h.owner hleft hnot, ofNat_eq_one_iff (by omega) (by omega)]
    omega

/-! ### A round that sends nothing in a cycle -/

/-- Without a send the request in S4 neither writes nor leaves. -/
theorem AcksInv.waits (h : AcksInv x g) (ok : InvOk (x, g) i) (hq : x.stage4 = .inv q)
    (hno : x.sentFor i x.mshrEmptyIndexSel = none) :
    x.mshrWrEn i q = false ∧ x.stallS4 i = true := by
  rcases InvState.stage4_cases hq (h.servesSel ok hq).due_ne_nil i with
    ⟨hsends, -, hstall, -⟩ | ⟨d, rest, -, -, -, hsent, -, -, -⟩
  · unfold InvState.mshrWrEn
    rw [hsends, hstall]
    exact ⟨rfl, rfl⟩
  · rw [InvState.sentFor_sel hq, hsent] at hno
    cases hno

theorem AcksInv.spares (h : AcksInv x g) (ok : InvOk (x, g) i) (hr : g k = some r)
    (hno : x.sentFor i k = none) (ha : x.answers k = false) : x.Spares i k := by
  apply InvState.spares_of ha
  · rintro j hj rfl
    cases hr.symm.trans (ok.otherEntry2 j hj).1
  · rintro - e he rfl
    cases hr.symm.trans (ok.otherEntry1 e he)
  · rintro q hq hen rfl
    rw [(h.waits ok hq hno).1] at hen
    cases hen

theorem AcksInv.lines_kept (h : AcksInv x g) (ok : InvOk (x, g) i) (hr : g k = some r)
    (hno : x.sentFor i k = none) (ha : x.answers k = false) :
    (x.step i).lines r.tagIndex = x.lines r.tagIndex := by
  apply InvState.lines_kept_of
  · intro a h3 heq
    obtain ⟨r', hr'⟩ := h.stage3 a h3
    have hindex := ((h.round _ _ hr').stage3 a h3 rfl).1
    have hk := h.apart _ _ _ _ hr' hr (hindex.symm.trans heq)
    rw [InvState.answers_iff.2 ⟨a, h3, hk⟩] at ha
    cases ha
  · intro l hl heq
    exact (ok.otherLine l hl).1 k r hr heq.symm
  · intro q hq hst heq
    rcases h.servesSel ok hq with hf | ⟨r', hb⟩
    · exact hf.alone k r hr heq.symm
    · obtain rfl := h.apart _ _ _ _ hr hb.round (heq.symm.trans hb.tagIndex.symm)
      rw [(h.waits ok hq hno).2] at hst
      cases hst

theorem AcksInv.dataMem_kept (h : AcksInv x g) (ok : InvOk (x, g) i) (hr : g k = some r)
    (hno : x.sentFor i k = none) : (x.step i).mshr.dataMem k = x.mshr.dataMem k := by
  apply InvState.dataMem_kept
  intro st d hw
  cases ha : x.answers k with
  | false => exact h.spares ok hr hno ha _ hw rfl
  | true =>
    obtain ⟨a, h3, -⟩ := InvState.answers_iff.1 ha
    rw [InvState.entryWrite_ack h3] at hw
    split at hw <;> cases hw

/-- The acknowledgement in S3 writes to its entry and to its line. -/
theorem AcksInv.answered (h : AcksInv x g) (hr : g k = some r) (ha : x.answers k = true)
    (hp : x.mshr.popped (x.mshrInput i) ≠ some k) :
    (x.step i).mshr.stateMem k =
        (if r.answered + 1 = r.sharers.length then .pending else .wait) ∧
      ((x.step i).lines r.tagIndex r.way).mesi =
        (if r.answered + 1 = r.sharers.length then .i else .s) ∧
      (r.left = true → r.answered + 1 ≠ r.sharers.length →
        ((x.step i).lines r.tagIndex r.way).owner =
          BitVec.ofNat 6 (r.sharers.length - (r.answered + 1))) := by
  have hI := h.round k r hr
  obtain ⟨a, h3, hak⟩ := InvState.answers_iff.1 ha
  obtain ⟨hindex, hway, -, howner⟩ := hI.stage3 a h3 hak
  have hnot := hI.not_complete_of_answers ha
  have hcomp := hI.completes_iff h3 hak
  have hwrite : x.lineWrite i = some ⟨a.tagIndex, a.way,
      { mesi := if a.completes then .i else (x.lines a.tagIndex a.way).mesi, owner := a.owner }⟩ := by
    unfold InvState.lineWrite
    rw [h3]
  have hline := InvState.lines_written hwrite
  rw [hindex, hway] at hline
  rw [hline]
  have hentry := InvState.entryWrite_ack (i := i) h3
  cases hc : a.completes with
  | true =>
    rw [hc, if_pos rfl, hak] at hentry
    rw [if_pos (hcomp.1 hc), if_pos (hcomp.1 hc), InvState.stateMem_written hentry]
    exact ⟨rfl, rfl, fun _ hne => absurd (hcomp.1 hc) hne⟩
  | false =>
    have hne : r.answered + 1 ≠ r.sharers.length := fun heq => by
      rw [hcomp.2 heq] at hc
      cases hc
    rw [hc, if_neg Bool.false_ne_true] at hentry
    have hspares : x.Spares i k := fun e he => by
      rw [hentry] at he
      cases he
    rw [if_neg hne, if_neg hne, InvState.stateMem_kept hspares hp (.inl hI.notGuard), hI.state,
      if_neg hnot]
    refine ⟨rfl, hI.mesi.trans (if_neg hnot), fun hleft _ => ?_⟩
    have htaken := hI.taken
    have hle := hI.taken_le
    have hsent := hI.sent_le
    rw [ha, Bool.toNat_true] at htaken
    rw [howner, hc, if_neg Bool.false_ne_true, hI.owner hleft hnot]
    have hn : r.sharers.length - r.answered = r.sharers.length - (r.answered + 1) + 1 := by omega
    rw [hn, BitVec.ofNat_add]
    exact BitVec.add_sub_cancel _ _

theorem AcksInv.round_kept (h : AcksInv x g) (ok : InvOk (x, g) i) (hr : g k = some r)
    (hno : x.sentFor i k = none) (hp : x.mshr.popped (x.mshrInput i) ≠ some k) :
    RoundInv (x.step i) k (r.count (x.takes i k) (x.answers k)) := by
  have hI := h.round k r hr
  have hdata := h.dataMem_kept ok hr hno
  have hcount := InvState.counterMem_kept (i := i) hp
  have htake : x.takes i k = true → r.taken < r.sent.length := by
    intro htk
    obtain ⟨n, ht⟩ := InvState.takes_iff.1 htk
    obtain ⟨r', hr', hlt⟩ := ok.header k n (InvState.taken_eq_some ht).1
    cases hr.symm.trans hr'
    exact hlt
  -- an acknowledgement in S2 finds the line as S3 leaves it
  have hsame : ∀ a, x.stage2 = .ack a → a.mshrid = k →
      (x.step i).lines r.tagIndex = x.lines r.tagIndex := by
    intro a h2 hak
    apply h.lines_kept ok hr hno
    by_contra hans
    obtain ⟨b, h3, hbk⟩ := InvState.answers_iff.1 (Bool.eq_true_of_not_eq_false hans)
    apply h.hazard a h2
    rw [(hI.stage2 a h2 hak).1, ← (hI.stage3 b h3 hbk).1]
    unfold InvState.indexS3
    rw [h3]
  have hwrites : (x.step i).mshr.stateMem k =
        (if (r.count (x.takes i k) (x.answers k)).Complete then .pending else .wait) ∧
      ((x.step i).lines r.tagIndex r.way).mesi =
        (if (r.count (x.takes i k) (x.answers k)).Complete then .i else .s) ∧
      (r.left = true → ¬(r.count (x.takes i k) (x.answers k)).Complete →
        ((x.step i).lines r.tagIndex r.way).owner =
          BitVec.ofNat 6 (r.sharers.length - (r.answered + (x.answers k).toNat))) := by
    cases ha : x.answers k with
    | true => exact h.answered hr ha hp
    | false =>
      rw [h.lines_kept ok hr hno ha,
        InvState.stateMem_kept (h.spares ok hr hno ha) hp (.inl hI.notGuard)]
      exact ⟨hI.state, hI.mesi, hI.owner⟩
  refine
    { state := hwrites.1
      notGuard := ?_, tagIndex := ?_, way := ?_, pending := ?_
      counter := ?_
      mesi := hwrites.2.1
      owner := hwrites.2.2
      taken := ?_
      taken_le := ?_
      sent := hI.sent
      unsent := hI.unsent
      length_le := hI.length_le
      stage2 := ?_
      stage3 := ?_ }
  · rw [hdata, hI.notGuard]
  · exact (congrArg _ hdata).trans hI.tagIndex
  · exact (congrArg _ hdata).trans hI.way
  · exact (congrArg _ hdata).trans hI.pending
  · rw [hcount, hI.counter]
    change _ = BitVec.ofNat 6 (r.answered + (x.answers k).toNat)
    cases x.answers k with
    | true =>
      rw [if_pos rfl, Bool.toNat_true, BitVec.ofNat_add]
      rfl
    | false => rfl
  · have htaken := hI.taken
    rw [InvState.holds_stage2, InvState.holds_stage3]
    change r.taken + _ = r.answered + _ + _ + _
    omega
  · have hle := hI.taken_le
    change r.taken + (x.takes i k).toNat ≤ r.sent.length
    cases htk : x.takes i k with
    | false => exact hle
    | true => exact htake htk
  · intro a h2 hak
    obtain ⟨-, n, -, hindex, hway, hpending, howner, -⟩ :=
      InvState.stage2_ack h2 fun b hb => InvState.stallS2_of_ack hb i
    rw [hak] at hindex hway hpending
    rw [hI.indexS1] at hindex
    rw [hI.way] at hway
    rw [hI.fromMshr, hI.pending, Bool.true_and] at hpending
    rw [hindex, hway] at howner
    exact ⟨hindex, hway, hpending, howner⟩
  · intro b h3 hbk
    obtain ⟨a, h2, rfl⟩ := InvState.stage3_ack h3
    obtain ⟨hindex, hway, hpending, howner⟩ := hI.stage2 a h2 hbk
    change _ ∧ _ ∧ a.completes = _ ∧ (if a.completes then 0 else a.owner - 1) = _
    change a.tagIndex = r.tagIndex ∧ a.way = r.way ∧
      a.completes = (decide (((x.step i).lines r.tagIndex r.way).owner = 1) && r.left) ∧
      (if a.completes then 0 else a.owner - 1) =
        if a.completes then 0 else ((x.step i).lines r.tagIndex r.way).owner - 1
    rw [hsame a h2 hbk, ← howner]
    refine ⟨hindex, hway, ?_, rfl⟩
    unfold AckS2.completes
    rw [hpending, Bool.not_not]

/-! ### A round that sends an `INV_FWD` -/

/-- The round of the request in S4, which has begun or begins now. -/
structure Serving (x : InvState w t) (q : InvRequest w) (k : Fin 8) (r : Round w t) : Prop where
  tagIndex : r.tagIndex = q.tagIndex t
  way : r.way = q.way
  left : r.left = false
  sent : r.sent ++ x.due q = r.sharers
  counter : x.dirSharerCounter = BitVec.ofNat 6 (r.sent.length + 1)
  answered : x.mshr.counterMem k = BitVec.ofNat 6 r.answered
  taken : r.taken = r.answered + (x.stage2.holds AckS2.mshrid k).toNat + (x.answers k).toNat
  taken_le : r.taken ≤ r.sent.length
  length_le : r.sharers.length ≤ 64
  notGuard : (q.mshrDataIn false).isGuard = false
  mesi : (x.lines r.tagIndex r.way).mesi = .s
  notPending : x.mshr.stateMem k ≠ .pending
  begun : r.sent ≠ [] → RoundInv x k r

theorem length_setBits_le (d : BitVec 64) : (setBits d).length ≤ 64 := by
  unfold setBits
  exact (List.length_filter_le _ _).trans_eq List.length_range

theorem Fresh.serving (hf : Fresh x g q k) (h : AcksInv x g) : Serving x q k q.round where
  tagIndex := rfl
  way := rfl
  left := rfl
  sent := hf.due
  counter := hf.counter
  answered := h.unused k hf.unused
  taken := by
    have h2 : x.stage2.holds AckS2.mshrid k = false := by
      unfold Stage.holds
      cases hs : x.stage2 with
      | ack a =>
        obtain ⟨r, hr⟩ := h.stage2 a hs
        refine decide_eq_false fun hk => ?_
        rw [hk, hf.unused] at hr
        cases hr
      | empty => rfl
      | other n => rfl
    have h3 : x.answers k = false := by
      by_contra hans
      obtain ⟨a, hs, rfl⟩ := InvState.answers_iff.1 (Bool.eq_true_of_not_eq_false hans)
      obtain ⟨r, hr⟩ := h.stage3 a hs
      rw [hf.unused] at hr
      cases hr
    rw [h2, h3]
    rfl
  taken_le := Nat.le_refl _
  length_le := length_setBits_le _
  notGuard := hf.notGuard
  mesi := hf.mesi
  notPending := by
    rw [hf.state]
    exact MshrState.noConfusion
  begun hne := absurd rfl hne

theorem Begun.serving (hb : Begun x g q k r) (h : AcksInv x g) : Serving x q k r := by
  have hI := h.round k r hb.round
  have hnot := hI.not_complete_of_unsent hb.left
  refine ⟨hb.tagIndex, hb.way, hb.left, hb.sent, hb.counter, hI.counter, hI.taken, hI.taken_le,
    hI.length_le, hb.notGuard, hI.mesi.trans (if_neg hnot), ?_, fun _ => hI⟩
  rw [hI.state, if_neg hnot]
  exact MshrState.noConfusion

/-- The round of the entry that a request in S4 serves. -/
theorem Serves.serving (hs : Serves x g q k) (h : AcksInv x g) :
    Serving x q k ((g k).getD q.round) := by
  rcases hs with hf | ⟨r, hb⟩
  · rw [hf.unused]
    exact hf.serving h
  · rw [hb.round]
    exact hb.serving h

theorem ofNat_sub_ofNat {n m : Nat} (h : m ≤ n) :
    BitVec.ofNat 6 n - BitVec.ofNat 6 m = BitVec.ofNat 6 (n - m) := by
  have hn : n = n - m + m := by omega
  rw [hn, BitVec.ofNat_add, BitVec.add_sub_cancel, Nat.add_sub_cancel]

/-- The entry of a request that sends waits with the bit of the `INV_FWD`s that are still due. -/
theorem Serving.entry (hs : Serving x q x.mshrEmptyIndexSel r) (hq : x.stage4 = .inv q)
    (h3 : x.stage3 = .empty) (hsends : x.sends i q = true) :
    (x.step i).mshr.stateMem x.mshrEmptyIndexSel = .wait ∧
      ((x.step i).mshr.dataMem x.mshrEmptyIndexSel).isGuard = false ∧
      ((x.step i).mshr.dataMem x.mshrEmptyIndexSel).tagIndex t = r.tagIndex ∧
      ((x.step i).mshr.dataMem x.mshrEmptyIndexSel).way = r.way ∧
      ((x.step i).mshr.dataMem x.mshrEmptyIndexSel).invFwdPending = x.stallS4 i := by
  have hwrite := InvState.entryWrite_inv (i := i) h3 hq
  have hpop : x.mshr.popped (x.mshrInput i) ≠ some x.mshrEmptyIndexSel := fun hp =>
    hs.notPending (Mshr.popped_state hp)
  cases hen : x.mshrWrEn i q with
  | true =>
    have hpending : x.invFwdPending i q = x.stallS4 i := by
      unfold InvState.mshrWrEn at hen
      unfold InvState.invFwdPending
      cases hst : x.stallS4 i with
      | false => rw [Bool.and_false]
      | true =>
        rw [hst, Bool.not_true, Bool.or_false] at hen
        rw [hen, Bool.true_and]
    rw [hen, if_pos rfl, hpending] at hwrite
    rw [InvState.stateMem_written hwrite, InvState.dataMem_written hwrite]
    refine ⟨rfl, ?_, ?_, ?_, InvRequest.invFwdPending_mshrDataIn _ _⟩
    · rw [InvRequest.isGuard_mshrDataIn, hs.notGuard]
    · rw [InvRequest.tagIndex_mshrDataIn, hs.tagIndex]
    · rw [InvRequest.way_mshrDataIn, hs.way]
  | false =>
    -- not the first `INV_FWD`, and not the last
    unfold InvState.mshrWrEn at hen
    rw [hsends, Bool.true_and, Bool.or_eq_false_iff, decide_eq_false_iff_not,
      Bool.not_eq_false'] at hen
    have hne : r.sent ≠ [] := fun hnil => hen.1 (by rw [hs.counter, hnil]; rfl)
    have hI := hs.begun hne
    have hnone : x.entryWrite i = none := by
      rw [hwrite, if_neg]
      unfold InvState.mshrWrEn
      rw [hsends, Bool.true_and, decide_eq_false hen.1, hen.2]
      exact Bool.false_ne_true
    have hspares : x.Spares i x.mshrEmptyIndexSel := fun e he => by
      rw [hnone] at he
      cases he
    have hdata : (x.step i).mshr.dataMem x.mshrEmptyIndexSel =
        x.mshr.dataMem x.mshrEmptyIndexSel := by
      apply InvState.dataMem_kept
      intro st d hw
      rw [hnone] at hw
      cases hw
    rw [hdata, InvState.stateMem_kept hspares hpop (.inl hI.notGuard), hI.state,
      if_neg (hI.not_complete_of_unsent hs.left), hen.2]
    refine ⟨rfl, hI.notGuard, hI.tagIndex, hI.way, ?_⟩
    rw [hI.pending, hs.left]
    rfl

/-- A request that leaves writes how many acknowledgements are still to come. -/
theorem Serving.line (hs : Serving x q x.mshrEmptyIndexSel r) (hq : x.stage4 = .inv q)
    (h3 : x.stage3 = .empty) (hle : r.answered ≤ r.sent.length) :
    ((x.step i).lines r.tagIndex r.way).mesi = .s ∧ (x.stallS4 i = false →
      ((x.step i).lines r.tagIndex r.way).owner =
        BitVec.ofNat 6 (r.sent.length + 1 - r.answered)) := by
  have hline : x.lineWrite i = if x.stallS4 i then none else some ⟨q.tagIndex t, q.way,
      { x.lines (q.tagIndex t) q.way with owner := x.ownerS4 }⟩ := by
    unfold InvState.lineWrite
    rw [h3, hq]
  have hmesi := hs.mesi
  rw [hs.tagIndex, hs.way] at hmesi ⊢
  cases hst : x.stallS4 i with
  | true =>
    rw [hst, if_pos rfl] at hline
    have hkept := InvState.lines_kept (x := x) (i := i) (n := q.tagIndex t) fun l hl => by
      rw [hline] at hl
      cases hl
    rw [hkept]
    exact ⟨hmesi, fun h => absurd h (by simp)⟩
  | false =>
    rw [hst, if_neg Bool.false_ne_true] at hline
    have hwritten := InvState.lines_written hline
    rw [hwritten]
    refine ⟨hmesi, fun _ => ?_⟩
    change x.dirSharerCounter - x.mshr.counterMem x.mshrEmptyIndexSel = _
    rw [hs.counter, hs.answered, ofNat_sub_ofNat (by omega)]

theorem Serving.send (hs : Serving x q x.mshrEmptyIndexSel r) (hq : x.stage4 = .inv q)
    {d : Nat} {rest : List Nat} (hg : x.globalStall = false) (hc : x.stallInvCounter i = false)
    (hsends : x.sends i q = true) (hdue : x.due q = d :: rest)
    (hst : x.stallS4 i = !rest.isEmpty) :
    RoundInv (x.step i) x.mshrEmptyIndexSel ((r.send d !(x.stallS4 i)).count
      (x.takes i x.mshrEmptyIndexSel) (x.answers x.mshrEmptyIndexSel)) := by
  have h3 := InvState.globalStall_eq_false.1 hg
  obtain ⟨hholds, htakes⟩ := InvState.quiet_of_not_stallInvCounter hc x.mshrEmptyIndexSel
  have hans : x.answers x.mshrEmptyIndexSel = false := by
    unfold InvState.answers Stage.holds
    rw [h3]
  have htaken := hs.taken
  have hle := hs.taken_le
  rw [hholds, hans, Bool.toNat_false, Nat.add_zero] at htaken
  have hlen : r.sent.length + (rest.length + 1) = r.sharers.length := by
    rw [← hs.sent, hdue, List.length_append, List.length_cons]
  obtain ⟨hstate, hguard, hindex, hway, hpending⟩ := hs.entry hq h3 hsends
  obtain ⟨hmesi, howner⟩ := hs.line (i := i) hq h3 (by omega)
  have hpop : x.mshr.popped (x.mshrInput i) ≠ some x.mshrEmptyIndexSel := fun hp =>
    hs.notPending (Mshr.popped_state hp)
  have hcount := InvState.counterMem_kept (i := i) hpop
  rw [hans, if_neg Bool.false_ne_true, hs.answered] at hcount
  have hnot : ¬((r.send d !(x.stallS4 i)).count (x.takes i x.mshrEmptyIndexSel)
      (x.answers x.mshrEmptyIndexSel)).Complete := by
    rw [hans]
    change ¬r.answered + 0 = r.sharers.length
    omega
  refine
    { state := hstate.trans (if_neg hnot).symm
      notGuard := hguard
      tagIndex := hindex
      way := hway
      pending := ?_
      counter := ?_
      mesi := hmesi.trans (if_neg hnot).symm
      owner := ?_
      taken := ?_
      taken_le := ?_
      sent := ?_
      unsent := ?_
      length_le := hs.length_le
      stage2 := ?_
      stage3 := ?_ }
  · change _ = !(!(x.stallS4 i))
    rw [Bool.not_not, hpending]
  · rw [hans]
    exact hcount
  · intro hleft _
    rw [hans]
    change _ = BitVec.ofNat 6 (r.sharers.length - (r.answered + 0))
    change (!(x.stallS4 i)) = true at hleft
    rw [Bool.not_eq_true'] at hleft
    have hnil : rest = [] := by
      rw [hleft] at hst
      simpa using hst.symm
    rw [hnil, List.length_nil] at hlen
    refine (howner hleft).trans (congrArg _ ?_)
    omega
  · rw [InvState.holds_stage2, InvState.holds_stage3, htakes, hans, hholds]
    change r.taken + 0 = r.answered + 0 + 0 + 0
    omega
  · rw [htakes]
    change r.taken + 0 ≤ (r.sent ++ [d]).length
    rw [List.length_append]
    omega
  · intro hleft
    change (!(x.stallS4 i)) = true at hleft
    rw [Bool.not_eq_true', hst] at hleft
    have hnil : rest = [] := by simpa using hleft
    change r.sent ++ [d] = r.sharers
    rw [← hs.sent, hdue, hnil]
  · intro hleft
    change (!(x.stallS4 i)) = false at hleft
    rw [Bool.not_eq_false', hst] at hleft
    have hpos : 0 < rest.length := by
      apply List.length_pos_of_ne_nil
      simpa using hleft
    change (r.sent ++ [d]).length < r.sharers.length
    rw [List.length_append, List.length_singleton]
    omega
  · intro a h2 hak
    have htk := (InvState.stage2_ack h2 fun b hb => InvState.stallS2_of_ack hb i).1
    rw [hak, htakes] at htk
    cases htk
  · intro b hb hbk
    obtain ⟨a, h2, rfl⟩ := InvState.stage3_ack hb
    unfold Stage.holds at hholds
    rw [h2] at hholds
    exact absurd hbk (of_decide_eq_false hholds)

/-! ### A step of the L2 -/

theorem roundsNext_eq_some {r' : Round w t} (h : x.roundsNext i g k = some r') :
    x.mshr.popped (x.mshrInput i) ≠ some k ∧
      ∃ r, x.roundSent i g k = some r ∧ r' = r.count (x.takes i k) (x.answers k) := by
  unfold InvState.roundsNext at h
  split at h
  · cases h
  case isFalse hp =>
    obtain ⟨r, hr, heq⟩ := Option.map_eq_some_iff.1 h
    exact ⟨hp, r, hr, heq.symm⟩

theorem roundsNext_of_not_popped (hp : x.mshr.popped (x.mshrInput i) ≠ some k) :
    x.roundsNext i g k = (x.roundSent i g k).map fun r => r.count (x.takes i k) (x.answers k) :=
  if_neg hp

theorem roundSent_of_none (h : x.sentFor i k = none) : x.roundSent i g k = g k := by
  unfold InvState.roundSent
  rw [h]

theorem roundSent_of_some {d : Nat} (h : x.sentFor i k = some (q, d)) :
    x.roundSent i g k = some (((g k).getD q.round).send d !(x.stallS4 i)) := by
  unfold InvState.roundSent
  rw [h]

theorem roundSent_isSome (h : g k = some r) : ∃ r', x.roundSent i g k = some r' := by
  cases hs : x.sentFor i k with
  | none => exact ⟨r, (roundSent_of_none hs).trans h⟩
  | some p => exact ⟨_, roundSent_of_some hs⟩

theorem AcksInv.not_popped (h : AcksInv x g) (hr : g k = some r) (hnot : ¬r.Complete) :
    x.mshr.popped (x.mshrInput i) ≠ some k := by
  intro hp
  have hstate := (h.round k r hr).state
  rw [Mshr.popped_state hp, if_neg hnot] at hstate
  cases hstate

theorem AcksInv.exists_next (h : AcksInv x g) (hr : g k = some r) (hnot : ¬r.Complete) :
    ∃ r', x.roundsNext i g k = some r' := by
  obtain ⟨r', hr'⟩ := roundSent_isSome (x := x) (i := i) hr
  rw [roundsNext_of_not_popped (h.not_popped hr hnot), hr']
  exact ⟨_, rfl⟩

/-- What a request in S4 sends it sends for the entry that it serves. -/
theorem AcksInv.sends (h : AcksInv x g) (ok : InvOk (x, g) i) {d : Nat}
    (hs : x.sentFor i k = some (q, d)) :
    x.stage4 = .inv q ∧ k = x.mshrEmptyIndexSel ∧ ∃ rest, x.globalStall = false ∧
      x.stallInvCounter i = false ∧ x.sends i q = true ∧ x.due q = d :: rest ∧
      x.stallS4 i = !rest.isEmpty ∧ (rest ≠ [] → (x.step i).due q = rest) := by
  obtain ⟨hq, hk, hsent⟩ := InvState.sentFor_eq_some hs
  rcases InvState.stage4_cases hq (h.servesSel ok hq).due_ne_nil i with
    ⟨-, hnone, -, -⟩ | ⟨d', rest, hg, hc, hsends, hsent', hdue, hst, hnext⟩
  · rw [hsent] at hnone
    cases hnone
  · rw [hsent] at hsent'
    cases hsent'
    exact ⟨hq, hk, rest, hg, hc, hsends, hdue, hst, hnext⟩

theorem AcksInv.round_step (h : AcksInv x g) (ok : InvOk (x, g) i) {r' : Round w t}
    (hr' : x.roundsNext i g k = some r') : RoundInv (x.step i) k r' := by
  obtain ⟨hp, r, hr, rfl⟩ := roundsNext_eq_some hr'
  cases hs : x.sentFor i k with
  | none =>
    rw [roundSent_of_none hs] at hr
    exact h.round_kept ok hr hs hp
  | some p =>
    obtain ⟨q, d⟩ := p
    rw [roundSent_of_some hs] at hr
    cases hr
    obtain ⟨hq, rfl, rest, hg, hc, hsends, hdue, hst, -⟩ := h.sends ok hs
    exact ((h.servesSel ok hq).serving h).send hq hg hc hsends hdue hst

/-- A round has the set of its predecessor, or that of a request in S4 that begins. -/
theorem AcksInv.origin (h : AcksInv x g) (ok : InvOk (x, g) i) {r' : Round w t}
    (hr' : x.roundsNext i g k = some r') :
    (∃ r, g k = some r ∧ r'.tagIndex = r.tagIndex) ∨
      ∃ q, Fresh x g q k ∧ k = x.mshrEmptyIndexSel ∧ r'.tagIndex = q.tagIndex t := by
  obtain ⟨-, r, hr, rfl⟩ := roundsNext_eq_some hr'
  cases hs : x.sentFor i k with
  | none =>
    rw [roundSent_of_none hs] at hr
    exact .inl ⟨r, hr, rfl⟩
  | some p =>
    obtain ⟨q, d⟩ := p
    rw [roundSent_of_some hs] at hr
    cases hr
    obtain ⟨hq, rfl, -⟩ := h.sends ok hs
    rcases h.servesSel ok hq with hf | ⟨r, hb⟩
    · refine .inr ⟨q, hf, rfl, ?_⟩
      rw [hf.unused]
      rfl
    · refine .inl ⟨r, hb.round, ?_⟩
      rw [hb.round]
      rfl

theorem AcksInv.apart_step (h : AcksInv x g) (ok : InvOk (x, g) i) {j : Fin 8} {r r' : Round w t}
    (hr : x.roundsNext i g k = some r) (hr' : x.roundsNext i g j = some r')
    (heq : r.tagIndex = r'.tagIndex) : k = j := by
  rcases h.origin ok hr with ⟨p, hp, hpi⟩ | ⟨q, hf, hk, hqi⟩
  · rcases h.origin ok hr' with ⟨p', hp', hpi'⟩ | ⟨q', hf', -, hqi'⟩
    · exact h.apart _ _ _ _ hp hp' (hpi.symm.trans (heq.trans hpi'))
    · exact absurd (hpi.symm.trans (heq.trans hqi')) (hf'.alone _ _ hp)
  · rcases h.origin ok hr' with ⟨p', hp', hpi'⟩ | ⟨q', -, hj, -⟩
    · exact absurd (hpi'.symm.trans (heq.symm.trans hqi)) (hf.alone _ _ hp')
    · exact hk.trans hj.symm

theorem AcksInv.unused_step (h : AcksInv x g) (hnone : x.roundsNext i g k = none) :
    (x.step i).mshr.counterMem k = 0 := by
  by_cases hp : x.mshr.popped (x.mshrInput i) = some k
  · exact InvState.counterMem_popped hp
  · rw [roundsNext_of_not_popped hp, Option.map_eq_none_iff] at hnone
    have hg : g k = none := by
      cases hr : g k with
      | none => rfl
      | some r =>
        obtain ⟨r', hr'⟩ := roundSent_isSome (x := x) (i := i) hr
        rw [hr'] at hnone
        cases hnone
    rw [InvState.counterMem_kept hp, h.unused k hg, if_neg]
    intro hans
    obtain ⟨a, h3, rfl⟩ := InvState.answers_iff.1 hans
    obtain ⟨r, hr⟩ := h.stage3 a h3
    rw [hg] at hr
    cases hr

/-- An acknowledgement under way keeps its round from being complete. -/
theorem RoundInv.not_complete_of_holds (h : RoundInv x k r)
    (h2 : x.stage2.holds AckS2.mshrid k = true) : ¬r.Complete := by
  have htaken := h.taken
  have hle := h.taken_le
  have hsent := h.sent_le
  rw [h2, Bool.toNat_true] at htaken
  unfold Round.Complete
  omega

theorem AcksInv.stage2_step (h : AcksInv x g) (ok : InvOk (x, g) i) {a : AckS2 w t}
    (h2 : (x.step i).stage2 = .ack a) : ∃ r, x.roundsNext i g a.mshrid = some r := by
  obtain ⟨-, n, hh, -⟩ := InvState.stage2_ack h2 fun b hb => InvState.stallS2_of_ack hb i
  obtain ⟨r, hr, hlt⟩ := ok.header _ _ hh
  have hI := h.round _ r hr
  apply h.exists_next hr
  have hsent := hI.sent_le
  have htaken := hI.taken
  unfold Round.Complete
  omega

theorem AcksInv.stage3_step (h : AcksInv x g) {b : AckS3 w t}
    (h3 : (x.step i).stage3 = .ack b) : ∃ r, x.roundsNext i g b.mshrid = some r := by
  obtain ⟨a, h2, rfl⟩ := InvState.stage3_ack h3
  obtain ⟨r, hr⟩ := h.stage2 a h2
  apply h.exists_next hr
  apply (h.round _ r hr).not_complete_of_holds
  unfold Stage.holds
  rw [h2]
  exact decide_eq_true rfl

theorem indexS3_step {n : BitVec t} (h : (x.step i).indexS3 = some n) : x.indexS2 = some n := by
  cases hs : (x.step i).stage3 with
  | empty =>
    rw [InvState.indexS3, hs] at h
    cases h
  | ack b =>
    obtain ⟨a, h2, rfl⟩ := InvState.stage3_ack hs
    rw [InvState.indexS3, hs] at h
    rw [InvState.indexS2, h2]
    exact h
  | other m =>
    rw [InvState.indexS3, hs] at h
    rw [InvState.indexS2, InvState.stage3_other hs]
    exact h

theorem Serves.closed (h : Serves x g q k) {j : Fin 8} (hr : g j = some r) (hj : j ≠ k) :
    r.left = true := by
  rcases h with h | ⟨r', h⟩
  · exact h.closed j r hr
  · exact h.closed j r hr hj

/-- Rounds other than the one that sends keep their flag. -/
theorem left_of_none {r' : Round w t} (hs : x.sentFor i k = none)
    (hr' : x.roundsNext i g k = some r') : ∃ r, g k = some r ∧ r'.left = r.left := by
  obtain ⟨-, r, hr, rfl⟩ := roundsNext_eq_some hr'
  exact ⟨r, (roundSent_of_none hs).symm.trans hr, rfl⟩

theorem sentFor_of_ne (hk : k ≠ x.mshrEmptyIndexSel) : x.sentFor i k = none := by
  cases hs : x.sentFor i k with
  | none => rfl
  | some p => exact absurd (InvState.sentFor_eq_some (q := p.1) (d := p.2) hs).2.1 hk

theorem sentFor_of_not_inv (hq : ∀ q, x.stage4 ≠ .inv q) : x.sentFor i k = none := by
  cases hs : x.sentFor i k with
  | none => rfl
  | some p => exact absurd (InvState.sentFor_eq_some (q := p.1) (d := p.2) hs).1 (hq _)

theorem AcksInv.closed_step (h : AcksInv x g) (ok : InvOk (x, g) i)
    (hc : (x.step i).sharer.stallBefore = false ∨ ∀ q, (x.step i).stage4 ≠ .inv q) :
    (x.step i).dirSharerCounter = 1 ∧
      ∀ k r, x.roundsNext i g k = some r → r.left = true := by
  rw [InvState.stallBefore_step] at hc
  by_cases hinv : ∃ q, x.stage4 = .inv q
  · obtain ⟨q, hq⟩ := hinv
    have hst : x.stallS4 i = false := by
      rcases hc with hc | hc
      · exact hc
      · by_contra hst
        apply hc q
        change (if x.stallS4 i then x.stage4 else i.enters) = _
        rw [Bool.eq_true_of_not_eq_false hst, if_pos rfl, hq]
    have hsel := h.servesSel ok hq
    rcases InvState.stage4_cases hq hsel.due_ne_nil i with
      ⟨-, -, hstall, -⟩ | ⟨d, rest, hg, hcnt, hsends, hsent, -⟩
    · rw [hst] at hstall
      cases hstall
    · constructor
      · rw [InvState.counter_of_sends hq hsends, hst, if_neg Bool.false_ne_true]
      · intro k r hr
        by_cases hk : k = x.mshrEmptyIndexSel
        · obtain ⟨-, r', hr', rfl⟩ := roundsNext_eq_some hr
          have hs := InvState.sentFor_sel (i := i) hq
          rw [hsent, ← hk] at hs
          rw [roundSent_of_some hs] at hr'
          cases hr'
          change (!(x.stallS4 i)) = true
          rw [hst]
          rfl
        · obtain ⟨r', hr', hleft⟩ := left_of_none (sentFor_of_ne hk) hr
          rw [hleft, hsel.closed hr' hk]
  · have hnot : ∀ q, x.stage4 ≠ .inv q := fun q hq => hinv ⟨q, hq⟩
    obtain ⟨hcounter, hleft⟩ := h.closed (.inr hnot)
    refine ⟨(InvState.counter_of_not_inv hnot i).trans hcounter, fun k r hr => ?_⟩
    obtain ⟨r', hr', heq⟩ := left_of_none (sentFor_of_not_inv hnot) hr
    exact heq.trans (hleft k r' hr')

theorem Fresh.kept (hf : Fresh x g q x.mshrEmptyIndexSel) (h : AcksInv x g)
    (ok : InvOk (x, g) i) (hq : x.stage4 = .inv q)
    (hno : x.sentFor i x.mshrEmptyIndexSel = none)
    (hcounter : (x.step i).dirSharerCounter = x.dirSharerCounter)
    (hdue : (x.step i).due q = x.due q) :
    Fresh (x.step i) (x.roundsNext i g) q x.mshrEmptyIndexSel := by
  have hpop : x.mshr.popped (x.mshrInput i) ≠ some x.mshrEmptyIndexSel := by
    intro hp
    have hstate := Mshr.popped_state hp
    rw [hf.state] at hstate
    cases hstate
  have hans : x.answers x.mshrEmptyIndexSel = false := by
    by_contra hans
    obtain ⟨a, h3, ha⟩ := InvState.answers_iff.1 (Bool.eq_true_of_not_eq_false hans)
    obtain ⟨r, hr⟩ := h.stage3 a h3
    rw [ha, hf.unused] at hr
    cases hr
  have hspares : x.Spares i x.mshrEmptyIndexSel := by
    apply InvState.spares_of hans
    · rintro j hj rfl
      exact (ok.otherEntry2 _ hj).2 hf.state
    · intro hother
      rw [hq] at hother
      cases hother
    · intro q' hq' hen
      rw [(h.waits ok hq' hno).1] at hen
      cases hen
  have hlines : (x.step i).lines (q.tagIndex t) = x.lines (q.tagIndex t) := by
    apply InvState.lines_kept_of
    · intro a h3 heq
      obtain ⟨r, hr⟩ := h.stage3 a h3
      have hindex := ((h.round _ r hr).stage3 a h3 rfl).1
      exact hf.alone _ r hr (hindex.symm.trans heq)
    · intro l hl heq
      exact (ok.otherLine l hl).2 q hq heq.symm
    · intro q' hq' hst
      rw [(h.waits ok hq' hno).2] at hst
      cases hst
  refine ⟨?_, ?_, hcounter.trans hf.counter, ?_, hdue.trans hf.due, hf.sharer, hf.notGuard, ?_, ?_⟩
  · rw [InvState.stateMem_kept hspares hpop (.inr hf.state), hf.state]
  · rw [roundsNext_of_not_popped hpop, roundSent_of_none hno, hf.unused]
    rfl
  · intro j r hr
    by_cases hj : j = x.mshrEmptyIndexSel
    · subst hj
      obtain ⟨r', hr', heq⟩ := left_of_none hno hr
      exact heq.trans (hf.closed _ r' hr')
    · obtain ⟨r', hr', heq⟩ := left_of_none (sentFor_of_ne hj) hr
      exact heq.trans (hf.closed _ r' hr')
  · rw [hlines, hf.mesi]
  · intro j r hr
    rcases h.origin ok hr with ⟨r', hr', heq⟩ | ⟨q', -, hj, -⟩
    · rw [heq]
      exact hf.alone j r' hr'
    · obtain ⟨r', hr', -⟩ := left_of_none hno (hj ▸ hr)
      rw [hf.unused] at hr'
      cases hr'

theorem Begun.kept (hb : Begun x g q x.mshrEmptyIndexSel r) (h : AcksInv x g)
    (hno : x.sentFor i x.mshrEmptyIndexSel = none)
    (hcounter : (x.step i).dirSharerCounter = x.dirSharerCounter)
    (hdue : (x.step i).due q = x.due q) :
    Begun (x.step i) (x.roundsNext i g) q x.mshrEmptyIndexSel
      (r.count (x.takes i x.mshrEmptyIndexSel) (x.answers x.mshrEmptyIndexSel)) := by
  have hI := h.round _ r hb.round
  have hpop := h.not_popped (i := i) hb.round (hI.not_complete_of_unsent hb.left)
  refine ⟨?_, hb.tagIndex, hb.way, hb.left, ?_, hb.begun, ?_, hcounter.trans hb.counter,
    hb.notGuard, ?_⟩
  · rw [roundsNext_of_not_popped hpop, roundSent_of_none hno, hb.round]
    rfl
  · rw [hdue]
    exact hb.sent
  · rw [hdue]
    exact hb.due
  · intro j r' hr' hj
    obtain ⟨r'', hr'', heq⟩ := left_of_none (sentFor_of_ne hj) hr'
    exact heq.trans (hb.closed j r'' hr'' hj)

/-- A request that stays after an `INV_FWD` goes on with its round. -/
theorem Serving.begun_next (hs : Serving x q x.mshrEmptyIndexSel r) (hq : x.stage4 = .inv q)
    (hsel : Serves x g q x.mshrEmptyIndexSel) (hg : (g x.mshrEmptyIndexSel).getD q.round = r)
    {d : Nat} {rest : List Nat} (hsent : x.sentFor i x.mshrEmptyIndexSel = some (q, d))
    (hsends : x.sends i q = true) (hdue : x.due q = d :: rest)
    (hst : x.stallS4 i = true) (hrest : rest ≠ []) (hnext : (x.step i).due q = rest) :
    Begun (x.step i) (x.roundsNext i g) q x.mshrEmptyIndexSel ((r.send d !(x.stallS4 i)).count
      (x.takes i x.mshrEmptyIndexSel) (x.answers x.mshrEmptyIndexSel)) := by
  have hpop : x.mshr.popped (x.mshrInput i) ≠ some x.mshrEmptyIndexSel := fun hp =>
    hs.notPending (Mshr.popped_state hp)
  refine ⟨?_, hs.tagIndex, hs.way, ?_, ?_, ?_, ?_, ?_, hs.notGuard, ?_⟩
  · rw [roundsNext_of_not_popped hpop, roundSent_of_some hsent, hg]
    rfl
  · change (!(x.stallS4 i)) = false
    rw [hst]
    rfl
  · change (r.sent ++ [d]) ++ _ = r.sharers
    rw [hnext, List.append_assoc, ← hs.sent, hdue]
    rfl
  · exact List.append_ne_nil_of_right_ne_nil _ (List.cons_ne_nil _ _)
  · rw [hnext]
    exact hrest
  · rw [InvState.counter_of_sends hq hsends, hst, if_pos rfl, hs.counter]
    change _ = BitVec.ofNat 6 ((r.sent ++ [d]).length + 1)
    rw [List.length_append, List.length_singleton]
    exact (BitVec.ofNat_add (r.sent.length + 1) 1).symm
  · intro j r' hr' hj
    obtain ⟨r'', hr'', heq⟩ := left_of_none (sentFor_of_ne hj) hr'
    exact heq.trans (hsel.closed hr'' hj)

theorem AcksInv.serves_step (h : AcksInv x g) (ok : InvOk (x, g) i)
    (hq : (x.step i).stage4 = .inv q) (hs : (x.step i).sharer.stallBefore = true) :
    Serves (x.step i) (x.roundsNext i g) q (x.step i).mshrEmptyIndexBuf := by
  rw [InvState.stallBefore_step] at hs
  change (if x.stallS4 i then x.stage4 else i.enters) = _ at hq
  rw [hs, if_pos rfl] at hq
  have hbuf : (x.step i).mshrEmptyIndexBuf = x.mshrEmptyIndexSel := by
    change (if x.stallS4 i && !x.sharer.stallBefore then _ else _) = _
    unfold InvState.mshrEmptyIndexSel
    rw [hs]
    cases x.sharer.stallBefore <;> rfl
  rw [hbuf]
  have hsel := h.servesSel ok hq
  have hsentFor := InvState.sentFor_sel (i := i) hq
  rcases InvState.stage4_cases hq hsel.due_ne_nil i with
    ⟨hsends, hsent, -, hdue⟩ | ⟨d, rest, -, -, hsends, hsent, hdue, hst, hnext⟩
  · rw [hsent, Option.map_none] at hsentFor
    have hcounter := InvState.counter_of_waits hq hsends
    rcases hsel with hf | ⟨r, hb⟩
    · exact .inl (hf.kept h ok hq hsentFor hcounter hdue)
    · exact .inr ⟨_, hb.kept h hsentFor hcounter hdue⟩
  · rw [hsent, Option.map_some] at hsentFor
    have hrest : rest ≠ [] := by
      rw [hs] at hst
      simpa using hst.symm
    exact .inr ⟨_, (hsel.serving h).begun_next hq hsel rfl hsentFor hsends hdue hs hrest
      (hnext hrest)⟩

theorem AcksInv.step (h : AcksInv x g) (ok : InvOk (x, g) i) :
    AcksInv (x.step i) (x.roundsNext i g) where
  round _ _ hr := h.round_step ok hr
  apart _ _ _ _ hr hr' heq := h.apart_step ok hr hr' heq
  unused _ hnone := h.unused_step hnone
  stage2 _ h2 := h.stage2_step ok h2
  stage3 _ h3 := h.stage3_step h3
  hazard a h2 hindex := by
    obtain ⟨-, n, -, -, -, -, -, hne⟩ :=
      InvState.stage2_ack h2 fun b hb => InvState.stallS2_of_ack hb i
    exact hne (indexS3_step hindex)
  closed hc := h.closed_step ok hc
  serves _ hq hs := h.serves_step ok hq hs

theorem AcksInv.init (h : (invMachine w t).init x) : AcksInv x fun _ => none := by
  obtain ⟨hq, hs, hcounter, h2, h3, hm⟩ := h
  refine ⟨?_, ?_, ?_, ?_, ?_, ?_, ?_, ?_⟩
  · intro k r hr
    cases hr
  · intro k j r r' hr
    cases hr
  · intro k _
    rw [hm]
    rfl
  · intro a ha
    rw [h2] at ha
    cases ha
  · intro a ha
    rw [h3] at ha
    cases ha
  · intro a ha
    rw [h2] at ha
    cases ha
  · intro _
    exact ⟨hcounter, fun k r hr => by cases hr⟩
  · intro q hq'
    rw [hq] at hq'
    cases hq'

end

theorem acksInv_of_reachable {y : InvState w t × Rounds w t}
    (h : (invRounds w t).Reachable InvOk y) : AcksInv y.1 y.2 := by
  apply h.invariant (P := fun y => AcksInv y.1 y.2)
  · rintro ⟨x, g⟩ ⟨hx, rfl⟩
    exact .init hx
  · rintro ⟨x, g⟩ i hI hok
    exact hI.step hok

/-- A round that has not left S4 is the one that S4 serves. -/
theorem AcksInv.begun_of_left {x : InvState w t} {g : Rounds w t} (h : AcksInv x g) {k : Fin 8}
    {r : Round w t} (hr : g k = some r) (hleft : r.left = false) : ∃ q, Begun x g q k r := by
  have hopen : ¬(x.sharer.stallBefore = false ∨ ∀ q, x.stage4 ≠ .inv q) := fun hc => by
    rw [(h.closed hc).2 k r hr] at hleft
    cases hleft
  rw [not_or, Bool.not_eq_false, not_forall] at hopen
  obtain ⟨hs, q, hq⟩ := hopen
  rw [not_not] at hq
  rcases h.serves q hq hs with hf | ⟨r', hb⟩
  · rw [hf.closed k r hr] at hleft
    cases hleft
  · by_cases hk : k = x.mshrEmptyIndexBuf
    · subst hk
      cases hr.symm.trans hb.round
      exact ⟨q, hb⟩
    · rw [hb.closed k r hr hk] at hleft
      cases hleft

/-- In every round, over every interleaving of requests, back pressure and acknowledgements, early ones
included, the sharers are sent one `INV_FWD` each in increasing order, all of them by the time the request
leaves S4. The MSHR is pending and the line invalid when every sharer has acknowledged; before that the
MSHR waits and the line is in state S. -/
theorem invalidation_accounted {y : InvState w t × Rounds w t}
    (h : (invRounds w t).Reachable InvOk y) {k : Fin 8} {r : Round w t} (hr : y.2 k = some r) :
    r.sent <+: r.sharers ∧ (r.left = true ↔ r.sent = r.sharers) ∧ r.answered ≤ r.sent.length ∧
      y.1.mshr.stateMem k = (if r.answered = r.sharers.length then .pending else .wait) ∧
      (y.1.lines r.tagIndex r.way).mesi = if r.answered = r.sharers.length then .i else .s := by
  have hI := acksInv_of_reachable h
  have hr' := hI.round k r hr
  refine ⟨?_, ⟨hr'.sent, fun heq => ?_⟩, ?_, hr'.state, hr'.mesi⟩
  · cases hleft : r.left with
    | true => rw [hr'.sent hleft]
    | false =>
      obtain ⟨q, hb⟩ := hI.begun_of_left hr hleft
      exact ⟨_, hb.sent⟩
  · by_contra hleft
    have hlt := hr'.unsent (Bool.eq_false_of_not_eq_true hleft)
    rw [heq] at hlt
    exact Nat.lt_irrefl _ hlt
  · have htaken := hr'.taken
    have hle := hr'.taken_le
    omega

/-- A cycle that meets the conditions, without requests and messages of other kinds. -/
def plainOk (y : InvState w t × Rounds w t) (i : InvInput w t) : Bool :=
  (match i.header with
    | some (.invFwdAck k _) => (y.2 k).any fun r => r.taken < r.sent.length
    | _ => true) &&
  (match y.1.stage4 with
    | .inv q => y.1.sharer.stallBefore ||
        (setBits q.dirData ≠ [] && (y.1.lines (q.tagIndex t) q.way).mesi = .s &&
          !(q.mshrDataIn false).isGuard && (List.finRange 8).any (y.1.mshr.stateMem · = .inval) &&
          (List.finRange 8).all fun k => (y.2 k).all fun r => r.tagIndex ≠ q.tagIndex t)
    | _ => true) &&
  i.otherEntry1.isNone && i.otherEntry2.isNone && i.otherLine1.isNone && i.otherLine2.isNone

theorem InvOk.of_plain {y : InvState w t × Rounds w t} {i : InvInput w t}
    (h : plainOk y i = true) : InvOk y i := by
  unfold plainOk at h
  simp only [Bool.and_eq_true, Option.isNone_iff_eq_none] at h
  obtain ⟨⟨⟨⟨⟨hheader, h4⟩, he1⟩, he2⟩, hl1⟩, hl2⟩ := h
  have hfirst : ∀ q, y.1.stage4 = .inv q → y.1.sharer.stallBefore = false →
      setBits q.dirData ≠ [] ∧ (y.1.lines (q.tagIndex t) q.way).mesi = .s ∧
        (q.mshrDataIn false).isGuard = false ∧ (∃ k, y.1.mshr.stateMem k = .inval) ∧
        ∀ k r, y.2 k = some r → r.tagIndex ≠ q.tagIndex t := by
    intro q hq hs
    simp only [hq, hs, Bool.false_or, Bool.and_eq_true, decide_eq_true_eq, Bool.not_eq_true',
      List.any_eq_true, List.all_eq_true, Option.all_eq_true] at h4
    obtain ⟨⟨⟨⟨hne, hmesi⟩, hguard⟩, ⟨k, -, hk⟩⟩, halone⟩ := h4
    exact ⟨hne, hmesi, hguard, ⟨k, hk⟩, fun k r hr => halone k (List.mem_finRange k) r hr⟩
  refine ⟨?_, fun q hq hs => (hfirst q hq hs).1, fun q hq hs => (hfirst q hq hs).2.1,
    fun q hq hs => (hfirst q hq hs).2.2.1, fun q hq hs => (hfirst q hq hs).2.2.2.1,
    fun q hq hs => (hfirst q hq hs).2.2.2.2, ?_, ?_, ?_⟩
  · intro k n hk
    simp only [hk] at hheader
    obtain ⟨r, hr, hlt⟩ := (Option.any_eq_true _ _).1 hheader
    exact ⟨r, hr, of_decide_eq_true hlt⟩
  · intro e he
    rw [he1] at he
    cases he
  · intro k he
    rw [he2] at he
    cases he
  · intro l hl
    rw [hl1, hl2] at hl
    rcases hl with hl | hl <;> cases hl

namespace TwoRounds

/-- A table of eight sets and four ways of shared lines, for the run below. -/
def start : InvState 2 8 × Rounds 2 8 where
  fst :=
    { stage4 := .empty
      sharer := ⟨0, false⟩
      dirSharerCounter := 1
      mshrEmptyIndexBuf := 0
      stage2 := .empty
      stage3 := .empty
      mshr := .init
      lines := fun _ _ => ⟨.s, 0⟩ }
  snd := fun _ => none

/-- A cycle with a request for S4 and a header for the second pipeline. -/
def cycle (enters : StageS4 2) (header : Option (Header 8)) (ready : Bool) : InvInput 2 8 :=
  ⟨false, 0, false, ready, enters, header, false, none, none, false, none, none⟩

/-- A request for a line that cores 0 and 2 share. -/
def first : StageS4 2 := .inv ⟨0b101, 0⟩

/-- A request for a line of the next set that cores 0, 1 and 3 share. -/
def second : StageS4 2 := .inv ⟨0b1011, 0x40⟩

/-- The acknowledgement of MSHR `k` for the first set. -/
def ack (k : Fin 8) : Option (Header 8) := some (.invFwdAck k 0)

/-- The second request follows the first one. The first acknowledgement of each is in the second pipeline
before its last `INV_FWD` is sent, and the sending side is not ready in some cycles. -/
def cycles : List (InvInput 2 8) :=
  [cycle first none true, cycle .empty none false, cycle .empty none true, cycle .empty (ack 0) true,
    cycle second none false, cycle second none true, cycle second none true, cycle .empty none true,
    cycle .empty (ack 0) true, cycle .empty none true, cycle .empty (ack 1) true,
    cycle .empty none true, cycle .empty none true, cycle .empty none true, cycle .empty none true,
    cycle .empty (ack 1) true, cycle .empty none true, cycle .empty none true]

theorem reachable_cycles : (invRounds 2 8).Reachable InvOk ((invRounds 2 8).run start cycles) := by
  have hstart : (invRounds 2 8).Reachable (fun y i => plainOk y i = true) start :=
    .init ⟨⟨rfl, rfl, rfl, rfl, rfl, rfl⟩, rfl⟩
  exact (hstart.run (by decide +kernel)).mono fun _ _ => .of_plain

theorem first_pending : ((invRounds 2 8).run start cycles).2 0 =
    some ⟨0, 0, [0, 2], [0, 2], true, 2, 2⟩ := rfl

theorem second_waits : ((invRounds 2 8).run start cycles).2 1 =
    some ⟨1, 0, [0, 1, 3], [0, 1, 3], true, 2, 2⟩ := rfl

end TwoRounds

open TwoRounds in

/-- All of the first round has been acknowledged, and one sharer of the second is to come. -/
theorem invalidation_accounted_twoRounds :
    ((invRounds 2 8).run start cycles).1.mshr.stateMem 0 = .pending ∧
      (((invRounds 2 8).run start cycles).1.lines 0 0).mesi = .i ∧
      ((invRounds 2 8).run start cycles).1.mshr.stateMem 1 = .wait ∧
      (((invRounds 2 8).run start cycles).1.lines 1 0).mesi = .s := by
  have hfirst := invalidation_accounted reachable_cycles first_pending
  have hsecond := invalidation_accounted reachable_cycles second_waits
  exact ⟨hfirst.2.2.2.1, hfirst.2.2.2.2, hsecond.2.2.2.1, hsecond.2.2.2.2⟩

end Piton.L2
