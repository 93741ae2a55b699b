import Piton.L2.Smc

/-! The sharer map cache and the home map cache as tables: which entries hold a tag, which are locked
and what a read returns, over runs of reads, refills and flushes. -/

namespace Piton.L2

open Hw

/-- A cycle without diagnostic accesses in which a refill and a flush do not meet. -/
structure SmcInput.Plain (i : SmcInput) : Prop where
  rdDiagEn : i.rdDiagEn = false
  wrDiagEn : i.wrDiagEn = false
  apart : i.wrEn = true → i.flushEn = false

instance (i : SmcInput) : Decidable i.Plain :=
  decidable_of_iff (_ ∧ _ ∧ _)
    ⟨fun h => ⟨h.1, h.2.1, h.2.2⟩, fun h => ⟨h.rdDiagEn, h.wrDiagEn, h.apart⟩⟩

/-- The flush of a cycle covers the sub-entry of a tag at an offset. -/
def SmcInput.flushes (i : SmcInput) (t : BitVec 14) (o : BitVec 2) : Bool :=
  if i.addrOp = 0 then true
  else if i.addrOp = 1 then t == smcAddrTag i.wrAddrIn && o == smcAddrOffset i.wrAddrIn
  else if i.addrOp = 2 then t.extractLsb' 4 10 == smcAddrSdid i.wrAddrIn
  else false

/-- The sub-entry of the data of a refill at an offset. -/
def SmcInput.subEntry (i : SmcInput) (o : BitVec 2) : BitVec 30 :=
  i.dataIn.extractLsb' (32 * o.toNat) 30

/-- The data of the latest refill of a tag and an offset since they were last flushed, from the
inputs of the past cycles, the latest first. -/
def refilled : List SmcInput → BitVec 14 → BitVec 2 → Option (BitVec 30)
  | [], _, _ => none
  | i :: h, t, o =>
    if i.flushEn then if i.flushes t o then none else refilled h t o
    else if i.wrEn && smcAddrTag i.wrAddrIn == t && (smcValidIn i.dataIn).getLsbD o.toNat then
      some (i.subEntry o)
    else refilled h t o

/-! ### The parts of a step -/

theorem smcEncode_fst (f : Fin 16 → Bool) : (smcEncode f).1 = true ↔ ∃ j, f j = true := by
  have henc := (PriorityEncoder.encodes 3 (packBits 16 f)).nonzeroOut_iff
  change (genPriorityEncoder 3 (packBits 16 f)).nonzeroOut = true ↔ _
  rw [henc]
  constructor
  · rintro ⟨k, hk⟩
    have hlt : k < 16 := BitVec.lt_of_getLsbD hk
    refine ⟨⟨k, hlt⟩, ?_⟩
    rw [← getLsbD_packBits f ⟨k, hlt⟩]
    exact hk
  · rintro ⟨j, hj⟩
    exact ⟨j, (getLsbD_packBits f j).trans hj⟩

theorem smcEncode_snd {f : Fin 16 → Bool} (h : (smcEncode f).1 = true) :
    f (smcEncode f).2 = true := by
  have henc := (PriorityEncoder.encodes 3 (packBits 16 f)).isLeast h
  rw [← getLsbD_packBits f (smcEncode f).2]
  exact henc.1

theorem smcEncode_eq_false {f : Fin 16 → Bool} (h : (smcEncode f).1 = false) (j : Fin 16) :
    f j = false := by
  rw [← Bool.not_eq_true]
  intro hj
  have := (smcEncode_fst f).2 ⟨j, hj⟩
  rw [h] at this
  cases this

namespace Smc

variable {s : Smc} {i : SmcInput} {h : List SmcInput} {j : Fin 16}

/-- A set of sub-entries is not empty exactly if it has a member. -/
theorem exists_subEntry_iff {v : BitVec 4} :
    (∃ o : BitVec 2, v.getLsbD o.toNat = true) ↔ v ≠ 0 := by
  rw [ne_zero_iff_exists_getLsbD]
  constructor
  · rintro ⟨o, ho⟩
    exact ⟨o.toNat, ho⟩
  · rintro ⟨k, hk⟩
    have hlt : k < 2 ^ 2 := BitVec.lt_of_getLsbD hk
    refine ⟨BitVec.ofNat 2 k, ?_⟩
    rw [BitVec.toNat_ofNat, Nat.mod_eq_of_lt hlt]
    exact hk

/-- A valid entry. -/
def Live (s : Smc) (j : Fin 16) : Prop := ∃ o : BitVec 2, (s.dataMem j).valid.getLsbD o.toNat = true

instance : Decidable (s.Live j) :=
  inferInstanceAs (Decidable (∃ _ : BitVec 2, _))

theorem live_iff : s.Live j ↔ (s.dataMem j).valid ≠ 0 := exists_subEntry_iff

theorem smcTagWrCmp_iff : s.smcTagWrCmp i j = true ↔
    (s.dataMem j).tag = smcAddrTag i.wrAddrIn ∧ s.Live j := by
  unfold smcTagWrCmp
  rw [Bool.and_eq_true, beq_iff_eq, bne_iff_ne, live_iff]

/-- The tag that goes out with a read hit is that of the address, and so is a valid sub-entry. -/
theorem of_hit (hplain : i.rdDiagEn = false) (hhit : s.hit i = true) :
    s.tagOut i = smcAddrTag i.rdAddrIn ∧
    (s.validOut i).getLsbD (smcAddrOffset i.rdAddrIn).toNat = true := by
  unfold tagOut validOut
  unfold hit at hhit
  rw [hplain, Bool.and_false, if_neg Bool.false_ne_true, Bool.and_eq_true] at hhit
  have hcmp := smcEncode_snd hhit.2
  unfold hitIndex
  rw [hplain, Bool.and_false, if_neg Bool.false_ne_true, if_pos hhit.1]
  unfold smcTagCmp at hcmp
  rw [Bool.and_eq_true, beq_iff_eq] at hcmp
  exact hcmp

theorem hitIndex_of_readHits (hr : s.readHits i j = true) : s.hitIndex i = j := by
  unfold readHits at hr
  rw [Bool.and_eq_true, beq_iff_eq] at hr
  exact hr.2

/-- The lock of an entry after a cycle without a refill. -/
theorem entryLockedNext_of_not_wrEn (hw : i.wrEn = false) :
    s.entryLockedNext i j = (s.entryLocked j && !s.readHits i j) := by
  unfold entryLockedNext entryLockedAndMask entryLockedOrMask
  rw [hw]
  simp only [Bool.false_and, if_neg Bool.false_ne_true, Bool.or_false]
  cases hr : s.readHits i j with
  | false => simp
  | true =>
    rw [hitIndex_of_readHits hr]
    cases s.entryLocked j <;> rfl

/-- The lock of an entry after a refill. -/
theorem entryLockedNext_of_wrEn (hw : i.wrEn = true) (hd : i.wrDiagEn = false) :
    s.entryLockedNext i j = if s.wrIndex i = j then smcValidIn i.dataIn != 0
      else s.entryLocked j && !s.readHits i j := by
  unfold entryLockedNext entryLockedAndMask entryLockedOrMask
  rw [hw, hd]
  simp only [Bool.not_false, Bool.and_true, Bool.true_and, if_true]
  by_cases hj : s.wrIndex i = j
  · rw [if_pos hj, hj, beq_self_eq_true, Bool.and_true, Bool.and_true]
    cases hv : smcValidIn i.dataIn == 0 with
    | true => simp only [bne, hv, Bool.not_true, Bool.false_and, Bool.and_false, Bool.or_false]
    | false => simp only [bne, hv, Bool.not_false, Bool.or_true]
  · have hne : (s.wrIndex i == j) = false := beq_false_of_ne hj
    rw [if_neg hj, hne, Bool.and_false, Bool.and_false, Bool.or_false, Bool.not_false,
      Bool.true_and]
    cases hr : s.readHits i j with
    | false => simp
    | true =>
      rw [hitIndex_of_readHits hr, bne, hne]
      cases s.entryLocked j <;> rfl

/-- What the invariant says of the entries: a tag is in one valid entry at most, and a valid
sub-entry holds the latest refill. -/
structure Inv (s : Smc) (h : List SmcInput) : Prop where
  unique : ∀ j k, s.Live j → s.Live k → (s.dataMem j).tag = (s.dataMem k).tag → j = k
  current : ∀ j (o : BitVec 2), (s.dataMem j).valid.getLsbD o.toNat = true →
    refilled h (s.dataMem j).tag o = some ((s.dataMem j).dataAt o)

/-- A write and a flush by address compare the tags. -/
theorem compares_of_or (hi : i.wrEn = true ∨ (i.flushEn = true ∧ i.addrOp = 1)) :
    (i.wrEn || (i.flushEn && i.addrOp == 1)) = true := by
  obtain hw | ⟨hf, ha⟩ := hi
  · rw [hw, Bool.true_or]
  · rw [hf, ha]
    simp

/-- A write, or a flush by address, finds the entry of its tag. -/
theorem wrHit_iff (hi : i.wrEn = true ∨ (i.flushEn = true ∧ i.addrOp = 1)) :
    s.wrHit i = true ↔ ∃ j, (s.dataMem j).tag = smcAddrTag i.wrAddrIn ∧ s.Live j := by
  unfold wrHit
  rw [compares_of_or hi, Bool.true_and, smcEncode_fst]
  simp only [smcTagWrCmp_iff]

theorem wrIndex_of_wrHit (hd : i.wrDiagEn = false)
    (hi : i.wrEn = true ∨ (i.flushEn = true ∧ i.addrOp = 1)) (hhit : s.wrHit i = true) :
    (s.dataMem (s.wrIndex i)).tag = smcAddrTag i.wrAddrIn ∧ s.Live (s.wrIndex i) := by
  have hen := compares_of_or hi
  have hany : (i.flushEn || i.wrEn) = true := by
    obtain hw | ⟨hf, -⟩ := hi
    · rw [hw, Bool.or_true]
    · rw [hf, Bool.true_or]
  unfold wrIndex wrHitIndex
  rw [hd, Bool.and_false, if_neg Bool.false_ne_true, hany, hhit, Bool.and_self, if_pos rfl,
    if_pos hen]
  rw [← smcTagWrCmp_iff]
  unfold wrHit at hhit
  rw [hen, Bool.true_and] at hhit
  exact smcEncode_snd hhit

theorem wrIndex_of_not_wrHit (hd : i.wrDiagEn = false) (hhit : s.wrHit i = false) :
    s.wrIndex i = s.replaceIndex := by
  unfold wrIndex
  rw [hd, Bool.and_false, if_neg Bool.false_ne_true, hhit, Bool.and_false,
    if_neg Bool.false_ne_true]

/-! ### Flushes -/

theorem dataMem_of_flush (hf : i.flushEn = true) : (s.step i).dataMem j = s.flushed i j := by
  change s.dataMemNext i j = _
  unfold dataMemNext
  rw [hf, if_pos rfl]

theorem flushed_tag : (s.flushed i j).tag = (s.dataMem j).tag := by
  unfold flushed
  split_ifs <;> rfl

theorem flushed_data : (s.flushed i j).data = (s.dataMem j).data := by
  unfold flushed
  split_ifs <;> rfl

theorem getLsbD_clear (v : BitVec 4) (o o' : BitVec 2) :
    (v &&& ~~~(1#4 <<< o'.toNat)).getLsbD o.toNat = (v.getLsbD o.toNat && !(o == o')) := by
  have hsame : decide (o'.toNat = o.toNat) = (o == o') := by
    rw [Bool.eq_iff_iff, decide_eq_true_iff, beq_iff_eq, ← BitVec.toNat_inj, eq_comm]
  rw [← BitVec.twoPow_eq, BitVec.getLsbD_and, BitVec.getLsbD_not, BitVec.getLsbD_twoPow,
    decide_eq_true o.isLt, decide_eq_true o'.isLt, Bool.true_and, Bool.true_and, hsame]

/-- The entry of a live tag is the one that a flush by address finds. -/
theorem wrHit_and_wrIndex_iff (hinv : Inv s h) (hf : i.flushEn = true) (hd : i.wrDiagEn = false)
    (hop : i.addrOp = 1) (hlive : s.Live j) :
    (s.wrHit i && s.wrIndex i == j) = true ↔ (s.dataMem j).tag = smcAddrTag i.wrAddrIn := by
  rw [Bool.and_eq_true, beq_iff_eq]
  constructor
  · rintro ⟨hhit, rfl⟩
    exact (wrIndex_of_wrHit hd (.inr ⟨hf, hop⟩) hhit).1
  · intro htag
    have hhit := (wrHit_iff (.inr ⟨hf, hop⟩)).2 ⟨j, htag, hlive⟩
    obtain ⟨htag', hlive'⟩ := wrIndex_of_wrHit hd (.inr ⟨hf, hop⟩) hhit
    exact ⟨hhit, hinv.unique _ _ hlive' hlive (htag'.trans htag.symm)⟩

/-- A flush clears exactly the sub-entries that it covers. -/
theorem flushed_valid (hinv : Inv s h) (hf : i.flushEn = true) (hd : i.wrDiagEn = false)
    (o : BitVec 2) : (s.flushed i j).valid.getLsbD o.toNat =
      ((s.dataMem j).valid.getLsbD o.toNat && !i.flushes (s.dataMem j).tag o) := by
  unfold flushed SmcInput.flushes
  by_cases h0 : i.addrOp = 0
  · rw [if_pos h0, if_pos h0]
    simp
  rw [if_neg h0, if_neg h0]
  by_cases h1 : i.addrOp = 1
  · rw [if_pos h1, if_pos h1]
    cases hv : (s.dataMem j).valid.getLsbD o.toNat with
    | false =>
      rw [Bool.false_and]
      split_ifs
      · rw [getLsbD_clear, hv, Bool.false_and]
      · exact hv
    | true =>
      have hsel := wrHit_and_wrIndex_iff hinv hf hd h1 ⟨o, hv⟩
      by_cases htag : (s.dataMem j).tag = smcAddrTag i.wrAddrIn
      · rw [if_pos (hsel.2 htag), getLsbD_clear, hv, htag, beq_self_eq_true, Bool.true_and,
          Bool.true_and, Bool.true_and]
      · rw [if_neg (fun hc => htag (hsel.1 hc)), hv, beq_false_of_ne htag]
        rfl
  rw [if_neg h1, if_neg h1]
  by_cases h2 : i.addrOp = 2
  · rw [if_pos h2, if_pos h2]
    unfold SmcEntry.sdid
    cases hv : (s.dataMem j).valid.getLsbD o.toNat with
    | false =>
      rw [Bool.false_and]
      split_ifs
      · simp
      · exact hv
    | true =>
      have hne : ((s.dataMem j).valid != 0) = true := by
        rw [bne_iff_ne, ← live_iff]
        exact ⟨o, hv⟩
      rw [hne, Bool.and_true, Bool.true_and]
      cases hs : (s.dataMem j).tag.extractLsb' 4 10 == smcAddrSdid i.wrAddrIn with
      | true => simp
      | false => simp [hv]
  · rw [if_neg h2, if_neg h2]
    simp

/-! ### One cycle -/

theorem getLsbD_smcDataIn (d : BitVec 128) {n k : Nat} (hn : n < 4) (hk : k < 30) :
    (smcDataIn d).getLsbD (n * 30 + k) = d.getLsbD (32 * n + k) := by
  unfold smcDataIn
  simp only [BitVec.getLsbD_append, BitVec.getLsbD_extractLsb']
  split_ifs with h0 h1 h2
  · obtain rfl : n = 0 := by omega
    rw [decide_eq_true (by omega), Bool.true_and]
    congr 1
    omega
  · obtain rfl : n = 1 := by omega
    rw [decide_eq_true (by omega), Bool.true_and]
    congr 1
    omega
  · obtain rfl : n = 2 := by omega
    rw [decide_eq_true (by omega), Bool.true_and]
    congr 1
    omega
  · obtain rfl : n = 3 := by omega
    rw [decide_eq_true (by omega), Bool.true_and]
    congr 1
    omega

theorem dataAt_smcDataIn (t : BitVec 14) (v : BitVec 4) (d : BitVec 128) (o : BitVec 2) :
    SmcEntry.dataAt ⟨t, v, smcDataIn d⟩ o = d.extractLsb' (32 * o.toNat) 30 := by
  unfold SmcEntry.dataAt
  apply BitVec.eq_of_getLsbD_eq
  intro k hk
  rw [BitVec.getLsbD_setWidth, BitVec.getLsbD_ushiftRight, BitVec.getLsbD_extractLsb',
    decide_eq_true hk, Bool.true_and, Bool.true_and]
  exact getLsbD_smcDataIn d o.isLt hk

theorem dataMem_of_refill (hf : i.flushEn = false) (hw : i.wrEn = true) (hd : i.wrDiagEn = false) :
    (s.step i).dataMem j = if s.wrIndex i = j then
      ⟨smcAddrTag i.wrAddrIn, smcValidIn i.dataIn, smcDataIn i.dataIn⟩ else s.dataMem j := by
  change s.dataMemNext i j = _
  unfold dataMemNext
  rw [hf, hw, hd, if_neg Bool.false_ne_true, if_pos rfl, if_neg Bool.false_ne_true]

theorem dataMem_of_idle (hf : i.flushEn = false) (hw : i.wrEn = false) :
    (s.step i).dataMem j = s.dataMem j := by
  change s.dataMemNext i j = _
  unfold dataMemNext
  rw [hf, hw, if_neg Bool.false_ne_true, if_neg Bool.false_ne_true]

/-- A refill goes to the entry of its tag when there is one. -/
theorem eq_wrIndex_of_tag (hinv : Inv s h) (hw : i.wrEn = true) (hd : i.wrDiagEn = false)
    (hlive : s.Live j) (htag : (s.dataMem j).tag = smcAddrTag i.wrAddrIn) : s.wrIndex i = j := by
  have hhit := (wrHit_iff (.inl hw)).2 ⟨j, htag, hlive⟩
  obtain ⟨htag', hlive'⟩ := wrIndex_of_wrHit hd (.inl hw) hhit
  exact hinv.unique _ _ hlive' hlive (htag'.trans htag.symm)

theorem Inv.step_flush (hinv : Inv s h) (hf : i.flushEn = true) (hd : i.wrDiagEn = false) :
    Inv (s.step i) (i :: h) := by
  have hlive : ∀ j, (s.step i).Live j → s.Live j := by
    rintro j ⟨o, ho⟩
    rw [dataMem_of_flush hf, flushed_valid hinv hf hd, Bool.and_eq_true] at ho
    exact ⟨o, ho.1⟩
  refine ⟨?_, ?_⟩
  · intro j k hj hk htag
    rw [dataMem_of_flush hf, dataMem_of_flush hf, flushed_tag, flushed_tag] at htag
    exact hinv.unique j k (hlive j hj) (hlive k hk) htag
  · intro j o ho
    rw [dataMem_of_flush hf] at ho ⊢
    rw [flushed_valid hinv hf hd, Bool.and_eq_true, Bool.not_eq_true'] at ho
    have hdata : (s.flushed i j).dataAt o = (s.dataMem j).dataAt o := by
      unfold SmcEntry.dataAt
      rw [flushed_data]
    rw [flushed_tag, hdata, refilled, if_pos hf, ho.2, if_neg Bool.false_ne_true]
    exact hinv.current j o ho.1

theorem Inv.step_refill (hinv : Inv s h) (hf : i.flushEn = false) (hw : i.wrEn = true)
    (hd : i.wrDiagEn = false) : Inv (s.step i) (i :: h) := by
  have hother : ∀ j, s.wrIndex i ≠ j → (s.step i).dataMem j = s.dataMem j := fun j hj => by
    rw [dataMem_of_refill hf hw hd, if_neg hj]
  have hself : (s.step i).dataMem (s.wrIndex i) =
      ⟨smcAddrTag i.wrAddrIn, smcValidIn i.dataIn, smcDataIn i.dataIn⟩ := by
    rw [dataMem_of_refill hf hw hd, if_pos rfl]
  have hlive : ∀ j, s.wrIndex i ≠ j → (s.step i).Live j → s.Live j := by
    rintro j hj ⟨o, ho⟩
    rw [hother j hj] at ho
    exact ⟨o, ho⟩
  have hfresh : ∀ j, s.wrIndex i ≠ j → s.Live j →
      (s.dataMem j).tag ≠ smcAddrTag i.wrAddrIn := by
    intro j hj hlj htag
    exact hj (eq_wrIndex_of_tag hinv hw hd hlj htag)
  refine ⟨?_, ?_⟩
  · intro j k hj hk htag
    by_cases hjw : s.wrIndex i = j <;> by_cases hkw : s.wrIndex i = k
    · exact hjw.symm.trans hkw
    · subst hjw
      rw [hself, hother k hkw] at htag
      exact absurd htag.symm (hfresh k hkw (hlive k hkw hk))
    · subst hkw
      rw [hself, hother j hjw] at htag
      exact absurd htag (hfresh j hjw (hlive j hjw hj))
    · rw [hother j hjw, hother k hkw] at htag
      exact hinv.unique j k (hlive j hjw hj) (hlive k hkw hk) htag
  · intro j o ho
    rw [refilled, hf, if_neg Bool.false_ne_true, hw, Bool.true_and]
    by_cases hjw : s.wrIndex i = j
    · subst hjw
      rw [hself] at ho ⊢
      rw [dataAt_smcDataIn, beq_self_eq_true, Bool.true_and, if_pos ho]
      rfl
    · rw [hother j hjw] at ho ⊢
      rw [beq_false_of_ne (Ne.symm (hfresh j hjw ⟨o, ho⟩)), Bool.false_and,
        if_neg Bool.false_ne_true]
      exact hinv.current j o ho

theorem Inv.step (hinv : Inv s h) (hplain : i.Plain) : Inv (s.step i) (i :: h) := by
  cases hf : i.flushEn with
  | true => exact hinv.step_flush hf hplain.wrDiagEn
  | false =>
    cases hw : i.wrEn with
    | true => exact hinv.step_refill hf hw hplain.wrDiagEn
    | false =>
      have hmem : (s.step i).dataMem = s.dataMem := funext fun j => dataMem_of_idle hf hw
      refine ⟨?_, ?_⟩
      · intro j k hj hk htag
        unfold Live at hj hk
        rw [hmem] at hj hk htag
        exact hinv.unique j k hj hk htag
      · intro j o ho
        rw [hmem] at ho ⊢
        rw [refilled, hf, hw, if_neg Bool.false_ne_true, Bool.false_and, Bool.false_and,
          if_neg Bool.false_ne_true]
        exact hinv.current j o ho

theorem inv_reset : Inv reset [] where
  unique j k hj := by
    obtain ⟨o, ho⟩ := hj
    simp [reset] at ho
  current j o ho := by simp [reset] at ho

/-! ### Runs -/

/-- The cache with the inputs of the past cycles, the latest first. -/
def traced : Machine (Smc × List SmcInput) SmcInput :=
  machine.withHistory [] fun h _ i => i :: h

/-- What a cycle has to do: a read hit returns the latest refill, a refill of a new tag leaves the
locked entries alone while there are others, and afterwards a tag is in one valid entry at most and
a locked entry is valid. -/
structure TableOk (s : Smc) (h : List SmcInput) (i : SmcInput) : Prop where
  hit : s.hit i = true →
    refilled h (smcAddrTag i.rdAddrIn) (smcAddrOffset i.rdAddrIn) = some (s.dataOut i)
  refill : i.wrEn = true → (∀ j, s.Live j → (s.dataMem j).tag ≠ smcAddrTag i.wrAddrIn) →
    s.entryLocked (s.wrIndex i) = true → ∀ j, s.entryLocked j = true
  unique : ∀ j k, (s.step i).Live j → (s.step i).Live k →
    ((s.step i).dataMem j).tag = ((s.step i).dataMem k).tag → j = k
  locked : ∀ j, (s.step i).entryLocked j = true → (s.step i).Live j

/-- A flush leaves a valid sub-entry in every locked entry that is not read in its cycle, and a
refill of a new tag that finds no entry that is neither used nor locked does not find entry 0 locked,
unless all are. -/
structure Spares (s : Smc) (i : SmcInput) : Prop where
  flush : i.flushEn = true → ∀ j, s.entryLocked j = true → s.readHits i j = false →
    ∃ o : BitVec 2, (s.dataMem j).valid.getLsbD o.toNat = true ∧
      i.flushes (s.dataMem j).tag o = false
  refill : i.wrEn = true → (∀ j, s.Live j → (s.dataMem j).tag ≠ smcAddrTag i.wrAddrIn) →
    (∃ j, s.entryUsed j = false ∧ s.entryLocked j = false) ∨ s.entryLocked 0 = false ∨
      ∀ j, s.entryLocked j = true

instance : Decidable (s.Spares i) :=
  decidable_of_iff (_ ∧ _) ⟨fun h => ⟨h.1, h.2⟩, fun h => ⟨h.flush, h.refill⟩⟩

/-- A locked entry is valid. -/
def LockedLive (s : Smc) : Prop := ∀ j, s.entryLocked j = true → s.Live j

theorem replaceCmp_iff : s.replaceCmp j = true ↔
    s.entryUsed j = false ∧ s.entryLocked j = false := by
  unfold replaceCmp
  rw [Bool.and_eq_true, Bool.not_eq_true', Bool.not_eq_true']

/-- The entry of a new tag is locked exactly when there is no better one and entry 0 is. -/
theorem entryLocked_wrIndex_iff (hw : i.wrEn = true) (hd : i.wrDiagEn = false)
    (hnew : ∀ j, s.Live j → (s.dataMem j).tag ≠ smcAddrTag i.wrAddrIn) :
    s.entryLocked (s.wrIndex i) = true ↔
      (¬∃ j, s.entryUsed j = false ∧ s.entryLocked j = false) ∧ s.entryLocked 0 = true := by
  have hmiss : s.wrHit i = false := by
    rw [← Bool.not_eq_true, wrHit_iff (.inl hw)]
    rintro ⟨j, htag, hlive⟩
    exact hnew j hlive htag
  rw [wrIndex_of_not_wrHit hd hmiss]
  unfold replaceIndex
  cases hfind : (smcEncode s.replaceCmp).1 with
  | true =>
    have hfree := replaceCmp_iff.1 (smcEncode_snd hfind)
    rw [if_pos rfl, hfree.2]
    constructor
    · intro hc
      cases hc
    · intro hc
      exact absurd ⟨_, hfree⟩ hc.1
  | false =>
    rw [if_neg Bool.false_ne_true]
    constructor
    · intro h0
      refine ⟨?_, h0⟩
      rintro ⟨j, hj⟩
      have hcmp := smcEncode_eq_false hfind j
      rw [replaceCmp_iff.2 hj] at hcmp
      cases hcmp
    · intro hc
      exact hc.2

theorem step_lockedLive (hinv : Inv s h) (hlock : s.LockedLive) (hplain : i.Plain)
    (hspares : s.Spares i) : (s.step i).LockedLive := by
  intro j hj
  change s.entryLockedNext i j = true at hj
  cases hw : i.wrEn with
  | true =>
    have hf := hplain.apart hw
    unfold Live
    rw [entryLockedNext_of_wrEn hw hplain.wrDiagEn] at hj
    rw [dataMem_of_refill hf hw hplain.wrDiagEn]
    by_cases hjw : s.wrIndex i = j
    · rw [if_pos hjw] at hj ⊢
      exact exists_subEntry_iff.2 (bne_iff_ne.1 hj)
    · rw [if_neg hjw, Bool.and_eq_true] at hj
      rw [if_neg hjw]
      exact hlock j hj.1
  | false =>
    rw [entryLockedNext_of_not_wrEn hw, Bool.and_eq_true, Bool.not_eq_true'] at hj
    cases hf : i.flushEn with
    | true =>
      obtain ⟨o, ho, hno⟩ := hspares.flush hf j hj.1 hj.2
      refine ⟨o, ?_⟩
      rw [dataMem_of_flush hf, flushed_valid hinv hf hplain.wrDiagEn, ho, hno]
      rfl
    | false =>
      unfold Live
      rw [dataMem_of_idle hf hw]
      exact hlock j hj.1

/-- From a state that is in order, a cycle does what it has to do exactly when it spares the locked
entries. -/
theorem tableOk_iff (hinv : Inv s h) (hlock : s.LockedLive) (hplain : i.Plain) :
    s.TableOk h i ↔ s.Spares i := by
  constructor
  · intro hok
    refine ⟨?_, ?_⟩
    · intro hf j hj hread
      have hw : i.wrEn = false := by
        rw [← Bool.not_eq_true]
        intro hw
        have := hplain.apart hw
        rw [hf] at this
        cases this
      have hnext : (s.step i).entryLocked j = true := by
        change s.entryLockedNext i j = true
        rw [entryLockedNext_of_not_wrEn hw, hj, hread]
        rfl
      obtain ⟨o, ho⟩ := hok.locked j hnext
      rw [dataMem_of_flush hf, flushed_valid hinv hf hplain.wrDiagEn, Bool.and_eq_true,
        Bool.not_eq_true'] at ho
      exact ⟨o, ho⟩
    · intro hw hnew
      have hiff := entryLocked_wrIndex_iff hw hplain.wrDiagEn hnew
      by_cases hfree : ∃ j, s.entryUsed j = false ∧ s.entryLocked j = false
      · exact .inl hfree
      · cases h0 : s.entryLocked 0 with
        | false => exact .inr (.inl rfl)
        | true => exact .inr (.inr (hok.refill hw hnew (hiff.2 ⟨hfree, h0⟩)))
  · intro hspares
    have hnext := hinv.step hplain
    refine ⟨?_, ?_, hnext.unique, step_lockedLive hinv hlock hplain hspares⟩
    · intro hhit
      obtain ⟨htag, hvalid⟩ := of_hit hplain.rdDiagEn hhit
      rw [← htag]
      exact hinv.current _ _ hvalid
    · intro hw hnew hlocked
      obtain ⟨hno, h0⟩ := (entryLocked_wrIndex_iff hw hplain.wrDiagEn hnew).1 hlocked
      obtain hfree | h0' | hall := hspares.refill hw hnew
      · exact absurd hfree hno
      · rw [h0] at h0'
        cases h0'
      · exact hall

theorem runOk_iff {is : List SmcInput} (hinv : Inv s h) (hlock : s.LockedLive)
    (hplain : ∀ i ∈ is, i.Plain) :
    traced.RunOk (fun z i => z.1.TableOk z.2 i) (s, h) is ↔
      traced.RunOk (fun z i => z.1.Spares i) (s, h) is := by
  induction is generalizing s h with
  | nil => exact Iff.rfl
  | cons i is ih =>
    have hi := hplain i List.mem_cons_self
    have hiff := tableOk_iff hinv hlock hi
    have hrest : s.Spares i → _ := fun hspares =>
      ih (hinv.step hi) (step_lockedLive hinv hlock hi hspares)
        fun j hj => hplain j (List.mem_cons_of_mem i hj)
    constructor
    · rintro ⟨hok, hrun⟩
      exact ⟨hiff.1 hok, (hrest (hiff.1 hok)).1 hrun⟩
    · rintro ⟨hspares, hrun⟩
      exact ⟨hiff.2 hspares, (hrest hspares).2 hrun⟩

end Smc

/-- From reset, every cycle of a run does what it has to do exactly when every cycle spares the
locked entries. -/
theorem smc_tableOk_iff (is : List SmcInput) (hplain : ∀ i ∈ is, i.Plain) :
    Smc.traced.RunOk (fun z i => z.1.TableOk z.2 i) (Smc.reset, []) is ↔
      Smc.traced.RunOk (fun z i => z.1.Spares i) (Smc.reset, []) is :=
  Smc.runOk_iff Smc.inv_reset (fun j hj => by simp [Smc.reset] at hj) hplain

/-- A refill with one valid sub-entry, and a flush of everything. -/
def smcRefill (a : BitVec 16) : SmcInput :=
  ⟨false, true, false, false, false, 0, 0, a, 1#128 <<< 31⟩

/-- A flush of all entries. -/
def smcFlushAll : SmcInput := ⟨false, false, false, false, true, 0, 0, 0, 0⟩

/-- A read. -/
def smcRead (a : BitVec 16) : SmcInput := ⟨true, false, false, false, false, 0, a, 0, 0⟩

/-- A flush of one sub-entry. -/
def smcFlushAddr (a : BitVec 16) : SmcInput := ⟨false, false, false, false, true, 1, 0, a, 0⟩

/-- Refills of three tags, of which the first is refilled again behind a flush of its sub-entry; the
reads take the locks before everything is flushed. -/
def smcRun : List SmcInput :=
  [smcRefill 0x0, smcRefill 0x4, smcRead 0x0, smcRefill 0x48, smcFlushAddr 0x0, smcRead 0x0,
    smcRead 0x4, smcRefill 0x0, smcRead 0x0, smcRead 0x48, smcFlushAll, smcRead 0x48, smcRefill 0x4]

theorem smc_tableOk_refills :
    Smc.traced.RunOk (fun z i => z.1.TableOk z.2 i) (Smc.reset, []) smcRun :=
  (smc_tableOk_iff smcRun (by decide)).2 (by decide +kernel)

/-- A flush of everything leaves the lock of a refilled entry behind. -/
theorem not_smc_tableOk : ¬∀ is : List SmcInput, (∀ i ∈ is, i.Plain) →
    Smc.traced.RunOk (fun z i => z.1.TableOk z.2 i) (Smc.reset, []) is := by
  intro hall
  have hrun := hall [smcRefill 0, smcFlushAll] (by decide)
  have hlocked : ((Smc.reset.step (smcRefill 0)).step smcFlushAll).entryLocked 0 = true := by
    decide
  obtain ⟨o, ho⟩ := hrun.2.1.locked 0 hlocked
  revert ho
  change ¬(Smc.dataMem _ 0).valid.getLsbD o.toNat = true
  rw [Smc.dataMem_of_flush rfl]
  simp [Smc.flushed, smcFlushAll]

end Piton.L2
