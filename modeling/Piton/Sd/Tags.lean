import Piton.Sd.CacheManager

/-! The tags of the SD block cache in every state that the manager reaches: no block twice, and ranks
in the order of the last writes. -/

namespace Piton.Sd

open Hw

variable {w m t : Nat} {f : BitVec 24}

/-- The entries of each index that were written, the last one first. -/
abbrev Writes (w m : Nat) := BitVec m → List (BitVec w)

/-- A write of an index puts its entry first. -/
def Writes.update (g : Writes w m) (s : CacheManager w m t) (_ : CacheInput m t) : Writes w m :=
  fun k => if s.indexWe k then upperBits s.updateEntry :: g k else g k

/-- The manager with its writes. -/
def recorded (w m t : Nat) (flushWaitTime : BitVec 24) :
    Machine (CacheManager w m t × Writes w m) (CacheInput m t) :=
  (manager w m t flushWaitTime).withHistory (fun _ => []) Writes.update

namespace CacheManager

section Phases

variable (s : CacheManager w m t)

/-- The looked-up entry is in use. -/
def accessing : Bool :=
  match s.state with
  | .writebackIssue | .writebackWait | .fillIssue | .fillWait | .update => true
  | _ => false

/-- The queried entry is in use. -/
def flushing : Bool :=
  match s.state with
  | .flushIssue | .flushWait | .flushUpdate => true
  | _ => false

end Phases

section Steps

variable {s : CacheManager w m t} {i : CacheInput m t}

/-- The entry in use was looked up or in use before, and nothing was written since. -/
theorem accessing_of_next (h : (s.next i f).accessing = true) :
    s.cacheWe = false ∧ s.accepting = false := by
  simp only [accessing, next, stateNext] at h
  cases hs : s.state with
  | update => simp [hs] at h
  | _ =>
    simp only [hs, cacheWe, accepting] at h ⊢
    split_ifs at h <;> simp at h ⊢

/-- A flush starts with a dirty entry. -/
theorem flushing_of_next (h : (s.next i f).flushing = true) :
    (s.state = .flushScan ∧ s.cacheDirtyQuery = true) ∨
      (s.flushing = true ∧ s.state ≠ .flushUpdate) := by
  simp only [flushing, next, stateNext] at h
  cases hs : s.state with
  | update => simp [hs] at h
  | _ =>
    simp only [hs, flushing] at h ⊢
    split_ifs at h <;> simp_all

theorem index_next (h : s.cacheWe = false) : (s.next i f).index = s.index := by
  funext k
  simp [next, nextIndex, indexWe, h]

theorem coreCacheAddr_next (h : s.accepting = false) :
    (s.next i f).coreCacheAddr = s.coreCacheAddr := by
  simp [next, h]

end Steps

end CacheManager

/-! ### The invariant -/

/-- Once an access is over its block stays in the cache. -/
structure TagInv (y : CacheManager w m t × Writes w m) : Prop where
  ok : ∀ k, (y.1.index k).Ok (y.2 k)
  lkp : y.1.accessing = true → ∀ k, y.1.entryLkpIndexed k = (y.1.index k).entryLkp y.1.tagLkp
  query_valid : y.1.flushing = true →
    (y.1.index (indexBits y.1.cacheEntryQuery)).cacheValid (upperBits y.1.cacheEntryQuery) = true
  query_addr : y.1.flushing = true → y.1.cacheAddrQuery =
    (y.1.index (indexBits y.1.cacheEntryQuery)).cachedAddr (upperBits y.1.cacheEntryQuery) ++
      indexBits y.1.cacheEntryQuery
  hit : (∀ k e, (y.1.index k).cacheValid e = false) ∨ y.1.state = .lookup ∨
    y.1.accessing = true ∨ y.1.cacheHitLkp = true

namespace TagInv

open CacheManager

variable {y : CacheManager w m t × Writes w m} {i : CacheInput m t} {k : BitVec m} {e : BitVec w}

/-- The entry written is the only one that may hold the tag. -/
theorem eq_updateEntry (h : TagInv y) (hk : y.1.indexWe k = true)
    (hv : (y.1.index k).cacheValid e = true) (ha : (y.1.index k).cachedAddr e = y.1.updateAddr) :
    e = upperBits y.1.updateEntry := by
  simp only [indexWe, Bool.and_eq_true, decide_eq_true_iff] at hk
  obtain ⟨hwe, rfl⟩ := hk
  by_cases hsel : y.1.cacheUpdateSel = true
  · -- a flush writes its entry's own tag
    have hfl : y.1.flushing = true := by
      simp only [cacheUpdateSel, decide_eq_true_iff] at hsel
      simp [flushing, hsel]
    simp only [updateEntry, updateAddr, if_pos hsel] at hv ha ⊢
    rw [h.query_addr hfl, upperBits_append] at ha
    exact (h.ok _).distinct _ _ hv (h.query_valid hfl) ha
  · have hacc : y.1.accessing = true := by
      cases hs : y.1.state <;> simp [cacheWe, cacheUpdateSel, accessing, hs] at hwe hsel ⊢
    simp only [updateEntry, updateAddr, if_neg hsel, cacheEntryLkp, indexBits_append,
      upperBits_append] at hv ha ⊢
    rw [h.lkp hacc]
    exact (h.ok _).eq_entryLkp hv ha

theorem ok_step (h : TagInv y) (k : BitVec m) :
    (y.1.nextIndex k).Ok (y.2.update y.1 i k) := by
  rw [nextIndex, Writes.update]
  split
  next hk => exact (h.ok k).write fun e hv ha => h.eq_updateEntry hk hv ha
  next => exact h.ok k

/-- Without an update of the looked-up entry the valid entries and their tags stay. -/
theorem nextIndex_eq (h : TagInv y) (hs : y.1.state ≠ .update) :
    (y.1.nextIndex k).cacheValid = (y.1.index k).cacheValid ∧
      (y.1.nextIndex k).cachedAddr = (y.1.index k).cachedAddr := by
  rw [nextIndex]
  split
  next hk =>
    simp only [indexWe, Bool.and_eq_true, decide_eq_true_iff] at hk
    obtain ⟨hwe, rfl⟩ := hk
    have hst : y.1.state = .flushUpdate := by
      cases hst : y.1.state <;> simp [cacheWe, hst] at hwe hs ⊢
    have hsel : y.1.cacheUpdateSel = true := by simp [cacheUpdateSel, hst]
    have hfl : y.1.flushing = true := by simp [flushing, hst]
    have hv := h.query_valid hfl
    have ha := h.query_addr hfl
    simp only [updateEntry, updateAddr, if_pos hsel, ha, upperBits_append]
    constructor <;> funext e <;> by_cases he : e = upperBits y.1.cacheEntryQuery <;>
      simp [CacheTag.write, he, hv]
  next => exact ⟨rfl, rfl⟩

theorem cacheHitLkp_eq (h : TagInv y) (hs : y.1.state ≠ .update) (ha : y.1.accepting = false ∨
    y.1.lockReq i = false) : (y.1.next i f).cacheHitLkp = y.1.cacheHitLkp := by
  have haddr : (y.1.next i f).coreCacheAddr = y.1.coreCacheAddr := by
    obtain ha | ha := ha <;> simp [next, ha]
  have hk := h.nextIndex_eq (k := y.1.indexLkp) hs
  simp only [cacheHitLkp, indexLkp, tagLkp, haddr] at hk ⊢
  exact CacheTag.hitLkp_congr hk.1 hk.2

/-- An update puts the block of the access into the cache. -/
theorem hit_of_update (hs : y.1.state = .update) :
    (y.1.next i f).cacheHitLkp = true := by
  have haddr : (y.1.next i f).coreCacheAddr = y.1.coreCacheAddr :=
    coreCacheAddr_next (by simp [accepting, hs])
  rw [cacheHitLkp, indexLkp, tagLkp, haddr]
  refine CacheTag.hitLkp_iff.2 ⟨upperBits y.1.updateEntry, ?_⟩
  simp [next, nextIndex, indexWe, cacheWe, hs, updateEntry, updateAddr, cacheUpdateSel,
    cacheEntryLkp, indexLkp, tagLkp, CacheTag.write]

theorem hit_step (h : TagInv y) : (∀ k e, ((y.1.next i f).index k).cacheValid e = false) ∨
    (y.1.next i f).state = .lookup ∨ (y.1.next i f).accessing = true ∨
      (y.1.next i f).cacheHitLkp = true := by
  by_cases hu : y.1.state = .update
  · exact .inr (.inr (.inr (hit_of_update hu)))
  by_cases hlock : y.1.accepting = false ∨ y.1.lockReq i = false
  · obtain hinv | hlkp | hacc | hhit := h.hit
    · refine .inl fun k e => ?_
      have := (h.nextIndex_eq (k := k) hu).1
      simp only [next, this, hinv]
    · refine .inr (.inr (.inl ?_))
      simp only [accessing, next, stateNext, hlkp]
      split_ifs <;> rfl
    · refine .inr (.inr (.inl ?_))
      simp only [accessing, next, stateNext] at hacc ⊢
      cases hs : y.1.state <;> simp [hs] at hacc hu ⊢ <;> split_ifs <;> rfl
    · exact .inr (.inr (.inr (by rw [h.cacheHitLkp_eq hu hlock, hhit])))
  · rw [not_or, Bool.not_eq_false, Bool.not_eq_false] at hlock
    refine .inr (.inl ?_)
    simp only [accepting, Bool.or_eq_true, decide_eq_true_iff] at hlock
    obtain ⟨hs | hs, hl⟩ := hlock <;> simp [next, stateNext, hs, hl]

/-- The query registers hold a valid entry and its block while it is flushed. -/
theorem query_step (h : TagInv y) (hfl : (y.1.next i f).flushing = true) :
    ((y.1.next i f).index (indexBits (y.1.next i f).cacheEntryQuery)).cacheValid
        (upperBits (y.1.next i f).cacheEntryQuery) = true ∧
      (y.1.next i f).cacheAddrQuery =
        ((y.1.next i f).index
            (indexBits (y.1.next i f).cacheEntryQuery)).cachedAddr
          (upperBits (y.1.next i f).cacheEntryQuery) ++
        indexBits (y.1.next i f).cacheEntryQuery := by
  obtain ⟨hs, hd⟩ | ⟨hf, hs⟩ := flushing_of_next hfl
  · rw [index_next (by simp [cacheWe, hs])]
    simp only [cacheDirtyQuery, CacheTag.dirtyQuery, Bool.and_eq_true] at hd
    simp only [next, if_pos hs]
    exact ⟨hd.1, rfl⟩
  · have hns : y.1.state ≠ .flushScan := by
      intro hn
      simp [flushing, hn] at hf
    have hwe : y.1.cacheWe = false := by
      cases hst : y.1.state <;> simp [flushing, cacheWe, hst] at hf hs ⊢
    rw [index_next hwe]
    simp only [next, if_neg hns]
    exact ⟨h.query_valid hf, h.query_addr hf⟩

theorem step (h : TagInv y) : TagInv ((recorded w m t f).step y i) where
  ok k := h.ok_step (i := i) k
  lkp hacc k := by
    obtain ⟨hwe, haccept⟩ := accessing_of_next hacc
    have hidx : (y.1.next i f).index = y.1.index := index_next hwe
    have haddr : (y.1.next i f).coreCacheAddr = y.1.coreCacheAddr :=
      coreCacheAddr_next haccept
    change (y.1.index k).entryLkp y.1.tagLkp = ((y.1.next i f).index k).entryLkp _
    rw [hidx, tagLkp, tagLkp]
    exact congrArg _ (congrArg upperBits haddr.symm)
  query_valid hfl := (h.query_step hfl).1
  query_addr hfl := (h.query_step hfl).2
  hit := h.hit_step

theorem init {s : CacheManager w m t} (h : (manager w m t f).init s) :
    TagInv (s, fun _ => []) := by
  obtain ⟨addrLkp, entryLkp, rfl⟩ := h
  exact
    { ok := fun _ => .init
      lkp := fun h => by cases h
      query_valid := fun h => by cases h
      query_addr := fun h => by cases h
      hit := .inl fun _ _ => rfl }

theorem of_reachable {ok : CacheManager w m t × Writes w m → CacheInput m t → Prop}
    (h : (recorded w m t f).Reachable ok y) : TagInv y := by
  refine h.invariant ?_ fun s i hs _ => hs.step
  rintro ⟨s, g⟩ ⟨hs, rfl⟩
  exact init hs

end TagInv

/-! ### Tags in order -/

/-- No block is held twice; the ranks of the valid entries are distinct and above those of the
others, and with all entries valid a permutation; and then a miss takes the entry that was written
the longest time ago. -/
structure TagsOrdered (s : CacheTag w t) (writes : List (BitVec w)) : Prop where
  distinct : ∀ e e', s.cacheValid e = true → s.cacheValid e' = true →
    s.cachedAddr e = s.cachedAddr e' → e = e'
  ranks_distinct : ∀ e e', s.cacheValid e = true → s.cacheValid e' = true →
    s.cacheLru e = s.cacheLru e' → e = e'
  ranks_above : ∀ e e', s.cacheValid e = true → s.cacheValid e' = false →
    s.cacheLru e' < s.cacheLru e
  full : (∀ e, s.cacheValid e = true) →
    Function.Bijective s.cacheLru ∧ ∃! e, s.cacheLru e = 0
  oldest : (∀ e, s.cacheValid e = true) → ∀ addr, s.hitLkp addr = false →
    s.entryLkp addr ∈ writes ∧
      ∀ e, e ≠ s.entryLkp addr → writes.idxOf e < writes.idxOf (s.entryLkp addr)

/-- The tags of every index stay in order. -/
theorem tags_ordered {y : CacheManager w m t × Writes w m}
    (h : (recorded w m t f).Reachable (fun _ _ => True) y) (k : BitVec m) :
    TagsOrdered (y.1.index k) (y.2 k) := by
  have hok := (TagInv.of_reachable h).ok k
  exact
    { distinct := hok.distinct
      ranks_distinct := fun e e' => hok.lru_injective
      ranks_above := fun e e' => hok.lru_lt
      full := fun hfull => by
        have hb := hok.lru_bijective hfull
        exact ⟨hb, hb.existsUnique 0⟩
      oldest := fun hfull addr hmiss =>
        ⟨(hok.valid_iff _).1 (hfull _), fun e he => hok.oldest_of_miss hfull hmiss he⟩ }

/-! A run that loads two blocks into an index of two entries and stores to the first again. -/

namespace TwoBlocks

/-- The cycles of one access. -/
def access (we : Bool) (addr : BitVec 3) : List (CacheInput 1 2) :=
  let wait : CacheInput 1 2 := ⟨true, false, we, addr, true, true, true⟩
  let release : CacheInput 1 2 := ⟨false, true, we, addr, true, true, true⟩
  [wait, wait, wait, wait, wait, release]

/-- Loads of two blocks of one index, then a store to the first. -/
def inputs : List (CacheInput 1 2) := access false 0 ++ access false 2 ++ access true 0

/-- A manager of two indexes with two entries, after `reset`, for the run below. -/
def start : CacheManager 1 1 2 × Writes 1 1 := (.init (fun _ => 0) (fun _ => 0), fun _ => [])

theorem init_start : (recorded 1 1 2 7).init start := ⟨⟨_, _, rfl⟩, rfl⟩

end TwoBlocks

/-- After it a miss takes the entry of the second block. -/
theorem tags_ordered_twoBlocks :
    TagsOrdered (((recorded 1 1 2 7).run TwoBlocks.start TwoBlocks.inputs).1.index 0)
        (((recorded 1 1 2 7).run TwoBlocks.start TwoBlocks.inputs).2 0) ∧
      (((recorded 1 1 2 7).run TwoBlocks.start TwoBlocks.inputs).1.index 0).entryLkp 3 = 0 :=
  ⟨tags_ordered (Machine.Reachable.run (.init TwoBlocks.init_start)
    (Machine.runOk_of_mem (p := fun _ => True) (fun _ _ => trivial) _)) 0, by decide +kernel⟩

end Piton.Sd
