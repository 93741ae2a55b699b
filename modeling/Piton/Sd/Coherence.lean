import Piton.Lib.WriteBack
import Piton.Sd.Access
import Piton.Sd.Memory

/-! The cache manager keeps the block buffer and the card in step with a flat memory, over failed
transactions, as long as loads do not hit dirty blocks that differ from the card. -/

namespace Piton.Sd

open Hw CacheManager

variable {w m t : Nat} {f : BitVec 24}

namespace CacheManager

/-- The manager with the blocks of its entries and those of the card. -/
def back (s : CacheManager w m t) (buf : BitVec (w + m) → Block) (disk : BitVec (t + m) → Block) :
    WriteBack (BitVec (w + m)) (BitVec (t + m)) Block where
  holds := s.Holds
  dirty e := s.entryDirty e = true
  buf := buf
  disk := disk

end CacheManager

/-- The cache stands for the memory. -/
structure Synced (on : BitVec (t + m) → Prop) (s : CacheManager w m t)
    (buf : BitVec (w + m) → Block) (disk mem : BitVec (t + m) → Block) : Prop where
  coherent : (WriteBack.Coherent on (s.back buf disk) mem)
  onCard : ∀ e, s.entryValid e = true → on (s.entryBlock e)
  request : s.lockPhase ≠ .free → on s.coreCacheAddr
  fetched : s.state = .update → buf s.cacheEntryLkp = mem s.coreCacheAddr
  flushed : s.state = .flushUpdate → disk s.cacheAddrQuery = mem s.cacheAddrQuery

/-- What a cycle does to the blocks: the controller writes the looked-up entry under the lock, and
transactions change their destination, which is a copy of the source once they are over. -/
structure Moves (on : BitVec (t + m) → Prop) (s : CacheManager w m t) (i : CacheInput m t)
    (o : Overlay (BitVec 9) (BitVec 8)) (buf buf' : BitVec (w + m) → Block)
    (disk disk' mem mem' : BitVec (t + m) → Block) : Prop where
  others : ∀ e, e ≠ s.cacheEntryLkp → buf' e = buf e
  write : s.state ≠ .fillWait → buf' s.cacheEntryLkp = o.onto (buf s.cacheEntryLkp)
  fill : s.state = .fillWait → s.tmCacheGo i = true → i.tmCacheOk = true →
    buf' s.cacheEntryLkp = disk s.coreCacheAddr
  disk : ∀ b, on b → (s.state = .writebackWait → b ≠ s.cacheAddrLkp) →
    (s.state = .flushWait → b ≠ s.cacheAddrQuery) → disk' b = disk b
  writeback : s.state = .writebackWait → s.tmCacheGo i = true → i.tmCacheOk = true →
    disk' s.cacheAddrLkp = buf s.cacheEntryLkp
  flush : s.state = .flushWait → s.tmCacheGo i = true → i.tmCacheOk = true →
    disk' s.cacheAddrQuery = buf s.cacheEntryQuery
  locked : o ≠ .empty → s.cacheCoreRdy = true ∧ s.coreCacheWe = true
  mem : mem' = Function.update mem s.coreCacheAddr (o.onto (mem s.coreCacheAddr))

section Steps

variable {on : BitVec (t + m) → Prop} {s : CacheManager w m t} {i : CacheInput m t}
  {o : Overlay (BitVec 9) (BitVec 8)} {buf buf' : BitVec (w + m) → Block}
  {disk disk' mem mem' : BitVec (t + m) → Block} {g : Writes w m}

namespace Moves

/-- Nothing is written while the manager is not ready. -/
theorem eq_empty (h : Moves on s i o buf buf' disk disk' mem mem')
    (hr : s.cacheCoreRdy = false) : o = .empty :=
  Classical.byContradiction fun hne => by
    rw [(h.locked hne).1] at hr
    cases hr

theorem mem_eq (h : Moves on s i o buf buf' disk disk' mem mem')
    (hr : s.cacheCoreRdy = false) : mem' = mem := by
  rw [h.mem, h.eq_empty hr, Overlay.onto_empty, Function.update_eq_self]

theorem buf_eq (h : Moves on s i o buf buf' disk disk' mem mem')
    (hr : s.cacheCoreRdy = false) (hs : s.state ≠ .fillWait) : buf' = buf := by
  funext e
  by_cases he : e = s.cacheEntryLkp
  · rw [he, h.write hs, h.eq_empty hr, Overlay.onto_empty]
  · exact h.others e he

end Moves

namespace Synced

theorem on_of_holds (h : Synced on s buf disk mem) (e : BitVec (w + m)) (b : BitVec (t + m))
    (hb : s.Holds e b) : on b := hb.2.1 ▸ h.onCard e hb.1

/-- Entries whose tags stay hold what they held. -/
theorem holds_congr {s' : CacheManager w m t} (hv : ∀ e, s'.entryValid e = s.entryValid e)
    (hb : ∀ e, s'.entryBlock e = s.entryBlock e)
    (hr : ∀ e, (s'.refilling = true ∧ e = s'.cacheEntryLkp) ↔
      (s.refilling = true ∧ e = s.cacheEntryLkp)) (e : BitVec (w + m)) (b : BitVec (t + m)) :
    s'.Holds e b ↔ s.Holds e b := by
  rw [Holds, Holds, hv, hb, hr]

/-- A cycle in which no block moves and no tag is written. -/
theorem coherent_quiet (h : Synced on s buf disk mem)
    (hm : Moves on s i o buf buf' disk disk' mem mem') (hwe : s.cacheWe = false)
    (hrdy : s.cacheCoreRdy = false) (hw : s.state ≠ .writebackWait) (hf : s.state ≠ .fillWait)
    (hq : s.state ≠ .flushWait)
    (hr : ∀ e, ((s.next i f).refilling = true ∧ e = (s.next i f).cacheEntryLkp) ↔
      (s.refilling = true ∧ e = s.cacheEntryLkp)) :
    WriteBack.Coherent on ((s.next i f).back buf' disk') mem' := by
  have hidx : (s.next i f).index = s.index := index_next hwe
  rw [hm.mem_eq hrdy, hm.buf_eq hrdy hf]
  refine h.coherent.congr (holds_congr (fun e => ?_) (fun e => ?_) hr) (fun e => ?_)
    (fun _ => rfl) (fun b hb => hm.disk b hb (fun hs => absurd hs hw) fun hs => absurd hs hq)
    h.on_of_holds
  · rw [entryValid, entryValid, hidx]
  · rw [entryBlock, entryBlock, hidx]
  · change (s.next i f).entryDirty e = true ↔ s.entryDirty e = true
    rw [entryDirty, entryDirty, hidx]

/-- The looked-up entry is given up, or still is, while another block is fetched into it. -/
theorem coherent_evict (h : Synced on s buf disk mem) (htag : TagInv (s, g))
    (hm : Moves on s i o buf buf' disk disk' mem mem') (hwe : s.cacheWe = false)
    (hacc : s.accepting = false) (hrdy : s.cacheCoreRdy = false)
    (hr : (s.next i f).refilling = true)
    (hsame : s.refilling = true → s.cacheEntryLkp = s.lkp)
    (hbuf : ∀ e, e ≠ s.lkp → buf' e = buf e)
    (hback : ∀ b, s.Holds s.lkp b → disk' b = mem b)
    (hdisk : ∀ b, on b → ¬ s.Holds s.lkp b → disk' b = disk b) :
    WriteBack.Coherent on ((s.next i f).back buf' disk') mem' := by
  obtain ⟨hidx, -, hentry, -, -, -⟩ := next_quiet_lkp (i := i) (f := f) hwe hacc
  rw [hm.mem_eq hrdy]
  refine h.coherent.evict (e := s.lkp) ⟨fun e he b => ?_, fun e _ => ?_, hbuf⟩ h.on_of_holds
    (fun b hb => hb.2.2 ⟨hr, hentry.symm⟩) hback hdisk fun e b hb hb' => hb'.unique htag hb
  · change (s.next i f).Holds e b ↔ s.Holds e b
    rw [Holds, Holds, entryValid, entryValid, entryBlock, entryBlock, hidx, hentry]
    have hne : ¬ (s.refilling = true ∧ e = s.cacheEntryLkp) := fun hc => he (hc.2.trans (hsame hc.1))
    simp only [he, hne, and_false]
  · change (s.next i f).entryDirty e = true ↔ s.entryDirty e = true
    rw [entryDirty, entryDirty, hidx]

/-- The card may change where a dirty entry holds the block. -/
theorem coherent_spill (h : Synced on s buf disk mem) (htag : TagInv (s, g))
    (hm : Moves on s i o buf buf' disk disk' mem mem') (hwe : s.cacheWe = false)
    (hrdy : s.cacheCoreRdy = false) (hf : s.state ≠ .fillWait) (hr : s.refilling = false)
    (hr' : (s.next i f).refilling = false) {e : BitVec (w + m)} (hd : s.entryDirty e = true)
    (hdisk : ∀ b, on b → b ≠ s.entryBlock e → disk' b = disk b) :
    WriteBack.Coherent on ((s.next i f).back buf' disk') mem' := by
  have hidx : (s.next i f).index = s.index := index_next hwe
  have hheld : s.Holds e (s.entryBlock e) := ⟨valid_of_dirty hd, rfl, by simp [hr]⟩
  rw [hm.mem_eq hrdy, hm.buf_eq hrdy hf]
  refine h.coherent.spill (fun e' => ⟨fun b => ?_, ?_, rfl⟩) hheld hd
    (fun e' he' => he'.unique htag hheld) hdisk h.on_of_holds
  · refine holds_congr (fun e => ?_) (fun e => ?_) (fun e => ?_) e' b
    · rw [entryValid, entryValid, hidx]
    · rw [entryBlock, entryBlock, hidx]
    · rw [hr, hr']
      simp
  · change (s.next i f).entryDirty e' = true ↔ s.entryDirty e' = true
    rw [entryDirty, entryDirty, hidx]

/-- The update of the looked-up entry, with a write of the controller. -/
theorem coherent_update (h : Synced on s buf disk mem) (htag : TagInv (s, g))
    (hm : Moves on s i o buf buf' disk disk' mem mem') (hs : s.state = .update)
    (hkeep : s.coreCacheWe = false → s.cacheHitLkp = true → s.entryDirty s.cacheEntryLkp = true →
      buf s.cacheEntryLkp = disk s.coreCacheAddr) :
    WriteBack.Coherent on ((s.next i f).back buf' disk') mem' := by
  have hentry : s.cacheEntryLkp = s.lkp := cacheEntryLkp_eq htag (by simp [accessing, hs])
  have hr' : (s.next i f).refilling = false := by simp [refilling, next, stateNext, hs]
  have hr : s.refilling = !s.cacheHitLkp := by simp [refilling, hs]
  have hon : on s.coreCacheAddr := h.request (by simp [lockPhase, hs, CacheState.phase])
  have hheld : s.cacheHitLkp = true → s.Holds s.cacheEntryLkp s.coreCacheAddr := fun hh => by
    obtain ⟨hv, hb⟩ := lkp_of_hit hh
    rw [hentry]
    exact ⟨hv, hb, by simp [hr, hh]⟩
  have hsole : ∀ e, s.entryValid e = true → s.entryBlock e = s.coreCacheAddr →
      e = s.cacheEntryLkp := fun e hv hb => by
    cases hh : s.cacheHitLkp with
    | false => exact absurd hb (not_held_of_miss hh hv)
    | true => exact eq_of_entryBlock htag hv (hheld hh).1 (hb.trans (hheld hh).2.1.symm)
  have hnext := fun e => update_next (i := i) (f := f) hs e
  have hdisk : ∀ b, on b → disk' b = disk b := fun b hb =>
    hm.disk b hb (fun hw => by simp [hs] at hw) fun hw => by simp [hs] at hw
  refine h.coherent.assign (e := s.cacheEntryLkp) (a := s.coreCacheAddr)
    ⟨fun e he b => ?_, fun e he => ?_, hm.others⟩ (fun b => ?_) (fun e he hb => ?_) ?_
    (fun b hb => ?_) hdisk h.on_of_holds (fun hd => ?_) fun b hb hb' => ?_
  · change (s.next i f).Holds e b ↔ s.Holds e b
    obtain ⟨hv, -, hb⟩ := hnext e
    rw [Holds, Holds, hv, hb, if_neg he, if_neg he, hr']
    simp [he]
  · change (s.next i f).entryDirty e = true ↔ s.entryDirty e = true
    rw [(hnext e).2.1, if_neg he]
  · change (s.next i f).Holds s.cacheEntryLkp b ↔ _
    obtain ⟨hv, -, hb⟩ := hnext s.cacheEntryLkp
    rw [Holds, hv, hb, if_pos rfl, if_pos rfl, hr']
    simp [eq_comm]
  · exact he (hsole e hb.1 hb.2.1)
  · change buf' s.cacheEntryLkp = _
    rw [hm.write (by simp [hs]), h.fetched hs, hm.mem, Function.update_self]
  · rw [hm.mem, Function.update_of_ne hb]
  · -- a load leaves the entry clean
    have hwe : s.coreCacheWe = false := by
      rw [← Bool.not_eq_true]
      intro hwe
      refine hd ?_
      change (s.next i f).entryDirty s.cacheEntryLkp = true
      rw [(hnext _).2.1, if_pos rfl, hwe]
    have ho : o = .empty := Classical.byContradiction fun ho => by
      rw [(hm.locked ho).2] at hwe
      cases hwe
    change disk' s.coreCacheAddr = _
    rw [hdisk _ hon, hm.mem, ho, Overlay.onto_empty, Function.update_eq_self]
    cases hh : s.cacheHitLkp with
    | false => exact h.coherent.absent _ hon fun e he => not_held_of_miss hh he.1 he.2.1
    | true =>
      cases hdirty : s.entryDirty s.cacheEntryLkp with
      | false =>
        refine h.coherent.clean _ _ (hheld hh) fun hc => ?_
        change s.entryDirty s.cacheEntryLkp = true at hc
        rw [hdirty] at hc
        cases hc
      | true => exact (hkeep hwe hh hdirty).symm.trans (h.fetched hs)
  · cases hh : s.cacheHitLkp with
    | false => exact absurd ⟨by simp [hr, hh], rfl⟩ hb'.2.2
    | true => exact absurd (hb'.2.1.symm.trans (hheld hh).2.1) hb

/-- A cycle of the lock, with a write of the controller. -/
theorem coherent_lock (h : Synced on s buf disk mem) (htag : TagInv (s, g)) (hok : AccessOk s)
    (hm : Moves on s i o buf buf' disk disk' mem mem') (hs : s.state = .lock) :
    WriteBack.Coherent on ((s.next i f).back buf' disk') mem' := by
  obtain ⟨hv, hb, hdirty⟩ := hok.held hs
  have hidx : (s.next i f).index = s.index := index_next (by simp [cacheWe, hs])
  have hr : s.refilling = false := by simp [refilling, hs]
  have hr' : (s.next i f).refilling = false := by
    simp only [refilling, next, stateNext, hs]
    split_ifs <;> rfl
  have hheld : s.Holds s.cacheEntryLkp s.coreCacheAddr := ⟨hv, hb, by simp [hr]⟩
  have hholds : ∀ e b, (s.next i f).Holds e b ↔ s.Holds e b := holds_congr
    (fun e => by rw [entryValid, entryValid, hidx]) (fun e => by rw [entryBlock, entryBlock, hidx])
    fun e => by simp [hr, hr']
  have hdisk : ∀ b, on b → disk' b = disk b := fun b hb =>
    hm.disk b hb (fun hw => by simp [hs] at hw) fun hw => by simp [hs] at hw
  refine h.coherent.assign (e := s.cacheEntryLkp) (a := s.coreCacheAddr)
    ⟨fun e _ b => hholds e b, fun e _ => ?_, hm.others⟩ (fun b => ?_) (fun e he hb => ?_) ?_
    (fun b hb => ?_) hdisk h.on_of_holds (fun hd => ?_) fun b hb hb' => ?_
  · change (s.next i f).entryDirty e = true ↔ s.entryDirty e = true
    rw [entryDirty, entryDirty, hidx]
  · change (s.next i f).Holds s.cacheEntryLkp b ↔ _
    rw [hholds, Holds, hb]
    simp [hv, hr, eq_comm]
  · exact he (hb.unique htag hheld)
  · change buf' s.cacheEntryLkp = _
    have hcached : buf s.cacheEntryLkp = mem s.coreCacheAddr := h.coherent.cached _ _ hheld
    rw [hm.write (by simp [hs]), hcached, hm.mem, Function.update_self]
  · rw [hm.mem, Function.update_of_ne hb]
  · have hclean : ¬ s.entryDirty s.cacheEntryLkp = true := fun hc => hd (by
      change (s.next i f).entryDirty s.cacheEntryLkp = true
      rw [entryDirty, hidx]
      exact hc)
    have ho : o = .empty := Classical.byContradiction fun ho => hclean (hdirty (hm.locked ho).2)
    change disk' s.coreCacheAddr = _
    rw [hdisk _ (h.on_of_holds _ _ hheld), hm.mem, ho, Overlay.onto_empty, Function.update_eq_self]
    exact h.coherent.clean _ _ hheld hclean
  · exact absurd (hb'.2.1.symm.trans hheld.2.1) hb

/-- A flush that is over leaves its entry clean. -/
theorem coherent_flushUpdate (h : Synced on s buf disk mem) (htag : TagInv (s, g))
    (hm : Moves on s i o buf buf' disk disk' mem mem') (hs : s.state = .flushUpdate) :
    WriteBack.Coherent on ((s.next i f).back buf' disk') mem' := by
  have hfl : s.flushing = true := by simp [flushing, hs]
  have hv : s.entryValid s.cacheEntryQuery = true := htag.query_valid hfl
  have haddr : s.cacheAddrQuery = s.entryBlock s.cacheEntryQuery := htag.query_addr hfl
  have hr : s.refilling = false := by simp [refilling, hs]
  have hr' : (s.next i f).refilling = false := by
    simp only [refilling, next, stateNext, hs]
    split_ifs <;> rfl
  have hrdy : s.cacheCoreRdy = false := by simp [cacheCoreRdy, hs]
  have hheld : s.Holds s.cacheEntryQuery s.cacheAddrQuery := ⟨hv, haddr.symm, by simp [hr]⟩
  have hnext := fun e => flushUpdate_next (i := i) (f := f) htag hs e
  have hholds : ∀ e b, (s.next i f).Holds e b ↔ s.Holds e b := holds_congr
    (fun e => (hnext e).1) (fun e => (hnext e).2.2) fun e => by simp [hr, hr']
  have hdisk : ∀ b, on b → disk' b = disk b := fun b hb =>
    hm.disk b hb (fun hw => by simp [hs] at hw) fun hw => by simp [hs] at hw
  rw [hm.mem_eq hrdy, hm.buf_eq hrdy (by simp [hs])]
  refine h.coherent.assign (e := s.cacheEntryQuery) (a := s.cacheAddrQuery)
    ⟨fun e _ b => hholds e b, fun e he => ?_, fun _ _ => rfl⟩ (fun b => ?_) (fun e he hb => ?_)
    (h.coherent.cached _ _ hheld) (fun _ _ => rfl) hdisk h.on_of_holds (fun _ => ?_)
    fun b hb hb' => ?_
  · change (s.next i f).entryDirty e = true ↔ s.entryDirty e = true
    rw [(hnext e).2.1, if_neg he]
  · change (s.next i f).Holds s.cacheEntryQuery b ↔ _
    rw [hholds, Holds, haddr]
    simp [hv, hr, eq_comm]
  · exact he (hb.unique htag hheld)
  · change disk' s.cacheAddrQuery = _
    rw [hdisk _ (h.on_of_holds _ _ hheld)]
    exact h.flushed hs
  · exact absurd (hb'.2.1.symm.trans hheld.2.1) hb

theorem not_refilling {c : CacheManager w m t} (hc : c.state ≠ .fillIssue) (hw : c.state ≠ .fillWait)
    (hu : c.state = .update → c.cacheHitLkp = true) : c.refilling = false := by
  cases hst : c.state <;> simp_all [refilling]

/-- In these states no block moves. -/
theorem coherent_still (h : Synced on s buf disk mem) (hm : Moves on s i o buf buf' disk disk' mem mem')
    (hs : s.state = .idle ∨ s.state = .writebackIssue ∨ s.state = .flushScan ∨
      s.state = .flushIssue) : WriteBack.Coherent on ((s.next i f).back buf' disk') mem' := by
  have hst : (s.next i f).state = s.stateNext i f := rfl
  have hr : s.refilling = false := by obtain hs | hs | hs | hs := hs <;> simp [refilling, hs]
  have hr' : (s.next i f).refilling = false := by
    obtain hs | hs | hs | hs := hs <;>
      · simp only [refilling, hst, stateNext, hs]
        split_ifs <;> rfl
  refine h.coherent_quiet hm ?_ ?_ ?_ ?_ ?_ fun e => by simp [hr, hr']
  · obtain hs | hs | hs | hs := hs <;> simp [cacheWe, hs]
  · obtain hs | hs | hs | hs := hs <;> simp [cacheCoreRdy, hs]
  all_goals obtain hs | hs | hs | hs := hs <;> simp [hs]

/-- A lookup that misses a clean entry gives up the block of the entry. -/
theorem coherent_lookup (h : Synced on s buf disk mem) (htag : TagInv (s, g))
    (hm : Moves on s i o buf buf' disk disk' mem mem') (hs : s.state = .lookup) :
    WriteBack.Coherent on ((s.next i f).back buf' disk') mem' := by
  have hst : (s.next i f).state = s.stateNext i f := rfl
  have hwe : s.cacheWe = false := by simp [cacheWe, hs]
  have hacc : s.accepting = false := by simp [accepting, hs]
  have hrdy : s.cacheCoreRdy = false := by simp [cacheCoreRdy, hs]
  have hr : s.refilling = false := by simp [refilling, hs]
  obtain ⟨-, -, -, -, hhit, -⟩ := next_quiet_lkp (i := i) (f := f) hwe hacc
  by_cases hmiss : s.cacheHitLkp = false ∧ s.cacheDirtyLkp = false
  · have hclean : s.entryDirty s.lkp = false := cacheDirtyLkp_eq.symm.trans hmiss.2
    have hdisk : ∀ b, on b → disk' b = disk b := fun b hb =>
      hm.disk b hb (fun hw => by simp [hs] at hw) fun hw => by simp [hs] at hw
    refine h.coherent_evict htag hm hwe hacc hrdy ?_ (fun hr' => by simp [hr] at hr')
      (fun e _ => congrFun (hm.buf_eq hrdy (by simp [hs])) e) (fun b hb => ?_)
      fun b hb _ => hdisk b hb
    · simp [refilling, hst, stateNext, hs, hmiss.1, hmiss.2]
    · rw [hdisk b (h.on_of_holds _ b hb)]
      refine h.coherent.clean _ b hb fun hd => ?_
      change s.entryDirty s.lkp = true at hd
      rw [hclean] at hd
      cases hd
  · have hr' : (s.next i f).refilling = false := by
      refine not_refilling ?_ ?_ fun hu => ?_ <;>
        cases hh : s.cacheHitLkp <;> cases hd : s.cacheDirtyLkp <;>
        simp_all [stateNext]
    exact h.coherent_quiet hm hwe hrdy (by simp [hs]) (by simp [hs]) (by simp [hs])
      fun e => by simp [hr, hr']

/-- A block that is written back may change on the card until the answer, and is given up then. -/
theorem coherent_writebackWait (h : Synced on s buf disk mem) (htag : TagInv (s, g))
    (hok : AccessOk s) (hm : Moves on s i o buf buf' disk disk' mem mem')
    (hs : s.state = .writebackWait) : WriteBack.Coherent on ((s.next i f).back buf' disk') mem' := by
  have hst : (s.next i f).state = s.stateNext i f := rfl
  have hwe : s.cacheWe = false := by simp [cacheWe, hs]
  have hacc : s.accepting = false := by simp [accepting, hs]
  have hrdy : s.cacheCoreRdy = false := by simp [cacheCoreRdy, hs]
  have hr : s.refilling = false := by simp [refilling, hs]
  have ha : s.accessing = true := by simp [accessing, hs]
  have hentry := cacheEntryLkp_eq htag ha
  have hdirty : s.entryDirty s.lkp = true := hentry ▸ hok.victim (.inr hs)
  have haddr : s.cacheAddrLkp = s.entryBlock s.lkp := hentry ▸ hok.addr ha
  have hdisk : ∀ b, on b → b ≠ s.entryBlock s.lkp → disk' b = disk b := fun b hb hne =>
    hm.disk b hb (fun _ => haddr ▸ hne) fun hw => by simp [hs] at hw
  by_cases hgo : s.tmCacheGo i = true ∧ i.tmCacheOk = true
  · refine h.coherent_evict htag hm hwe hacc hrdy ?_ (fun hr' => by simp [hr] at hr')
      (fun e _ => congrFun (hm.buf_eq hrdy (by simp [hs])) e) (fun b hb => ?_)
      fun b hb hnot => hdisk b hb fun hbe => hnot ⟨valid_of_dirty hdirty, hbe.symm, by simp [hr]⟩
    · simp [refilling, hst, stateNext, hs, hgo.1, hgo.2]
    · have hback := hm.writeback hs hgo.1 hgo.2
      rw [haddr, hentry, hb.2.1] at hback
      rw [hback]
      exact h.coherent.cached _ b hb
  · refine h.coherent_spill htag hm hwe hrdy (by simp [hs]) hr ?_ hdirty hdisk
    simp only [refilling, hst, stateNext, hs]
    split_ifs <;> simp_all

/-- The fill is issued. -/
theorem coherent_fillIssue (h : Synced on s buf disk mem) (htag : TagInv (s, g))
    (hm : Moves on s i o buf buf' disk disk' mem mem') (hs : s.state = .fillIssue) :
    WriteBack.Coherent on ((s.next i f).back buf' disk') mem' := by
  have hst : (s.next i f).state = s.stateNext i f := rfl
  have hwe : s.cacheWe = false := by simp [cacheWe, hs]
  obtain ⟨-, -, hentry, -, -, -⟩ := next_quiet_lkp (i := i) (f := f) hwe
    (by simp [accepting, hs])
  refine h.coherent_quiet hm hwe (by simp [cacheCoreRdy, hs]) (by simp [hs]) (by simp [hs])
    (by simp [hs]) fun e => ?_
  rw [hentry, ← cacheEntryLkp_eq htag (by simp [accessing, hs])]
  have hr' : (s.next i f).refilling = true := by
    simp only [refilling, hst, stateNext, hs]
    split_ifs <;> rfl
  have hr : s.refilling = true := by simp [refilling, hs]
  rw [hr, hr']

/-- The entry that is filled holds nothing. -/
theorem coherent_fillWait (h : Synced on s buf disk mem) (htag : TagInv (s, g)) (hok : AccessOk s)
    (hm : Moves on s i o buf buf' disk disk' mem mem') (hs : s.state = .fillWait) :
    WriteBack.Coherent on ((s.next i f).back buf' disk') mem' := by
  have hst : (s.next i f).state = s.stateNext i f := rfl
  have hwe : s.cacheWe = false := by simp [cacheWe, hs]
  have hacc : s.accepting = false := by simp [accepting, hs]
  have hrdy : s.cacheCoreRdy = false := by simp [cacheCoreRdy, hs]
  have ha : s.accessing = true := by simp [accessing, hs]
  have hentry := cacheEntryLkp_eq htag ha
  obtain ⟨-, -, -, -, hhit, -⟩ := next_quiet_lkp (i := i) (f := f) hwe hacc
  have hmiss := hok.miss ha (by simp [hs])
  have hnone : ∀ b, ¬ s.Holds s.lkp b := fun b hb => hb.2.2 ⟨by simp [refilling, hs], hentry.symm⟩
  refine h.coherent_evict htag hm hwe hacc hrdy ?_ (fun _ => hentry)
    (fun e he => hm.others e (hentry ▸ he)) (fun b hb => absurd hb (hnone b)) fun b hb _ =>
      hm.disk b hb (fun hw => by simp [hs] at hw) fun hw => by simp [hs] at hw
  rw [refilling, hhit, hmiss, hst]
  simp only [stateNext, hs]
  split_ifs <;> rfl

/-- A block that is flushed may change on the card until the answer. -/
theorem coherent_flushWait (h : Synced on s buf disk mem) (htag : TagInv (s, g)) (hok : AccessOk s)
    (hm : Moves on s i o buf buf' disk disk' mem mem') (hs : s.state = .flushWait) :
    WriteBack.Coherent on ((s.next i f).back buf' disk') mem' := by
  have hst : (s.next i f).state = s.stateNext i f := rfl
  have haddr : s.cacheAddrQuery = s.entryBlock s.cacheEntryQuery :=
    htag.query_addr (by simp [flushing, hs])
  refine h.coherent_spill htag hm (by simp [cacheWe, hs]) (by simp [cacheCoreRdy, hs])
    (by simp [hs]) (by simp [refilling, hs]) ?_ (hok.query (.inr hs)) fun b hb hne =>
      hm.disk b hb (fun hw => by simp [hs] at hw) fun _ => haddr ▸ hne
  simp only [refilling, hst, stateNext, hs]
  split_ifs <;> rfl

theorem coherent_step (h : Synced on s buf disk mem) (htag : TagInv (s, g)) (hok : AccessOk s)
    (hm : Moves on s i o buf buf' disk disk' mem mem')
    (hkeep : s.state = .update → s.coreCacheWe = false → s.cacheHitLkp = true →
      s.entryDirty s.cacheEntryLkp = true → buf s.cacheEntryLkp = disk s.coreCacheAddr) :
    WriteBack.Coherent on ((s.next i f).back buf' disk') mem' := by
  cases hs : s.state with
  | idle => exact h.coherent_still hm (.inl hs)
  | lookup => exact h.coherent_lookup htag hm hs
  | writebackIssue => exact h.coherent_still hm (.inr (.inl hs))
  | writebackWait => exact h.coherent_writebackWait htag hok hm hs
  | fillIssue => exact h.coherent_fillIssue htag hm hs
  | fillWait => exact h.coherent_fillWait htag hok hm hs
  | update => exact h.coherent_update htag hm hs (hkeep hs)
  | lock => exact h.coherent_lock htag hok hm hs
  | flushScan => exact h.coherent_still hm (.inr (.inr (.inl hs)))
  | flushIssue => exact h.coherent_still hm (.inr (.inr (.inr hs)))
  | flushWait => exact h.coherent_flushWait htag hok hm hs
  | flushUpdate => exact h.coherent_flushUpdate htag hm hs

theorem onCard_step (h : Synced on s buf disk mem) (htag : TagInv (s, g)) (e : BitVec (w + m))
    (hv : (s.next i f).entryValid e = true) : on ((s.next i f).entryBlock e) := by
  by_cases hu : s.state = .update
  · obtain ⟨hv', -, hb⟩ := update_next (i := i) (f := f) hu e
    rw [hv'] at hv
    rw [hb]
    split
    next => exact h.request (by simp [lockPhase, hu, CacheState.phase])
    next he =>
      rw [if_neg he] at hv
      exact h.onCard e hv
  · obtain ⟨hvalid, haddr⟩ := htag.nextIndex_eq (k := indexBits e) hu
    have hv' : (s.next i f).entryValid e = s.entryValid e := congrFun hvalid _
    have hb : (s.next i f).entryBlock e = s.entryBlock e :=
      congrArg (· ++ indexBits e) (congrFun haddr _)
    rw [hb]
    exact h.onCard e (hv' ▸ hv)

theorem request_step (h : Synced on s buf disk mem)
    (hreq : s.accepting = true → s.lockReq i = true → on i.coreCacheAddr)
    (hp : (s.next i f).lockPhase ≠ .free) : on (s.next i f).coreCacheAddr := by
  have haddr : (s.next i f).coreCacheAddr =
      if s.accepting && s.lockReq i then i.coreCacheAddr else s.coreCacheAddr := rfl
  rw [haddr]
  split
  next hgrant =>
    rw [Bool.and_eq_true] at hgrant
    exact hreq hgrant.1 hgrant.2
  next hgrant =>
    refine h.request fun hfree => hp ?_
    rw [lockPhase_of_free hfree, if_neg hgrant]

/-- A block that was just fetched, or that was hit, is that of the memory. -/
theorem fetched_step (h : Synced on s buf disk mem) (htag : TagInv (s, g)) (hok : AccessOk s)
    (hm : Moves on s i o buf buf' disk disk' mem mem') (hu : (s.next i f).state = .update) :
    buf' (s.next i f).cacheEntryLkp = mem' (s.next i f).coreCacheAddr := by
  obtain ⟨hwe, hacc⟩ := accessing_of_next (show (s.next i f).accessing = true by simp [accessing, hu])
  obtain ⟨-, haddr, hentry, -, -, -⟩ := next_quiet_lkp (i := i) (f := f) hwe hacc
  rw [hentry, haddr]
  obtain ⟨hs, hh⟩ | ⟨hs, hgo, hokay⟩ := before_update hu
  · have hrdy : s.cacheCoreRdy = false := by simp [cacheCoreRdy, hs]
    obtain ⟨hv, hb⟩ := lkp_of_hit hh
    rw [hm.mem_eq hrdy, hm.buf_eq hrdy (by simp [hs])]
    exact h.coherent.cached _ _ ⟨hv, hb, by simp [refilling, hs]⟩
  · have ha : s.accessing = true := by simp [accessing, hs]
    have hmiss := hok.miss ha (by simp [hs])
    rw [← cacheEntryLkp_eq htag ha, hm.fill hs hgo hokay, hm.mem_eq (by simp [cacheCoreRdy, hs])]
    refine h.coherent.absent _ (h.request (by simp [lockPhase, hs, CacheState.phase])) fun e he => ?_
    exact not_held_of_miss hmiss he.1 he.2.1

/-- A block that was written back is that of the memory. -/
theorem flushed_step (h : Synced on s buf disk mem) (htag : TagInv (s, g)) (hok : AccessOk s)
    (hm : Moves on s i o buf buf' disk disk' mem mem') (hu : (s.next i f).state = .flushUpdate) :
    disk' (s.next i f).cacheAddrQuery = mem' (s.next i f).cacheAddrQuery := by
  obtain ⟨hs, hgo, hokay⟩ := before_flushUpdate hu
  have haddr : (s.next i f).cacheAddrQuery = s.cacheAddrQuery := by simp [next, hs]
  have hquery : s.cacheAddrQuery = s.entryBlock s.cacheEntryQuery :=
    htag.query_addr (by simp [flushing, hs])
  rw [haddr, hm.flush hs hgo hokay, hm.mem_eq (by simp [cacheCoreRdy, hs]), hquery]
  exact h.coherent.cached _ _
    ⟨valid_of_dirty (hok.query (.inr hs)), rfl, by simp [refilling, hs]⟩

theorem step (h : Synced on s buf disk mem) (htag : TagInv (s, g)) (hok : AccessOk s)
    (hm : Moves on s i o buf buf' disk disk' mem mem')
    (hreq : s.accepting = true → s.lockReq i = true → on i.coreCacheAddr)
    (hkeep : s.state = .update → s.coreCacheWe = false → s.cacheHitLkp = true →
      s.entryDirty s.cacheEntryLkp = true → buf s.cacheEntryLkp = disk s.coreCacheAddr) :
    Synced on (s.next i f) buf' disk' mem' where
  coherent := h.coherent_step htag hok hm hkeep
  onCard := h.onCard_step htag
  request := h.request_step hreq
  fetched := h.fetched_step htag hok hm
  flushed := h.flushed_step htag hok hm

theorem init (addrLkp : BitVec m → BitVec t) (entryLkp : BitVec m → BitVec w) :
    Synced on (CacheManager.init addrLkp entryLkp) buf disk disk where
  coherent :=
    { cached := fun _ _ he => by cases he.1
      clean := fun _ _ he => by cases he.1
      absent := fun _ _ _ => rfl }
  onCard _ he := by cases he
  request h := absurd rfl h
  fetched h := by cases h
  flushed h := by cases h

end Synced

end Steps

end Piton.Sd
