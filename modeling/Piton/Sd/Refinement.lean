import Piton.Sd.Loads

/-! The invariant of the storage, and the refinement that follows from it. -/

namespace Piton.Sd

open Hw CacheManager

variable {w m t : Nat} {f : BitVec 24} {isHcxc : Bool}

/-- The storage stands for the memory after the messages of the log. -/
structure StorageInv (isHcxc : Bool) (initial : BitVec (t + m) → Block)
    (y : Storage w m t × Log) : Prop where
  sound : Sound (y.1.bridge, y.2)
  access : AccessOk y.1.cache
  txn : y.1.TxnOk isHcxc
  asked : y.1.Asked
  fits : y.1.core.state.handling = true → y.2.cur.Fits isHcxc (t + m)
  synced : Synced (OnCard isHcxc) y.1.cache y.1.buf (y.1.disk isHcxc)
    (y.2.memory initial y.1.bridge)
  data : DataOk y.1.bridge y.2.cur
  words : y.1.core.state.handling = true → y.1.core.rd = true →
    WordsOk y.1 y.2.cur (flatAfter initial y.2.served (y.2.cur.block (t + m)))
  loads : LoadsFlat initial y.2

section Cache

variable {on : BitVec (t + m) → Prop} {c : CacheManager w m t} {buf : BitVec (w + m) → Block}
  {disk mem : BitVec (t + m) → Block} {k : Writes w m}

/-- When the manager is ready, the entry has the block that was asked for. -/
theorem Synced.ready (h : Synced on c buf disk mem) (hok : AccessOk c) (hr : c.cacheCoreRdy = true) :
    buf c.cacheEntryLkp = mem c.coreCacheAddr := by
  cases hs : c.state with
  | update => exact h.fetched hs
  | lock =>
    obtain ⟨hv, hb, -⟩ := hok.held hs
    exact h.coherent.cached _ _ ⟨hv, hb, by simp [refilling, hs]⟩
  | _ => simp [cacheCoreRdy, hs] at hr

/-- A victim that is written back is a block of the card. -/
theorem Synced.on_victim (h : Synced on c buf disk mem) (hok : AccessOk c)
    (hs : c.state = .writebackWait) : on c.cacheAddrLkp := by
  rw [hok.addr (by simp [accessing, hs])]
  exact h.onCard _ (valid_of_dirty (hok.victim (.inr hs)))

theorem Synced.on_query (h : Synced on c buf disk mem) (hok : AccessOk c) (htag : TagInv (c, k))
    (hs : c.state = .flushWait) : on c.cacheAddrQuery := by
  rw [show c.cacheAddrQuery = _ from htag.query_addr (by simp [flushing, hs])]
  exact h.onCard _ (valid_of_dirty (hok.query (.inr hs)))

end Cache

section Steps

variable {y : Storage w m t × Log} {i : StorageInput} {initial : BitVec (t + m) → Block}

/-- Blocks that the controller asks for are on the card. -/
theorem on_request (h : StorageInv isHcxc initial y) (hplace : y.1.Placed isHcxc i)
    (hacq : y.1.core.lockAcquire (y.1.coreIn i) = true) :
    OnCard isHcxc (y.1.cacheIn i).coreCacheAddr := by
  have haddr : (y.1.cacheIn i).coreCacheAddr =
      (y.1.core.cacheAddr (y.1.coreIn i)).extractLsb' 9 (t + m) := rfl
  rw [haddr]
  obtain ⟨-, hs, hgo⟩ | hc := lockAcquire_cases hacq
  · have hreq := splitterGo_header1 (s := y.1.bridge) (i := y.1.wire i) hs hgo
    have hs' : y.1.core.state = .inHeader1 := hs
    rw [CoreCtrl.cacheAddr, if_pos hs']
    exact (hplace hs hreq.1 hreq.2).2.2
  · obtain hp | hl := h.sound.phase
    · have hh := hp.busy hc
      have hne : y.1.core.state ≠ .inHeader1 := fun hs => by
        rw [show y.1.bridge.core.state = _ from hs] at hh
        cases hh
      rw [CoreCtrl.cacheAddr, if_neg hne, show y.1.core.addr = _ from (hp.addressed hh).addr]
      exact (h.fits hh).onCard
    · obtain hf | hf := hc
      · exact absurd hf hl.not_busy.1
      · exact absurd hf hl.not_busy.2

/-- Only stores write, and the manager knows that the access is a store. -/
theorem write_asked (h : StorageInv isHcxc initial y)
    (hce : y.1.core.bufferCe (y.1.coreIn i) = true) (hw : y.1.core.bufferWr (y.1.coreIn i) = true) :
    y.1.cache.coreCacheWe = true := by
  have hrdy := Storage.rdy_of_bufferCe hce
  have hfree : y.1.cache.lockPhase ≠ .free := fun hf => by
    obtain hp | hp := cacheCoreRdy_iff.1 hrdy <;>
      · rw [hf] at hp
        cases hp
  rw [(h.asked hfree).2]
  have hc : y.1.bridge.core.cbState = .buffer2Cache := by
    rw [CoreCtrl.bufferWr, Bool.and_eq_true, decide_eq_true_iff] at hw
    exact hw.1
  obtain hp | hl := h.sound.phase
  · exact hp.wr_of_buffer2Cache hc
  · exact absurd hc hl.not_busy.1

theorem synced_step (hn : w + m ≤ 3) (h : StorageInv isHcxc initial y)
    (hplace : y.1.Placed isHcxc i) (hkeep : y.1.KeepsDirty isHcxc) :
    Synced (OnCard isHcxc) (y.1.next i f isHcxc).cache (y.1.next i f isHcxc).buf
      ((y.1.next i f isHcxc).disk isHcxc)
      ((y.2.update y.1.bridge (y.1.wire i)).memory initial (y.1.bridge.next (y.1.wire i) f)) := by
  obtain ⟨k, hk⟩ := h.sound.tags
  rw [memory_step h.sound.lock h.sound.phase h.fits h.asked h.data]
  refine h.synced.step (i := y.1.cacheIn i) hk h.access
    (Storage.moves_next hn h.txn (h.synced.on_victim h.access) (h.synced.on_query h.access hk)
      (write_asked h) _) (fun hacc hreq => ?_) hkeep
  rw [lockReq, Bool.and_eq_true] at hreq
  exact on_request h hplace hreq.1

/-- While a load is handled its log gains words only. -/
theorem gains_of_handling (h : StorageInv isHcxc initial y)
    (hh : y.1.core.state.handling = true) : Gains y.1.bridge (y.1.wire i) y.2.cur
      (y.2.nextCur y.1.bridge (y.1.wire i)) := by
  have hne : y.1.bridge.core.state ≠ .idle := fun hs => by
    rw [show y.1.core.state = _ from hs] at hh
    cases hh
  exact gains hne fun _ => length_of_handling h.sound.phase hh

/-- The words of a load that is handled. -/
theorem words_handling (h : StorageInv isHcxc initial y) (hh : y.1.core.state.handling = true)
    (hr : y.1.core.rd = true) : WordsOk (y.1.next i f isHcxc) (y.2.nextCur y.1.bridge (y.1.wire i))
      (flatAfter initial y.2.served (y.2.cur.block (t + m))) := by
  have hx := gains_of_handling (i := i) h hh
  have hwords := h.words hh hr
  obtain hp | hl := h.sound.phase
  · have hread := (hp.reading hh hr).1
    by_cases hc : y.1.bridge.core.cbState = .cache2Buffer
    · have htype := (type_of_phase h.sound.phase (fun hs => by
        rw [show y.1.core.state = _ from hs] at hh
        cases hh) fun hs => by
          rw [show y.1.core.state = _ from hs] at hh
          cases hh).1
      have hrd : isRd y.2.cur.header.type = true := by
        rw [← htype]
        exact hr
      refine hwords.read hread hrd (h.fits hh).size hx hc fun hce => ?_
      have hrdy := Storage.rdy_of_bufferCe hce
      have hfree : y.1.cache.lockPhase ≠ .free := fun hf => by
        obtain hp | hp := cacheCoreRdy_iff.1 hrdy <;>
          · rw [hf] at hp
            cases hp
      have hblock : y.1.cache.coreCacheAddr = y.2.cur.block (t + m) := by
        rw [(h.asked hfree).1, show y.1.core.addr = _ from (hp.addressed hh).addr]
        rfl
      rw [h.synced.ready h.access hrdy, hblock, memory_eq_flatAfter fun _ hw => ?_]
      rw [not_isWr_of_isRd hrd] at hw
      cases hw
    · exact hwords.quiet hx (hread.account.bufferCe_eq hc _)
  · exact hwords.quiet hx hl.bufferCe_eq

/-- A load that is handled goes on. -/
theorem not_ends_of_handling
    (hh' : (y.1.next i f isHcxc).core.state.handling = true) :
    Log.ends y.1.bridge (y.1.wire i) = false := by
  have hst : (y.1.next i f isHcxc).core.state =
      y.1.bridge.core.stateNext (y.1.bridge.coreIn (y.1.wire i)) := rfl
  have hne : y.1.bridge.core.stateNext (y.1.bridge.coreIn (y.1.wire i)) ≠ .idle := fun hi => by
    rw [hst, hi] at hh'
    cases hh'
  simp [Log.ends, hne]

theorem words_step (h : StorageInv isHcxc initial y)
    (hh' : (y.1.next i f isHcxc).core.state.handling = true)
    (hr' : (y.1.next i f isHcxc).core.rd = true) :
    WordsOk (y.1.next i f isHcxc) (y.2.nextCur y.1.bridge (y.1.wire i))
      (flatAfter initial (y.2.update y.1.bridge (y.1.wire i)).served
        ((y.2.nextCur y.1.bridge (y.1.wire i)).block (t + m))) := by
  rw [served_update (not_ends_of_handling hh')]
  obtain ⟨hs, -, -⟩ | hh := handling_before (s := y.1.bridge) (i := y.1.wire i) (f := f) hh'
  · have hne : y.1.bridge.core.state ≠ .idle := by simp [hs]
    obtain hp | hl := h.sound.phase
    · rw [PhaseOk, hs] at hp
      have hwords : (y.2.nextCur y.1.bridge (y.1.wire i)).words = [] := by
        simp [Log.nextCur, base_eq hne, show y.1.bridge.core.cacheRe = false from hp.quiet.re,
          show y.2.cur.words = [] from hp.untouched.words]
      refine ⟨fun k hk => ?_, fun hre => ?_⟩
      · rw [hwords] at hk
        exact absurd hk (Nat.not_lt_zero k)
      · have hnext : (y.1.next i f isHcxc).core.cacheRe =
            (y.1.bridge.core.bufferCe (y.1.bridge.coreIn (y.1.wire i)) &&
              !y.1.bridge.core.bufferWr (y.1.bridge.coreIn (y.1.wire i))) := rfl
        rw [hnext, CoreCtrl.bufferCe, hp.cb] at hre
        cases hre
    · exact absurd hs hl.not_idle.2
  · have hne : y.1.bridge.core.state ≠ .idle := fun hs => by
      rw [hs] at hh
      cases hh
    rw [block_congr (addrFlit_next hh (length_of_handling h.sound.phase hh)).1]
    refine words_handling h hh ?_
    rw [← hr']
    exact ((wr_next (i := y.1.wire i) (f := f) hne).2).symm

/-- A load that ends has got its words. -/
theorem loads_ends (h : StorageInv isHcxc initial y)
    (hserved : Served (w + m) (y.2.nextCur y.1.bridge (y.1.wire i)))
    (hend : Log.ends y.1.bridge (y.1.wire i) = true)
    (hrd : isRd (y.2.nextCur y.1.bridge (y.1.wire i)).header.type = true) :
    (y.2.nextCur y.1.bridge (y.1.wire i)).sent =
      (y.2.nextCur y.1.bridge (y.1.wire i)).loadResponse (flatAfter initial y.2.served) := by
  have hne : y.1.bridge.core.state ≠ .rst ∧ y.1.bridge.core.state ≠ .idle := by
    simp only [Log.ends, Bool.and_eq_true, decide_eq_true_iff] at hend
    exact hend.1
  have hr : y.1.core.rd = true := by
    rw [type_update h.sound.phase hne.1 hne.2] at hrd
    exact hrd
  have hh : y.1.core.state.handling = true := by
    rw [← Bool.not_eq_false]
    intro hh
    rw [(not_request_of_ends h.sound.phase hh hend).2] at hr
    cases hr
  have hwords := (words_handling (i := i) (f := 0) h hh hr).come
  have hlen := hserved.words hrd
  rw [hserved.sent, Exchange.isRequest, hrd, Bool.true_or, if_pos rfl, Exchange.response,
    not_isWr_of_isRd hrd, if_neg Bool.false_ne_true, Exchange.loadResponse]
  refine congrArg _ (List.map_congr_left fun j _ => ?_)
  have hmod : j &&& (y.2.nextCur y.1.bridge (y.1.wire i)).mask.toNat =
      j % wordCount (y.2.nextCur y.1.bridge (y.1.wire i)).addrFlit.dataSize := and_mask hrd j
  have hle : j &&& (y.2.nextCur y.1.bridge (y.1.wire i)).mask.toNat ≤
      (y.2.nextCur y.1.bridge (y.1.wire i)).mask.toNat := Nat.and_le_right
  rw [hwords _ (by omega), hmod,
    block_congr (addrFlit_next hh (length_of_handling h.sound.phase hh)).1]

theorem loads_step (h : StorageInv isHcxc initial y)
    (hserved : ∀ x ∈ (y.2.update y.1.bridge (y.1.wire i)).served, Served (w + m) x) :
    LoadsFlat initial (y.2.update y.1.bridge (y.1.wire i)) := by
  cases hend : Log.ends y.1.bridge (y.1.wire i) with
  | false =>
    intro xs x zs hx
    rw [served_update hend] at hx
    exact h.loads xs x zs hx
  | true =>
    intro xs x zs hx hrd
    rw [served_update_ends hend] at hx hserved
    obtain rfl | ⟨zs, a, rfl⟩ := List.eq_nil_or_concat zs
    · obtain ⟨rfl, hx⟩ := List.append_inj' hx rfl
      obtain rfl : y.2.nextCur y.1.bridge (y.1.wire i) = x := by simpa using hx
      exact loads_ends h (hserved _ (by simp)) hend hrd
    · rw [List.concat_eq_append, ← List.cons_append, ← List.append_assoc] at hx
      exact h.loads xs x zs (List.append_inj' hx rfl).1 hrd

theorem StorageInv.step (hn : w + m ≤ 3) (h : StorageInv isHcxc initial y)
    (hproper : y.1.Proper isHcxc i) (hkeep : y.1.KeepsDirty isHcxc) :
    StorageInv isHcxc initial (y.1.next i f isHcxc, y.2.update y.1.bridge (y.1.wire i)) := by
  obtain ⟨k, hk⟩ := h.sound.tags
  have hsound : Sound (y.1.bridge.next (y.1.wire i) f, y.2.update y.1.bridge (y.1.wire i)) :=
    h.sound.step hproper.1
  exact
    { sound := hsound
      access := h.access.step hk h.sound.entry
      txn := h.txn.step hk h.access
      asked := h.asked.step h.sound.phase
      fits := fits_step h.sound.phase h.fits hproper.2
      synced := synced_step hn h hproper.2 hkeep
      data := by
        obtain hp | hl := h.sound.phase
        · exact h.data.step hp
        · exact fun hc => absurd hc (hl.step h.sound.lock).not_busy.1
      words := words_step h
      loads := loads_step h hsound.served }

/-- A load that updates a dirty entry whose block differs from the card leaves it clean. -/
theorem keepsDirty_of_next (hn : w + m ≤ 3) (h : StorageInv isHcxc initial y)
    (hnext : (y.1.next i f isHcxc).DirtyMarked isHcxc) : y.1.KeepsDirty isHcxc := by
  intro hs hwe _ _
  obtain ⟨k, hk⟩ := h.sound.tags
  have hmoves := Storage.moves_next (i := i) (f := f) hn h.txn (h.synced.on_victim h.access)
    (h.synced.on_query h.access hk) (write_asked h) (y.2.memory initial y.1.bridge)
  obtain ⟨hv, hd, hb⟩ := update_next (i := y.1.cacheIn i) (f := f) hs y.1.cache.cacheEntryLkp
  rw [if_pos rfl] at hv hd hb
  have hon : OnCard isHcxc y.1.cache.coreCacheAddr :=
    h.synced.request (by simp [lockPhase, hs, CacheState.phase])
  have hport : y.1.portStore i = .empty := Classical.byContradiction fun ho => by
    rw [(hmoves.locked ho).2] at hwe
    cases hwe
  have hbuf := hmoves.write (by simp [hs])
  rw [hport, Overlay.onto_empty] at hbuf
  have hdisk := hmoves.disk _ hon (fun hw => by simp [hs] at hw) fun hw => by simp [hs] at hw
  have hheld : (y.1.next i f isHcxc).cache.Holds y.1.cache.cacheEntryLkp y.1.cache.coreCacheAddr := by
    refine ⟨hv, hb, fun hr => ?_⟩
    have hst : (y.1.next i f isHcxc).cache.state = .lock := by
      change y.1.cache.stateNext (y.1.cacheIn i) f = _
      simp [stateNext, hs]
    simp [refilling, hst] at hr
  refine Classical.byContradiction fun hne => ?_
  have hmark := hnext _ _ hheld (by rwa [hbuf, hdisk])
  rw [show (y.1.next i f isHcxc).cache.entryDirty y.1.cache.cacheEntryLkp = _ from hd, hwe] at hmark
  cases hmark

theorem StorageInv.init {card : BitVec 32 → Block} {y : Storage w m t × Log}
    (h : (served w m t f isHcxc card).init y) : StorageInv isHcxc (onDisk t m isHcxc card) y := by
  obtain ⟨⟨⟨hcore, addrLkp, entryLkp, hcache⟩, hcard⟩, hlog⟩ := h
  have hrst : y.1.core.state = .rst := by
    rw [Storage.core, hcore]
    rfl
  have hcache : y.1.cache = CacheManager.init addrLkp entryLkp := hcache
  have hnot : y.1.core.state.handling ≠ true := by
    rw [hrst]
    decide
  have hdisk : y.1.disk isHcxc = onDisk t m isHcxc card := by
    rw [← hcard]
    rfl
  have hmem : y.2.memory (onDisk t m isHcxc card) y.1.bridge = onDisk t m isHcxc card := by
    rw [memory_eq_flatAfter fun hh => absurd hh hnot, hlog]
    rfl
  refine
    { sound := Sound.init (f := f) ⟨⟨hcore, addrLkp, entryLkp, hcache⟩, hlog⟩
      access := hcache ▸ AccessOk.init addrLkp entryLkp
      txn := ?_
      asked := fun hf => ?_
      fits := fun hh => absurd hh hnot
      synced := ?_
      data := fun hc => ?_
      words := fun hh => absurd hh hnot
      loads := fun xs x zs hx => ?_ }
  · rw [Storage.TxnOk, hcache]
    trivial
  · rw [hcache] at hf
    exact absurd rfl hf
  · rw [hmem, hdisk, hcache]
    exact Synced.init addrLkp entryLkp
  · rw [hcore] at hc
    cases hc
  · rw [hlog] at hx
    simp at hx

theorem StorageInv.of_reachable (hn : w + m ≤ 3) {card : BitVec 32 → Block}
    {y : Storage w m t × Log} (h : (served w m t f isHcxc card).Reachable
      (fun y i => y.1.Proper isHcxc i ∧ y.1.KeepsDirty isHcxc) y) :
    StorageInv isHcxc (onDisk t m isHcxc card) y :=
  h.invariant (fun _ hs => .init hs) fun _ _ hs hi => hs.step hn hi.1 hi.2

theorem StorageInv.dirtyMarked (h : StorageInv isHcxc initial y) : y.1.DirtyMarked isHcxc :=
  fun _ _ hb hne => h.synced.coherent.dirty_of_ne hb hne

end Steps

/-- In runs whose loads keep what is dirty, the storage refines a flat memory. -/
theorem refines_of_keepsDirty (hn : w + m ≤ 3) {card : BitVec 32 → Block} {y : Storage w m t × Log}
    (h : (served w m t f isHcxc card).Reachable
      (fun y i => y.1.Proper isHcxc i ∧ y.1.KeepsDirty isHcxc) y) :
    Refines isHcxc (onDisk t m isHcxc card) y := by
  have hinv := StorageInv.of_reachable hn h
  refine ⟨hinv.loads, fun hs => ?_, hinv.dirtyMarked⟩
  have hnot : y.1.core.state.handling ≠ true := by
    rw [hs]
    decide
  have hmem : y.2.memory (onDisk t m isHcxc card) y.1.bridge = _ :=
    memory_eq_flatAfter fun hh => absurd hh hnot
  rw [← hmem]
  exact hinv.synced.coherent

/-- What is dirty stays so in a step exactly when a load in it keeps what is dirty. -/
theorem dirtyMarked_next_iff (hn : w + m ≤ 3) {card : BitVec 32 → Block} {y : Storage w m t × Log}
    (h : (served w m t f isHcxc card).Reachable
      (fun y i => y.1.Proper isHcxc i ∧ y.1.KeepsDirty isHcxc) y) {i : StorageInput}
    (hproper : y.1.Proper isHcxc i) :
    (y.1.next i f isHcxc).DirtyMarked isHcxc ↔ y.1.KeepsDirty isHcxc := by
  have hinv := StorageInv.of_reachable hn h
  exact ⟨keepsDirty_of_next hn hinv, fun hkeep => (hinv.step hn hproper hkeep).dirtyMarked⟩

namespace Blocks

/-- A cycle with a flit, in which the other sides answer. -/
def flit (f : Flit) : StorageInput := ⟨true, f, true, true, true, true, fun _ => 7, 7⟩

/-- A cycle without a flit, in which the other sides answer. -/
def pause : StorageInput := ⟨false, 0, true, true, true, true, fun _ => 7, 7⟩

/-- The card answers that the transaction failed. -/
def fail : StorageInput := ⟨false, 0, true, true, false, true, fun _ => 7, 7⟩

/-- A header with the fields that are read. -/
def header (type length mshr : Flit) : Flit := length <<< 22 ||| type <<< 14 ||| mshr <<< 6

/-- Eight bytes at this address. -/
def address (a : Flit) : Flit := a <<< 16 ||| 4#64 <<< 8

/-- A card whose blocks count through their bytes. -/
def card : BitVec 32 → Block := fun _ o => o.setWidth 8

/-- A store of eight bytes to block 8. -/
def store : List StorageInput :=
  [flit (header 20 3 1), flit (address 0x1008), flit 0, flit 42] ++
    List.replicate 3 fail ++ List.replicate 9 pause

/-- A load of eight bytes from block 9. -/
def load : List StorageInput :=
  [flit (header 19 2 5), flit (address 0x1208), flit 0] ++
    List.replicate 18 pause

/-- The storage after `reset` with this card, for the run below. -/
def start : Storage 2 1 30 × Log :=
  (⟨⟨.init, .init (fun _ => 0) (fun _ => 0)⟩, fun _ => 0, 0, card, ⟨false, 0, 0⟩⟩, ⟨.empty, []⟩)

/-- The state after these cycles. -/
def after (is : List StorageInput) : Storage 2 1 30 × Log :=
  (served 2 1 30 0xffffff false card).run start (pause :: is)

/-- No load updates a dirty entry. -/
def Spares (s : Storage 2 1 30) : Prop :=
  ¬ (s.cache.state = .update ∧ s.cache.coreCacheWe = false ∧
    s.cache.entryDirty s.cache.cacheEntryLkp = true)

instance (s : Storage 2 1 30) : Decidable (Spares s) := inferInstanceAs (Decidable (¬ _))

instance (s : Storage 2 1 30) (i : StorageInput) : Decidable (s.Placed false i) :=
  inferInstanceAs (Decidable (_ → _ → _ → _ ∧ (_ → _) ∧ _ < _))

instance (s : Storage 2 1 30) (i : StorageInput) : Decidable (s.Proper false i) :=
  inferInstanceAs (Decidable (Sane _ _ ∧ s.Placed false i))

theorem Spares.keepsDirty {s : Storage 2 1 30} (h : Spares s) : s.KeepsDirty false :=
  fun hs hwe _ hd => absurd ⟨hs, hwe, hd⟩ h

theorem reachable_after {is : List StorageInput}
    (h : (served 2 1 30 0xffffff false card).RunOk
      (fun y i => y.1.Proper false i ∧ Spares y.1) start (pause :: is)) :
    (served 2 1 30 0xffffff false card).Reachable
      (fun y i => y.1.Proper false i ∧ y.1.KeepsDirty false) (after is) :=
  have hinit : (served 2 1 30 0xffffff false card).init start := ⟨⟨⟨rfl, _, _, rfl⟩, rfl⟩, rfl⟩
  (Machine.Reachable.run (.init hinit) h).mono fun _ _ hi => ⟨hi.1, hi.2.keepsDirty⟩

/-- The store, and a load of the same block up to its update. -/
def hit : List StorageInput :=
  store ++ [flit (header 19 2 5), flit (address 0x1008), flit 0]

theorem not_keepsDirty_hit : ¬ (after hit).1.KeepsDirty false := fun h => by
  have hsame := h (by decide +kernel) (by decide +kernel) (by decide +kernel) (by decide +kernel)
  exact absurd (congrFun hsame 15) (by decide +kernel)

end Blocks

open Blocks in
theorem refines_of_keepsDirty_loads :
    Refines false (onDisk 30 1 false card) (after (store ++ load ++ load)) ∧
      (after (store ++ load ++ load)).2.served.map (fun x => x.sent.getD 1 0) =
        [0, 0x08090a0b0c0d0e0f, 0x08090a0b0c0d0e0f] :=
  ⟨refines_of_keepsDirty (by decide) (reachable_after (by decide +kernel)), by decide +kernel⟩

open Blocks in
theorem dirtyMarked_next_iff_hit :
    ¬ ((after hit).1.next pause 0xffffff false).DirtyMarked false := fun h =>
  not_keepsDirty_hit
    ((dirtyMarked_next_iff (by decide) (reachable_after (by decide +kernel)) (by decide +kernel)).1 h)

end Piton.Sd
