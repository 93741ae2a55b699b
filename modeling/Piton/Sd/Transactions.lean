import Piton.Sd.Storage

/-! Transactions: what the transaction manager has latched is the request of the cache manager, so a
cycle moves the blocks that the cache manager means. -/

namespace Piton.Sd

open Hw CacheManager

variable {w m t : Nat} {f : BitVec 24} {isHcxc : Bool}

/-! ### Addresses on the card -/

theorem sdAddr_inj {b b' : BitVec (t + m)} (h : OnCard isHcxc b) (h' : OnCard isHcxc b')
    (hs : sdAddr isHcxc b = sdAddr isHcxc b') : b = b' := by
  apply BitVec.eq_of_toNat_eq
  unfold OnCard at h h'
  cases isHcxc with
  | true =>
    have heq := congrArg BitVec.toNat hs
    simp only [sdAddr, if_true, BitVec.toNat_setWidth] at heq h h'
    rwa [Nat.mod_eq_of_lt h, Nat.mod_eq_of_lt h'] at heq
  | false =>
    have heq := congrArg BitVec.toNat (append_inj (show b.setWidth 23 ++ 0#9 = b'.setWidth 23 ++ 0#9
      from hs)).1
    simp only [Bool.false_eq_true, if_false, BitVec.toNat_setWidth] at heq h h'
    rwa [Nat.mod_eq_of_lt h, Nat.mod_eq_of_lt h'] at heq

theorem block_setBlock (hn : w + m ≤ 3) {b : Bram} {e e' : BitVec (w + m)} {x : Block} :
    (b.setBlock (dmaAddr e) x).block (dmaAddr e') = if e' = e then x else b.block (dmaAddr e') := by
  funext o
  unfold Bram.setBlock Bram.block
  have hhigh : ((dmaAddr e').extractLsb' 9 3 ++ o).extractLsb' 9 3 = (dmaAddr e').extractLsb' 9 3 :=
    upperBits_append _ _
  have hlow : ((dmaAddr e').extractLsb' 9 3 ++ o).extractLsb' 0 9 = o := by
    apply BitVec.eq_of_toNat_eq
    have := o.isLt
    rw [toNat_slice, toNat_append_eq]
    omega
  simp only [hhigh, hlow, dmaAddr_inj hn]
  split <;> rfl

namespace Storage

/-- The request that is latched. -/
def TxnOk (isHcxc : Bool) (s : Storage w m t) : Prop :=
  match s.cache.state with
  | .writebackWait =>
    s.txn = ⟨true, sdAddr isHcxc s.cache.cacheAddrLkp, dmaAddr s.cache.cacheEntryLkp⟩
  | .fillWait => s.txn = ⟨false, sdAddr isHcxc s.cache.coreCacheAddr, dmaAddr s.cache.cacheEntryLkp⟩
  | .flushWait =>
    s.txn = ⟨true, sdAddr isHcxc s.cache.cacheAddrQuery, dmaAddr s.cache.cacheEntryQuery⟩
  | _ => True

section Steps

variable {s : Storage w m t} {i : StorageInput} {g : Writes w m}

theorem TxnOk.step (h : s.TxnOk isHcxc) (htag : TagInv (s.cache, g)) (hok : AccessOk s.cache) :
    (s.next i f isHcxc).TxnOk isHcxc := by
  have hcache : (s.next i f isHcxc).cache = s.cache.next (s.cacheIn i) f := rfl
  have htxn : (s.next i f isHcxc).txn = s.txnNext i isHcxc := rfl
  have hst : (s.cache.next (s.cacheIn i) f).state = s.cache.stateNext (s.cacheIn i) f := rfl
  -- the registers of an access stay
  have hkeep : s.cache.accessing = true → s.cache.cacheWe = false → s.cache.accepting = false →
      (s.cache.next (s.cacheIn i) f).cacheAddrLkp = s.cache.cacheAddrLkp ∧
        (s.cache.next (s.cacheIn i) f).cacheEntryLkp = s.cache.cacheEntryLkp ∧
        (s.cache.next (s.cacheIn i) f).coreCacheAddr = s.cache.coreCacheAddr := fun ha hwe hacc => by
    obtain ⟨-, haddr, he, -, -, hb⟩ := next_quiet_lkp (i := s.cacheIn i) (f := f) hwe hacc
    have hentry := cacheEntryLkp_eq htag ha
    exact ⟨hb.trans (hentry ▸ (hok.addr ha).symm), he.trans hentry.symm, haddr⟩
  have hgo : s.cache.cacheTmRdy = true → s.txnNext i isHcxc = s.txn := fun hr => by
    have hv : s.cache.cacheTmVal = false := by
      cases hs : s.cache.state <;> simp [cacheTmRdy, cacheTmVal, hs] at hr ⊢
    simp [txnNext, cacheTmGo, hv]
  rw [TxnOk, hcache, htxn]
  unfold TxnOk at h
  cases hs : s.cache.state with
  | writebackIssue =>
    obtain ⟨haddr, he, -⟩ := hkeep (by simp [accessing, hs]) (by simp [cacheWe, hs])
      (by simp [accepting, hs])
    rw [hst]
    simp only [stateNext, hs]
    by_cases hg : s.cache.cacheTmGo (s.cacheIn i) = true
    · simp only [if_pos hg, haddr, he, txnNext, cacheTmWr, cacheTmAddrSd, cacheTmAddrDma, hs]
    · simp only [if_neg hg]
  | writebackWait =>
    obtain ⟨haddr, he, -⟩ := hkeep (by simp [accessing, hs]) (by simp [cacheWe, hs])
      (by simp [accepting, hs])
    rw [hst, hgo (by simp [cacheTmRdy, hs]), haddr, he]
    simp only [hs] at h
    simp only [stateNext, hs]
    split
    next hw => exact h
    next hw =>
      split_ifs at hw
    next hw => split_ifs at hw
    next => trivial
  | fillIssue =>
    obtain ⟨-, he, haddr⟩ := hkeep (by simp [accessing, hs]) (by simp [cacheWe, hs])
      (by simp [accepting, hs])
    rw [hst]
    simp only [stateNext, hs]
    by_cases hg : s.cache.cacheTmGo (s.cacheIn i) = true
    · simp only [if_pos hg, haddr, he, txnNext, cacheTmWr, cacheTmAddrSd, cacheTmAddrDma, hs]
    · simp only [if_neg hg]
  | fillWait =>
    obtain ⟨-, he, haddr⟩ := hkeep (by simp [accessing, hs]) (by simp [cacheWe, hs])
      (by simp [accepting, hs])
    rw [hst, hgo (by simp [cacheTmRdy, hs]), haddr, he]
    simp only [hs] at h
    simp only [stateNext, hs]
    split
    next hw => split_ifs at hw
    next hw => exact h
    next hw => split_ifs at hw
    next => trivial
  | flushIssue =>
    rw [hst]
    simp only [stateNext, hs]
    by_cases hg : s.cache.cacheTmGo (s.cacheIn i) = true
    · simp only [if_pos hg, txnNext, cacheTmWr, cacheTmAddrSd, cacheTmAddrDma, hs]
      simp [CacheManager.next, hs]
    · simp only [if_neg hg]
  | flushWait =>
    rw [hst, hgo (by simp [cacheTmRdy, hs])]
    simp only [hs] at h
    simp only [stateNext, hs]
    split
    next hw => split_ifs at hw
    next hw => split_ifs at hw
    next hw =>
      rw [h]
      simp [CacheManager.next, hs]
    next => trivial
  | update =>
    rw [hst]
    simp only [stateNext, hs]
  | _ =>
    rw [hst]
    simp only [stateNext, hs]
    split <;> first | trivial | (rename_i hw; split_ifs at hw)

/-- What the controller's port writes in this cycle. -/
def portStore (s : Storage w m t) (i : StorageInput) : Overlay (BitVec 9) (BitVec 8) :=
  if s.core.bufferCe (s.coreIn i) && s.core.bufferWr (s.coreIn i)
  then portWrite (wordOffset s.core.dataSz s.core.addr s.core.offset) (bufferSz s.core.dataSz)
    s.core.coreBufferData
  else .empty

/-- The port is used while the manager is ready. -/
theorem rdy_of_bufferCe (h : s.core.bufferCe (s.coreIn i) = true) :
    s.cache.cacheCoreRdy = true := by
  have hl : CoreCtrl.locked (s.coreIn i) = true := by
    rw [CoreCtrl.bufferCe] at h
    cases hc : s.core.cbState <;> simp_all
  rw [CoreCtrl.locked, Bool.and_eq_true] at hl
  exact hl.2

theorem portStore_eq_empty (h : s.core.bufferCe (s.coreIn i) = false) :
    s.portStore i = .empty := by
  simp [portStore, h]

/-- What the BRAM gets from a transaction. -/
theorem bramNext_eq (h : s.TxnOk isHcxc) (hce : s.core.bufferCe (s.coreIn i) = false) :
    s.bramNext i = if s.cache.state = .fillWait
      then s.bram.setBlock (dmaAddr s.cache.cacheEntryLkp) (s.moved i) else s.bram := by
  rw [bramNext, hce]
  unfold TxnOk at h
  cases hs : s.cache.state <;> simp_all [cacheTmRdy]

/-- A block of the card changes only at the destination of a write. -/
theorem disk_next (h : s.TxnOk isHcxc) {b : BitVec (t + m)} (hb : OnCard isHcxc b)
    (hv : s.cache.state = .writebackWait → OnCard isHcxc s.cache.cacheAddrLkp)
    (hq : s.cache.state = .flushWait → OnCard isHcxc s.cache.cacheAddrQuery) :
    (s.next i f isHcxc).disk isHcxc b =
      if (s.cache.state = .writebackWait ∧ b = s.cache.cacheAddrLkp) ∨
        (s.cache.state = .flushWait ∧ b = s.cache.cacheAddrQuery)
      then s.moved i else s.disk isHcxc b := by
  change s.cardNext i (sdAddr isHcxc b) = _
  unfold TxnOk at h
  rw [cardNext]
  have hupd : ∀ b', OnCard isHcxc b' →
      Function.update s.card (sdAddr isHcxc b') (s.moved i) (sdAddr isHcxc b) =
        if b = b' then s.moved i else s.disk isHcxc b := fun b' hb' => by
    by_cases hbb : b = b'
    · rw [hbb, Function.update_self, if_pos rfl]
    · rw [Function.update_of_ne (fun hsd => hbb (sdAddr_inj hb hb' hsd)), if_neg hbb]
      rfl
  cases hs : s.cache.state with
  | writebackWait =>
    simp only [hs] at h
    simp [cacheTmRdy, hs, h, hupd _ (hv hs)]
  | fillWait =>
    simp only [hs] at h
    simp [cacheTmRdy, hs, h]
    rfl
  | flushWait =>
    simp only [hs] at h
    simp [cacheTmRdy, hs, h, hupd _ (hq hs)]
  | _ =>
    simp [cacheTmRdy, hs]
    rfl

/-- A cycle moves the blocks that the cache manager means. -/
theorem moves_next (hn : w + m ≤ 3) (h : s.TxnOk isHcxc)
    (hv : s.cache.state = .writebackWait → OnCard isHcxc s.cache.cacheAddrLkp)
    (hq : s.cache.state = .flushWait → OnCard isHcxc s.cache.cacheAddrQuery)
    (hwe : s.core.bufferCe (s.coreIn i) = true → s.core.bufferWr (s.coreIn i) = true →
      s.cache.coreCacheWe = true) (mem : BitVec (t + m) → Block) :
    Moves (OnCard isHcxc) s.cache (s.cacheIn i) (s.portStore i) s.buf (s.next i f isHcxc).buf
      (s.disk isHcxc) ((s.next i f isHcxc).disk isHcxc) mem
      (Function.update mem s.cache.coreCacheAddr ((s.portStore i).onto (mem s.cache.coreCacheAddr))) := by
  have hbuf : ∀ e, (s.next i f isHcxc).buf e = (s.bramNext i).block (dmaAddr e) := fun _ => rfl
  have hdone : s.cache.tmCacheGo (s.cacheIn i) = true → (s.cacheIn i).tmCacheOk = true →
      s.moved i = s.source := fun hgo hok => by
    have hok : i.tmCacheOk = true := hok
    simp [moved, Storage.moves, hgo, hok]
  have hport : s.core.bufferCe (s.coreIn i) = true → ∀ e, (s.next i f isHcxc).buf e =
      if e = s.cache.cacheEntryLkp then (s.portStore i).onto (s.buf e) else s.buf e :=
    fun hce e => by
    rw [hbuf, bramNext, if_pos hce, portStore, hce]
    cases hw : s.core.bufferWr (s.coreIn i) with
    | false =>
      simp only [Bool.true_and, Bool.false_eq_true, if_false, Overlay.onto_empty]
      split <;> rfl
    | true =>
      have hentry : (s.coreIn i).cacheEntry = s.cache.cacheEntryLkp := rfl
      refine (block_write hn).trans ?_
      rw [hentry]
      by_cases he : e = s.cache.cacheEntryLkp
      · rw [if_pos he, if_pos he, he]
        rfl
      · rw [if_neg he, if_neg he]
        rfl
  have hwait : s.core.bufferCe (s.coreIn i) = false → ∀ e, (s.next i f isHcxc).buf e =
      if s.cache.state = .fillWait ∧ e = s.cache.cacheEntryLkp then s.moved i else s.buf e :=
    fun hce e => by
    rw [hbuf, bramNext_eq h hce]
    by_cases hs : s.cache.state = .fillWait
    · rw [if_pos hs, block_setBlock hn]
      simp only [hs, true_and]
      rfl
    · rw [if_neg hs, if_neg fun hc => hs hc.1]
      rfl
  have hnot : s.cache.state = .fillWait → s.core.bufferCe (s.coreIn i) = false := fun hs => by
    rw [← Bool.not_eq_true]
    intro hce
    have hrdy := rdy_of_bufferCe hce
    simp [cacheCoreRdy, hs] at hrdy
  refine ⟨fun e he => ?_, fun hs => ?_, fun hs hgo hok => ?_, fun b hb hw hf => ?_,
    fun hs hgo hok => ?_, fun hs hgo hok => ?_, fun ho => ?_, rfl⟩
  · cases hce : s.core.bufferCe (s.coreIn i) with
    | true => rw [hport hce, if_neg he]
    | false => rw [hwait hce, if_neg fun hc => he hc.2]
  · cases hce : s.core.bufferCe (s.coreIn i) with
    | true => rw [hport hce, if_pos rfl]
    | false => rw [hwait hce, if_neg fun hc => hs hc.1, portStore_eq_empty hce, Overlay.onto_empty]
  · rw [hwait (hnot hs), if_pos ⟨hs, rfl⟩, hdone hgo hok, source]
    unfold TxnOk at h
    simp only [hs] at h
    rw [h]
    rfl
  · rw [disk_next h hb hv hq, if_neg]
    rintro (⟨hs, hbe⟩ | ⟨hs, hbe⟩)
    · exact hw hs hbe
    · exact hf hs hbe
  · rw [disk_next h (hv hs) hv hq, if_pos (.inl ⟨hs, rfl⟩), hdone hgo hok, source]
    unfold TxnOk at h
    simp only [hs] at h
    rw [h]
    rfl
  · rw [disk_next h (hq hs) hv hq, if_pos (.inr ⟨hs, rfl⟩), hdone hgo hok, source]
    unfold TxnOk at h
    simp only [hs] at h
    rw [h]
    rfl
  · have hboth : s.core.bufferCe (s.coreIn i) = true ∧ s.core.bufferWr (s.coreIn i) = true := by
      by_contra hno
      refine ho ?_
      rw [portStore, if_neg]
      rwa [Bool.and_eq_true]
    exact ⟨rdy_of_bufferCe hboth.1, hwe hboth.1 hboth.2⟩

end Steps

end Storage

end Piton.Sd
