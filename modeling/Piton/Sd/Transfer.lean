import Piton.Sd.Lock

/-! The words of a load on their way from the cache to the message buffer, and the data flits of a store
on their way to the cache. -/

namespace Piton.Sd

open Hw

variable {w m t : Nat} {f : BitVec 24}

/-! ### Words read for a load -/

/-- The words of a load come into the message buffer in order while the lock is held. -/
structure Reading (s : Bridge w m t) (x : Exchange) : Prop where
  account : Account .cache2Buffer s.core.cbState s.cache.lockPhase x
  mask : s.core.respMask = x.mask
  addr : s.core.addr = x.addrFlit.addrRemapped
  dataSz : s.core.dataSz = x.addrFlit.dataSize
  offset : s.core.cbState = .cache2Buffer → s.core.offset.toNat = x.reads.length ∧
    x.reads.length ≤ x.mask.toNat ∧ (0 < x.reads.length → s.cache.lockPhase = .lock)
  full : s.core.cbState ≠ .cache2Buffer → x.reads.length = x.mask.toNat + 1
  reads : ∃ entry : BitVec (w + m),
    x.reads = (List.range x.reads.length).map (x.readAddr entry) ∧
      (s.core.cbState = .cache2Buffer → 0 < x.reads.length → entry = s.cache.cacheEntryLkp)
  pending : x.words.length + s.core.cacheRe.toNat = x.reads.length
  late : s.core.cacheRe = true → s.core.offsetF.toNat + 1 = x.reads.length ∧
    s.cache.lockPhase = .lock
  last : s.core.cbState = .unlock → s.cache.lockPhase = .lock → s.core.cacheRe = true
  val : ∀ k, s.core.msgDataVal k = decide (k.toNat < x.words.length)
  buf : ∀ k, k.toNat < x.words.length → s.core.msgDataBuf k = x.words.getD k.toNat 0

/-- What the log of a message gains in a cycle after its address flit. -/
structure Gains (s : Bridge w m t) (i : BridgeInput) (x x' : Exchange) : Prop where
  counted : Counted s i x x'
  header : x'.header = x.header
  addrFlit : x'.addrFlit = x.addrFlit
  reads : x'.reads = if s.core.bufferCe (s.coreIn i) && !s.core.bufferWr (s.coreIn i)
    then x.reads ++ [s.core.bufferAddr (s.coreIn i)] else x.reads
  words : x'.words = if s.core.cacheRe then x.words ++ [i.bufferData] else x.words

section Reading

variable {s : Bridge w m t} {i : BridgeInput} {x x' : Exchange} {g : Writes w m}

theorem Gains.mask (h : Gains s i x x') : x'.mask = x.mask := by
  rw [Exchange.mask, Exchange.mask, h.header, h.addrFlit]

theorem Gains.readAddr (h : Gains s i x x') {n : Nat} (entry : BitVec n) :
    x'.readAddr entry = x.readAddr entry := by
  funext k
  rw [Exchange.readAddr, Exchange.readAddr, h.addrFlit]

/-- The message buffer takes the word that was read last. -/
theorem msgData_next (h : Reading s x) (hx : Gains s i x x')
    (hs : s.core.state ≠ .inData) (hidle : s.core.state ≠ .idle) :
    (∀ k, s.core.msgDataValNext (s.coreIn i) k = decide (k.toNat < x'.words.length)) ∧
      ∀ k, k.toNat < x'.words.length →
        s.core.msgDataBufNext (s.coreIn i) k = x'.words.getD k.toNat 0 := by
  have hpend := h.pending
  have hwords := hx.words
  have hin : (decide (s.core.state = .inData) && s.core.splitterGo (s.coreIn i)) = false := by
    simp [hs]
  cases hre : s.core.cacheRe with
  | false =>
    rw [hre, if_neg Bool.false_ne_true] at hwords
    rw [hwords]
    refine ⟨fun k => ?_, fun k hk => ?_⟩
    · rw [CoreCtrl.msgDataValNext, hin, hre]
      simpa [hidle] using h.val k
    · rw [CoreCtrl.msgDataBufNext, hin, hre]
      simpa using h.buf k hk
  | true =>
    rw [hre, if_pos rfl] at hwords
    have hoff := (h.late hre).1
    rw [hre] at hpend
    have hlast : s.core.offsetF.toNat = x.words.length := by
      simp only [Bool.toNat_true] at hpend
      omega
    have hkeq : ∀ k : BitVec 3, k = s.core.offsetF ↔ k.toNat = x.words.length := fun k => by
      rw [← hlast, BitVec.toNat_inj]
    rw [hwords, List.length_append, List.length_singleton]
    refine ⟨fun k => ?_, fun k hk => ?_⟩
    · rw [CoreCtrl.msgDataValNext, hin, hre]
      simp only [Bool.false_eq_true, if_false, if_true, h.val k, hkeq]
      rw [← Bool.decide_or, decide_eq_decide]
      omega
    · rw [CoreCtrl.msgDataBufNext, hin, hre]
      simp only [Bool.false_eq_true, if_false, if_true, hkeq]
      split
      next heq =>
        simp [heq, List.getD_eq_getElem?_getD, Bridge.coreIn]
      next hne =>
        have hlt : k.toNat < x.words.length := by omega
        rw [h.buf k hlt, List.getD_eq_getElem?_getD, List.getD_eq_getElem?_getD,
          List.getElem?_append_left hlt]

theorem range_map_succ {α : Type} {f : Nat → α} {l : List α} {n : Nat}
    (h : l = (List.range n).map f) : l ++ [f n] = (List.range (n + 1)).map f := by
  rw [h, List.range_succ, List.map_append]
  rfl

theorem regs_next (h : Reading s x) (hx : Gains s i x x') (hidle : s.core.state ≠ .idle)
    (hhead : s.core.state ≠ .inHeader1) :
    (s.next i f).core.respMask = x'.mask ∧
      (s.next i f).core.addr = x'.addrFlit.addrRemapped ∧
      (s.next i f).core.dataSz = x'.addrFlit.dataSize := by
  have hnext : (s.next i f).core = s.core.next (s.coreIn i) := rfl
  rw [hx.mask, hx.addrFlit, ← h.mask, ← h.addr, ← h.dataSz]
  simp [hnext, CoreCtrl.next, CoreCtrl.respMask, hidle, hhead]

theorem words_length (h : Reading s x) (hx : Gains s i x x') :
    x'.words.length = x.reads.length := by
  have := h.pending
  rw [hx.words]
  cases hre : s.core.cacheRe <;> rw [hre] at this <;> simp at this ⊢ <;> omega

/-- Nothing is read while the manager is not ready. -/
theorem reading_wait (h : Reading s x) (hok : s.cache.LockOk) (hx : Gains s i x x')
    (hs : s.core.state ≠ .inData) (hidle : s.core.state ≠ .idle) (hhead : s.core.state ≠ .inHeader1)
    (hc : s.core.cbState = .cache2Buffer) (hl : CoreCtrl.locked (s.coreIn i) = false) :
    Reading (s.next i f) x' := by
  obtain ⟨hmask, haddr, hsz⟩ := regs_next (f := f) h hx hidle hhead
  obtain ⟨hval, hbuf⟩ := msgData_next h hx hs hidle
  obtain ⟨hoff, hle, hlock⟩ := h.offset hc
  have hce : s.core.bufferCe (s.coreIn i) = false := by simp [CoreCtrl.bufferCe, hc, hl]
  have hreads : x'.reads = x.reads := by simp [hx.reads, hce]
  have hre : (s.next i f).core.cacheRe = false := by
    simp [Bridge.next, CoreCtrl.next, hce]
  have hcb : (s.next i f).core.cbState = .cache2Buffer := by
    obtain hstay | ⟨-, hl'⟩ := transfer_next (e := s.coreIn i) (.inr hc)
    · exact hstay.trans hc
    · rw [hl] at hl'
      cases hl'
  have hacc := account_transfer (f := f) hok (.inr hc)
    (by rw [hc]; exact hc ▸ h.account) hx.counted
  have hzero : x.reads.length = 0 := by
    by_contra hne
    have hp := hlock (Nat.pos_of_ne_zero hne)
    rw [(Bridge.locked_iff hok).2 (.inr hp)] at hl
    cases hl
  rw [hc] at hacc
  refine ⟨hacc, hmask, haddr, hsz, fun _ => ⟨?_, ?_, ?_⟩, fun hne => absurd hcb hne, ?_, ?_, ?_, ?_,
    hval, hbuf⟩
  · rw [hreads, ← hoff]
    simp [Bridge.next, CoreCtrl.next, hc, CoreCtrl.offsetEn, hce]
  · rw [hreads, hx.mask]
    exact hle
  · rw [hreads, hzero]
    exact fun h0 => absurd h0 (Nat.lt_irrefl 0)
  · obtain ⟨entry, hmap, -⟩ := h.reads
    refine ⟨entry, ?_, fun _ h0 => ?_⟩
    · rw [hreads, hx.readAddr]
      exact hmap
    · rw [hreads, hzero] at h0
      exact absurd h0 (Nat.lt_irrefl 0)
  · rw [hre, hreads]
    exact words_length h hx
  · rw [hre]
    exact fun hf => absurd hf Bool.false_ne_true
  · rw [hcb]
    exact fun hf => absurd hf (by decide)

/-- A word is read. -/
theorem reading_read (h : Reading s x) (hok : s.cache.LockOk) (hinv : TagInv (s.cache, g))
    (hentry : s.cache.EntryOk) (hx : Gains s i x x') (hs : s.core.state ≠ .inData)
    (hidle : s.core.state ≠ .idle) (hhead : s.core.state ≠ .inHeader1)
    (hc : s.core.cbState = .cache2Buffer) (hl : CoreCtrl.locked (s.coreIn i) = true) :
    Reading (s.next i f) x' := by
  obtain ⟨hmask, haddr, hsz⟩ := regs_next (f := f) h hx hidle hhead
  obtain ⟨hval, hbuf⟩ := msgData_next h hx hs hidle
  obtain ⟨hoff, hle, -⟩ := h.offset hc
  have hce : s.core.bufferCe (s.coreIn i) = true := by simp [CoreCtrl.bufferCe, hc, hl]
  have hwr : s.core.bufferWr (s.coreIn i) = false := by simp [CoreCtrl.bufferWr, hc]
  have hreads : x'.reads = x.reads ++ [s.core.bufferAddr (s.coreIn i)] := by
    simp [hx.reads, hce, hwr]
  have hlen : x'.reads.length = x.reads.length + 1 := by simp [hreads]
  have hre : (s.next i f).core.cacheRe = true := by
    simp [Bridge.next, CoreCtrl.next, hce, hwr]
  have hphase := (Bridge.locked_iff hok).1 hl
  have hlock := lock_of_locked (f := f) hok (.inr hc) hl
  have hcb : (s.next i f).core.cbState =
      if s.core.offset = s.core.respMask then .unlock else .cache2Buffer := by
    simp [Bridge.next, CoreCtrl.next, CoreCtrl.cbStateNext, hc, hce]
  have hacc := account_transfer (f := f) hok (.inr hc)
    (by rw [hc]; exact hc ▸ h.account) hx.counted
  have hofs : s.core.offset = BitVec.ofNat 3 x.reads.length := by
    rw [← hoff, BitVec.ofNat_toNat, BitVec.setWidth_eq]
  have hlast : s.core.offset = s.core.respMask ↔ x.reads.length = x.mask.toNat := by
    rw [h.mask, ← hoff, BitVec.toNat_inj]
  have hword : s.core.bufferAddr (s.coreIn i) = x.readAddr s.cache.cacheEntryLkp x.reads.length := by
    rw [CoreCtrl.bufferAddr, Exchange.readAddr, h.addr, h.dataSz, hofs]
    rfl
  obtain ⟨entry, hmap, heq⟩ := h.reads
  have hmap' : x.reads = (List.range x.reads.length).map (x.readAddr s.cache.cacheEntryLkp) := by
    by_cases hzero : x.reads.length = 0
    · rw [List.length_eq_zero_iff.1 hzero]
      rfl
    · rw [← heq hc (Nat.pos_of_ne_zero hzero)]
      exact hmap
  rw [hc] at hacc
  refine ⟨hacc, hmask, haddr, hsz, fun hcb' => ?_, fun hcb' => ?_,
    ⟨s.cache.cacheEntryLkp, ?_, fun _ _ => ?_⟩, ?_, fun _ => ⟨?_, hlock⟩, fun _ _ => hre, hval, hbuf⟩
  · have hne : x.reads.length ≠ x.mask.toNat := by
      intro hn
      rw [hcb, if_pos (hlast.2 hn)] at hcb'
      cases hcb'
    have hlt := x.mask.isLt
    rw [hlen, hx.mask]
    refine ⟨?_, by omega, fun _ => hlock⟩
    have hoff' : (s.next i f).core.offset = s.core.offset + 1 := by
      simp [Bridge.next, CoreCtrl.next, hc, CoreCtrl.offsetEn, hce]
    rw [hoff', BitVec.toNat_add, hoff]
    exact Nat.mod_eq_of_lt (by simp; omega)
  · have hn : x.reads.length = x.mask.toNat := by
      by_contra hn
      rw [hcb, if_neg (fun he => hn (hlast.1 he))] at hcb'
      exact hcb' rfl
    rw [hlen, hx.mask, hn]
  · rw [hlen, hx.readAddr, hreads, hword]
    exact range_map_succ hmap'
  · exact (CacheManager.cacheEntryLkp_next hinv hentry hphase).symm
  · rw [hre, hlen, words_length h hx]
    rfl
  · rw [hlen, ← hoff]
    rfl

/-- The lock is given back and the last word comes in. -/
theorem reading_done (h : Reading s x) (hok : s.cache.LockOk) (hx : Gains s i x x')
    (hs : s.core.state ≠ .inData) (hidle : s.core.state ≠ .idle) (hhead : s.core.state ≠ .inHeader1)
    (hc : s.core.cbState ≠ .cache2Buffer) : Reading (s.next i f) x' ∧
      (s.next i f).core.cbState ≠ .cache2Buffer ∧
      (s.next i f).cache.lockPhase = .free := by
  obtain ⟨hmask, haddr, hsz⟩ := regs_next (f := f) h hx hidle hhead
  obtain ⟨hval, hbuf⟩ := msgData_next h hx hs hidle
  have hcb := h.account.over hc
  have hce : s.core.bufferCe (s.coreIn i) = false := by
    obtain hcb | hcb := hcb <;> simp [CoreCtrl.bufferCe, hcb]
  have hreads : x'.reads = x.reads := by simp [hx.reads, hce]
  have hre : (s.next i f).core.cacheRe = false := by
    simp [Bridge.next, CoreCtrl.next, hce]
  obtain ⟨hacc, hcb', hfree⟩ := account_unlock (f := f) hok (.inr rfl) hcb hhead
    h.account hx.counted
  refine ⟨⟨hacc, hmask, haddr, hsz, fun hf => absurd hf hcb', fun _ => ?_, ?_, ?_, ?_, ?_, hval, hbuf⟩,
    hcb', hfree⟩
  · rw [hreads, hx.mask]
    exact h.full hc
  · obtain ⟨entry, hmap, -⟩ := h.reads
    refine ⟨entry, ?_, fun hf => absurd hf hcb'⟩
    rw [hreads, hx.readAddr]
    exact hmap
  · rw [hre, hreads]
    exact words_length h hx
  · rw [hre]
    exact fun hf => absurd hf Bool.false_ne_true
  · rw [hfree]
    exact fun _ hf => absurd hf (by decide)

/-- One step of a load after its address flit. -/
theorem Reading.step (h : Reading s x) (hok : s.cache.LockOk) (hinv : TagInv (s.cache, g))
    (hentry : s.cache.EntryOk) (hx : Gains s i x x') (hs : s.core.state ≠ .inData)
    (hidle : s.core.state ≠ .idle) (hhead : s.core.state ≠ .inHeader1) :
    Reading (s.next i f) x' := by
  by_cases hc : s.core.cbState = .cache2Buffer
  · cases hl : CoreCtrl.locked (s.coreIn i) with
    | false => exact reading_wait h hok hx hs hidle hhead hc hl
    | true => exact reading_read h hok hinv hentry hx hs hidle hhead hc hl
  · exact (reading_done h hok hx hs hidle hhead hc).1

end Reading

/-! ### Words written for a store -/

/-- The data flits of a message. -/
def Exchange.dataCount (x : Exchange) : Nat := x.flits.length - 3

/-- The data flits of a store go to the cache in order while the lock is held. -/
structure Writing (s : Bridge w m t) (x : Exchange) : Prop where
  account : Account .buffer2Cache s.core.cbState s.cache.lockPhase x
  least : 3 ≤ s.core.payload.toNat
  most : s.core.payload.toNat ≤ 10
  re : s.core.cacheRe = false
  reads : x.reads = []
  words : x.words = []
  offset : s.core.cbState = .buffer2Cache → s.core.offset.toNat ≤ x.dataCount ∧
    s.core.offset.toNat + 3 ≤ s.core.payload.toNat ∧
    (0 < s.core.offset.toNat → s.cache.lockPhase = .lock)
  val : s.core.cbState = .buffer2Cache →
    ∀ k, s.core.msgDataVal k = decide (k.toNat < x.dataCount)

section Writing

variable {s : Bridge w m t} {i : BridgeInput} {x x' : Exchange}

theorem eq_lastData_iff {n : Nat} {c : CoreCtrl} {v : BitVec n} (hn : n ≤ 8)
    (hp : 3 ≤ c.payload.toNat) :
    v.setWidth 32 = c.lastData ↔ v.toNat + 3 = c.payload.toNat := by
  have hv := v.isLt
  have hpl := c.payload.isLt
  have hn' : 2 ^ n ≤ 2 ^ 8 := Nat.pow_le_pow_right (by omega) hn
  have hw : (c.payload.setWidth 32).toNat = c.payload.toNat := by
    rw [BitVec.toNat_setWidth]
    exact Nat.mod_eq_of_lt (by omega)
  have hthree : (3 : BitVec 32).toNat ≤ (c.payload.setWidth 32).toNat := by
    rw [hw]
    exact hp
  rw [CoreCtrl.lastData, ← BitVec.toNat_inj, BitVec.toNat_sub_of_le hthree, hw,
    BitVec.toNat_setWidth, Nat.mod_eq_of_lt (by omega)]
  change v.toNat = c.payload.toNat - 3 ↔ _
  omega

/-- An access takes a data flit that has come. -/
theorem bufferCe_iff (h : Writing s x) (hc : s.core.cbState = .buffer2Cache) :
    s.core.bufferCe (s.coreIn i) = true ↔
      CoreCtrl.locked (s.coreIn i) = true ∧ s.core.offset.toNat < x.dataCount := by
  simp [CoreCtrl.bufferCe, hc, h.val hc]

theorem writing_next (h : Writing s x) (hc : s.core.cbState = .buffer2Cache) :
    s.core.cbStateNext (s.coreIn i) =
      if s.core.offset.toNat + 3 = s.core.payload.toNat ∧ s.core.bufferCe (s.coreIn i) = true
      then .unlock else .buffer2Cache := by
  have hlast := eq_lastData_iff (v := s.core.offset) (by omega) h.least
  simp only [CoreCtrl.cbStateNext, hc, Bool.and_eq_true, decide_eq_true_iff, hlast]

/-- The message buffer takes the data flit. -/
theorem writing_val (h : Writing s x) (hc : s.core.cbState = .buffer2Cache)
    (hidle : s.core.state ≠ .idle)
    (hcount : s.core.state = .inData → s.core.counter.toNat = x.dataCount ∧ x.dataCount < 8)
    (hdata : x'.dataCount = if s.core.state = .inData && s.core.splitterGo (s.coreIn i)
      then x.dataCount + 1 else x.dataCount) (k : BitVec 3) :
    s.core.msgDataValNext (s.coreIn i) k = decide (k.toNat < x'.dataCount) := by
  have hval := h.val hc k
  rw [CoreCtrl.msgDataValNext, hdata, h.re, hval]
  split
  next hin =>
    simp only [Bool.and_eq_true, decide_eq_true_iff] at hin
    obtain ⟨hcnt, hlt⟩ := hcount hin.1
    have heq : k = s.core.counter.setWidth 3 ↔ k.toNat = x.dataCount := by
      rw [← BitVec.toNat_inj, BitVec.toNat_setWidth, hcnt, Nat.mod_eq_of_lt hlt]
    simp only [heq]
    rw [← Bool.decide_or, decide_eq_decide]
    omega
  next => simp

/-- One step of a store after its address flit. -/
theorem Writing.step (h : Writing s x) (hok : s.cache.LockOk) (hx : Gains s i x x')
    (hidle : s.core.state ≠ .idle) (hhead : s.core.state ≠ .inHeader1)
    (hcount : s.core.state = .inData → s.core.counter.toNat = x.dataCount ∧ x.dataCount < 8)
    (hdata : x'.dataCount = if s.core.state = .inData && s.core.splitterGo (s.coreIn i)
      then x.dataCount + 1 else x.dataCount) : Writing (s.next i f) x' := by
  have hpay : (s.next i f).core.payload = s.core.payload := by
    simp [Bridge.next, CoreCtrl.next, hidle]
  have hcb : (s.next i f).core.cbState = s.core.cbStateNext (s.coreIn i) := rfl
  have hwords : x'.words = [] := by
    rw [hx.words, h.re, h.words]
    rfl
  by_cases hc : s.core.cbState = .buffer2Cache
  · obtain ⟨hdone, hle, hlock⟩ := h.offset hc
    have hacc := account_transfer (f := f) hok (.inl hc)
      (by rw [hc]; exact hc ▸ h.account) hx.counted
    rw [hc] at hacc
    have hrw : (s.core.bufferCe (s.coreIn i) && !s.core.bufferWr (s.coreIn i)) = false := by
      simp only [CoreCtrl.bufferCe, CoreCtrl.bufferWr, hc]
      cases CoreCtrl.locked (s.coreIn i) <;> simp
    have hreads : x'.reads = [] := by rw [hx.reads, hrw, if_neg Bool.false_ne_true, h.reads]
    have hre : (s.next i f).core.cacheRe = false := hrw
    have hoff : (s.next i f).core.offset =
        if s.core.bufferCe (s.coreIn i) then s.core.offset + 1 else s.core.offset := by
      simp only [Bridge.next, CoreCtrl.next, hc, CoreCtrl.offsetEn, reduceCtorEq, if_false]
      rfl
    have hgrow : x.dataCount ≤ x'.dataCount := by
      rw [hdata]
      split <;> omega
    refine ⟨hacc, by rw [hpay]; exact h.least, by rw [hpay]; exact h.most, hre, hreads, hwords,
      fun hc' => ?_, fun _ => writing_val h hc hidle hcount hdata⟩
    rw [hcb, writing_next h hc] at hc'
    rw [hoff, hpay]
    split
    next hce =>
      obtain ⟨hl, hlt⟩ := (bufferCe_iff h hc).1 hce
      have hne : s.core.offset.toNat + 3 ≠ s.core.payload.toNat := by
        intro he
        rw [if_pos ⟨he, hce⟩] at hc'
        cases hc'
      have hmost := h.most
      have hadd : (s.core.offset + 1).toNat = s.core.offset.toNat + 1 := by
        rw [BitVec.toNat_add]
        exact Nat.mod_eq_of_lt (by simp; omega)
      rw [hadd]
      exact ⟨by omega, by omega, fun _ => lock_of_locked hok (.inl hc) hl⟩
    next =>
      refine ⟨by omega, hle, fun hpos => ?_⟩
      exact lock_of_locked hok (.inl hc) ((Bridge.locked_iff hok).2 (.inr (hlock hpos)))
  · have hcb' := h.account.over hc
    have hce := h.account.bufferCe_eq hc (s.coreIn i)
    obtain ⟨hacc, hne, -⟩ := account_unlock (f := f) hok (.inl rfl) hcb' hhead
      h.account hx.counted
    refine ⟨hacc, by rw [hpay]; exact h.least, by rw [hpay]; exact h.most, ?_, ?_, hwords,
      fun hf => absurd hf hne, fun hf => absurd hf hne⟩
    · simp [Bridge.next, CoreCtrl.next, hce]
    · simp [hx.reads, hce, h.reads]

end Writing

end Piton.Sd
