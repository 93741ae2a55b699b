import Piton.Sd.FlatMemory

/-! The words of loads: what the controller's port reads is what the flat memory has, and the response
of a load repeats it. -/

namespace Piton.Sd

open Hw CacheManager

variable {w m t : Nat} {f : BitVec 24} {isHcxc : Bool}

section Memory

variable {s : Storage w m t} {i : StorageInput} {g : Log} {initial : BitVec (t + m) → Block}

/-- The port writes for stores only. -/
theorem portStore_of_not_wr (hp : PhaseOk s.bridge g.cur ∨ Late s.bridge g.cur)
    (h : s.core.state.handling = true → s.core.wr = false) : s.portStore i = .empty := by
  have hnot : ¬ s.bridge.core.cbState = .buffer2Cache := fun hc => by
    obtain hp | hl := hp
    · have hw := hp.wr_of_buffer2Cache hc
      rw [show s.bridge.core.wr = s.core.wr from rfl, h (hp.busy (.inl hc))] at hw
      cases hw
    · exact hl.not_busy.1 hc
  have hwr : s.core.bufferWr (s.coreIn i) = false := by
    rw [CoreCtrl.bufferWr, show s.core.cbState = s.bridge.core.cbState from rfl, decide_eq_false hnot,
      Bool.false_and]
  simp [Storage.portStore, hwr]

/-- A message that ends without being a load or store was thrown away. -/
theorem not_request_of_ends (hp : PhaseOk s.bridge g.cur ∨ Late s.bridge g.cur)
    (hh : s.core.state.handling = false) (hend : Log.ends s.bridge (s.wire i) = true) :
    s.core.wr = false ∧ s.core.rd = false := by
  simp only [Log.ends, Bool.and_eq_true, decide_eq_true_iff] at hend
  obtain ⟨⟨hr, hi⟩, hst⟩ := hend
  cases hs : s.bridge.core.state with
  | rst => exact absurd hs hr
  | idle => exact absurd hs hi
  | inHeader1 =>
    simp only [CoreCtrl.stateNext, hs] at hst
    split_ifs at hst with hreq
    simp only [Bool.or_eq_true, not_or, Bool.not_eq_true] at hreq
    exact ⟨hreq.2, hreq.1⟩
  | throwing =>
    obtain hp | hl := hp
    · rw [PhaseOk, hs] at hp
      exact ⟨hp.wr, hp.rd⟩
    · obtain hl | hl := hl.state <;>
        · rw [hs] at hl
          cases hl
  | _ =>
    rw [show s.core.state = _ from hs] at hh
    cases hh

/-- A store starts with no words written. -/
theorem written_start (hp : PhaseOk s.bridge g.cur) (hs : s.bridge.core.state = .inHeader1) :
    (s.bridge.next (s.wire i) f).core.state.handling = true →
      (s.bridge.next (s.wire i) f).written (g.nextCur s.bridge (s.wire i)) = 0 := by
  intro hh
  have hne : s.bridge.core.state ≠ .idle := by simp [hs]
  rw [PhaseOk, hs] at hp
  unfold Bridge.written
  split
  · have hoff : (s.bridge.next (s.wire i) f).core.offset = 0 := by
      simp [Bridge.next, CoreCtrl.next, hp.cb]
    rw [hoff]
    rfl
  · rw [dataCount_next hne, Exchange.dataCount, hp.length]
    split <;> rfl

/-- A cycle changes the memory as the port changes the block of the access. -/
theorem memory_step (hok : s.cache.LockOk) (hp : PhaseOk s.bridge g.cur ∨ Late s.bridge g.cur)
    (hfits : s.core.state.handling = true → g.cur.Fits isHcxc (t + m)) (hask : s.Asked)
    (hdata : DataOk s.bridge g.cur) :
    (g.update s.bridge (s.wire i)).memory initial (s.bridge.next (s.wire i) f) =
      Function.update (g.memory initial s.bridge) s.cache.coreCacheAddr
        ((s.portStore i).onto (g.memory initial s.bridge s.cache.coreCacheAddr)) := by
  by_cases hstore : s.core.state.handling = true ∧ s.core.wr = true
  · obtain hphase | hl := hp
    · exact memory_store hok hphase hfits hask hdata hstore.1 hstore.2
    · have hwr : isWr s.bridge.core.type = true := hstore.2
      rw [not_isWr_of_isRd hl.rd] at hwr
      cases hwr
  · have hnwr : s.core.state.handling = true → s.core.wr = false := fun hh => by
      rw [← Bool.not_eq_true]
      exact fun hw => hstore ⟨hh, hw⟩
    rw [portStore_of_not_wr hp hnwr, Overlay.onto_empty, Function.update_eq_self]
    -- the type register is that of the message
    have htype : s.bridge.core.state ≠ .rst → s.bridge.core.state ≠ .idle →
        isWr (g.nextCur s.bridge (s.wire i)).header.type = s.core.wr := fun hr hi => by
      rw [type_update hp hr hi]
      rfl
    refine memory_other (fun hh => ?_) (fun hend => ?_) fun hh' hw' => ?_
    · obtain ⟨hni, hnr⟩ := NocState.ne_of_handling hh
      rw [← (type_of_phase hp hnr hni).1]
      exact hnwr hh
    · have hne : s.bridge.core.state ≠ .rst ∧ s.bridge.core.state ≠ .idle := by
        simp only [Log.ends, Bool.and_eq_true, decide_eq_true_iff] at hend
        exact hend.1
      rw [htype hne.1 hne.2]
      cases hh : s.core.state.handling with
      | true => exact hnwr hh
      | false => exact (not_request_of_ends hp hh hend).1
    · obtain ⟨hs, -, -⟩ | hh := handling_before (s := s.bridge) (i := s.wire i) (f := f) hh'
      · obtain hphase | hl := hp
        · exact written_start hphase hs hh'
        · exact absurd hs hl.not_idle.2
      · obtain ⟨hni, hnr⟩ := NocState.ne_of_handling hh
        rw [htype hnr hni, hnwr hh] at hw'
        cases hw'

end Memory

/-! ### The words of a load -/

/-- The words of a load are one more than the mask. -/
theorem mask_succ {type : BitVec 8} {sz : BitVec 3} (h : isRd type = true) :
    (actualRespPayloadMask type sz).toNat + 1 = wordCount sz := by
  simp only [actualRespPayloadMask, not_isWr_of_isRd h, Bool.false_eq_true, if_false]
  revert sz
  decide

theorem and_mask {type : BitVec 8} {sz : BitVec 3} (h : isRd type = true) (j : Nat) :
    j &&& (actualRespPayloadMask type sz).toNat = j % wordCount sz := by
  have hpow : wordCount sz = 2 ^ 0 ∨ wordCount sz = 2 ^ 1 ∨ wordCount sz = 2 ^ 2 ∨
      wordCount sz = 2 ^ 3 := by
    revert sz
    decide
  obtain ⟨k, hk⟩ : ∃ k, wordCount sz = 2 ^ k := by
    obtain hk | hk | hk | hk := hpow <;> exact ⟨_, hk⟩
  have hsucc : (actualRespPayloadMask type sz).toNat + 1 = wordCount sz := mask_succ h
  rw [show (actualRespPayloadMask type sz).toNat = 2 ^ k - 1 by omega, hk,
    Nat.and_two_pow_sub_one_eq_mod]

/-- The words that have come for a load, and the one on its way. -/
structure WordsOk (s : Storage w m t) (x : Exchange) (b : Block) : Prop where
  come : ∀ k, k < x.words.length → x.words.getD k 0 = x.loadWord b k
  last : s.core.cacheRe = true → s.dout = x.loadWord b x.words.length

section Words

variable {s : Storage w m t} {i : StorageInput} {g : Log} {x x' : Exchange} {b : Block}

/-- The next word is the one that was on its way. -/
theorem WordsOk.come_next (h : WordsOk s x b) (hx : Gains s.bridge (s.wire i) x x') (k : Nat)
    (hk : k < x'.words.length) : x'.words.getD k 0 = x'.loadWord b k := by
  rw [loadWord_congr hx.addrFlit]
  rw [hx.words] at hk ⊢
  split at hk
  next hre =>
    rw [if_pos hre]
    rw [List.length_append, List.length_singleton] at hk
    by_cases hlast : k < x.words.length
    · rw [getD_append_of_lt hlast]
      exact h.come k hlast
    · obtain rfl : k = x.words.length := by omega
      rw [List.getD_eq_getElem?_getD, List.getElem?_concat_length, ← h.last hre]
      rfl
  next hre =>
    rw [if_neg hre]
    exact h.come k hk

/-- Without a read no word is on its way. -/
theorem WordsOk.quiet (h : WordsOk s x b) (hx : Gains s.bridge (s.wire i) x x')
    (hce : s.core.bufferCe (s.coreIn i) = false) : WordsOk (s.next i f isHcxc) x' b where
  come := h.come_next hx
  last hre := by
    have hnext : (s.next i f isHcxc).core.cacheRe =
        (s.core.bufferCe (s.coreIn i) && !s.core.bufferWr (s.coreIn i)) := rfl
    rw [hnext, hce] at hre
    cases hre

/-- A read of the port is the next word of the load. -/
theorem WordsOk.read (h : WordsOk s x b) (hr : Reading s.bridge x) (hrd : isRd x.header.type = true)
    (hsize : x.addrFlit.dataSize ≠ 0) (hx : Gains s.bridge (s.wire i) x x')
    (hc : s.bridge.core.cbState = .cache2Buffer)
    (hbuf : s.core.bufferCe (s.coreIn i) = true → s.buf s.cache.cacheEntryLkp = b) :
    WordsOk (s.next i f isHcxc) x' b where
  come := h.come_next hx
  last hre := by
    have hnext : (s.next i f isHcxc).core.cacheRe =
        (s.core.bufferCe (s.coreIn i) && !s.core.bufferWr (s.coreIn i)) := rfl
    rw [hnext] at hre
    have hce : s.core.bufferCe (s.coreIn i) = true := (Bool.and_eq_true _ _ ▸ hre).1
    have hdout : (s.next i f isHcxc).dout = s.bram.read (s.core.bufferAddr (s.coreIn i)) := if_pos hre
    obtain ⟨hoff, hle, -⟩ := hr.offset hc
    have hk : s.core.offset.toNat < wordCount x.addrFlit.dataSize := by
      have hsucc : x.mask.toNat + 1 = wordCount x.addrFlit.dataSize := mask_succ hrd
      have : s.core.offset.toNat = s.bridge.core.offset.toNat := rfl
      omega
    rw [hdout, words_length hr hx, ← hoff, loadWord_congr hx.addrFlit, CoreCtrl.bufferAddr,
      show s.core.addr = _ from hr.addr, show s.core.dataSz = _ from hr.dataSz,
      show (s.coreIn i).cacheEntry = s.cache.cacheEntryLkp from rfl, read_eq,
      show s.bram.block (dmaAddr s.cache.cacheEntryLkp) = b from hbuf hce]
    exact wordOf_read hsize hk

end Words

end Piton.Sd
