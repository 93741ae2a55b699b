import Piton.Sd.Handling
import Piton.Sd.Transactions

/-! The storage refines a flat memory: in runs whose loads do not hit dirty blocks that differ from the
card, every load gets the bytes stored last, and what differs from the card is dirty. -/

namespace Piton.Sd

open Hw CacheManager

variable {w m t : Nat} {f : BitVec 24} {isHcxc : Bool}

/-! ### The memory in the middle of a message -/

/-- The words that a store has written. -/
def Bridge.written (s : Bridge w m t) (x : Exchange) : Nat :=
  if s.core.cbState = .buffer2Cache then s.core.offset.toNat else x.dataCount

/-- The memory after the messages that are over, and the words that the current one has written. -/
def Log.memory {n : Nat} (initial : BitVec n → Block) (g : Log) (s : Bridge w m t) :
    BitVec n → Block :=
  let mem := flatAfter initial g.served
  if s.core.state.handling && isWr g.cur.header.type
  then Function.update mem (g.cur.block n)
    ((g.cur.writes (s.written g.cur)).onto (mem (g.cur.block n))) else mem

section Writes

variable {x x' : Exchange} {d : Flit}

theorem dataByte_congr (haddr : x'.addrFlit = x.addrFlit) {r : Nat}
    (hr : x'.flits.getD (3 + r / 8) 0 = x.flits.getD (3 + r / 8) 0) : x'.dataByte r = x.dataByte r := by
  rw [Exchange.dataByte, Exchange.dataByte, Exchange.size, Exchange.size, haddr, hr]

/-- The words that have come stay as more flits come. -/
theorem writes_congr (haddr : x'.addrFlit = x.addrFlit)
    (hflits : ∀ k, k < x.flits.length → x'.flits.getD k 0 = x.flits.getD k 0) {j : Nat}
    (hj : j ≤ x.dataCount) : x'.writes j = x.writes j := by
  funext o
  have hsize : x'.size = x.size := by rw [Exchange.size, Exchange.size, haddr]
  have hoff : x'.offset = x.offset := by rw [Exchange.offset, Exchange.offset, haddr]
  unfold Exchange.writes
  rw [hsize, hoff]
  by_cases hin : o.toNat / x.size = x.offset / x.size ∧ o.toNat % x.size / 8 < j
  · rw [if_pos hin, if_pos hin]
    refine congrArg some (dataByte_congr haddr (hflits _ ?_))
    unfold Exchange.dataCount at hj
    omega
  · rw [if_neg hin, if_neg hin]

theorem loadWord_congr (haddr : x'.addrFlit = x.addrFlit) : x'.loadWord = x.loadWord := by
  funext b q
  simp only [Exchange.loadWord, Exchange.wordStart, Exchange.size, Exchange.offset, haddr]

theorem block_congr (haddr : x'.addrFlit = x.addrFlit) (n : Nat) : x'.block n = x.block n := by
  rw [Exchange.block, Exchange.block, haddr]

/-- A message that is no store leaves the memory. -/
theorem apply_of_not_wr {n : Nat} (h : isWr x.header.type = false) (mem : BitVec n → Block) :
    x.apply mem = mem := by
  rw [Exchange.apply, h, if_neg Bool.false_ne_true]

theorem flatAfter_append {n : Nat} (initial : BitVec n → Block) (l : List Exchange) (x : Exchange) :
    flatAfter initial (l ++ [x]) = x.apply (flatAfter initial l) := by
  rw [flatAfter, List.foldl_append]
  rfl

end Writes

/-! ### Messages that fit -/

/-- A load or store whose address flit was as expected. -/
structure Exchange.Fits (isHcxc : Bool) (n : Nat) (x : Exchange) : Prop where
  size : x.addrFlit.dataSize ≠ 0
  length : isWr x.header.type = true →
    x.header.length.toNat = 2 + wordCount x.addrFlit.dataSize
  onCard : OnCard isHcxc (x.block n)

/-! ### The request under the lock -/

/-- The manager works on the request of the controller. -/
def Storage.Asked (s : Storage w m t) : Prop :=
  s.cache.lockPhase ≠ .free →
    s.cache.coreCacheAddr = s.core.addr.extractLsb' 9 (t + m) ∧ s.cache.coreCacheWe = s.core.wr

section Requests

variable {s : Storage w m t} {i : StorageInput} {g : Log}

/-- While the lock is held the message is past its header. -/
theorem state_of_locked (hp : PhaseOk s.bridge g.cur ∨ Late s.bridge g.cur)
    (h : s.cache.lockPhase ≠ .free) : s.core.state ≠ .idle ∧ s.core.state ≠ .inHeader1 := by
  obtain hp | hl := hp
  · unfold PhaseOk at hp
    refine ⟨fun hs => ?_, fun hs => ?_⟩
    · rw [show s.bridge.core.state = .idle from hs] at hp
      exact h hp.free
    · rw [show s.bridge.core.state = .inHeader1 from hs] at hp
      exact h hp.quiet.free
  · exact absurd hl.free h

/-- The lock is not asked for between messages. -/
theorem not_idle_of_acquire (hp : PhaseOk s.bridge g.cur ∨ Late s.bridge g.cur)
    (h : s.core.lockAcquire (s.coreIn i) = true) : s.core.state ≠ .idle := by
  intro hs
  obtain ⟨-, hs', -⟩ | hc := lockAcquire_cases h
  · rw [show s.bridge.core.state = .idle from hs] at hs'
    cases hs'
  · obtain hp | hl := hp
    · have := hp.busy hc
      rw [show s.bridge.core.state = .idle from hs] at this
      cases this
    · exact hl.not_idle.1 hs

theorem Storage.Asked.step (h : s.Asked) (hp : PhaseOk s.bridge g.cur ∨ Late s.bridge g.cur) :
    (s.next i f isHcxc).Asked := by
  intro hfree
  have hcache : (s.next i f isHcxc).cache = s.cache.next (s.cacheIn i) f := rfl
  have hcore : (s.next i f isHcxc).core = (s.bridge.next (s.wire i) f).core := rfl
  have hwr : s.core.state ≠ .idle → (s.next i f isHcxc).core.wr = s.core.wr := fun hs =>
    (wr_next (i := s.wire i) (f := f) hs).1
  rw [hcache] at hfree ⊢
  by_cases hgrant : (s.cache.accepting && s.cache.lockReq (s.cacheIn i)) = true
  · have hacq : s.core.lockAcquire (s.coreIn i) = true := by
      rw [Bool.and_eq_true, lockReq, Bool.and_eq_true] at hgrant
      exact hgrant.2.1
    have haddr : s.core.cacheAddr (s.coreIn i) = (s.next i f isHcxc).core.addr := cacheAddr_eq hp hacq
    rw [hwr (not_idle_of_acquire hp hacq), ← haddr]
    simp only [CacheManager.next, if_pos hgrant]
    exact ⟨rfl, rfl⟩
  · have hheld : s.cache.lockPhase ≠ .free := fun hf => hfree (by
      rw [lockPhase_of_free hf, if_neg hgrant])
    obtain ⟨hni, hnh⟩ := state_of_locked hp hheld
    rw [hwr hni, hcore, addr_next hnh]
    simp only [CacheManager.next, if_neg hgrant]
    exact h hheld

/-- A message that is handled fits. -/
theorem fits_step (hp : PhaseOk s.bridge g.cur ∨ Late s.bridge g.cur)
    (h : s.core.state.handling = true → g.cur.Fits isHcxc (t + m)) (hplace : s.Placed isHcxc i)
    (hh : (s.next i f isHcxc).core.state.handling = true) :
    (g.nextCur s.bridge (s.wire i)).Fits isHcxc (t + m) := by
  obtain ⟨hs, hreq, hv⟩ | hh := handling_before (s := s.bridge) (i := s.wire i) (f := f) hh
  · have hne : s.bridge.core.state ≠ .idle := by simp [hs]
    obtain hp | hl := hp
    · rw [PhaseOk, hs] at hp
      have hgo : s.bridge.core.splitterGo (s.bridge.coreIn (s.wire i)) = true :=
        (splitterGo_of_rdy (by simp [CoreCtrl.bridgeRdy, hs, hreq])).trans hv
      have hheader : (g.nextCur s.bridge (s.wire i)).header = g.cur.header := flits_getD hne fun _ => by
        rw [hp.length]
        exact Nat.zero_lt_one
      have haddr : (g.nextCur s.bridge (s.wire i)).addrFlit = i.splitterData := by
        obtain ⟨a, ha⟩ := List.length_eq_one_iff.1 hp.length
        rw [Exchange.addrFlit, flits_next hne, if_pos hgo, ha]
        rfl
      obtain ⟨hsize, hlen, hon⟩ := hplace hs hreq hv
      refine ⟨by rw [haddr]; exact hsize, fun hw => ?_, ?_⟩
      · rw [hheader, ← hp.head.type] at hw
        rw [hheader, haddr, ← hp.head.payload]
        exact hlen hw
      · rw [Exchange.block, haddr]
        exact hon
    · exact absurd hs hl.not_idle.2
  · obtain ⟨haddr, hheader⟩ := addrFlit_next (i := s.wire i) hh (length_of_handling hp hh)
    have hfits := h hh
    exact ⟨haddr ▸ hfits.size, fun hw => by rw [hheader, haddr]; exact hfits.length (hheader ▸ hw),
      by rw [block_congr haddr]; exact hfits.onCard⟩

end Requests

/-! ### The words of a store -/

/-- The data flits that have come are in the message buffer. -/
def DataOk (s : Bridge w m t) (x : Exchange) : Prop :=
  s.core.cbState = .buffer2Cache → ∀ k : BitVec 3, k.toNat < x.dataCount →
    s.core.msgDataBuf k = x.flits.getD (3 + k.toNat) 0

section Stores

variable {s : Bridge w m t} {i : BridgeInput} {g : Log}

theorem DataOk.step (h : DataOk s g.cur) (hp : PhaseOk s g.cur) :
    DataOk (s.next i f) (g.nextCur s i) := by
  intro hc k hk
  have hcb : (s.next i f).core.cbState = s.core.cbStateNext (s.coreIn i) := rfl
  have hbuf : (s.next i f).core.msgDataBuf k = s.core.msgDataBufNext (s.coreIn i) k := rfl
  rw [hcb] at hc
  have hcases : s.core.cbState = .buffer2Cache ∨
      (s.core.cbState = .idle ∧ s.core.lockAcquire (s.coreIn i) = true) := by
    cases hs : s.core.cbState <;> simp only [CoreCtrl.cbStateNext, hs] at hc
    · right
      split_ifs at hc with hacq
      · exact ⟨rfl, hacq⟩
    · exact .inl rfl
    · split_ifs at hc
    · split_ifs at hc
  obtain hb | ⟨hb, hacq⟩ := hcases
  · have hh := hp.busy (.inl hb)
    have hst := hp.storing hh (hp.wr_of_buffer2Cache hb)
    have hne := (NocState.ne_of_handling hh).1
    have hflits := flits_next (g := g) (i := i) hne
    rw [hbuf, CoreCtrl.msgDataBufNext, hst.writing.re]
    by_cases hin : s.core.state = .inData ∧ s.core.splitterGo (s.coreIn i) = true
    · obtain ⟨hcome, hcnt, hlen⟩ := hst.count hin.1
      have hmost := hst.writing.most
      have hidx : k = s.core.counter.setWidth 3 ↔ k.toNat = g.cur.dataCount := by
        rw [← BitVec.toNat_inj, BitVec.toNat_setWidth, hcnt, Nat.mod_eq_of_lt (by omega)]
      rw [if_pos hin.2] at hflits
      rw [if_pos (by simp [hin.1, hin.2])]
      simp only [hidx]
      split
      next hk' =>
        rw [hflits, hk', List.getD_eq_getElem?_getD,
          List.getElem?_append_right (by omega), show 3 + g.cur.dataCount - g.cur.flits.length = 0 by
            omega]
        rfl
      next hk' =>
        have hlt : k.toNat < g.cur.dataCount := by
          have hcount : (g.nextCur s i).dataCount = g.cur.dataCount + 1 := by
            rw [Exchange.dataCount, hflits, List.length_append, hlen]
            rfl
          omega
        rw [hflits, getD_append_of_lt (by omega)]
        exact h hb k hlt
    · rw [if_neg (by simpa using hin), if_neg Bool.false_ne_true]
      have hlt : k.toNat < g.cur.dataCount := by
        rw [dataCount_next hne] at hk
        split at hk
        next hgo =>
          obtain hs | hs := state_of_splitterGo hh hgo
          · rw [PhaseOk, hs] at hp
            have hle := hp.length
            omega
          · exact absurd ⟨hs, hgo⟩ hin
        next => exact hk
      have hgd : (g.nextCur s i).flits.getD (3 + k.toNat) 0 = g.cur.flits.getD (3 + k.toNat) 0 :=
        flits_getD hne fun _ => by
          rw [Exchange.dataCount] at hlt
          omega
      rw [hgd]
      exact h hb k hlt
  · -- the access has just started
    obtain ⟨-, hs, hgo⟩ | hbusy := lockAcquire_cases hacq
    · have hne : s.core.state ≠ .idle := by simp [hs]
      rw [PhaseOk, hs] at hp
      have hlen : (g.nextCur s i).flits.length = 2 := by
        rw [flits_next hne, if_pos hgo, List.length_append, hp.length]
        rfl
      rw [Exchange.dataCount, hlen] at hk
      omega
    · rw [hb] at hbusy
      obtain hf | hf := hbusy <;> cases hf

/-- A write of the controller is the next word of the store, to its block. -/
theorem portStore_word {s : Storage w m t} {i : StorageInput} (hok : s.cache.LockOk)
    (hp : PhaseOk s.bridge g.cur)
    (hfits : s.core.state.handling = true → g.cur.Fits isHcxc (t + m)) (hask : s.Asked)
    (hdata : DataOk s.bridge g.cur) (hce : s.core.bufferCe (s.coreIn i) = true)
    (hc : s.core.cbState = .buffer2Cache) :
    s.core.offset.toNat < g.cur.dataCount ∧
      s.portStore i = g.cur.word s.core.offset.toNat ∧
      s.cache.coreCacheAddr = g.cur.block (t + m) := by
  have hh := hp.busy (.inl hc)
  have hwr := hp.wr_of_buffer2Cache hc
  have hst := hp.storing hh hwr
  have hadr := hp.addressed hh
  obtain ⟨hl, hlt⟩ := (bufferCe_iff (i := s.wire i) hst.writing hc).1 hce
  have hfit := hfits hh
  have hlt : s.core.offset.toNat < g.cur.dataCount := hlt
  have hwrite : s.core.bufferWr (s.coreIn i) = true := by
    have hl' : CoreCtrl.locked (s.coreIn i) = true := hl
    have hc' : s.core.cbState = .buffer2Cache := hc
    simp [CoreCtrl.bufferWr, hc', hl']
  have hfree : s.cache.lockPhase ≠ .free := by
    obtain hphase | hphase := (Bridge.locked_iff hok).1 hl <;>
      · intro hf
        rw [show s.cache.lockPhase = _ from hphase] at hf
        cases hf
  have htype : isWr g.cur.header.type = true := by
    obtain ⟨hni, hnr⟩ := NocState.ne_of_handling hh
    rw [← (type_of_phase (.inl hp) hnr hni).1]
    exact hwr
  have hpay := hp.payload hh
  have hk : s.core.offset.toNat < wordCount g.cur.addrFlit.dataSize := by
    have hlen := hfit.length htype
    have hcome := hst.come
    rw [show s.bridge.core.payload = _ from hpay, hlen] at hcome
    omega
  refine ⟨hlt, ?_, ?_⟩
  · have hword := portWrite_eq (x := g.cur) (k := s.core.offset) hfit.size hk
    have hdat : s.core.msgDataBuf s.core.offset = g.cur.flits.getD (3 + s.core.offset.toNat) 0 :=
      hdata hc _ hlt
    rw [Storage.portStore, hce, hwrite, Bool.and_self, if_pos rfl, ← hword, ← hdat,
      show s.core.addr = _ from hadr.addr, show s.core.dataSz = _ from hadr.dataSz]
    rfl
  · rw [(hask hfree).1, show s.core.addr = _ from hadr.addr]
    rfl

/-- Without a store in progress the memory is that of the messages that are over. -/
theorem memory_eq_flatAfter {n : Nat} {initial : BitVec n → Block}
    (h : s.core.state.handling = true → isWr g.cur.header.type = true → s.written g.cur = 0) :
    g.memory initial s = flatAfter initial g.served := by
  unfold Log.memory
  split
  next hc =>
    rw [Bool.and_eq_true] at hc
    rw [h hc.1 hc.2, writes_zero]
    exact Function.update_eq_self _ _
  next => rfl

theorem memory_of_store {n : Nat} {initial : BitVec n → Block} (hh : s.core.state.handling = true)
    (hw : isWr g.cur.header.type = true) : g.memory initial s =
      Function.update (flatAfter initial g.served) (g.cur.block n)
        ((g.cur.writes (s.written g.cur)).onto (flatAfter initial g.served (g.cur.block n))) := by
  unfold Log.memory
  rw [hh, hw]
  rfl

theorem served_update (hend : Log.ends s i = false) : (g.update s i).served = g.served := by
  rw [Log.update, hend, if_neg Bool.false_ne_true]

theorem served_update_ends (hend : Log.ends s i = true) :
    (g.update s i).served = g.served ++ [g.nextCur s i] := by
  rw [Log.update, hend, if_pos rfl]

/-- The type of the message does not change. -/
theorem type_update (h : PhaseOk s g.cur ∨ Late s g.cur) (hr : s.core.state ≠ .rst)
    (hi : s.core.state ≠ .idle) : (g.nextCur s i).header.type = s.core.type := by
  obtain ⟨htype, hlen⟩ := type_of_phase h hr hi
  rw [htype]
  exact congrArg Flit.type (flits_getD hi fun _ => hlen)

/-- Messages that are no stores leave the memory as it is. -/
theorem memory_other {n : Nat} {initial : BitVec n → Block}
    (hold : s.core.state.handling = true → isWr g.cur.header.type = false)
    (hnew : Log.ends s i = true → isWr (g.nextCur s i).header.type = false)
    (hstart : (s.next i f).core.state.handling = true →
      isWr (g.nextCur s i).header.type = true → (s.next i f).written (g.nextCur s i) = 0) :
    (g.update s i).memory initial (s.next i f) = g.memory initial s := by
  rw [memory_eq_flatAfter (s := s) fun hh hw => by rw [hold hh] at hw; cases hw]
  cases hend : Log.ends s i with
  | false =>
    refine (memory_eq_flatAfter (g := g.update s i) hstart).trans ?_
    rw [served_update hend]
  | true =>
    refine (memory_eq_flatAfter (g := g.update s i) hstart).trans ?_
    rw [served_update_ends hend, flatAfter_append, apply_of_not_wr (hnew hend)]

/-- While a store goes on, the words that are in the memory after a cycle are some of those that had
come before it. -/
theorem memory_next_of_store {n : Nat} {initial : BitVec n → Block}
    (hh : s.core.state.handling = true) (hlen : 2 ≤ g.cur.flits.length)
    (htype : isWr g.cur.header.type = true) (hh' : (s.next i f).core.state.handling = true)
    (hend : Log.ends s i = false) {j : Nat} (hj : j ≤ g.cur.dataCount)
    (hw : (s.next i f).written (g.nextCur s i) = j) :
    (g.update s i).memory initial (s.next i f) =
      Function.update (flatAfter initial g.served) (g.cur.block n)
        ((g.cur.writes j).onto (flatAfter initial g.served (g.cur.block n))) := by
  obtain ⟨haddr, hheader⟩ := addrFlit_next (i := i) hh hlen
  have hne := (NocState.ne_of_handling hh).1
  have htype' : isWr (g.nextCur s i).header.type = true := by
    rw [hheader]
    exact htype
  have hwrites := writes_congr haddr (fun k hk => flits_getD hne fun _ => hk) hj
  refine (memory_of_store (g := g.update s i) hh' htype').trans ?_
  rw [served_update hend, show (g.update s i).cur = g.nextCur s i from rfl, block_congr haddr, hw,
    hwrites]

/-- When the controller writes the last word of a store, no more words come. -/
theorem dataCount_next_of_last (hp : PhaseOk s g.cur) (hh : s.core.state.handling = true)
    (hst : Storing s g.cur) (hlt : s.core.offset.toNat < g.cur.dataCount)
    (hlast : s.core.offset.toNat + 3 = s.core.payload.toNat) :
    (g.nextCur s i).dataCount = s.core.offset.toNat + 1 := by
  have hcome := hst.come
  rw [dataCount_next (NocState.ne_of_handling hh).1]
  split
  next hgo =>
    obtain hs | hs := state_of_splitterGo hh hgo
    · rw [PhaseOk, hs] at hp
      have hlen := hp.length
      rw [Exchange.dataCount, hlen] at hlt
      omega
    · have hcount := (hst.count hs).1
      omega
  next => omega

/-- The controller writes the next word of a store. -/
theorem written_next (hp : PhaseOk s g.cur) (hh : s.core.state.handling = true)
    (hst : Storing s g.cur) (hc : s.core.cbState = .buffer2Cache)
    (hlt : s.core.offset.toNat < g.cur.dataCount)
    (hce : s.core.bufferCe (s.coreIn i) = true) :
    (s.next i f).written (g.nextCur s i) = s.core.offset.toNat + 1 := by
  have hcb : (s.next i f).core.cbState = s.core.cbStateNext (s.coreIn i) := rfl
  have hnext := writing_next (i := i) hst.writing hc
  by_cases hlast : s.core.offset.toNat + 3 = s.core.payload.toNat
  · rw [if_pos ⟨hlast, hce⟩] at hnext
    rw [Bridge.written, hcb, hnext, if_neg (by decide)]
    exact dataCount_next_of_last hp hh hst hlt hlast
  · have hmost := hst.writing.most
    have hcome := hst.come
    rw [if_neg fun hl => hlast hl.1] at hnext
    have hoff : (s.next i f).core.offset = s.core.offset + 1 := by
      simp only [Bridge.next, CoreCtrl.next, hc, CoreCtrl.offsetEn, reduceCtorEq, if_false, hce]
      rfl
    rw [Bridge.written, hcb, hnext, if_pos rfl, hoff, BitVec.toNat_add]
    refine Nat.mod_eq_of_lt ?_
    simp only [BitVec.reduceToNat, Nat.reducePow]
    omega

/-- The controller waits for the next word of a store. -/
theorem written_stays (hst : Storing s g.cur) (hc : s.core.cbState = .buffer2Cache)
    (hce : s.core.bufferCe (s.coreIn i) = false) :
    (s.next i f).written (g.nextCur s i) = s.core.offset.toNat := by
  have hcb : (s.next i f).core.cbState = s.core.cbStateNext (s.coreIn i) := rfl
  have hnext := writing_next (i := i) hst.writing hc
  have hoff : (s.next i f).core.offset = s.core.offset := by
    simp only [Bridge.next, CoreCtrl.next, hc, CoreCtrl.offsetEn, reduceCtorEq, if_false, hce]
  rw [if_neg fun hl => by rw [hce] at hl; cases hl.2] at hnext
  rw [Bridge.written, hcb, hnext, if_pos rfl, hoff]

/-- A store whose words are all written only gets its response. -/
theorem done_next (hst : Storing s g.cur) (hc : s.core.cbState ≠ .buffer2Cache) :
    s.core.state = .outHeader ∧ s.core.bufferCe (s.coreIn i) = false ∧
      (s.next i f).core.cbState ≠ .buffer2Cache := by
  have hs := hst.done hc
  have hcb := hst.writing.account.over hc
  refine ⟨hs, hst.writing.account.bufferCe_eq hc _, ?_⟩
  change s.core.cbStateNext (s.coreIn i) ≠ _
  obtain hcb | hcb := hcb
  · simp only [CoreCtrl.cbStateNext, hcb]
    split_ifs <;> simp
  · have hacq : s.core.lockAcquire (s.coreIn i) = false := by
      simp [CoreCtrl.lockAcquire, hcb, hs]
    simp [CoreCtrl.cbStateNext, hcb, hacq]

/-- A cycle in which the words of a store are being written. -/
theorem memory_writing {s : Storage w m t} {i : StorageInput} {initial : BitVec (t + m) → Block}
    (hok : s.cache.LockOk) (hp : PhaseOk s.bridge g.cur)
    (hfits : s.core.state.handling = true → g.cur.Fits isHcxc (t + m)) (hask : s.Asked)
    (hdata : DataOk s.bridge g.cur) (hh : s.bridge.core.state.handling = true)
    (hst : Storing s.bridge g.cur) (htype : isWr g.cur.header.type = true)
    (hc : s.bridge.core.cbState = .buffer2Cache) :
    (g.update s.bridge (s.wire i)).memory initial (s.bridge.next (s.wire i) f) =
      Function.update (g.memory initial s.bridge) s.cache.coreCacheAddr
        ((s.portStore i).onto (g.memory initial s.bridge s.cache.coreCacheAddr)) := by
  have hout : s.bridge.core.state ≠ .outHeader := fun hs => (hst.whole hs).2 hc
  have hlen := (hp.addressed hh).length
  obtain ⟨hh', hend⟩ := handling_store (i := s.wire i) (f := f) hh (hp.wr_of_buffer2Cache hc) hout
    hst.noData
  have hbefore : s.bridge.written g.cur = s.bridge.core.offset.toNat := by
    rw [Bridge.written, if_pos hc]
  rw [memory_of_store hh htype, hbefore]
  cases hce : s.bridge.core.bufferCe (s.bridge.coreIn (s.wire i)) with
  | true =>
    obtain ⟨hlt, hport, hask'⟩ := portStore_word hok hp hfits hask hdata hce hc
    have hlt' : s.bridge.core.offset.toNat < g.cur.dataCount := hlt
    have hword : s.portStore i = g.cur.word s.bridge.core.offset.toNat := hport
    rw [memory_next_of_store hh hlen htype hh' hend hlt' (written_next hp hh hst hc hlt' hce), hword,
      hask', Function.update_idem, Function.update_self, writes_succ, Overlay.onto_put]
  | false =>
    have hport : s.portStore i = .empty := Storage.portStore_eq_empty hce
    rw [memory_next_of_store hh hlen htype hh' hend (hst.writing.offset hc).1
      (written_stays hst hc hce), hport, Overlay.onto_empty, Function.update_eq_self]

/-- A cycle in which the words of a store are all written. -/
theorem memory_answering {s : Storage w m t} {i : StorageInput} {initial : BitVec (t + m) → Block}
    (hp : PhaseOk s.bridge g.cur) (hfit : g.cur.Fits isHcxc (t + m))
    (hh : s.bridge.core.state.handling = true) (hst : Storing s.bridge g.cur)
    (htype : isWr g.cur.header.type = true) (hc : s.bridge.core.cbState ≠ .buffer2Cache) :
    (g.update s.bridge (s.wire i)).memory initial (s.bridge.next (s.wire i) f) =
      g.memory initial s.bridge := by
  obtain ⟨hs, -, hcb⟩ := done_next (i := s.wire i) (f := f) hst hc
  obtain ⟨haddr, hheader⟩ := addrFlit_next (i := s.wire i) hh (hp.addressed hh).length
  have hne := (NocState.ne_of_handling hh).1
  have hcount : (g.nextCur s.bridge (s.wire i)).dataCount = g.cur.dataCount := by
    rw [dataCount_next hne, not_splitterGo (by simp [CoreCtrl.bridgeRdy, hs]),
      if_neg Bool.false_ne_true]
  rw [memory_of_store hh htype, Bridge.written, if_neg hc]
  cases hend : Log.ends s.bridge (s.wire i) with
  | false =>
    have hh' : (s.bridge.next (s.wire i) f).core.state.handling = true := by
      change (s.bridge.core.stateNext (s.bridge.coreIn (s.wire i))).handling = true
      simp only [Log.ends, hs, CoreCtrl.stateNext] at hend ⊢
      split_ifs <;> simp_all [NocState.handling]
    refine memory_next_of_store hh (hp.addressed hh).length htype hh' hend (Nat.le_refl _) ?_
    rw [Bridge.written, if_neg hcb, hcount]
  | true =>
    have hidle : (s.bridge.next (s.wire i) f).core.state = .idle := by
      simp only [Log.ends, Bool.and_eq_true, decide_eq_true_iff] at hend
      exact hend.2
    have hall : g.cur.dataCount = wordCount g.cur.addrFlit.dataSize := by
      have hwhole := (hst.whole hs).1
      rw [hp.payload hh, hfit.length htype] at hwhole
      omega
    have hsize : (g.nextCur s.bridge (s.wire i)).addrFlit.dataSize ≠ 0 := haddr ▸ hfit.size
    have hwrites := writes_congr haddr (fun k hk => flits_getD hne fun _ => hk)
      (Nat.le_refl g.cur.dataCount)
    refine (memory_eq_flatAfter (g := g.update s.bridge (s.wire i)) fun hh' => ?_).trans ?_
    · rw [hidle] at hh'
      cases hh'
    · rw [served_update_ends hend, flatAfter_append, Exchange.apply, hheader, htype, if_pos rfl,
        block_congr haddr, ← writes_all hsize, ← hwrites, hall, haddr]

/-- A cycle of a store. -/
theorem memory_store {s : Storage w m t} {i : StorageInput} {initial : BitVec (t + m) → Block}
    (hok : s.cache.LockOk) (hp : PhaseOk s.bridge g.cur)
    (hfits : s.core.state.handling = true → g.cur.Fits isHcxc (t + m)) (hask : s.Asked)
    (hdata : DataOk s.bridge g.cur) (hh : s.core.state.handling = true) (hwr : s.core.wr = true) :
    (g.update s.bridge (s.wire i)).memory initial (s.bridge.next (s.wire i) f) =
      Function.update (g.memory initial s.bridge) s.cache.coreCacheAddr
        ((s.portStore i).onto (g.memory initial s.bridge s.cache.coreCacheAddr)) := by
  have hh' : s.bridge.core.state.handling = true := hh
  have hst := hp.storing hh hwr
  have htype : isWr g.cur.header.type = true := by
    obtain ⟨hni, hnr⟩ := NocState.ne_of_handling hh'
    rw [← (type_of_phase (.inl hp) hnr hni).1]
    exact hwr
  by_cases hc : s.bridge.core.cbState = .buffer2Cache
  · exact memory_writing hok hp hfits hask hdata hh' hst htype hc
  · have hport : s.portStore i = .empty :=
      Storage.portStore_eq_empty (done_next (i := s.wire i) (f := f) hst hc).2.1
    rw [memory_answering hp (hfits hh) hh' hst htype hc, hport, Overlay.onto_empty,
      Function.update_eq_self]

end Stores

end Piton.Sd
