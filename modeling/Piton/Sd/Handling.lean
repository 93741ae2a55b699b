import Piton.Sd.Late

/-! What the phases of the controller say of a load or store once its address flit has come. -/

namespace Piton.Sd

open Hw

variable {w m t : Nat} {f : BitVec 24}

/-- Loads and stores after their address flit. -/
def NocState.handling : NocState → Bool
  | .inHeader2 | .inData | .waiting | .outHeader | .outData => true
  | _ => false

theorem NocState.ne_of_handling {n : NocState} (h : n.handling = true) : n ≠ .idle ∧ n ≠ .rst := by
  constructor <;>
    · rintro rfl
      cases h

section Phases

variable {s : Bridge w m t} {i : BridgeInput} {g : Log}

/-- From the header on the type register is that of the message. -/
theorem type_of_phase (h : PhaseOk s g.cur ∨ Late s g.cur) (hr : s.core.state ≠ .rst)
    (hi : s.core.state ≠ .idle) : s.core.type = g.cur.header.type ∧ 1 ≤ g.cur.flits.length := by
  obtain h | h := h
  · unfold PhaseOk at h
    cases hs : s.core.state with
    | rst => exact absurd hs hr
    | idle => exact absurd hs hi
    | inHeader1 =>
      rw [hs] at h
      exact ⟨h.head.type, h.length.ge⟩
    | inHeader2 =>
      rw [hs] at h
      exact ⟨h.head.type, by rw [h.length]; decide⟩
    | inData =>
      rw [hs] at h
      exact ⟨h.head.type, by rw [h.length]; omega⟩
    | waiting =>
      rw [hs] at h
      exact ⟨h.head.type, by rw [h.length]; omega⟩
    | throwing =>
      rw [hs] at h
      exact ⟨h.head.type, by rw [h.length]; omega⟩
    | outHeader =>
      rw [hs] at h
      exact ⟨h.head.type, by rw [h.length]; omega⟩
    | outData =>
      rw [hs] at h
      exact ⟨h.head.type, by rw [h.length]; omega⟩
  · have := h.length
    exact ⟨h.type, by omega⟩

/-- The address register, once the address flit has come. -/
structure Addressed (s : Bridge w m t) (x : Exchange) : Prop where
  addr : s.core.addr = x.addrFlit.addrRemapped
  dataSz : s.core.dataSz = x.addrFlit.dataSize
  length : 2 ≤ x.flits.length

theorem PhaseOk.addressed (h : PhaseOk s g.cur) (hh : s.core.state.handling = true) :
    Addressed s g.cur := by
  unfold PhaseOk at h
  cases hs : s.core.state with
  | inHeader2 =>
    rw [hs] at h
    exact ⟨h.addr, h.dataSz, h.length.ge⟩
  | inData =>
    rw [hs] at h
    exact ⟨h.source.addr, h.source.dataSz, by rw [h.length]; omega⟩
  | waiting =>
    rw [hs] at h
    have hlen := h.length
    have hpay : 2 ≤ s.core.payload.toNat := by
      obtain ⟨-, hw, -⟩ | ⟨hr, -⟩ := h.access
      · have := hw.least
        omega
      · rw [h.head.payload, h.head.wellFormed.1 (h.head.type ▸ hr)]
        decide
    exact ⟨h.source.addr, h.source.dataSz, by omega⟩
  | outHeader =>
    rw [hs] at h
    have hlen := h.length
    have hpay : 2 ≤ s.core.payload.toNat := by
      obtain ⟨-, hw, -⟩ | ⟨hr, -⟩ := h.access
      · have := hw.least
        omega
      · rw [h.head.payload, h.head.wellFormed.1 (h.head.type ▸ hr)]
        decide
    exact ⟨h.source.addr, h.source.dataSz, by omega⟩
  | outData =>
    rw [hs] at h
    have hlen := h.length
    have hpay : 2 ≤ s.core.payload.toNat := by
      rw [h.head.payload, h.head.wellFormed.1 (h.head.type ▸ h.rd)]
      decide
    exact ⟨h.source.addr, h.source.dataSz, by omega⟩
  | _ =>
    rw [hs] at hh
    cases hh

/-- What is known of a store after its address flit. -/
structure Storing (s : Bridge w m t) (x : Exchange) : Prop where
  writing : Writing s x
  come : x.dataCount + 2 ≤ s.core.payload.toNat
  count : s.core.state = .inData →
    x.dataCount + 3 ≤ s.core.payload.toNat ∧ s.core.counter.toNat = x.dataCount ∧
      x.flits.length = x.dataCount + 3
  done : s.core.cbState ≠ .buffer2Cache → s.core.state = .outHeader
  whole : s.core.state = .outHeader → x.dataCount + 2 = s.core.payload.toNat ∧
    s.core.cbState ≠ .buffer2Cache
  noData : s.core.state ≠ .outData

theorem PhaseOk.storing (h : PhaseOk s g.cur) (hh : s.core.state.handling = true)
    (hw : s.core.wr = true) : Storing s g.cur := by
  have hnr : s.core.rd = false := by
    rw [← Bool.not_eq_true]
    intro hr
    rw [CoreCtrl.wr, not_isWr_of_isRd hr] at hw
    cases hw
  unfold PhaseOk at h
  cases hs : s.core.state with
  | inHeader2 =>
    rw [hs] at h
    obtain ⟨-, hwr, hc⟩ | ⟨hr, -⟩ := h.access
    · have hcount : g.cur.dataCount = 0 := by rw [Exchange.dataCount, h.length]
      have := hwr.least
      exact ⟨hwr, by omega, fun hf => by simp [hs] at hf, fun hf => absurd hc hf,
        fun hf => by simp [hs] at hf, by simp [hs]⟩
    · rw [hnr] at hr
      cases hr
  | inData =>
    rw [hs] at h
    have := h.bound
    exact ⟨h.writing, by omega, fun _ => ⟨h.bound, h.counter, h.length⟩, fun hf => absurd h.cb hf,
      fun hf => by simp [hs] at hf, by simp [hs]⟩
  | waiting =>
    rw [hs] at h
    obtain ⟨-, hwr, hc⟩ | ⟨hr, -⟩ := h.access
    · have hcount : g.cur.dataCount = s.core.payload.toNat + 1 - 3 := by
        rw [Exchange.dataCount, h.length]
      have := hwr.least
      exact ⟨hwr, by omega, fun hf => by simp [hs] at hf, fun hf => absurd hc hf,
        fun hf => by simp [hs] at hf, by simp [hs]⟩
    · rw [hnr] at hr
      cases hr
  | outHeader =>
    rw [hs] at h
    obtain ⟨-, hwr, hc⟩ | ⟨hr, -⟩ := h.access
    · have hcount : g.cur.dataCount = s.core.payload.toNat + 1 - 3 := by
        rw [Exchange.dataCount, h.length]
      have := hwr.least
      exact ⟨hwr, by omega, fun hf => by simp [hs] at hf, fun _ => hs, fun _ => ⟨by omega, hc⟩,
        by simp [hs]⟩
    · rw [hnr] at hr
      cases hr
  | outData =>
    rw [hs] at h
    rw [h.rd] at hnr
    cases hnr
  | _ =>
    rw [hs] at hh
    cases hh

/-- What is known of a load after its address flit. -/
theorem PhaseOk.reading (h : PhaseOk s g.cur) (hh : s.core.state.handling = true)
    (hr : s.core.rd = true) : Reading s g.cur ∧ s.core.state ≠ .inData := by
  have hnw : s.core.wr = false := not_isWr_of_isRd hr
  unfold PhaseOk at h
  cases hs : s.core.state with
  | inHeader2 =>
    rw [hs] at h
    obtain ⟨hw, -⟩ | ⟨-, hread, -⟩ := h.access
    · rw [hnw] at hw
      cases hw
    · exact ⟨hread, by decide⟩
  | inData =>
    rw [hs] at h
    rw [h.wr] at hnw
    cases hnw
  | waiting =>
    rw [hs] at h
    obtain ⟨hw, -⟩ | ⟨-, hread, -⟩ := h.access
    · rw [hnw] at hw
      cases hw
    · exact ⟨hread, by decide⟩
  | outHeader =>
    rw [hs] at h
    obtain ⟨hw, -⟩ | ⟨-, hread, -⟩ := h.access
    · rw [hnw] at hw
      cases hw
    · exact ⟨hread, by decide⟩
  | outData =>
    rw [hs] at h
    exact ⟨h.reading, by decide⟩
  | _ =>
    rw [hs] at hh
    cases hh

/-- The payload register is that of the message. -/
theorem PhaseOk.payload (h : PhaseOk s g.cur) (hh : s.core.state.handling = true) :
    s.core.payload = g.cur.header.length := by
  unfold PhaseOk at h
  cases hs : s.core.state with
  | inHeader2 | inData | waiting | outHeader | outData =>
    rw [hs] at h
    exact h.head.payload
  | _ =>
    rw [hs] at hh
    cases hh

/-- Past its address flit a message takes flits only while its source or its data come in. -/
theorem state_of_splitterGo (hh : s.core.state.handling = true)
    (hgo : s.core.splitterGo (s.coreIn i) = true) :
    s.core.state = .inHeader2 ∨ s.core.state = .inData := by
  cases hs : s.core.state with
  | inHeader2 => exact .inl rfl
  | inData => exact .inr rfl
  | waiting | outHeader | outData =>
    rw [not_splitterGo (by simp [CoreCtrl.bridgeRdy, hs])] at hgo
    cases hgo
  | _ =>
    rw [hs] at hh
    cases hh

/-- The controller is busy only after an address flit. -/
theorem PhaseOk.busy (h : PhaseOk s g.cur)
    (hc : s.core.cbState = .buffer2Cache ∨ s.core.cbState = .cache2Buffer) :
    s.core.state.handling = true := by
  have hquiet : ¬ Quiet s := fun hq => by
    obtain hcb | hcb := hq.cb <;> simp [hcb] at hc
  unfold PhaseOk at h
  cases hs : s.core.state with
  | rst | idle | inHeader1 | throwing =>
    rw [hs] at h
    first
      | exact absurd h hquiet
      | exact absurd h.quiet hquiet
  | _ => rfl

/-- Only stores write. -/
theorem PhaseOk.wr_of_buffer2Cache (h : PhaseOk s g.cur) (hc : s.core.cbState = .buffer2Cache) :
    s.core.wr = true := by
  have hh := h.busy (.inl hc)
  have hrd : s.core.rd = false := by
    rw [← Bool.not_eq_true]
    intro hr
    obtain hst | ⟨hst, -⟩ | ⟨hst, -⟩ := (h.reading hh hr).1.account.stage <;>
      · rw [hc] at hst
        cases hst
  have hreq : s.core.wr = true ∨ s.core.rd = true := by
    unfold PhaseOk at h
    cases hs : s.core.state with
    | inHeader2 =>
      rw [hs] at h
      exact h.access.imp And.left And.left
    | inData =>
      rw [hs] at h
      exact .inl h.wr
    | waiting =>
      rw [hs] at h
      exact h.access.imp And.left And.left
    | outHeader =>
      rw [hs] at h
      exact h.access.imp And.left And.left
    | outData =>
      rw [hs] at h
      exact .inr h.rd
    | _ =>
      rw [hs] at hh
      cases hh
  obtain hw | hr := hreq
  · exact hw
  · rw [hrd] at hr
    cases hr

/-- A load or store is handled after its address flit. -/
theorem handling_before (h : (s.next i f).core.state.handling = true) :
    (s.core.state = .inHeader1 ∧ (s.core.rd || s.core.wr) = true ∧ i.splitterVal = true) ∨
      s.core.state.handling = true := by
  have hst : (s.next i f).core.state = s.core.stateNext (s.coreIn i) := rfl
  rw [hst] at h
  cases hs : s.core.state with
  | rst | idle | throwing =>
    simp only [CoreCtrl.stateNext, hs] at h
    first
      | (split_ifs at h <;> cases h)
      | cases h
  | inHeader1 =>
    refine .inl ⟨rfl, ?_⟩
    simp only [CoreCtrl.stateNext, CoreCtrl.splitterGo, CoreCtrl.bridgeRdy, hs] at h
    split_ifs at h with hreq hgo <;> try cases h
    refine ⟨hreq, ?_⟩
    rw [Bool.and_eq_true] at hgo
    exact hgo.2
  | _ => exact .inr rfl

/-- A store goes on until its response. -/
theorem handling_store (hh : s.core.state.handling = true) (hw : s.core.wr = true)
    (ho : s.core.state ≠ .outHeader) (hd : s.core.state ≠ .outData) :
    (s.next i f).core.state.handling = true ∧ Log.ends s i = false := by
  have hst : (s.next i f).core.state = s.core.stateNext (s.coreIn i) := rfl
  have hnext : (s.core.stateNext (s.coreIn i)).handling = true := by
    cases hs : s.core.state with
    | inHeader2 | inData | waiting =>
      simp only [CoreCtrl.stateNext, hs, hw, if_true]
      split_ifs <;> rfl
    | outHeader => exact absurd hs ho
    | outData => exact absurd hs hd
    | _ =>
      rw [hs] at hh
      cases hh
  refine ⟨hst ▸ hnext, ?_⟩
  have hne : s.core.stateNext (s.coreIn i) ≠ .idle := fun hi => by
    rw [hi] at hnext
    cases hnext
  simp [Log.ends, hne]

/-- The address flit stays while its message is handled. -/
theorem addrFlit_next (h : s.core.state.handling = true) (hlen : 2 ≤ g.cur.flits.length) :
    (g.nextCur s i).addrFlit = g.cur.addrFlit ∧ (g.nextCur s i).header = g.cur.header := by
  have hne := (NocState.ne_of_handling h).1
  exact ⟨flits_getD hne fun _ => by omega, flits_getD hne fun _ => by omega⟩

theorem length_of_handling (h : PhaseOk s g.cur ∨ Late s g.cur)
    (hh : s.core.state.handling = true) : 2 ≤ g.cur.flits.length := by
  obtain h | h := h
  · exact (h.addressed hh).length
  · exact h.length

/-- While the message is handled the address register stays. -/
theorem addr_next (h : s.core.state ≠ .inHeader1) : (s.next i f).core.addr = s.core.addr := by
  simp [Bridge.next, CoreCtrl.next, h]

/-- The lock is asked for with the address flit, or by a busy controller. -/
theorem lockAcquire_cases (h : s.core.lockAcquire (s.coreIn i) = true) :
    (s.core.cbState = .idle ∧ s.core.state = .inHeader1 ∧ s.core.splitterGo (s.coreIn i) = true) ∨
      s.core.cbState = .buffer2Cache ∨ s.core.cbState = .cache2Buffer := by
  cases hc : s.core.cbState <;> simp_all [CoreCtrl.lockAcquire]

theorem splitterGo_header1 (hs : s.core.state = .inHeader1)
    (h : s.core.splitterGo (s.coreIn i) = true) :
    (s.core.rd || s.core.wr) = true ∧ i.splitterVal = true := by
  simpa [CoreCtrl.splitterGo, CoreCtrl.bridgeRdy, hs] using h

/-- The address that the lock is asked for is in the register in the next cycle. -/
theorem cacheAddr_eq (hp : PhaseOk s g.cur ∨ Late s g.cur)
    (h : s.core.lockAcquire (s.coreIn i) = true) :
    s.core.cacheAddr (s.coreIn i) = (s.next i f).core.addr := by
  obtain ⟨-, hs, hgo⟩ | hc := lockAcquire_cases h
  · have hreq := (splitterGo_header1 hs hgo).1
    simp [CoreCtrl.cacheAddr, Bridge.next, CoreCtrl.next, hs, hgo, hreq]
  · have hs : s.core.state ≠ .inHeader1 := by
      obtain hp | hl := hp
      · intro hs
        have := hp.busy hc
        simp [hs, NocState.handling] at this
      · exact hl.not_idle.2
    rw [addr_next hs, CoreCtrl.cacheAddr, if_neg hs]

end Phases

end Piton.Sd
