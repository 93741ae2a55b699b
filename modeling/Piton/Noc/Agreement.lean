import Piton.L2.Pipe1BufIn
import Piton.L2.Pipe2BufIn
import Piton.Noc.Sending

/-! The formats agree: what the L2 reads from the messages of the L1.5 is what was requested, and what
the L1.5 reads from the forwards and responses of the L2 is what their headers carry. -/

namespace Piton.Noc

open Hw

/-! ### The input buffers of the L2 -/

/-- The L2 reads the fields and the data words of a message in its flits: the first input buffer,
which loses nothing of its stream, parts them into header and data as `pipe1BufIn` does. -/
structure ReadByPipe1 (flits : List Flit) (fields : L2Fields) (words : List Flit) : Prop where
  parts : pipe1BufIn flits = some (L2.msgHeaderOut (L2.pipe1Heads flits), words)
  data : L2.pipe1Data flits = words
  fields : l2Decoder (L2.msgHeaderOut (L2.pipe1Heads flits)) = fields

/-- The same for the second input buffer. -/
structure ReadByPipe2 (flits : List Flit) (fields : L2Fields) (words : List Flit) : Prop where
  parts : pipe2BufIn flits = some (L2.msgHeaderOut (L2.pipe2Heads flits), words)
  data : L2.pipe2Data flits = words
  fields : l2Decoder (L2.msgHeaderOut (L2.pipe2Heads flits)) = fields

theorem header1_len {a : BitVec 14} {b c : BitVec 8} {d : BitVec 4} {l t m : BitVec 8}
    {o : BitVec 6} : Flit.len (header1 a b c d l t m o) = l.toNat := by
  unfold Flit.len Flit.length header1
  simp (disch := omega) only [extractLsb'_setSlice_within, extractLsb'_setSlice_apart,
    BitVec.extractLsb'_eq_self, Nat.reduceSub]

namespace SelectedReq

variable {p : Place} {q : SelectedReq}

theorem flits_cons : q.flits p = q.flit p 0 :: (q.flits p).drop 1 :=
  (drop_map_range _ (Nat.zero_le _) :
    (q.flits p).drop 0 = q.flit p (BitVec.ofNat 4 0) :: (q.flits p).drop (0 + 1))

theorem flit_len : Flit.len (q.flit p 0) = (q.msg p).length.toNat := header1_len

theorem flit_type : L2.msgType (q.flit p 0) = (q.msg p).type := Noc3Req.header1_type

/-- The header of a message says how many flits follow. -/
theorem flits_isPacket : IsPacket Flit.len (q.flits p) 0 := by
  refine ⟨_, _, flits_cons, ?_⟩
  rw [List.length_drop, flits_length, flit_len]
  rfl

/-- A request that is no interrupt has three header flits and up to two data flits. -/
theorem msg_shape (hint : q.reqType ≠ .interruptFwd) (hnone : q.reqType ≠ .none) :
    (q.msg p).type ≠ MsgType.interruptFwd ∧ 2 ≤ (q.msg p).length.toNat ∧
      (q.msg p).length.toNat ≤ 4 := by
  unfold msg
  cases hr : q.reqType with
  | interruptFwd => exact absurd hr hint
  | none => exact absurd hr hnone
  | _ =>
    simp only [msgTo]
    cases q.prefetch <;> cases q.nc <;> decide

theorem readByPipe1 (hint : q.reqType ≠ .interruptFwd) (hnone : q.reqType ≠ .none) :
    ReadByPipe1 (q.flits p) (q.fields p) q.dataWords := by
  obtain ⟨hbuf, hraw⟩ := pipe1BufIn_flits (p := p) hint hnone
  obtain ⟨htype, hmin, hmax⟩ := msg_shape (p := p) hint hnone
  have hpk : IsPacket Flit.len (q.flits p) 0 := flits_isPacket
  have hparts := L2.pipe1BufIn_eq hpk (fun f hf => ?_)
  · rw [hbuf, Option.some.injEq, Prod.mk.injEq] at hparts
    obtain ⟨hhead, hdata⟩ := hparts
    rw [hhead] at hbuf
    exact ⟨hbuf, hdata.symm, hhead ▸ l2Decoder_headers hraw⟩
  · rw [flits_cons, List.head?_cons, Option.mem_some_iff] at hf
    subst hf
    have hother : L2.Pipe1State.isInterrupt (q.flit p 0) = false :=
      decide_eq_false fun h => htype (flit_type.symm.trans h)
    exact ⟨hother, .inr ⟨hother, flit_len ▸ hmin, flit_len ▸ hmax⟩⟩

end SelectedReq

namespace Noc3Req

variable {p : Place} {r : Noc3Req}

theorem flits_cons : r.flits p = r.flit p (r.dataOf 0) 0 :: (r.flits p).drop 1 :=
  (drop_map_range _ (Nat.zero_le _) : (r.flits p).drop 0 =
    r.flit p (r.dataOf (BitVec.ofNat 4 0)) (BitVec.ofNat 4 0) :: (r.flits p).drop (0 + 1))

/-- Every message starts with its length and type. -/
theorem flit_header1 (d : Flit) : ∃ o, r.flit p d 0 =
    header1 (homeChip r.homeid) (homeX r.homeid) (homeY r.homeid) 0 r.msgLength r.msgType
      r.msgMshrid o := by
  cases hreq : r.isRequest with
  | true => exact ⟨0, flit_of_request hreq d 0⟩
  | false => exact ⟨r.msgOptions4, flit_of_response hreq d 0⟩

theorem flit_len (d : Flit) : Flit.len (r.flit p d 0) = r.msgLength.toNat := by
  obtain ⟨o, ho⟩ := flit_header1 (p := p) (r := r) d
  rw [ho, header1_len]

theorem flit_type (d : Flit) : L2.msgType (r.flit p d 0) = r.msgType := by
  obtain ⟨o, ho⟩ := flit_header1 (p := p) (r := r) d
  rw [ho]
  exact header1_type

/-- The header of a message says how many flits follow. -/
theorem flits_isPacket : IsPacket Flit.len (r.flits p) 0 := by
  refine ⟨_, _, flits_cons, ?_⟩
  rw [List.length_drop, flits_length, flit_len]
  rfl

theorem readByPipe2 : ReadByPipe2 (r.flits p) (r.fields p) r.dataWords := by
  obtain ⟨h, hbuf, hfields⟩ := pipe2BufIn_flits (p := p) (r := r)
  have hpk : IsPacket Flit.len (r.flits p) 0 := flits_isPacket
  have hparts := L2.pipe2BufIn_eq hpk (fun f hf => ?_)
  · rw [hbuf, Option.some.injEq, Prod.mk.injEq] at hparts
    obtain ⟨hhead, hdata⟩ := hparts
    rw [hhead] at hbuf hfields
    exact ⟨hbuf, hdata.symm, hfields⟩
  · rw [flits_cons, List.head?_cons, Option.mem_some_iff] at hf
    subst hf
    cases hreq : r.isRequest with
    | true =>
      refine .inl ⟨decide_eq_true ((flit_type _).trans (msgType_eq_wbReq.2 hreq)), ?_⟩
      rw [flit_len, msgLength_cases.1 hreq]
      rfl
    | false =>
      refine .inr ⟨decide_eq_false fun hwb => ?_, ?_⟩
      · rw [msgType_eq_wbReq.1 ((flit_type _).symm.trans hwb)] at hreq
        cases hreq
      · rw [flit_len]
        rcases msgLength_cases.2 hreq with h | h <;> rw [h]
        · exact .inl rfl
        · exact .inr (.inl rfl)

end Noc3Req

/-! ### Receiving -/

namespace SimpleNocBuffer

variable {b : SimpleNocBuffer} {fs : List Flit} {stale : Fin 8 → Flit} {k : Nat}

/-- `k` flits of a message have been received into a buffer that held `stale`. -/
structure Receiving (fs : List Flit) (stale : Fin 8 → Flit) (b : SimpleNocBuffer) (k : Nat) :
    Prop where
  buffer : ∀ j, b.buffer j = if j.val < k then fs.getD j (stale j) else stale j
  idle : k = 0 → b.state = .idle ∧ b.index = 0
  receiving : 0 < k → k < fs.length → b.state = .receiving ∧ b.index.val = k
  complete : 0 < k → k = fs.length → b.state = .waitingAck

theorem Receiving.step_some (hr : Receiving fs stale b k) (hk : k < fs.length)
    (hlen : fs.length ≤ 8) (hlength : ∀ h : 0 < fs.length, fs[0].length.toNat + 1 = fs.length) :
    Receiving fs stale (b.step (some fs[k]) false) (k + 1) := by
  have hpos : 0 < fs.length := by omega
  have hlength0 := hlength hpos
  by_cases h0 : k = 0
  · subst h0
    obtain ⟨hidle, hindex⟩ := hr.idle rfl
    have hzero : fs[0].length = 0 ↔ fs.length = 1 := by
      rw [← BitVec.toNat_inj]
      simp
      omega
    have hbuf : ∀ j : Fin 8, (if j = 0 then fs[0] else b.buffer j) =
        if j.val < 0 + 1 then fs.getD j (stale j) else stale j := by
      intro j
      by_cases hj : j = 0
      · subst hj
        simp [hpos]
      · have hj' : ¬ j.val < 0 + 1 := fun h => hj (Fin.ext (by simp; omega))
        rw [if_neg hj, hr.buffer j, if_neg (by omega), if_neg hj']
    unfold step
    rw [hidle]
    by_cases h1 : fs.length = 1
    · simp only [hzero.mpr h1, if_true]
      exact ⟨hbuf, fun h => absurd h (by omega), fun _ h => absurd h (by omega), fun _ _ => rfl⟩
    · simp only [mt hzero.mp h1, if_false]
      refine ⟨hbuf, fun h => absurd h (by omega), fun _ _ => ⟨rfl, ?_⟩, fun _ h => absurd h.symm h1⟩
      rw [hindex]
      rfl
  · obtain ⟨hrec, hindex⟩ := hr.receiving (by omega) hk
    have hfirst : b.buffer 0 = fs[0] := by
      rw [hr.buffer 0, if_pos (show (0 : Fin 8).val < k by simp; omega)]
      simp [hpos]
    have hend : BitVec.ofNat 8 b.index = (b.buffer 0).length ↔ k + 1 = fs.length := by
      rw [hfirst, ← BitVec.toNat_inj, BitVec.toNat_ofNat, hindex, Nat.mod_eq_of_lt (by omega)]
      omega
    have hbuf : ∀ j : Fin 8, (if j = b.index then fs[k] else b.buffer j) =
        if j.val < k + 1 then fs.getD j (stale j) else stale j := by
      intro j
      by_cases hj : j = b.index
      · have hjk : j.val = k := by rw [hj, hindex]
        rw [if_pos hj, if_pos (by omega), hjk]
        simp [hk]
      · have hjk : j.val ≠ k := fun h => hj (Fin.ext (h.trans hindex.symm))
        rw [if_neg hj, hr.buffer j]
        by_cases hlt : j.val < k
        · rw [if_pos hlt, if_pos (by omega)]
        · rw [if_neg hlt, if_neg (by omega)]
    unfold step
    rw [hrec]
    by_cases h1 : k + 1 = fs.length
    · simp only [hend.mpr h1, if_true]
      exact ⟨hbuf, fun h => absurd h (by omega), fun _ h => absurd h (by omega), fun _ _ => rfl⟩
    · simp only [mt hend.mp h1, if_false]
      refine ⟨hbuf, fun h => absurd h (by omega), fun _ _ => ⟨rfl, ?_⟩, fun _ h => absurd h h1⟩
      show (b.index.val + 1) % 8 = k + 1
      omega

theorem Receiving.step_none (hr : Receiving fs stale b k) :
    Receiving fs stale (b.step none false) k := by
  have hb : b.step none false = b := by
    unfold step
    cases hst : b.state with
    | idle =>
      show { b with state := Noc2State.idle } = b
      rw [← hst]
    | receiving => rfl
    | waitingAck => rfl
  rw [hb]
  exact hr

/-- The state after the flits offered in each cycle. -/
def receive (b : SimpleNocBuffer) (ins : List (Option Flit)) : SimpleNocBuffer :=
  ins.foldl (fun b i => b.step i false) b

/-- A message is complete in the buffer once its flits have come, with any gaps. -/
theorem Receiving.receive {ins : List (Option Flit)} (hr : Receiving fs stale b k)
    (hk : k ≤ fs.length) (hlen : fs.length ≤ 8)
    (hlength : ∀ h : 0 < fs.length, fs[0].length.toNat + 1 = fs.length)
    (hins : ins.filterMap id = fs.drop k) : Receiving fs stale (b.receive ins) fs.length := by
  induction ins generalizing b k with
  | nil =>
    have hdone : fs.length ≤ k := List.drop_eq_nil_iff.mp hins.symm
    obtain rfl : k = fs.length := by omega
    exact hr
  | cons i ins ih =>
    cases i with
    | none => exact ih hr.step_none hk hins
    | some f =>
      have hlt : k < fs.length := by
        by_contra hge
        rw [List.drop_of_length_le (by omega)] at hins
        simp at hins
      rw [List.drop_eq_getElem_cons hlt] at hins
      simp only [List.filterMap_cons, id_eq, List.cons.injEq] at hins
      obtain ⟨rfl, hins⟩ := hins
      exact ih (hr.step_some hlt hlen hlength) (by omega) hins

end SimpleNocBuffer

/-! ### Forwards and responses -/

/-- The fields of the first header flit. -/
structure Noc2Fields.HasHeader1 (f : Noc2Fields) (m : L2Msg) : Prop where
  reqtype : f.reqtype = m.msgType
  mshrid : f.mshrid = m.msgMshrid.extractLsb' 0 2
  threadid : f.threadid = m.msgMshrid.extractLsb' 2 1
  hmcFill : f.hmcFill = m.msgMshrid.getLsbD 7
  csmMshrid : f.csmMshrid = m.msgMshrid.extractLsb' 0 3
  ackState : f.ackState = m.msgMesi
  l2miss : f.l2miss = m.msgL2Miss

/-- The fields of the other header flits. -/
structure Noc2Fields.HasHeaders23 (f : Noc2Fields) (m : L2Msg) : Prop where
  icacheType : f.icacheType = m.msgCacheType
  sublineVector : f.fwdSubcachelineVector = m.msgSublineVector
  address : f.address = m.msgAddr
  homeX : homeX f.srcHomeid = m.msgSrcX
  homeY : homeY f.srcHomeid = m.msgSrcY
  homeChip : homeChip f.srcHomeid = m.msgSrcChipid

/-- The message is a forward. -/
def L2Msg.isFwd (m : L2Msg) : Prop :=
  m.msgType = MsgType.loadFwd ∨ m.msgType = MsgType.storeFwd ∨ m.msgType = MsgType.invFwd

/-- A data word of the message, for the passes that it has. -/
def Noc2Fields.dataWords (f : Noc2Fields) : List Flit := [f.data0, f.data1, f.data2, f.data3]

section

variable {m : L2Msg} {b : L15Bound} {buffer : SimpleNocBuffer}

theorem noc2decoder_header1 (h0 : buffer.buffer 0 = (l2Encoder m).extractLsb' 0 64) :
    (noc2decoder buffer.msg).HasHeader1 m := by
  unfold noc2decoder SimpleNocBuffer.msg
  rw [h0]
  unfold l2Encoder
  simp (disch := omega) only [BitVec.extractLsb'_append_eq_of_add_le,
    BitVec.extractLsb'_append_eq_of_le, BitVec.extractLsb'_extractLsb'_of_le]
  simp only [Nat.reduceAdd, Nat.reduceSub, BitVec.extractLsb'_eq_self]
  exact ⟨rfl, rfl, rfl, rfl, rfl, rfl, rfl⟩

theorem noc2decoder_headers23 (h1 : buffer.buffer 1 = (l2Encoder m).extractLsb' 64 64)
    (h2 : buffer.buffer 2 = (l2Encoder m).extractLsb' 128 64) :
    (noc2decoder buffer.msg).HasHeaders23 m := by
  unfold noc2decoder SimpleNocBuffer.msg
  rw [h1, h2]
  unfold l2Encoder
  simp (disch := omega) only [BitVec.extractLsb'_append_eq_of_add_le,
    BitVec.extractLsb'_append_eq_of_le, extractLsb'_extractLsb'_add]
  simp only [Nat.reduceAdd, Nat.reduceSub, BitVec.extractLsb'_eq_self]
  refine ⟨rfl, rfl, rfl, ?_, ?_, ?_⟩
  · unfold homeX
    simp (disch := omega) only [extractLsb'_setSlice_within, extractLsb'_setSlice_apart,
      BitVec.extractLsb'_eq_self, Nat.reduceSub]
  · unfold homeY
    simp (disch := omega) only [extractLsb'_setSlice_within, extractLsb'_setSlice_apart,
      BitVec.extractLsb'_eq_self, Nat.reduceSub]
  · unfold homeChip
    simp (disch := omega) only [extractLsb'_setSlice_within, BitVec.extractLsb'_eq_self,
      Nat.reduceSub]

theorem noc2decoder_data :
    (noc2decoder buffer.msg).dataWords =
      [buffer.buffer 1, buffer.buffer 2, buffer.buffer 3, buffer.buffer 4] := by
  unfold noc2decoder SimpleNocBuffer.msg Noc2Fields.dataWords
  simp (disch := omega) only [BitVec.extractLsb'_append_eq_of_add_le,
    BitVec.extractLsb'_append_eq_of_le]
  simp only [Nat.reduceAdd, Nat.reduceSub, BitVec.extractLsb'_eq_self]

/-- The flits of a message to the L1.5, for a length that its type has. -/
theorem L15Bound.flits_cases (hlen : b.lengthOk) :
    b.flits.length = b.msg.msgLength.toNat + 1 ∧ b.msg.msgLength.toNat ≤ 4 ∧
      (∀ h : 0 < b.flits.length, b.flits[0] = (l2Encoder b.msg).extractLsb' 0 64) ∧
      (b.msg.isFwd → b.flits = [(l2Encoder b.msg).extractLsb' 0 64,
        (l2Encoder b.msg).extractLsb' 64 64, (l2Encoder b.msg).extractLsb' 128 64]) ∧
      (¬ b.msg.isFwd → b.flits.tail =
        [b.data0, b.data1, b.data2, b.data3].take b.msg.msgLength.toNat) := by
  unfold L15Bound.lengthOk at hlen
  unfold L15Bound.flits L2Msg.isFwd
  rcases hlen with ⟨hfwd, hl⟩ | ⟨ht, hl⟩ | ⟨ht, hl⟩ | ⟨ht, hl | hl⟩
  · rw [if_pos hfwd, hl]
    exact ⟨rfl, by decide, fun _ => rfl, fun _ => rfl, fun h => absurd hfwd h⟩
  all_goals
    rw [ht, if_neg (by decide), hl]
    refine ⟨rfl, by decide, fun _ => rfl, fun h => absurd h (by decide), fun _ => rfl⟩

theorem header1_length : Flit.length ((l2Encoder m).extractLsb' 0 64) = m.msgLength := by
  unfold Flit.length l2Encoder
  simp (disch := omega) only [BitVec.extractLsb'_append_eq_of_add_le,
    BitVec.extractLsb'_append_eq_of_le, extractLsb'_extractLsb'_add]
  simp only [Nat.reduceAdd, Nat.reduceSub, BitVec.extractLsb'_eq_self]

/-- What the L1.5 reads of a message from the L2, once its flits have come. -/
theorem L15Bound.received (hlen : b.lengthOk) (hidle : buffer.state = .idle)
    (hindex : buffer.index = 0) {ins : List (Option Flit)} (hins : ins.filterMap id = b.flits) :
    (buffer.receive ins).state = .waitingAck ∧
      (noc2decoder (buffer.receive ins).msg).HasHeader1 b.msg ∧
      (b.msg.isFwd → (noc2decoder (buffer.receive ins).msg).HasHeaders23 b.msg) ∧
      (¬ b.msg.isFwd →
        (noc2decoder (buffer.receive ins).msg).dataWords.take b.msg.msgLength.toNat =
          [b.data0, b.data1, b.data2, b.data3].take b.msg.msgLength.toNat) := by
  obtain ⟨hcount, hle, hfirst, hfwd, hdata⟩ := L15Bound.flits_cases hlen
  have hpos : 0 < b.flits.length := by omega
  have hstart : SimpleNocBuffer.Receiving b.flits buffer.buffer buffer 0 :=
    ⟨fun j => by simp, fun _ => ⟨hidle, hindex⟩, fun h => absurd h (by omega),
      fun h => absurd h (by omega)⟩
  have hdone := hstart.receive (Nat.zero_le _) (by omega)
    (fun h => by rw [hfirst h, header1_length, hcount]) hins
  have hbuf : ∀ j : Fin 8, (h : j.val < b.flits.length) →
      (buffer.receive ins).buffer j = b.flits[j.val] := by
    intro j h
    rw [hdone.buffer j, if_pos h]
    simp [h]
  refine ⟨hdone.complete hpos rfl, ?_, ?_, ?_⟩
  · apply noc2decoder_header1
    rw [hbuf 0 hpos]
    exact hfirst hpos
  · intro hf
    have hflits := hfwd hf
    apply noc2decoder_headers23
    · rw [hbuf 1 (by rw [hflits]; simp)]
      simp [hflits]
    · rw [hbuf 2 (by rw [hflits]; simp)]
      simp [hflits]
  · intro hf
    rw [noc2decoder_data, ← hdata hf]
    apply List.ext_getElem
    · simp [hcount]
      omega
    · intro j hj hj'
      have hjn : j < b.msg.msgLength.toNat := by
        rw [List.length_take] at hj
        omega
      rw [List.getElem_take, List.getElem_tail]
      have hnext := hbuf ⟨j + 1, by omega⟩ (show j + 1 < b.flits.length by omega)
      obtain rfl | rfl | rfl | rfl : j = 0 ∨ j = 1 ∨ j = 2 ∨ j = 3 := by omega
      all_goals exact hnext

end

/-! ### Agreement -/

/-- The ids of a request come back apart: MSHR and thread for the L1.5, the ticket for the CSM. -/
theorem mshrid_split (p : Place) :
    (∀ r : Noc1Req, r.select.mshrid.extractLsb' 0 2 = r.mshrid ∧
      r.select.mshrid.extractLsb' 2 1 = r.threadid ∧ r.select.mshrid.getLsbD 7 = false) ∧
    (∀ c : CsmReq, (c.select p).mshrid.extractLsb' 0 3 = c.mshrid ∧
      (c.select p).mshrid.getLsbD 7 = true) := by
  have hids : ∀ (t : BitVec 1) (m : BitVec 2),
      ((t ++ m).setWidth 8 : BitVec 8).extractLsb' 0 2 = m ∧
        ((t ++ m).setWidth 8 : BitVec 8).extractLsb' 2 1 = t ∧
        ((t ++ m).setWidth 8 : BitVec 8).getLsbD 7 = false := by
    decide
  have htickets : ∀ m : BitVec 3, (m.setWidth 8 ||| 0x80 : BitVec 8).extractLsb' 0 3 = m ∧
      (m.setWidth 8 ||| 0x80 : BitVec 8).getLsbD 7 = true := by
    decide
  exact ⟨fun r => hids r.threadid r.mshrid, fun c => htickets c.mshrid⟩

/-- A response of one header flit and two zero words, for a line that is not the first. -/
def ackBound : L15Bound where
  msg :=
    { msgDstChipid := 0, msgDstX := 0, msgDstY := 0, msgDstFbits := 0, msgLength := 2
      msgType := MsgType.dataAck, msgMshrid := 0, msgDataSize := 5, msgCacheType := 0
      msgSublineVector := 0, msgMesi := 1, msgL2Miss := 0, msgLastSubline := 0, msgSublineId := 0
      msgAddr := 64, msgSrcChipid := 0, msgSrcX := 0, msgSrcY := 0, msgSrcFbits := 0, msgSdid := 0
      msgLsid := 0 }
  data0 := 0
  data1 := 0
  data2 := 0
  data3 := 0

/-- A write-back guard with a domain. -/
def guardReq : Noc1Req where
  reqType := .writebackGuard
  mshrid := 0
  threadid := 0
  address := 64
  nonCacheable := false
  size := 0
  prefetch := false
  homeid := 0
  csmSdid := 1
  csmLsid := 1
  data0 := 0
  data1 := 0

/-- The address of a response is not sent, and a write-back guard drops its domain. -/
theorem not_allFieldsAgree :
    (¬ ∀ (b : L15Bound) (buffer : SimpleNocBuffer), b.lengthOk → buffer.state = .idle →
      buffer.index = 0 → (noc2decoder (buffer.receive (b.flits.map some)).msg).HasHeaders23 b.msg) ∧
    ¬ ∀ (p : Place) (r : Noc1Req) h data, r.reqType ≠ .interruptFwd → r.reqType ≠ .none →
      pipe1BufIn (r.select.flits p) = some (h, data) → (l2Decoder h).msgSdid = r.csmSdid := by
  constructor
  · intro hall
    have haddress := (hall ackBound ⟨0, .idle, fun _ => 0⟩ (by decide) rfl rfl).address
    exact absurd haddress (by decide +kernel)
  · intro hall
    have hsdid := hall ⟨0, 0, 0, fun _ => (0, 0)⟩ guardReq _ [] (by decide) (by decide) rfl
    exact absurd hsdid (by decide +kernel)

/-- Requests of the L1.5 and the CSM, acknowledgements and write-backs reach the L2 with the fields
that were asked for, and forwards and responses the L1.5 with the fields that their header flits
carry. -/
theorem messages_agree (p : Place) :
    (∀ r : Noc1Req, r.reqType ≠ .interruptFwd → r.reqType ≠ .none →
      (∀ e is fs, e.flitState = 0 ∨ e.lastReqSource ≠ .l15 →
        Noc1Encoder.Held p .l15 r.select e is →
          Noc1Encoder.sendUntilAck p .l15 e is = some fs → fs = r.select.flits p) ∧
      (r.select.flits p).length = (r.select.msg p).length.toNat + 1 ∧
      ReadByPipe1 (r.select.flits p) (r.fields p) r.select.dataWords) ∧
    (∀ c : CsmReq, c.reqType ≠ .interruptFwd → c.reqType ≠ .none →
      (∀ e is fs, e.flitState = 0 ∨ e.lastReqSource ≠ .csm →
        Noc1Encoder.Held p .csm (c.select p) e is →
          Noc1Encoder.sendUntilAck p .csm e is = some fs → fs = (c.select p).flits p) ∧
      ((c.select p).flits p).length = ((c.select p).msg p).length.toNat + 1 ∧
      ReadByPipe1 ((c.select p).flits p) ((c.select p).fields p) (c.select p).dataWords) ∧
    (∀ r : Noc3Req,
      (∀ e is fs, e.flitState = 0 → (∀ i ∈ is, i.val = true ∧ i.req = r) →
        Noc3Encoder.sendUntilAck p e is = some fs → fs = r.flits p) ∧
      (r.flits p).length = r.msgLength.toNat + 1 ∧
      ReadByPipe2 (r.flits p) (r.fields p) r.dataWords) ∧
    (∀ (b : L15Bound) (buffer : SimpleNocBuffer) (ins : List (Option Flit)), b.lengthOk →
      buffer.state = .idle → buffer.index = 0 → ins.filterMap id = b.flits →
        b.flits.length = b.msg.msgLength.toNat + 1 ∧
        (buffer.receive ins).state = .waitingAck ∧
        (noc2decoder (buffer.receive ins).msg).HasHeader1 b.msg ∧
        (b.msg.isFwd → (noc2decoder (buffer.receive ins).msg).HasHeaders23 b.msg) ∧
        (¬ b.msg.isFwd →
          (noc2decoder (buffer.receive ins).msg).dataWords.take b.msg.msgLength.toNat =
            [b.data0, b.data1, b.data2, b.data3].take b.msg.msgLength.toNat)) ∧
    (∀ r : Noc1Req, r.select.mshrid.extractLsb' 0 2 = r.mshrid ∧
      r.select.mshrid.extractLsb' 2 1 = r.threadid ∧ r.select.mshrid.getLsbD 7 = false) ∧
    (∀ c : CsmReq, (c.select p).mshrid.extractLsb' 0 3 = c.mshrid ∧
      (c.select p).mshrid.getLsbD 7 = true) := by
  refine ⟨?_, ?_, ?_, ?_, mshrid_split p⟩
  · intro r hint hnone
    refine ⟨?_, SelectedReq.flits_length, ?_⟩
    · intro e is fs he hheld hsent
      have hs : Noc1Encoder.Sending .l15 e 0 := .inl ⟨rfl, he⟩
      exact hs.sendUntilAck hnone (Nat.zero_le _) hheld hsent
    · rw [← Noc1Req.select_fields]
      exact SelectedReq.readByPipe1 hint hnone
  · intro c hint hnone
    refine ⟨?_, SelectedReq.flits_length, SelectedReq.readByPipe1 hint hnone⟩
    intro e is fs he hheld hsent
    have hs : Noc1Encoder.Sending .csm e 0 := .inl ⟨rfl, he⟩
    exact hs.sendUntilAck hnone (Nat.zero_le _) hheld hsent
  · intro r
    refine ⟨?_, Noc3Req.flits_length, Noc3Req.readByPipe2⟩
    intro e is fs he hheld hsent
    have hs : Noc3Encoder.Sending p r e 0 := .start he
    exact hs.sendUntilAck (Nat.zero_le _) hheld hsent
  · intro b buffer ins hlen hidle hindex hins
    exact ⟨(L15Bound.flits_cases hlen).1, L15Bound.received hlen hidle hindex hins⟩

/-- The tile of the origin. -/
def originPlace : Place := ⟨0, 0, 0, fun _ => (0, 0)⟩

/-- A swap of the L1.5. -/
def swapRequest : Noc1Req :=
  ⟨.swapRequest, 3, 0, 0x40, false, 3, false, 0, 0, 0, 7, 0⟩

/-- A refill of the CSM. -/
def refillRequest : CsmReq := ⟨.ldRequest, 2, 0x80, true, 7⟩

/-- The swap and the refill are offered together and the swap stays on; the network takes a flit in
every cycle but two and the throttle stalls twice. -/
def swapBehindRefill : List Noc1EncoderIn :=
  let cycle (csm ready stall : Bool) : Noc1EncoderIn :=
    ⟨true, swapRequest, csm, refillRequest, ready, stall⟩
  [cycle true true true, cycle true true false, cycle true false false, cycle true true true,
    cycle true true false, cycle false true true, cycle false true false, cycle false true false,
    cycle false false false, cycle false true false, cycle false true false]

theorem swapBehindRefill_sent :
    (Noc1Encoder.Held originPlace .l15 swapRequest.select ⟨0, .l15⟩ swapBehindRefill ∧
      (Noc1Encoder.sendUntilAck originPlace .l15 ⟨0, .l15⟩ swapBehindRefill).isSome) ∧
    Noc1Encoder.Held originPlace .csm (refillRequest.select originPlace) ⟨0, .l15⟩
        (swapBehindRefill.take 5) ∧
      (Noc1Encoder.sendUntilAck originPlace .csm ⟨0, .l15⟩ (swapBehindRefill.take 5)).isSome := by
  decide +kernel

/-- The refill is sent first, and then the swap. -/
theorem messages_agree_swapBehindRefill :
    Noc1Encoder.sendUntilAck originPlace .csm ⟨0, .l15⟩ (swapBehindRefill.take 5) =
        some ((refillRequest.select originPlace).flits originPlace) ∧
      Noc1Encoder.sendUntilAck originPlace .l15 ⟨0, .l15⟩ swapBehindRefill =
        some (swapRequest.select.flits originPlace) := by
  obtain ⟨⟨hswap, hswapSent⟩, hrefill, hrefillSent⟩ := swapBehindRefill_sent
  obtain ⟨fs, hfs⟩ := Option.isSome_iff_exists.1 hswapSent
  obtain ⟨gs, hgs⟩ := Option.isSome_iff_exists.1 hrefillSent
  obtain ⟨hl15, hcsm, -⟩ := messages_agree originPlace
  rw [hfs, hgs, (hl15 swapRequest (by decide) (by decide)).1 _ _ fs (.inl rfl) hswap hfs,
    (hcsm refillRequest (by decide) (by decide)).1 _ _ gs (.inl rfl) hrefill hgs]
  exact ⟨rfl, rfl⟩

end Piton.Noc
