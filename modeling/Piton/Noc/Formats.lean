import Piton.Noc.Decoder
import Piton.Lib.Machine

/-! The messages of the L1.5: the flits of a request, an acknowledgement and a write-back, and the
fields and data words that the L2 reads in them. -/

namespace Piton.Noc

open Hw
open L15 (Noc1Reqtype Noc3Reqtype)

/-! ### Requests -/

/-- The data words that a request sends. -/
def SelectedReq.dataWords (q : SelectedReq) : List Flit :=
  match q.reqType with
  | .casRequest => [q.data0, q.data1]
  | .swapRequest | .writethroughRequest => [q.data0]
  | _ => []

/-- The fields of a request. -/
def SelectedReq.fields (p : Place) (q : SelectedReq) : L2Fields where
  msgType := (q.msg p).type
  msgLength := (q.msg p).length
  msgMshrid := q.mshrid
  msgDataSize := msgDataSize q.size
  msgCacheType := (q.msg p).cacheType
  msgSublineVector := 0
  msgMesi := 0
  msgL2Miss := 0
  msgSublineId := 0
  msgLastSubline := 0
  msgAddr := q.address
  msgSrcChipid := p.chipid
  msgSrcX := p.coreidX
  msgSrcY := p.coreidY
  msgSrcFbits := 0
  msgSdid := q.csmSdid
  msgLsid := q.csmLsid

section

variable {p : Place} {q : SelectedReq}

theorem SelectedReq.flits_length : (q.flits p).length = (q.msg p).length.toNat + 1 := by
  unfold SelectedReq.flits
  rw [List.length_map, List.length_range]

theorem SelectedReq.flit_header1 :
    q.flit p 0 =
      header1 (q.msg p).destChipid (q.msg p).destX (q.msg p).destY 0 (q.msg p).length (q.msg p).type
        q.mshrid 0 := rfl

theorem SelectedReq.flit_header2 (hraw : (q.msg p).rawDataFlit1 = false) :
    q.flit p 1 =
      setSlice (setSlice (setSlice 0 16 q.address) 11 (q.msg p).cacheType) 0
        (msgOptions2 (msgDataSize q.size) (q.msg p).cacheType 0) := by
  show (if (q.msg p).rawDataFlit1 = true then _ else _) = _
  rw [hraw, if_neg Bool.false_ne_true]

theorem SelectedReq.flit_header3 :
    q.flit p 2 =
      header3 p.chipid p.coreidX p.coreidY 0
        (setSlice (setSlice 0 20 q.csmSdid) 14 q.csmLsid) := rfl

/-- The headers of a request that is no interrupt hold its fields. -/
theorem SelectedReq.l2Decoder_headers (hraw : (q.msg p).rawDataFlit1 = false) :
    l2Decoder (q.flit p 2 ++ q.flit p 1 ++ q.flit p 0) = q.fields p := by
  rw [SelectedReq.flit_header1, SelectedReq.flit_header2 hraw, SelectedReq.flit_header3]
  unfold l2Decoder header1 header3 msgOptions2 SelectedReq.fields
  simp (disch := omega) only [BitVec.extractLsb'_append_eq_of_add_le,
    BitVec.extractLsb'_append_eq_of_le, extractLsb'_setSlice_within, extractLsb'_setSlice_apart,
    BitVec.extractLsb'_eq_self, BitVec.ofNat_eq_ofNat, BitVec.extractLsb'_zero, Nat.reduceSub]

/-- Pipe 1 finds the fields and the data words of a request in its flits. -/
theorem SelectedReq.pipe1BufIn_flits (hint : q.reqType ≠ .interruptFwd)
    (hnone : q.reqType ≠ .none) :
    pipe1BufIn (q.flits p) =
      some (q.flit p 2 ++ q.flit p 1 ++ q.flit p 0, q.dataWords) ∧
      (q.msg p).rawDataFlit1 = false := by
  unfold SelectedReq.flits SelectedReq.dataWords
  cases hr : q.reqType <;>
    first
    | exact absurd hr hint
    | exact absurd hr hnone
    | simp [SelectedReq.msg, SelectedReq.msgTo, hr, List.range_succ, pipe1BufIn, SelectedReq.flit]

end

/-- The fields that a request of `noc1buffer` asks for: a write-back guard has no domain. -/
def Noc1Req.fields (p : Place) (r : Noc1Req) : L2Fields :=
  { r.select.fields p with
    msgMshrid := (r.threadid ++ r.mshrid).setWidth 8
    msgDataSize := msgDataSize r.size
    msgAddr := r.address
    msgSdid := if r.reqType = .writebackGuard then 0 else r.csmSdid
    msgLsid := if r.reqType = .writebackGuard then 0 else r.csmLsid }

theorem Noc1Req.select_fields (p : Place) (r : Noc1Req) : r.select.fields p = r.fields p := by
  unfold Noc1Req.fields SelectedReq.fields Noc1Req.select
  by_cases h : r.reqType = .writebackGuard <;> simp [h]

/-! ### Acknowledgements and write-backs -/

namespace Noc3Req

variable (p : Place) (r : Noc3Req)

/-- The fields of an acknowledgement or a write-back: an acknowledgement has one header flit. -/
def fields : L2Fields where
  msgType := r.msgType
  msgLength := r.msgLength
  msgMshrid := r.msgMshrid
  msgDataSize := 0
  msgCacheType := 0
  msgSublineVector := 0
  msgMesi := 0
  msgL2Miss := 0
  msgSublineId := if r.isRequest then 0 else r.sequenceid
  msgLastSubline :=
    if r.isRequest then 0
    else BitVec.ofBool (r.lastSubcachelineId = r.sequenceid || r.reqType = .icacheInvalAck)
  msgAddr := if r.isRequest then r.address else 0
  msgSrcChipid := if r.isRequest then p.chipid else 0
  msgSrcX := if r.isRequest then p.coreidX else 0
  msgSrcY := if r.isRequest then p.coreidY else 0
  msgSrcFbits := 0
  msgSdid := 0
  msgLsid := 0

/-- The data words that a write-back and an acknowledgement with data send. -/
def dataWords : List Flit := if r.msgLength = 0 then [] else [r.data0, r.data1]

/-- The word in the data register when a flit is sent. -/
def dataOf (flitState : BitVec 4) : Flit :=
  if flitState = (if r.isRequest then 4 else 2) then r.data1 else r.data0

/-- The flits of a message. -/
def flits : List Flit :=
  (List.range (r.msgLength.toNat + 1)).map fun k =>
    r.flit p (r.dataOf (BitVec.ofNat 4 k)) (BitVec.ofNat 4 k)

variable {p r}

theorem flits_length : (r.flits p).length = r.msgLength.toNat + 1 := by
  unfold flits
  rw [List.length_map, List.length_range]

theorem header1_type {a : BitVec 14} {b c : BitVec 8} {d : BitVec 4} {l t m : BitVec 8}
    {o : BitVec 6} : (header1 a b c d l t m o).extractLsb' 14 8 = t := by
  unfold header1
  simp (disch := omega) only [extractLsb'_setSlice_within, extractLsb'_setSlice_apart,
    BitVec.extractLsb'_eq_self, Nat.reduceSub]

theorem flit_of_request (h : r.isRequest = true) (d : Flit) (k : BitVec 4) :
    r.flit p d k = r.requestFlit p d k := if_pos h

theorem flit_of_response (h : r.isRequest = false) (d : Flit) (k : BitVec 4) :
    r.flit p d k = r.responseFlit d k := by
  unfold flit
  rw [h, if_neg Bool.false_ne_true]

/-- The header of an acknowledgement holds its fields. -/
theorem l2Decoder_header (hreq : r.isRequest = false) (d : Flit) :
    l2Decoder (0#128 ++ r.responseFlit d 0) = r.fields p := by
  have hflit : r.responseFlit d 0 =
      header1 (homeChip r.homeid) (homeX r.homeid) (homeY r.homeid) 0 r.msgLength r.msgType
        r.msgMshrid r.msgOptions4 := rfl
  rw [hflit]
  unfold l2Decoder header1 msgOptions4 fields
  simp (disch := omega) only [hreq, Bool.false_eq_true, if_false,
    BitVec.extractLsb'_append_eq_of_add_le, BitVec.extractLsb'_append_eq_of_le,
    extractLsb'_setSlice_within, extractLsb'_setSlice_apart, BitVec.extractLsb'_eq_self,
    BitVec.ofNat_eq_ofNat, BitVec.extractLsb'_zero, Nat.reduceSub]

/-- The headers of a write-back hold its fields. -/
theorem l2Decoder_headers (hreq : r.isRequest = true) (d0 d1 d2 : Flit) :
    l2Decoder (r.requestFlit p d2 2 ++ r.requestFlit p d1 1 ++ r.requestFlit p d0 0) =
      r.fields p := by
  have hsize : r.msgDataSize = 0 := by
    unfold msgDataSize
    rw [of_decide_eq_true hreq]
  have hflit1 : r.requestFlit p d1 1 =
      setSlice (setSlice (setSlice 0 16 r.address) 0 (msgOptions2 0 0 0)) 8 (0 : BitVec 3) := by
    show setSlice (setSlice _ 0 (msgOptions2 (if r.msgDataSize = 7 then 5 else r.msgDataSize) 0 0))
      8 (if r.msgDataSize = 7 then 5 else r.msgDataSize) = _
    rw [hsize]
    rfl
  have hflit0 : r.requestFlit p d0 0 =
      header1 (homeChip r.homeid) (homeX r.homeid) (homeY r.homeid) 0 r.msgLength r.msgType
        r.msgMshrid 0 := rfl
  have hflit2 : r.requestFlit p d2 2 = header3 p.chipid p.coreidX p.coreidY 0 0 := rfl
  rw [hflit0, hflit1, hflit2]
  unfold l2Decoder header1 header3 msgOptions2 fields
  simp (disch := omega) only [hreq, if_true, BitVec.extractLsb'_append_eq_of_add_le,
    BitVec.extractLsb'_append_eq_of_le, extractLsb'_setSlice_within, extractLsb'_setSlice_apart,
    BitVec.extractLsb'_eq_self, BitVec.ofNat_eq_ofNat, BitVec.extractLsb'_zero, Nat.reduceSub]

/-- Only a write-back has the type of one. -/
theorem msgType_eq_wbReq : r.msgType = MsgType.wbReq ↔ r.isRequest = true := by
  unfold msgType isRequest
  cases r.reqType <;> cases r.wasInval <;> decide

/-- The length of a message. -/
theorem msgLength_cases : (r.isRequest = true → r.msgLength = 4) ∧
    (r.isRequest = false → r.msgLength = 0 ∨ r.msgLength = 2) := by
  unfold msgLength isRequest
  cases r.reqType <;> cases r.withData <;> decide

/-- Pipe 2 finds the fields and the data words in the flits. -/
theorem pipe2BufIn_flits :
    ∃ h, pipe2BufIn (r.flits p) = some (h, r.dataWords) ∧ l2Decoder h = r.fields p := by
  unfold flits dataWords
  cases hreq : r.isRequest with
  | true =>
    refine ⟨_, ?_, l2Decoder_headers hreq r.data0 r.data0 r.data0⟩
    have htype : (r.requestFlit p r.data0 0#4).extractLsb' 14 8 = MsgType.wbReq :=
      header1_type.trans (msgType_eq_wbReq.mpr hreq)
    rw [msgLength_cases.1 hreq]
    simp only [BitVec.reduceToNat, Nat.reduceAdd, List.range_succ, List.range_zero, List.nil_append,
      List.cons_append, List.map_cons, List.map_nil, flit_of_request hreq, dataOf, hreq, pipe2BufIn]
    exact if_pos htype
  | false =>
    refine ⟨_, ?_, l2Decoder_header hreq r.data0⟩
    have htype : (r.responseFlit r.data0 0#4).extractLsb' 14 8 ≠ MsgType.wbReq := by
      intro h
      rw [msgType_eq_wbReq.mp (header1_type.symm.trans h)] at hreq
      cases hreq
    rcases msgLength_cases.2 hreq with hlen | hlen <;> rw [hlen] <;>
      simp only [BitVec.reduceToNat, Nat.reduceAdd, List.range_succ, List.range_zero,
        List.nil_append, List.cons_append, List.map_cons, List.map_nil, flit_of_response hreq,
        dataOf, hreq, pipe2BufIn] <;>
      exact if_neg htype

end Noc3Req

end Piton.Noc
