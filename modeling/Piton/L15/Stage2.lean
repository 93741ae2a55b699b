import Piton.L15.Stage3

/-! Stage S2: tag checks, the cache miss state, the LRU way, the data array access and the MESI
write. -/

namespace Piton.L15

/-- The lowest way that satisfies `p` (`tagcheck_way_s2` and `vtagcheck_way_s2`). -/
def firstWay (p : Way → Bool) : Option Way :=
  if p 0 then some 0
  else if p 1 then some 1
  else if p 2 then some 2
  else if p 3 then some 3
  else none

theorem way_cases (w : Way) : w = 0 ∨ w = 1 ∨ w = 2 ∨ w = 3 := by
  revert w
  decide

theorem firstWay_spec {p : Way → Bool} {w : Way} (h : firstWay p = some w) :
    p w = true ∧ ∀ v < w, p v = false := by
  unfold firstWay at h
  cases h0 : p 0 <;> cases h1 : p 1 <;> cases h2 : p 2 <;> cases h3 : p 3 <;>
    simp only [h0, h1, h2, h3, if_true, if_false, Option.some.injEq, reduceCtorEq,
      Bool.false_eq_true] at h <;>
    subst h <;>
    refine ⟨by assumption, fun v hv => ?_⟩ <;>
    rcases way_cases v with rfl | rfl | rfl | rfl <;>
    first | assumption | exact absurd hv (by decide)

theorem firstWay_eq_none {p : Way → Bool} : firstWay p = none ↔ ∀ w, p w = false := by
  constructor
  · intro h w
    unfold firstWay at h
    split at h <;> try cases h
    split at h <;> try cases h
    split at h <;> try cases h
    split at h <;> try cases h
    rcases way_cases w with rfl | rfl | rfl | rfl <;> simp_all
  · intro h
    simp [firstWay, h]

/-- The way found is the only one that satisfies `p` with no lower one. -/
theorem firstWay_eq_some {p : Way → Bool} {w : Way} :
    firstWay p = some w ↔ p w = true ∧ ∀ v < w, p v = false := by
  refine ⟨firstWay_spec, ?_⟩
  rintro ⟨hw, hlt⟩
  cases h : firstWay p with
  | none =>
    rw [firstWay_eq_none.1 h w] at hw
    exact absurd hw Bool.false_ne_true
  | some u =>
    obtain ⟨hu, hul⟩ := firstWay_spec h
    rcases Nat.lt_trichotomy u.val w.val with huw | heq | hwu
    · rw [hlt u huw] at hu
      exact absurd hu Bool.false_ne_true
    · rw [Fin.ext heq]
    · rw [hul w hwu] at hw
      exact absurd hw Bool.false_ne_true

/-- The LRU way of a set's replacement bits (`lru_way_s2`). -/
def lruWayOf (d : BitVec 6) : Way :=
  let used : Way → Bool := fun w => d.getLsbD w.val
  let turn : Way := Fin.ofNat 4 (d.extractLsb' 4 2).toNat
  if used 0 && used 1 && used 2 && used 3 then turn
  else if !used turn then turn
  else if !used (turn + 1) then turn + 1
  else if !used (turn + 2) then turn + 2
  else turn + 3

namespace State

variable (s : State) (i : Inputs)

/-- `cache_index_s2`. -/
def indexS2 : SetIndex := cacheIndex s.s2.address

/-- `stall_s2`. -/
def stallS2 : Bool := s.valS2 && s.stallS3 i

/-- `pcx_ack_s2`. -/
def pcxAckS2 : Bool := s.valS2 && !s.stallS2 i && s.s2.ops.pcxAckStage = .s2

/-- `noc2_ack_s2`. -/
def noc2AckS2 : Bool := s.valS2 && !s.stallS2 i && s.s2.ops.noc2AckStage = .s2

/-! ### Tag check -/

/-- `tagcheck_wayk_equals`: 29 of the 33 bits are compared. -/
def tagcheckEquals (w : Way) : Bool := cacheTag s.s2.address = (s.utag.doutF w).setWidth 29

/-- Way `w` holds the requested tag in a state other than I. -/
def tagcheckHit (w : Way) : Bool := s.tagcheckEquals w && s.mesi.readData w ≠ .I

/-- `{tagcheck_val_s2, tagcheck_way_s2}`; the way is zero on a miss. -/
def tagcheck : Option Way := firstWay s.tagcheckHit

/-- `tagcheck_way_s2`. -/
def tagcheckWayS2 : Way := s.tagcheck.getD 0

/-- `tagcheck_state_s2`. -/
def tagcheckStateS2 : Mesi :=
  match s.tagcheck with
  | none => .I
  | some w => s.mesi.readData w

/-- `vi_state_wayk_s2`: bit 0 is the output of `rf_l15_vi`, the others are not there. -/
def viState (v : Way) : Bool := if v = 0 then s.vi.readData else i.undriven.viVoutRest v

/-- `vtagcheck_wayk_equals`. -/
def vtagcheckEquals (v : Way) : Bool := cacheTag s.s2.address = (s.utag.voutF v).setWidth 29

/-- `{vtagcheck_val_s2, vtagcheck_way_s2}`. -/
def vtagcheck : Option Way := firstWay fun v => s.vtagcheckEquals v && s.viState i v

/-- `l15_cmst_s2`. -/
def cmstS2 : Cmst :=
  if s.tagcheck.isSome then .HX else if (s.vtagcheck i).isSome then .MH else .MM

/-! ### LRU and flush ways -/

/-- `lru_way_s2`. -/
def lruWayS2 : Way := lruWayOf s.lruarray.readData

/-- `lru_state_s2`. -/
def lruStateS2 : Mesi := s.mesi.readData s.lruWayS2

/-- `flush_way_s2`. -/
def flushWayS2 : Way := addressWay s.s2.address

/-- `flush_state_s2`. -/
def flushStateS2 : Mesi := s.mesi.readData s.flushWayS2

/-- What S2 registers for S3. -/
def s2Result : S2Result :=
  { tagcheckWay := s.tagcheckWayS2
    tagcheckState := s.tagcheckStateS2
    flushWay := s.flushWayS2
    flushState := s.flushStateS2
    lruWay := s.lruWayS2
    lruState := s.lruStateS2
    lruWayTag := (s.utag.doutF s.lruWayS2).setWidth 29
    flushWayTag := (s.utag.doutF s.flushWayS2).setWidth 29 }

/-! ### Data array -/

/-- `way_mshr_st_s2`. -/
def wayMshrStS2 : Way := s.mshrStWay s.s2.threadid

/-- `mshr_pipe_write_buffer_s2`. -/
def writeBufferS2 : Line :=
  if s.s2.ops.s2MshrOperation = .readWriteCache then s.mshr.stWriteBuffer s.s2.threadid else 0

/-- `dcache_mshr_write_mask_s2`. -/
def writeBufferMaskS2 : Line :=
  if s.s2.ops.s2MshrOperation = .readWriteCache then
    bitMask (s.mshr.stWriteBufferByteMask s.s2.threadid)
  else 0

/-- The line of a NoC2 message, `{noc2decoder_l15_data_0, noc2decoder_l15_data_1}`. -/
def noc2Line : Line := s.noc2.data0 ++ s.noc2.data1

/-- `dcache_write_merge_mshr_noc2_s2`. -/
def writeMergeMshrNoc2 : Line :=
  (~~~s.writeBufferMaskS2 &&& s.noc2Line) ||| (s.writeBufferMaskS2 &&& s.writeBufferS2)

/-- The parts of `dcache_*_s2` that depend on the operation: valid, `rdwen`, way and source. The
index is that of the request in every case. -/
def dcacheControl : Bool × Bool × Way × DcacheSource :=
  match s.s2.ops.dcacheOperation with
  | .none => (false, false, 0, .none)
  | .readTagcheckWayIfM => (s.tagcheckStateS2 = .M, true, s.tagcheckWayS2, .none)
  | .readTagcheckWayIfMes => (s.tagcheckStateS2.mes, true, s.tagcheckWayS2, .none)
  | .readLruWayIfM => (s.lruStateS2 = .M, true, s.lruWayS2, .none)
  | .readFlushWayIfM => (s.flushStateS2 = .M, true, s.flushWayS2, .none)
  | .writeTagcheckWayIfMeFromMshr => (s.tagcheckStateS2.me, false, s.tagcheckWayS2, .mshr)
  | .writeLruWayFromNoc2 => (true, false, s.s3Result.lruWay, .noc2)
  | .writeLruWayFromNoc2AndMshr => (true, false, s.s3Result.lruWay, .noc2AndMshr)
  | .writeMshrWayFromMshr => (true, false, s.wayMshrStS2, .mshr)
  | .diagRead => (true, true, addressWay s.s2.address, .none)
  | .diagWrite => (true, false, addressWay s.s2.address, .pcxDiag)

/-- The set that the data array access addresses; zero without an operation. -/
def dcacheIndex : SetIndex := if s.s2.ops.dcacheOperation = .none then 0 else s.indexS2

/-- `l15_dcache_index_s2`. -/
def dcacheSlot : BitVec 9 := lineSlot s.dcacheIndex s.dcacheControl.2.2.1

/-- `dcache_write_mask_s2`. -/
def dcacheWriteMask : Line :=
  match s.dcacheControl.2.2.2 with
  | .mshr => s.writeBufferMaskS2
  | .noc2 | .noc2AndMshr => BitVec.allOnes 128
  | .pcxDiag =>
    if s.s2.address.getLsbD 3 then (0 : Word) ++ BitVec.allOnes 64
    else BitVec.allOnes 64 ++ (0 : Word)
  | .none => 0

/-- `dcache_write_data_s2`. -/
def dcacheWriteData : Line :=
  match s.dcacheControl.2.2.2 with
  | .mshr => s.writeBufferS2
  | .noc2 => s.noc2Line
  | .noc2AndMshr => s.writeMergeMshrNoc2
  | .pcxDiag => s.pcx.data ++ s.pcx.data
  | .none => 0

/-- `l15_dcache_val_s2`. -/
def dcacheVal : Bool := s.dcacheControl.1 && s.valS2 && !s.stallS2 i

/-- The request to the data array. -/
def dcachePort : UdataPort :=
  { ce := s.dcacheVal i
    rdwen := s.dcacheControl.2.1
    a := s.dcacheSlot
    bw := s.dcacheWriteMask
    din := s.dcacheWriteData
    va := i.undriven.vcacheIndex
    cmst := s.cmstS2 i }

/-- The move request to the tag array. -/
def dtagMove : UtagMove :=
  { vce := s.dcacheVal i
    cmst := s.cmstS2 i
    cmstDidx := s.dcacheSlot
    cmstVidx := i.undriven.cmstVidx }

/-! ### MESI write -/

/-- `mesi_write_val_s2`, `mesi_write_way_s2`, `mesi_write_state_s2`. -/
def mesiWriteControl : Bool × Way × Mesi :=
  match s.s2.ops.mesiWriteOp with
  | .none => (false, 0, .I)
  | .invalidateTagcheckWayIfMes => (s.tagcheckStateS2.mes, s.tagcheckWayS2, .I)
  | .invalidateFlushWayIfMes => (s.flushStateS2.mes, s.flushWayS2, .I)
  | .writeTagcheckWaySIfMe => (s.tagcheckStateS2.me, s.tagcheckWayS2, .S)
  | .writeTagcheckWayMIfE => (s.tagcheckStateS2 = .E, s.tagcheckWayS2, .M)
  | .writeLruWayAckState => (true, s.lruWayS2, s.s2.noc2AckState)
  | .writeMshrWayAckState => (true, s.wayMshrStS2, s.s2.noc2AckState)

/-- The write request to the MESI states. -/
def mesiWrite : MesiWrite :=
  { valid := s.mesiWriteControl.1 && s.valS2 && !s.stallS2 i
    index := if s.s2.ops.mesiWriteOp = .none then 0 else s.indexS2
    way := s.mesiWriteControl.2.1
    state := s.mesiWriteControl.2.2 }

/-! ### Way-map table read -/

/-- `l15_wmt_read_val_s2`. -/
def wmtReadVal : Bool := s.s2.ops.wmtReadOp = .read && s.valS2 && !s.stallS2 i

/-- `l15_wmt_read_index_s2`. -/
def wmtReadIndex : SetIndex := if s.s2.ops.wmtReadOp = .read then s.indexS2 else 0

end State

end Piton.L15
