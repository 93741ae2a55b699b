import Piton.L15.DataArray
import Piton.L15.Upgrade
import Piton.Lib.Lanes

/-! What a completing store writes: the line that was received, or that is held in S, with the stores
of its entry applied byte by byte in the order in which the entry took them. -/

namespace Piton.L15

open Hw

/-! ### Stores -/

/-- A store of the core. -/
structure Store where
  size : BitVec 3
  address : Paddr
  data : Word

/-- The number of bytes that a store size (`PCX_SZ_*`) stands for; zero for the codes not in use. -/
def storeBytes (size : BitVec 3) : Nat :=
  if size = 0 then 1
  else if size = 1 then 2
  else if size = 2 then 4
  else if size = 3 then 8
  else if size = 7 then 16
  else 0

/-- Byte `b` of a line is in the aligned block of the size that contains the offset. -/
def inBlock (size : BitVec 3) (offset : BitVec 4) (b : Fin 16) : Bool :=
  0 < storeBytes size && b.val / storeBytes size = offset.toNat / storeBytes size

/-- A line or a part of it by its bytes, the byte of the lowest address first. -/
abbrev lineBytes (l : Line) : Fin 16 → BitVec 8 := lane 8 16 l

namespace Store

variable (st : Store)

/-- `address[3:0]`. -/
def offset : BitVec 4 := st.address.extractLsb' 0 4

/-- What the store writes: each byte of its block has the byte of the data at its place in the
doubleword. -/
def writes : Overlay (Fin 16) (BitVec 8) := fun b =>
  if inBlock st.size st.offset b then some (lane 8 8 st.data ⟨b.val % 8, by omega⟩) else none

end Store

/-- The bytes of a line after stores, applied in order. -/
def applyStores (l : List Store) (bytes : Fin 16 → BitVec 8) : Fin 16 → BitVec 8 :=
  l.foldl (fun bytes st => st.writes.onto bytes) bytes

/-- Bytes that no store covers are kept. -/
theorem applyStores_uncovered {l : List Store} {bytes : Fin 16 → BitVec 8} {b : Fin 16}
    (h : ∀ st ∈ l, inBlock st.size st.offset b = false) : applyStores l bytes b = bytes b := by
  unfold applyStores
  induction l generalizing bytes with
  | nil => rfl
  | cons st l ih =>
    rw [List.foldl_cons, ih fun st hst => h st (List.mem_cons_of_mem _ hst)]
    show (if inBlock st.size st.offset b then some _ else none).getD _ = _
    rw [h st List.mem_cons_self]
    rfl

/-! ### The history of an entry -/

/-- The store of the PCX packet. -/
def PcxPacket.store (p : PcxPacket) : Store := ⟨p.size, p.address, p.data⟩

/-- The stores that each store entry has taken since its allocation, in order, and the line of the
last message that answered it. -/
structure Merges where
  stores : ThreadId → List Store
  received : ThreadId → Line

/-- Nothing was stored or received. -/
def Merges.empty : Merges := ⟨fun _ => [], fun _ => 0⟩

/-- The line of a NoC2 message, `{noc2decoder_l15_data_0, noc2decoder_l15_data_1}`. -/
def Noc2Message.line (m : Noc2Message) : Line := m.data0 ++ m.data1

/-- An allocation starts the stores of its entry, a merge adds one, and an answer brings the line.
-/
def mergesNext (g : Merges) (y : State × Traffic) (i : Inputs) : Merges where
  stores t :=
    if (y.1.mshrS1Write i).allocates .st t then [y.1.pcx.store]
    else if (y.1.mshrS1Write i).merges t then g.stores t ++ [y.1.pcx.store]
    else g.stores t
  received t :=
    match y.1.noc2Accepts i with
    | some m => if m.answers .st t then m.line else g.received t
    | none => g.received t

/-- The L1.5, its traffic and the history of its store entries. -/
def mergeSystem : Machine ((State × Traffic) × Merges) Inputs :=
  system.withHistory Merges.empty mergesNext

/-! ### The property -/

namespace State

variable (s : State) (i : Inputs)

/-- The completion of thread `t`'s store, decoded as `rt`, leaves S2. -/
def completesStore (rt : Reqtype) (t : ThreadId) : Bool :=
  s.ackS2 .st t && !s.stallS2 i && s.s2.reqtype = rt

/-- The bytes of way `w` of the set in S2. -/
def bytesS2 (w : Way) : Fin 16 → BitVec 8 := lineBytes (s.udata.pdata (lineSlot s.indexS2 w))

/-- The bytes of way `w` of the set in S2 after the cycle. -/
def bytesWritten (w : Way) : Fin 16 → BitVec 8 :=
  lineBytes ((s.step i).udata.pdata (lineSlot s.indexS2 w))

end State

/-- The new bytes are the old ones with the stores applied; bytes that no store covers are kept. -/
structure StoresApplied (l : List Store) (old new : Fin 16 → BitVec 8) : Prop where
  applied : new = applyStores l old
  uncovered : ∀ b, (∀ st ∈ l, inBlock st.size st.offset b = false) → new b = old b

theorem storesApplied_iff {l : List Store} {old new : Fin 16 → BitVec 8} :
    StoresApplied l old new ↔ new = applyStores l old := by
  constructor
  · intro h
    exact h.applied
  · rintro rfl
    exact ⟨rfl, fun b hb => applyStores_uncovered hb⟩

/-- The stores of thread `t`'s entry are to the line that its completion writes. A fill leaves the
received line with the stores applied in the way it chose, and an upgrade leaves so a way that holds
the line in S. -/
structure StoresMerged (s : State) (g : Merges) (i : Inputs) (t : ThreadId) : Prop where
  sameLine : s.ackS2 .st t = true →
    ∀ st ∈ g.stores t, lineAddress st.address = lineAddress s.s2.address
  fill : s.completesStore i .ackdtStIm t = true →
    StoresApplied (g.stores t) (lineBytes (g.received t)) (s.bytesWritten i s.s3Result.lruWay)
  upgrade : s.completesStore i .ackdtStSm t = true →
    ∃ w, HoldsCopy s s.s2.address w ∧
      StoresApplied (g.stores t) (s.bytesS2 w) (s.bytesWritten i w)

/-- The write of an upgrade reaches way `w`: it goes there, and the data array performs it or moves
what leaves the same; or it goes elsewhere and the stores change nothing in way `w`. -/
def UpgradeReaches (s : State) (g : Merges) (i : Inputs) (t : ThreadId) (w : Way) : Prop :=
  if s.mshrStWay t = w then s.udata.MoveSuffices (s.dcachePort i)
  else applyStores (g.stores t) (s.bytesS2 w) = s.bytesS2 w

/-- The write of a completion reaches the line: the data array performs the write of a fill, or moves
what leaves the same, and that of an upgrade reaches a way that holds the line in S. -/
structure WriteReaches (s : State) (g : Merges) (i : Inputs) (t : ThreadId) : Prop where
  fill : s.completesStore i .ackdtStIm t = true → s.udata.MoveSuffices (s.dcachePort i)
  upgrade : s.completesStore i .ackdtStSm t = true →
    ∃ w, HoldsCopy s s.s2.address w ∧ UpgradeReaches s g i t w

/-! ### Byte masks -/

variable {y : State × Traffic} {g : Merges} {s : State} {i : Inputs} {t : ThreadId}

/-- The write mask of a PCX packet's size and address covers the block of its store. -/
theorem writeMask_block (hs : s.predecodeSource = .pcx) (b : Fin 16) :
    s.writeMask.getLsbD (16 - 1 - b.val) = inBlock s.pcx.store.size s.pcx.store.offset b := by
  have hsize : s.predecode.size = s.pcx.size := by
    rw [State.predecode_pcx hs]
    rfl
  have hmask : ∀ (size : BitVec 3) (offset : BitVec 4) (b : Fin 16),
      (let unshifted : ByteMask :=
        if size = 0 then 0x8000 else if size = 1 then 0xC000 else if size = 2 then 0xF000 else 0xFF00
      if size = 0 then unshifted >>> (offset &&& 15#4).toNat
      else if size = 1 then unshifted >>> (offset &&& 14#4).toNat
      else if size = 2 then unshifted >>> (offset &&& 12#4).toNat
      else if size = 3 then unshifted >>> (offset &&& 8#4).toNat
      else if size = 7 then BitVec.allOnes 16
      else 0).getLsbD (16 - 1 - b.val) = inBlock size offset b := by
    decide +kernel
  unfold State.writeMask State.unshiftedWriteMask
  rw [hsize]
  exact hmask _ _ b

/-- The bytes of a doubleword that is put into both halves of a line. -/
theorem lane_doubled (d : Word) (b : Fin 16) :
    lane 8 16 (d ++ d) b = lane 8 8 d ⟨b.val % 8, by omega⟩ := by
  apply BitVec.eq_of_getLsbD_eq
  intro j hj
  rw [lane_getLsbD, lane_getLsbD, BitVec.getLsbD_append]
  by_cases hb : b.val < 8
  · have hhi : ¬ 8 * (16 - 1 - b.val) + j < 64 := by omega
    have hplace : 8 * (16 - 1 - b.val) + j - 64 = 8 * (8 - 1 - b.val % 8) + j := by omega
    rw [if_neg hhi, hplace]
  · have hlo : 8 * (16 - 1 - b.val) + j < 64 := by omega
    have hplace : 8 * (16 - 1 - b.val) + j = 8 * (8 - 1 - b.val % 8) + j := by omega
    rw [if_pos hlo, hplace]

/-- What S1 gives the entry writes what the store writes. -/
theorem maskedLanes_storeS1 (hs : s.predecodeSource = .pcx) :
    maskedLanes 8 16 s.storeS1.1 s.storeS1.2 = s.pcx.store.writes := by
  funext b
  show (if s.writeMask.getLsbD (16 - 1 - b.val) then some (lane 8 16 (s.pcx.data ++ s.pcx.data) b)
    else none) = _
  rw [writeMask_block hs, lane_doubled]
  rfl

/-! ### The buffer of an entry -/

/-- The buffered bytes of thread `t`'s store entry. -/
def Mshr.buffered (m : Mshr) (t : ThreadId) : Overlay (Fin 16) (BitVec 8) :=
  maskedLanes 8 16 (m.stWriteBuffer t) (m.stWriteBufferByteMask t)

theorem Mshr.buffered_allocated (m : Mshr) {s1 : MshrS1Write} (s3 : MshrS3Write)
    (ha : s1.allocates .st t = true) :
    (m.tick s1 s3).buffered t = maskedLanes 8 16 s1.data s1.byteMask := by
  show maskedLanes 8 16 (if s1.allocates .st t then _ else _) (if s1.allocates .st t then _ else _) = _
  rw [ha, if_pos rfl, if_pos rfl]
  exact maskedLanes_and (k := 8) (n := 16) s1.data s1.byteMask

theorem Mshr.buffered_merged (m : Mshr) {s1 : MshrS1Write} (s3 : MshrS3Write)
    (hno : s1.allocates .st t = false) (hm : s1.merges t = true) :
    (m.tick s1 s3).buffered t = (m.buffered t).put (maskedLanes 8 16 s1.data s1.byteMask) := by
  show maskedLanes 8 16 (if s1.allocates .st t then _ else if s1.merges t then _ else _)
    (if s1.allocates .st t then _ else if s1.merges t then _ else _) = _
  rw [hno, if_neg Bool.false_ne_true, if_neg Bool.false_ne_true, hm, if_pos rfl, if_pos rfl]
  exact maskedLanes_merge (k := 8) (n := 16) _ s1.data _ s1.byteMask

theorem Mshr.buffered_kept (m : Mshr) {s1 : MshrS1Write} (s3 : MshrS3Write)
    (hno : s1.allocates .st t = false) (hm : s1.merges t = false) :
    (m.tick s1 s3).buffered t = m.buffered t := by
  show maskedLanes 8 16 (if s1.allocates .st t then _ else if s1.merges t then _ else _)
    (if s1.allocates .st t then _ else if s1.merges t then _ else _) = _
  rw [hno, hm]
  rfl

/-! ### The invariant -/

/-- What the entries, the NoC2 buffer and the completions in S2 have in common with the history. -/
structure MergeInv (z : (State × Traffic) × Merges) : Prop where
  buffered : ∀ t, z.1.1.mshr.stVal t = true →
    z.1.1.mshr.buffered t = Overlay.collect ((z.2.stores t).map Store.writes)
  sameLine : ∀ t, z.1.1.mshr.stVal t = true →
    ∀ st ∈ z.2.stores t, lineAddress st.address = lineAddress (z.1.1.mshr.stAddress t)
  registered : z.1.1.noc2Val = true →
    ∀ t, z.1.1.noc2.answers .st t = true → z.2.received t = z.1.1.noc2.line
  address : ∀ t, z.1.1.ackS2 .st t = true → z.1.1.s2.address = z.1.1.mshr.stAddress t
  answered : ∀ t, z.1.1.ackS2 .st t = true → z.1.1.s2.reqtype = .ackdtStIm →
    z.1.1.noc2.answers .st t = true

theorem mergeInv_init {z : (State × Traffic) × Merges} (h : mergeSystem.init z) : MergeInv z := by
  obtain ⟨⟨hs, -⟩, -⟩ := h
  have hval : ∀ t, z.1.1.mshr.stVal t ≠ true := fun t => Bool.eq_false_iff.1 (hs.mshrVal .st t)
  have hack : ∀ t, z.1.1.ackS2 .st t ≠ true := fun t ha => by
    unfold State.ackS2 at ha
    rw [hs.valS2] at ha
    exact absurd ha Bool.false_ne_true
  refine ⟨fun t hv => absurd hv (hval t), fun t hv => absurd hv (hval t), fun hv => ?_,
    fun t ha => absurd ha (hack t), fun t ha => absurd ha (hack t)⟩
  rw [hs.noc2Val] at hv
  exact absurd hv Bool.false_ne_true

/-! ### Allocations and merges -/

/-- Only a PCX packet writes an entry. -/
theorem Inv.pcx_of_write (h : Inv y) (hw : (y.1.mshrS1Write i).val = true) :
    y.1.predecodeSource = .pcx := by
  have hop : y.1.decode.s1MshrOperation ≠ .none ∧ y.1.s1Issues i = true := by
    unfold State.mshrS1Write at hw
    cases hop : y.1.decode.s1MshrOperation <;> rw [hop] at hw
    · exact absurd hw Bool.false_ne_true
    · exact ⟨S1MshrOp.noConfusion, hw⟩
    · exact ⟨S1MshrOp.noConfusion, hw⟩
  rcases source_cases hop.2 with ⟨hs, -⟩ | ⟨hs, -⟩
  · exact absurd (h.noc2_signals hs).1 hop.1
  · exact hs

theorem val_of_allocates {w : MshrS1Write} (ha : w.allocates .st t = true) : w.val = true := by
  unfold MshrS1Write.allocates at ha
  simp only [Bool.and_eq_true] at ha
  exact ha.1.1.1

theorem val_of_merges {w : MshrS1Write} (hm : w.merges t = true) : w.val = true := by
  unfold MshrS1Write.merges at hm
  simp only [Bool.and_eq_true] at hm
  exact hm.1.1

theorem address_of_allocates (ha : (s.mshrS1Write i).allocates .st t = true) :
    (s.mshrS1Write i).address = s.pcx.address := by
  unfold MshrS1Write.allocates at ha
  simp only [Bool.and_eq_true, decide_eq_true_eq] at ha
  obtain ⟨⟨⟨hval, hop⟩, -⟩, -⟩ := ha
  unfold State.mshrS1Write at hval hop ⊢
  cases hdec : s.decode.s1MshrOperation with
  | none =>
    rw [hdec] at hval
    exact absurd hval Bool.false_ne_true
  | allocate => rfl
  | updateWritecache =>
    rw [hdec] at hop
    cases hop

theorem stores_of_allocates (ha : (y.1.mshrS1Write i).allocates .st t = true) :
    (mergesNext g y i).stores t = [y.1.pcx.store] := if_pos ha

theorem stores_of_merges (hno : (y.1.mshrS1Write i).allocates .st t = false)
    (hm : (y.1.mshrS1Write i).merges t = true) :
    (mergesNext g y i).stores t = g.stores t ++ [y.1.pcx.store] := by
  show (if (y.1.mshrS1Write i).allocates .st t then _ else if (y.1.mshrS1Write i).merges t then _
    else _) = _
  rw [hno, if_neg Bool.false_ne_true, hm, if_pos rfl]

theorem stores_kept (hno : (y.1.mshrS1Write i).allocates .st t = false)
    (hm : (y.1.mshrS1Write i).merges t = false) : (mergesNext g y i).stores t = g.stores t := by
  show (if (y.1.mshrS1Write i).allocates .st t then _ else if (y.1.mshrS1Write i).merges t then _
    else _) = _
  rw [hno, if_neg Bool.false_ne_true, hm, if_neg Bool.false_ne_true]

/-- The bytes that S1 gives the entry are those of the packet's store. -/
theorem Inv.written_eq (h : Inv y) (hw : (y.1.mshrS1Write i).val = true) :
    maskedLanes 8 16 (y.1.mshrS1Write i).data (y.1.mshrS1Write i).byteMask =
      y.1.pcx.store.writes := by
  have hstore := storeS1_eq y.1 i
  rw [Prod.ext_iff] at hstore
  rw [show (y.1.mshrS1Write i).data = _ from hstore.1,
    show (y.1.mshrS1Write i).byteMask = _ from hstore.2]
  exact maskedLanes_storeS1 (h.pcx_of_write hw)

theorem MergeInv.step_buffered (hm : MergeInv (y, g)) (h : Inv y)
    (hv : (y.1.step i).mshr.stVal t = true) :
    (y.1.step i).mshr.buffered t =
      Overlay.collect (((mergesNext g y i).stores t).map Store.writes) := by
  show (y.1.mshr.tick (y.1.mshrS1Write i) y.1.mshrS3Write).buffered t = _
  rcases stVal_cases hv with ha | ⟨hno, hval, -⟩
  · rw [stores_of_allocates ha, Mshr.buffered_allocated _ _ ha, h.written_eq (val_of_allocates ha)]
    exact (Overlay.collect_singleton _).symm
  · cases hmerge : (y.1.mshrS1Write i).merges t with
    | true =>
      rw [stores_of_merges hno hmerge, Mshr.buffered_merged _ _ hno hmerge,
        h.written_eq (val_of_merges hmerge), hm.buffered t hval, List.map_append]
      exact (Overlay.collect_append _ _).symm
    | false =>
      rw [stores_kept hno hmerge, Mshr.buffered_kept _ _ hno hmerge]
      exact hm.buffered t hval

theorem MergeInv.step_sameLine (hm : MergeInv (y, g)) (h : Inv y)
    (hv : (y.1.step i).mshr.stVal t = true) :
    ∀ st ∈ (mergesNext g y i).stores t,
      lineAddress st.address = lineAddress ((y.1.step i).mshr.stAddress t) := by
  rcases stVal_cases hv with ha | ⟨hno, hval, -⟩
  · rw [stores_of_allocates ha]
    intro st hst
    rw [List.mem_singleton.1 hst]
    show _ = lineAddress (if (y.1.mshrS1Write i).allocates .st t then _ else _)
    rw [ha, if_pos rfl, address_of_allocates ha]
    rfl
  · rw [(h.stEntry_kept i hval).2]
    cases hmerge : (y.1.mshrS1Write i).merges t with
    | true =>
      rw [stores_of_merges hno hmerge]
      intro st hst
      rcases List.mem_append.1 hst with hst | hst
      · exact hm.sameLine t hval st hst
      · rw [List.mem_singleton.1 hst]
        exact (h.mergeInto hmerge).lineAddress
    | false =>
      rw [stores_kept hno hmerge]
      exact hm.sameLine t hval

/-! ### The message that answers -/

/-- What the second pass of a store's fill does. -/
structure StoreFillRow (d : Decoded) : Prop where
  reads : d.s2MshrOperation = .readWriteCache
  dcache : d.dcacheOperation = .writeLruWayFromNoc2AndMshr
  acks : d.noc2AckStage = .s2 ∨ d.noc2AckStage = .s3

theorem Decodes.storeFillRow {d : Decoded} (h : Decodes .ackdtStIm d)
    (hop : d.s3MshrOperation = .deallocation) : StoreFillRow d := by
  have hrow := h.of_rows (P := fun rt d => rt = .ackdtStIm → d.s3MshrOperation = .deallocation →
    d.s2MshrOperation = .readWriteCache ∧ d.dcacheOperation = .writeLruWayFromNoc2AndMshr ∧
      (d.noc2AckStage = .s2 ∨ d.noc2AckStage = .s3)) (by decide +kernel) rfl hop
  obtain ⟨hr, hd, ha⟩ := hrow
  exact ⟨hr, hd, ha⟩

/-- The message is in the buffer while the fill of a store is in S2. -/
theorem Inv.noc2Val_of_fill (h : Inv y) (ha : y.1.ackS2 .st t = true)
    (hrt : y.1.s2.reqtype = .ackdtStIm) : y.1.noc2Val = true := by
  unfold State.ackS2 Instr.completes at ha
  simp only [Bool.and_eq_true, decide_eq_true_eq] at ha
  obtain ⟨hv, ⟨hop, -⟩, -⟩ := ha
  have hdec := h.decodesS2 hv
  rw [hrt] at hdec
  have hacks : y.1.s2.acksNoc2 = true := by
    unfold Instr.acksNoc2
    rcases (hdec.storeFillRow hop).acks with hst | hst <;> simp [hst]
  have husers := h.noc2Users
  unfold State.noc2Users at husers
  rw [hv, hacks, Bool.and_self, Bool.toNat_true] at husers
  have hheld : y.1.noc2Held = true := Bool.toNat_eq_one.1 (by
    have hone := Bool.toNat_le y.1.noc2Held
    omega)
  unfold State.noc2Held at hheld
  rw [Bool.and_eq_true] at hheld
  exact hheld.1

/-- A message that is in the buffer before and after a cycle is the same one. -/
theorem noc2_same (hv : s.noc2Val = true) (hv' : (s.step i).noc2Val = true) :
    (s.step i).noc2 = s.noc2 := by
  cases hack : s.noc2Ack i with
  | false => exact (noc2_step hv hack).2
  | true =>
    change (s.noc2BufferNext i).1 = true at hv'
    unfold State.noc2BufferNext at hv'
    rw [hv, if_pos rfl, hack] at hv'
    exact absurd hv' Bool.false_ne_true

theorem MergeInv.step_registered (hm : MergeInv (y, g)) (hv : (y.1.step i).noc2Val = true)
    (hans : (y.1.step i).noc2.answers .st t = true) :
    (mergesNext g y i).received t = (y.1.step i).noc2.line := by
  cases hold : y.1.noc2Val with
  | true =>
    have hno : y.1.noc2Accepts i = none := by
      unfold State.noc2Accepts
      rw [hold, if_pos rfl]
    have hsame := noc2_same hold hv
    rw [hsame] at hans ⊢
    show (match y.1.noc2Accepts i with | some m => _ | none => g.received t) = _
    rw [hno]
    exact hm.registered hold t hans
  | false =>
    obtain ⟨hsome, hmsg⟩ := noc2_accepted (i := i) (s := y.1) (by rw [hold, Bool.false_and])
    rw [hsome] at hv
    obtain ⟨m, hacc⟩ := Option.isSome_iff_exists.1 hv
    rw [hmsg m hacc] at hans ⊢
    show (match y.1.noc2Accepts i with | some m => if m.answers .st t then m.line else _ | none => _) = _
    rw [hacc]
    exact if_pos hans

theorem MergeInv.step_answered (hm : MergeInv (y, g)) (h : Inv y) (h' : Inv (system.step y i))
    (ha : (y.1.step i).ackS2 .st t = true) (hrt : (y.1.step i).s2.reqtype = .ackdtStIm) :
    (y.1.step i).noc2.answers .st t = true := by
  have hv' : (y.1.step i).noc2Val = true := h'.noc2Val_of_fill ha hrt
  rcases h.ackS2_cases ha with ⟨hack, hs2⟩ | ⟨-, -, -, hwait, -⟩
  · rw [hs2] at hrt
    rw [noc2_same (h.noc2Val_of_fill hack hrt) hv']
    exact hm.answered t hack hrt
  · unfold State.answerWaits at hwait
    simp only [Bool.and_eq_true] at hwait
    rw [noc2_same hwait.1.1 hv']
    exact hwait.2

theorem MergeInv.step (hm : MergeInv (y, g)) (h : Inv y) (hok : InputOk y i) :
    MergeInv (mergeSystem.step (y, g) i) where
  buffered _ hv := hm.step_buffered h hv
  sameLine _ hv := hm.step_sameLine h hv
  registered hv _ hans := hm.step_registered hv hans
  address t ha := h.completion_address (hm.address t) ha
  answered _ ha hrt := hm.step_answered h (h.step hok) ha hrt

theorem reachable_mergeInv {z : (State × Traffic) × Merges}
    (hz : mergeSystem.Reachable (fun z i => InputOk z.1 i) z) : Inv z.1 ∧ MergeInv z := by
  induction hz with
  | init hinit => exact ⟨init_inv hinit.1, mergeInv_init hinit⟩
  | step _ hok ih => exact ⟨ih.1.step hok, ih.2.step ih.1 hok⟩

/-! ### The write -/

theorem collect_onto_bytes (l : List Store) (bytes : Fin 16 → BitVec 8) :
    (Overlay.collect (l.map Store.writes)).onto bytes = applyStores l bytes := by
  rw [Overlay.collect_onto, List.foldl_map]
  rfl

/-- Writing the buffer of an entry under its mask applies the entry's stores. -/
theorem MergeInv.lineBytes_write (hm : MergeInv (y, g)) (hv : y.1.mshr.stVal t = true) (l : Line) :
    lineBytes (maskedWrite l (y.1.mshr.stWriteBuffer t)
        (bitMask (y.1.mshr.stWriteBufferByteMask t))) =
      applyStores (g.stores t) (lineBytes l) := by
  have hbuf : y.1.mshr.buffered t = Overlay.collect ((g.stores t).map Store.writes) :=
    hm.buffered t hv
  rw [← collect_onto_bytes, ← hbuf]
  exact lane_maskedWrite_eq (k := 8) (n := 16) l _ _

theorem State.completesStore_iff {rt : Reqtype} :
    s.completesStore i rt t = true ↔
      s.ackS2 .st t = true ∧ s.stallS2 i = false ∧ s.s2.reqtype = rt := by
  unfold State.completesStore
  rw [Bool.and_eq_true, Bool.and_eq_true, Bool.not_eq_true', decide_eq_true_eq, and_assoc]

theorem ackS2_iff : s.ackS2 .st t = true ↔
    s.valS2 = true ∧ s.s2.ops.s3MshrOperation = .deallocation ∧ s.s2.mshrid = .st ∧
      s.s2.threadid = t := by
  unfold State.ackS2 Instr.completes
  simp only [Bool.and_eq_true, decide_eq_true_eq, and_assoc]

/-- The request of a store's fill to the data array. -/
structure FillPort (s : State) (i : Inputs) (t : ThreadId) : Prop where
  ce : (s.dcachePort i).ce = true
  rdwen : (s.dcachePort i).rdwen = false
  slot : (s.dcachePort i).a = lineSlot s.indexS2 s.s3Result.lruWay
  bw : (s.dcachePort i).bw = BitVec.allOnes 128
  din : (s.dcachePort i).din = maskedWrite s.noc2.line (s.mshr.stWriteBuffer t)
    (bitMask (s.mshr.stWriteBufferByteMask t))

theorem Inv.fillPort (h : Inv y) (hc : y.1.completesStore i .ackdtStIm t = true) :
    FillPort y.1 i t := by
  obtain ⟨hack, hst, hrt⟩ := State.completesStore_iff.1 hc
  obtain ⟨hv, hop, -, ht⟩ := ackS2_iff.1 hack
  have hdec := h.decodesS2 hv
  rw [hrt] at hdec
  have hrow := hdec.storeFillRow hop
  have hctl : y.1.dcacheControl = (true, false, y.1.s3Result.lruWay, .noc2AndMshr) := by
    unfold State.dcacheControl
    rw [hrow.dcache]
  refine ⟨?_, ?_, ?_, ?_, ?_⟩
  · show (y.1.dcacheControl.1 && y.1.valS2 && !y.1.stallS2 i) = true
    rw [hctl, hv, hst]
    rfl
  · show y.1.dcacheControl.2.1 = false
    rw [hctl]
  · show lineSlot y.1.dcacheIndex y.1.dcacheControl.2.2.1 = _
    unfold State.dcacheIndex
    rw [hctl, hrow.dcache, if_neg DcacheOp.noConfusion]
  · show y.1.dcacheWriteMask = _
    unfold State.dcacheWriteMask
    rw [hctl]
  · show y.1.dcacheWriteData = _
    unfold State.dcacheWriteData State.writeMergeMshrNoc2 State.writeBufferMaskS2
      State.writeBufferS2
    rw [hctl, if_pos hrow.reads, if_pos hrow.reads, ht]
    unfold maskedWrite
    rw [BitVec.or_comm, BitVec.and_comm _ (y.1.mshr.stWriteBuffer t),
      BitVec.and_comm _ y.1.noc2Line]
    rfl

/-- The fill leaves the received line with the stores applied exactly if the data array writes it. -/
theorem MergeInv.fill_iff (hm : MergeInv (y, g)) (h : Inv y)
    (hc : y.1.completesStore i .ackdtStIm t = true) :
    y.1.bytesWritten i y.1.s3Result.lruWay = applyStores (g.stores t) (lineBytes (g.received t)) ↔
      y.1.udata.MoveSuffices (y.1.dcachePort i) := by
  have hp := h.fillPort hc
  obtain ⟨hack, -, hrt⟩ := State.completesStore_iff.1 hc
  have hline : g.received t = y.1.noc2.line :=
    hm.registered (h.noc2Val_of_fill hack hrt) t (hm.answered t hack hrt)
  rw [← Udata.serves_iff _ _ hp.ce, Udata.Serves, hp.rdwen, if_neg Bool.false_ne_true, hp.bw,
    maskedWrite_allOnes, hp.slot, hp.din, hline, ← hm.lineBytes_write (h.val_of_ackS2 hack)]
  exact ⟨fun hbytes => eq_of_lane (k := 8) (n := 16) hbytes, fun hsame => congrArg lineBytes hsame⟩

/-- The request of an upgrade's completion to the data array. -/
structure UpgradePort (s : State) (i : Inputs) (t : ThreadId) : Prop where
  ce : (s.dcachePort i).ce = true
  rdwen : (s.dcachePort i).rdwen = false
  slot : (s.dcachePort i).a = lineSlot s.indexS2 (s.mshrStWay t)
  bw : (s.dcachePort i).bw = bitMask (s.mshr.stWriteBufferByteMask t)
  din : (s.dcachePort i).din = s.mshr.stWriteBuffer t

theorem Inv.upgradePort (h : Inv y) (hc : y.1.completesStore i .ackdtStSm t = true) :
    UpgradePort y.1 i t := by
  obtain ⟨hack, hst, hrt⟩ := State.completesStore_iff.1 hc
  obtain ⟨hv, -, -, ht⟩ := ackS2_iff.1 hack
  have hdec := h.decodesS2 hv
  rw [hrt] at hdec
  have hreads := (hdec.storeRow (.inr rfl)).1
  have hctl : y.1.dcacheControl = (true, false, y.1.mshrStWay t, .mshr) := by
    unfold State.dcacheControl State.wayMshrStS2
    rw [hdec.upgradeRow.dcache, ht]
  refine ⟨?_, ?_, ?_, ?_, ?_⟩
  · show (y.1.dcacheControl.1 && y.1.valS2 && !y.1.stallS2 i) = true
    rw [hctl, hv, hst]
    rfl
  · show y.1.dcacheControl.2.1 = false
    rw [hctl]
  · show lineSlot y.1.dcacheIndex y.1.dcacheControl.2.2.1 = _
    unfold State.dcacheIndex
    rw [hctl, hdec.upgradeRow.dcache, if_neg DcacheOp.noConfusion]
  · show y.1.dcacheWriteMask = _
    unfold State.dcacheWriteMask State.writeBufferMaskS2
    rw [hctl, if_pos hreads, ht]
  · show y.1.dcacheWriteData = _
    unfold State.dcacheWriteData State.writeBufferS2
    rw [hctl, if_pos hreads, ht]

/-- The completion of an upgrade leaves a way with the stores applied exactly if its write reaches
that way. -/
theorem MergeInv.upgrade_iff (hm : MergeInv (y, g)) (h : Inv y)
    (hc : y.1.completesStore i .ackdtStSm t = true) (w : Way) :
    y.1.bytesWritten i w = applyStores (g.stores t) (y.1.bytesS2 w) ↔
      UpgradeReaches y.1 g i t w := by
  have hp := h.upgradePort hc
  obtain ⟨hack, -, -⟩ := State.completesStore_iff.1 hc
  unfold UpgradeReaches
  by_cases hway : y.1.mshrStWay t = w
  · subst hway
    rw [if_pos rfl, ← Udata.serves_iff _ _ hp.ce, Udata.Serves, hp.rdwen,
      if_neg Bool.false_ne_true, hp.slot, hp.bw, hp.din, State.bytesS2,
      ← hm.lineBytes_write (h.val_of_ackS2 hack)]
    exact ⟨fun hbytes => eq_of_lane (k := 8) (n := 16) hbytes,
      fun hsame => congrArg lineBytes hsame⟩
  · have hother : lineSlot y.1.indexS2 w ≠ (y.1.dcachePort i).a := by
      rw [hp.slot]
      exact fun hs => hway (lineSlot_inj.1 hs).2.symm
    have hkept : y.1.bytesWritten i w = y.1.bytesS2 w :=
      congrArg lineBytes (Udata.pdata_other hother)
    rw [if_neg hway, hkept]
    exact eq_comm

/-! ### Every cycle -/

theorem mergeSystem_init : mergeSystem.init ((State.reset, Traffic.empty), Merges.empty) :=
  ⟨system_init, rfl⟩

/-- A store of one byte. -/
def Inputs.storeByte (t : ThreadId) (a : Paddr) (data : Word) : Inputs :=
  .ofPcx { PcxPacket.zero with
    rqtype := .store, size := 0, threadid := t, address := a, data := data }

/-- A line is filled in S, a store to it asks for an upgrade, a store of the other thread overwrites
one of its bytes, and the upgrade is acknowledged. -/
def mergedUpgradeRun : List Inputs :=
  filledLine 0x12345000 ++ [Inputs.store 0 0x12345000 false 9] ++ Inputs.wait 4 ++
    [Inputs.storeByte 1 0x12345007 6] ++ Inputs.wait 5 ++ [Inputs.dataAck .st 0 .M 0] ++
    Inputs.wait 1

/-- The completion of the upgrade is in S2. -/
def mergedUpgrade : (State × Traffic) × Merges :=
  mergeSystem.run ((State.reset, Traffic.empty), Merges.empty) mergedUpgradeRun

set_option maxRecDepth 20000 in
theorem mergedUpgrade_reachable :
    mergeSystem.Reachable (fun z i => InputOk z.1 i) mergedUpgrade :=
  Machine.Reachable.run (.init mergeSystem_init) (by decide +kernel)

theorem mergedUpgrade_completes :
    mergedUpgrade.1.1.completesStore Inputs.quiet .ackdtStSm 0 = true ∧
      (mergedUpgrade.2.stores 0).length = 2 ∧
      HoldsCopy mergedUpgrade.1.1 mergedUpgrade.1.1.s2.address 0 ∧
      mergedUpgrade.1.1.mshrStWay 0 = 0 ∧
        (mergedUpgrade.1.1.dcachePort Inputs.quiet).cmst = .HX := by
  decide +kernel

/-- Two stores to a line that is in no way, and the fill of the line. -/
def mergedFillRun : List Inputs :=
  [Inputs.store 0 0x12345000 false 9] ++ Inputs.wait 4 ++ [Inputs.storeByte 1 0x12345007 6] ++
    Inputs.wait 5 ++ [Inputs.dataAck .st 0 .M 7] ++ Inputs.wait 2

/-- The second pass of the fill is in S2. -/
def mergedFill : (State × Traffic) × Merges :=
  mergeSystem.run ((State.reset, Traffic.empty), Merges.empty) mergedFillRun

set_option maxRecDepth 20000 in
theorem mergedFill_reachable :
    mergeSystem.Reachable (fun z i => InputOk z.1 i) mergedFill :=
  Machine.Reachable.run (.init mergeSystem_init) (by decide +kernel)

theorem mergedFill_completes :
    mergedFill.1.1.completesStore Inputs.quiet .ackdtStIm 0 = true ∧
      mergedFill.1.1.bytesWritten Inputs.quiet mergedFill.1.1.s3Result.lruWay 15 = 0 ∧
        applyStores (mergedFill.2.stores 0) (lineBytes (mergedFill.2.received 0)) 15 = 7 := by
  decide +kernel

end Piton.L15
