import Mathlib.Logic.Function.Basic
import Piton.Lib.Sizes

/-! Data types of the L1.5 cache: addresses, enumerations and messages.

The widths are those of the default configuration (8KB, four ways, 16-byte lines, two threads,
four victim entries). Every enumeration names the constants of `l15.h` and `iop.h`; an operation
field whose encoding is `0` is the constructor `none`. -/

namespace Piton.L15

/-- A set of the primary storage (`L15_CACHE_INDEX_WIDTH` bits). -/
abbrev SetIndex := BitVec 7

/-- A way of a set, or an entry of the victim storage. -/
abbrev Way := Fin 4

/-- A hardware thread of the tile. -/
abbrev ThreadId := Fin 2

/-- A physical address (`L15_PADDR_MASK`). -/
abbrev Paddr := BitVec 40

/-- The tag of an address, bits `39:11`. -/
abbrev Tag := BitVec 29

/-- A tag field of the tag array (`L15_CACHE_TAG_RAW_WIDTH` bits, of which 29 are compared). -/
abbrev RawTag := BitVec 33

/-- A cache line of 16 bytes. -/
abbrev Line := BitVec 128

/-- One bit for each byte of a line. -/
abbrev ByteMask := BitVec 16

/-- Eight bytes, half of a line. -/
abbrev Word := BitVec 64

/-- `address[L15_IDX_HI:L15_IDX_LOW]`. -/
def cacheIndex (a : Paddr) : SetIndex := a.extractLsb' 4 7

/-- `address[L15_CACHE_TAG_HI:L15_CACHE_TAG_LOW]`. -/
def cacheTag (a : Paddr) : Tag := a.extractLsb' 11 29

/-- `address[39:4]`, the line address. -/
def lineAddress (a : Paddr) : BitVec 36 := a.extractLsb' 4 36

/-- `address[19:4]`, the part of the line address compared with load MSHRs. -/
def partialTag (a : Paddr) : BitVec 16 := a.extractLsb' 4 16

/-- `address[25:24]`, the way of line flushes and diagnostic accesses. -/
def addressWay (a : Paddr) : Way := Fin.ofNat 4 (a.extractLsb' 24 2).toNat

/-- `L15_MESI_STATE_*`. -/
inductive Mesi where
  | I | S | E | M
  deriving DecidableEq, Repr

/-- `L15_MESI_TRANSITION_STATE_*`; the remaining code of the two bits is `none`. -/
inductive TransState where
  | none | SM | IM | waitAck
  deriving DecidableEq, Repr

/-- `L15_CM_STATE_*`: primary and victim miss, primary hit, primary miss and victim hit. -/
inductive Cmst where
  | MM | HX | MH
  deriving DecidableEq, Repr

/-- `L15_MSHR_ID_*`. -/
inductive MshrId where
  | none | ifill | ld | st
  deriving DecidableEq, Repr

/-- `PCX_REQTYPE_*`; `other` stands for the codes the pipeline does not decode. -/
inductive PcxReqtype where
  | load | ifill | store | cas1 | cas2 | swpLoadstub | interrupt | fp1 | fp2
  | streamLoad | streamStore | fwdReq | fwdReply | other
  deriving DecidableEq, Repr

/-- The NoC2 `MSG_TYPE_*` values the pipeline decodes; `other` stands for the rest. -/
inductive Noc2Msgtype where
  | storeFwd | invFwd | loadFwd | dataAck | nodataAck | interrupt | other
  deriving DecidableEq, Repr

/-- `L15_REQTYPE_*`. -/
inductive Reqtype where
  | none | ignore | ifill | store | cas | swpLoadstub | invalidation | downgrade
  | ackdtLdNc | ackdtIfill | ackdtLd | ackdtStIm | ackdtStSm | ackWritethrough | ackAtomic
  | loadNc | loadPrefetch | writethrough | icacheInvalidation | pcxInterrupt | l2Interrupt
  | load | writeConfigReg | loadConfigReg | diagLoad | diagStore | lineFlush
  | hmcFill | hmcDiagLoad | hmcDiagStore | hmcFlush | ackPrefetch
  | icacheSelfInvalidation | dcacheSelfInvalidation
  deriving DecidableEq, Repr

/-- `L15_FETCH_STATE_*`. -/
inductive FetchState where
  | normal | pcxWritebackDone | inval2 | inval3 | inval4 | noc2WritebackDone | icacheInval2
  deriving DecidableEq, Repr

/-- `L15_PREDECODE_SOURCE_*`. -/
inductive PredecodeSource where
  | invalid | noc2 | pcx
  deriving DecidableEq, Repr

/-- `L15_ACK_STAGE_*`. -/
inductive AckStage where
  | never | s1 | s2 | s3
  deriving DecidableEq, Repr

/-- `L15_S1_MSHR_OP_*`. -/
inductive S1MshrOp where
  | none | allocate | updateWritecache
  deriving DecidableEq, Repr

/-- `L15_DTAG_OP_*`. -/
inductive DtagOp where
  | none | read | write
  deriving DecidableEq, Repr

/-- `L15_S2_MSHR_OP_*`. -/
inductive S2MshrOp where
  | none | readWriteCache
  deriving DecidableEq, Repr

/-- `L15_S2_MESI_*`. -/
inductive S2MesiOp where
  | none | read
  deriving DecidableEq, Repr

/-- `L15_DCACHE_*`. -/
inductive DcacheOp where
  | none
  | readTagcheckWayIfM
  | readTagcheckWayIfMes
  | readLruWayIfM
  | writeTagcheckWayIfMeFromMshr
  | writeLruWayFromNoc2
  | writeLruWayFromNoc2AndMshr
  | writeMshrWayFromMshr
  | diagRead
  | diagWrite
  | readFlushWayIfM
  deriving DecidableEq, Repr

/-- `L15_S3_MSHR_OP_*`. -/
inductive S3MshrOp where
  | none
  | deallocation
  | deallocationIfTagcheckMes
  | deallocationIfTagcheckMEElseUpdateStateStmshr
  | updateStMshrImIfIndexTagcheckWayMatches
  | updateStMshrImIfIndexLruWayMatches
  | updateStMshrWaitAck
  deriving DecidableEq, Repr

/-- `L15_S3_MESI_*`. -/
inductive S3MesiOp where
  | none
  | writeTagcheckWaySIfMe
  | writeTagcheckWayMIfE
  | invalidateTagcheckWayIfMes
  | writeLruWayAckState
  | writeMshrWayAckState
  | invalidateFlushWayIfMes
  deriving DecidableEq, Repr

/-- `L15_WMT_READ`. -/
inductive WmtReadOp where
  | none | read
  deriving DecidableEq, Repr

/-- `L15_WMT_DEMAP_*` and `L15_WMT_UPDATE_*`. -/
inductive WmtWriteOp where
  | none
  | demapTagcheckWayIfMes
  | demapLruWayIfMes
  | updateLruWayAndDedupEntry
  | updateTagcheckWayAndDedupEntryIfTagcheckWayIsMes
  | demapFlushWayIfMes
  deriving DecidableEq, Repr

/-- `L15_WMT_COMPARE_*`. -/
inductive WmtCompareOp where
  | none | lru | tagcheck | flush | stbuf
  deriving DecidableEq, Repr

/-- `L15_LRU_*`. -/
inductive LruWriteOp where
  | none
  | updateAccessBitsIfTagcheckWayIsMes
  | eviction
  | replacement
  | invalidateIfTagcheckWayIsMes
  | invalidateIfFlushWayIsMes
  deriving DecidableEq, Repr

/-- `L15_CPX_GEN_*`. -/
inductive CpxOp where
  | none
  | genInvalidationIfTagcheckMesAndWaymapValid
  | genLdResponseBogusData
  | genLdResponseBogusDataIfTagcheckMes
  | genLdResponseIfTagcheckMesFromDcache
  | genLdResponseFromNoc2
  | genStAck
  | genStAckIfTagcheckMEWithPossibleInval
  | genInvalidationIfLruMesAndWaymapValid
  | genIfillResponseFromNoc2
  | genAtomicAckFromNoc2
  | genStAckWithPossibleInval
  | genBroadcastAck
  | genInterrupt
  | genIcacheInvalidation
  | genLoadConfigRegResponse
  | genLdResponseFromDcache
  | genInvalidationIfFlushMesAndWaymapValid
  | genLdResponseFromCsm
  | genDcacheInvalidation
  deriving DecidableEq, Repr

/-- `L15_NOC1_GEN_*`. -/
inductive Noc1Op where
  | none
  | genDataLdRequest
  | genDataLdRequestIfTagcheckMiss
  | genInstructionLdRequest
  | genDataStUpgradeIfTagcheckSElseStFillIfTagcheckI
  | genDataWritethroughRequestFromPcx
  | genDataCasRequestFromPcx
  | genDataSwapRequestFromPcx
  | genWritebackGuardIfLruM
  | genWritebackGuardIfTagcheckM
  | genInterruptFwd
  | genWritebackGuardIfFlushM
  deriving DecidableEq, Repr

/-- `L15_NOC3_GEN_*`. -/
inductive Noc3Op where
  | none
  | genInvalAckFromDcache
  | genInvalAckIfTagcheckMFromDcache
  | genDowngradeAckFromDcache
  | genDowngradeAckIfTagcheckMFromDcache
  | genWritebackIfTagcheckMFromDcache
  | genWritebackIfLruMFromDcache
  | genIcacheInvalAck
  | genWritebackIfFlushMFromDcache
  deriving DecidableEq, Repr

/-- `L15_DCACHE_SOURCE_*`. -/
inductive DcacheSource where
  | none | mshr | noc2 | noc2AndMshr | pcxDiag
  deriving DecidableEq, Repr

/-- `L15_CPX_SOURCE_*`. -/
inductive CpxSource where
  | bogus | dcache | noc2Buffer | configRegs | csm
  deriving DecidableEq, Repr

/-- `L15_NOC1_SOURCE_*`. -/
inductive Noc1Source where
  | none | pcx64B | pcx128B
  deriving DecidableEq, Repr

/-- `CPX_RESTYPE_*`, the ones the pipeline sends; the code `0` is `LOAD_RET`. -/
inductive CpxRestype where
  | load | ifill1 | inval | storeAck | interrupt | atomicRes
  deriving DecidableEq, Repr

/-- `L15_NOC1_REQTYPE_*`. -/
inductive Noc1Reqtype where
  | none
  | writebackGuard | ldRequest | ifillRequest | writethroughRequest | stUpgradeRequest
  | stFillRequest | casRequest | swapRequest | interruptFwd
  deriving DecidableEq, Repr

/-- `L15_NOC3_REQTYPE_*`. -/
inductive Noc3Reqtype where
  | none | writeback | invalAck | downgradeAck | icacheInvalAck
  deriving DecidableEq, Repr

/-- The fields `pcx_decoder` extracts from a PCX packet. Bit 110 is both the prefetch and the
blockstore bit. -/
structure PcxPacket where
  rqtype : PcxReqtype
  nc : Bool
  size : BitVec 3
  threadid : ThreadId
  bit110 : Bool
  invalidateCacheline : Bool
  blockinitstore : Bool
  l1rplway : Way
  address : Paddr
  data : Word
  deriving Repr

/-- The fields `noc2decoder` extracts from a NoC2 message. -/
structure Noc2Message where
  reqtype : Noc2Msgtype
  mshrid : MshrId
  threadid : ThreadId
  hmcFill : Bool
  l2miss : Bool
  icacheType : Bool
  ackState : Mesi
  fwdSubcachelineVector : BitVec 4
  address : Paddr
  data0 : Word
  data1 : Word
  data2 : Word
  data3 : Word
  deriving Repr

/-- The control bits kept with an MSHR entry (`L15_CONTROL_*`). -/
structure Control where
  size : BitVec 3
  threadid : ThreadId
  l1ReplacementWay : Way
  nc : Bool
  blockstore : Bool
  blockstoreinit : Bool
  prefetch : Bool
  icache : Bool
  load : Bool
  atomic : Bool
  deriving Repr

/-- The all-zero control bits. -/
def Control.zero : Control :=
  { size := 0, threadid := 0, l1ReplacementWay := 0, nc := false, blockstore := false,
    blockstoreinit := false, prefetch := false, icache := false, load := false, atomic := false }

/-- The values of nets that nothing drives, of the `x` result of `rf_l15_vi`'s read index and of
the victim valid bits selected beyond the one-bit `vi_l15_vout_s2`; one record a cycle. -/
structure Undriven where
  vtagWriteMask : Way → RawTag
  vtagWriteData : Way → RawTag
  cmstVidx : Way
  vcacheIndex : Way
  viReadVal : Bool
  viReadExt : Way
  viWriteVal : Bool
  viWriteMask : Way → Bool
  viWriteData : Way → Bool
  viVoutRest : Way → Bool

/-- One cycle's inputs of the L1.5. A NoC2 message arrives flit by flit: `noc2Offer` is the message
that the cycle's flit completes, `noc2Receiving` the buffer's contents after any other flit. -/
structure Inputs where
  pcxOffer : Option PcxPacket
  pcxDataNextEntry : Word
  noc2Offer : Option Noc2Message
  noc2Receiving : Option Noc2Message
  noc1encoderAck : Bool
  noc3encoderAck : Bool
  configReadData : Word
  csmReadData : Word
  undriven : Undriven

end Piton.L15
