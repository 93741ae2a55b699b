import Piton.L15.Types
import Piton.Lib.MaskedWrite

/-! The storage arrays of the L1.5: `sram_l15_utag`, `sram_l15_udata`, `rf_l15_mesi`,
`rf_l15_lruarray`, `rf_l15_wmt` and `rf_l15_vi`.

A row of four tag, MESI or WMT fields is a function of the way. Each array has the requests of
its ports as a record and one `tick` for the clock edge. -/

namespace Piton.L15

open Hw

/-! ### Tag array -/

/-- `sram_l15_utag`: primary tags, victim tags and the two output registers. -/
structure Utag where
  ptags : SetIndex → Way → RawTag
  vtags : Way → RawTag
  doutF : Way → RawTag
  voutF : Way → RawTag

/-- The first port of the tag array; `rdwen` is high for a read. -/
structure UtagPort where
  ce : Bool
  rdwen : Bool
  a : SetIndex
  bw : Way → RawTag
  din : Way → RawTag
  vbw : Way → RawTag
  vin : Way → RawTag

/-- The move port of the tag array. -/
structure UtagMove where
  vce : Bool
  cmst : Cmst
  cmstDidx : BitVec 9
  cmstVidx : Way

/-- `wire didx = CMST_DIDX[5:2]`: the wire has one bit. -/
def UtagMove.didx (m : UtagMove) : BitVec 1 := (m.cmstDidx.extractLsb' 2 4).setWidth 1

/-- `wire dway = CMST_DIDX[1:0]`: the wire has one bit. -/
def UtagMove.dway (m : UtagMove) : BitVec 1 := (m.cmstDidx.extractLsb' 0 2).setWidth 1

/-- The set that the one-bit `didx` selects in `ptags`. -/
def UtagMove.moveSet (m : UtagMove) : SetIndex := m.didx.setWidth 7

/-- The way that the one-bit `dway` selects in a row. -/
def UtagMove.moveWay (m : UtagMove) : Way := Fin.ofNat 4 m.dway.toNat

/-- The primary tags after the first port's access. -/
def Utag.writePtags (t : Utag) (p : UtagPort) : SetIndex → Way → RawTag :=
  if p.ce && !p.rdwen then
    Function.update t.ptags p.a fun w => maskedWrite (t.ptags p.a w) (p.din w) (p.bw w)
  else t.ptags

/-- The victim tags after the first port's access. -/
def Utag.writeVtags (t : Utag) (p : UtagPort) : Way → RawTag :=
  if p.ce && !p.rdwen then fun v => maskedWrite (t.vtags v) (p.vin v) (p.vbw v) else t.vtags

/-- One clock edge of the tag array. Both processes assign `ptags` and `vtags` from the values
before the edge; the move, which stands second, wins where both assign. -/
def Utag.tick (t : Utag) (p : UtagPort) (m : UtagMove) : Utag where
  ptags :=
    if m.vce && m.cmst = .MH then
      Function.update (t.writePtags p) m.moveSet
        (Function.update (t.ptags m.moveSet) m.moveWay (t.vtags m.cmstVidx))
    else t.writePtags p
  vtags :=
    if m.vce && m.cmst ≠ .HX then
      Function.update t.vtags m.cmstVidx (t.ptags m.moveSet m.moveWay)
    else t.writeVtags p
  doutF := if p.ce && p.rdwen then t.ptags p.a else t.doutF
  voutF := if p.ce && p.rdwen then t.vtags else t.voutF

/-! ### Data array -/

/-- `sram_l15_udata`: primary lines, victim lines and the output register. -/
structure Udata where
  pdata : BitVec 9 → Line
  vdata : Way → Line
  doutF : Line

/-- The port of the data array; `rdwen` is high for a read and `a` is set and way. -/
structure UdataPort where
  ce : Bool
  rdwen : Bool
  a : BitVec 9
  bw : Line
  din : Line
  va : Way
  cmst : Cmst

/-- The address `{index, way}` of a line in the data array. -/
def lineSlot (s : SetIndex) (w : Way) : BitVec 9 := s ++ BitVec.ofNat 2 w

/-- One clock edge of the data array. -/
def Udata.tick (d : Udata) (p : UdataPort) : Udata :=
  if p.ce then
    match p.cmst with
    | .HX =>
      if p.rdwen then { d with doutF := d.pdata p.a }
      else { d with pdata := Function.update d.pdata p.a (maskedWrite (d.pdata p.a) p.din p.bw) }
    | .MM => { d with vdata := Function.update d.vdata p.va (d.pdata p.a) }
    | .MH =>
      { pdata := Function.update d.pdata p.a (d.vdata p.va)
        vdata := Function.update d.vdata p.va (d.pdata p.a)
        doutF := d.vdata p.va }
  else d

/-! ### MESI states -/

/-- `rf_l15_mesi`: the states of every set, the registered read index and the write that is
performed one cycle after its request. A write mask selects one whole way. -/
structure RfMesi where
  regfile : SetIndex → Way → Mesi
  readIndexF : SetIndex
  writeValidF : Bool
  writeIndexF : SetIndex
  writeWayF : Way
  writeStateF : Mesi

/-- A write request to the MESI states. -/
structure MesiWrite where
  valid : Bool
  index : SetIndex
  way : Way
  state : Mesi

/-- `read_data`. -/
def RfMesi.readData (r : RfMesi) : Way → Mesi := r.regfile r.readIndexF

/-- The states with the registered write performed. -/
def RfMesi.written (r : RfMesi) : SetIndex → Way → Mesi :=
  if r.writeValidF then
    Function.update r.regfile r.writeIndexF
      (Function.update (r.regfile r.writeIndexF) r.writeWayF r.writeStateF)
  else r.regfile

/-- One clock edge of the MESI states. -/
def RfMesi.tick (r : RfMesi) (readValid : Bool) (readIndex : SetIndex) (wr : MesiWrite) :
    RfMesi where
  regfile := r.written
  readIndexF := if readValid then readIndex else r.readIndexF
  writeValidF := wr.valid
  writeIndexF := if wr.valid then wr.index else r.writeIndexF
  writeWayF := if wr.valid then wr.way else r.writeWayF
  writeStateF := if wr.valid then wr.state else r.writeStateF

/-! ### Replacement bits -/

/-- `rf_l15_lruarray`: four used bits and a two-bit round robin pointer for every set. -/
structure RfLru where
  regfile : SetIndex → BitVec 6
  readIndexF : SetIndex

/-- A write request to the replacement bits. -/
structure LruWrite where
  valid : Bool
  index : SetIndex
  mask : BitVec 6
  data : BitVec 6

/-- `read_data`. -/
def RfLru.readData (r : RfLru) : BitVec 6 := r.regfile r.readIndexF

/-- One clock edge of the replacement bits. -/
def RfLru.tick (r : RfLru) (readValid : Bool) (readIndex : SetIndex) (wr : LruWrite) : RfLru where
  regfile :=
    if wr.valid then
      Function.update r.regfile wr.index (maskedWrite (r.regfile wr.index) wr.data wr.mask)
    else r.regfile
  readIndexF := if readValid then readIndex else r.readIndexF

/-! ### Way-map table -/

/-- An entry of the way-map table: `{valid, way}`. -/
structure WmtEntry where
  valid : Bool
  way : Way
  deriving DecidableEq, Repr

/-- `rf_l15_wmt`: one entry for each L1D way of each L1D set. A write mask selects whole
entries. -/
structure RfWmt where
  regfile : SetIndex → Way → WmtEntry
  dataOutF : Way → WmtEntry
  writeValidF : Bool
  writeIndexF : SetIndex
  writeMaskF : Way → Bool
  writeDataF : Way → WmtEntry

/-- A write request to the way-map table. -/
structure WmtWrite where
  valid : Bool
  index : SetIndex
  mask : Way → Bool
  data : Way → WmtEntry

/-- One clock edge of the way-map table. -/
def RfWmt.tick (r : RfWmt) (readValid : Bool) (readIndex : SetIndex) (wr : WmtWrite) : RfWmt where
  regfile :=
    if r.writeValidF then
      Function.update r.regfile r.writeIndexF fun w =>
        if r.writeMaskF w then r.writeDataF w else r.regfile r.writeIndexF w
    else r.regfile
  dataOutF := if readValid then r.regfile readIndex else r.dataOutF
  writeValidF := wr.valid
  writeIndexF := if wr.valid then wr.index else r.writeIndexF
  writeMaskF := if wr.valid then wr.mask else r.writeMaskF
  writeDataF := if wr.valid then wr.data else r.writeDataF

/-! ### Victim valid bits -/

/-- `rf_l15_vi`. -/
structure RfVi where
  vi : Way → Bool
  readData : Bool
  writeValidF : Bool
  writeMaskF : Way → Bool
  writeDataF : Way → Bool

/-- One clock edge of the victim valid bits. `l15.v` connects a one-bit net to `read_mask`, so
none of its comparisons holds and the read index is `x`: `readExt` is its value. -/
def RfVi.tick (r : RfVi) (readValid : Bool) (readExt : Way) (writeValid : Bool)
    (writeMask writeData : Way → Bool) : RfVi where
  vi := if r.writeValidF then fun v => if r.writeMaskF v then r.writeDataF v else r.vi v else r.vi
  readData := if readValid then r.vi readExt else r.readData
  writeValidF := writeValid
  writeMaskF := if writeValid then writeMask else r.writeMaskF
  writeDataF := if writeValid then writeData else r.writeDataF

/-- The valid bits with the registered write performed. -/
def RfVi.written (r : RfVi) (v : Way) : Bool :=
  if r.writeValidF && r.writeMaskF v then r.writeDataF v else r.vi v

theorem RfVi.written_tick (r : RfVi) (readVal : Bool) (readExt : Way) (val : Bool)
    (mask data : Way → Bool) (v : Way) :
    (r.tick readVal readExt val mask data).written v =
      if val && mask v then data v else r.written v := by
  unfold RfVi.tick RfVi.written
  cases val <;> cases r.writeValidF <;> simp

/-- A clock edge performs the registered write. -/
theorem RfVi.vi_tick (r : RfVi) (readVal : Bool) (readExt : Way) (val : Bool)
    (mask data : Way → Bool) (v : Way) :
    (r.tick readVal readExt val mask data).vi v = r.written v := by
  unfold RfVi.tick RfVi.written
  cases r.writeValidF <;> simp

end Piton.L15
