import Piton.Sd.Memory

/-! The words of requests: a write of the controller's port lays one word of a store over the block of
its entry, and a read returns one word of a load. -/

namespace Piton.Sd

open Hw

/-! ### Slices as numbers -/

theorem toNat_append_eq {m n : Nat} (x : BitVec m) (y : BitVec n) :
    (x ++ y).toNat = x.toNat * 2 ^ n + y.toNat := by
  rw [BitVec.toNat_append, ← Nat.shiftLeft_add_eq_or_of_lt y.isLt, Nat.shiftLeft_eq]

theorem dataSize_cases {sz : BitVec 3} (h : sz ≠ 0) :
    sz = 1 ∨ sz = 2 ∨ sz = 3 ∨ sz = 4 ∨ sz = 5 ∨ sz = 6 ∨ sz = 7 := by
  revert sz
  decide

theorem toNat_slice {n : Nat} (a : BitVec n) (j k : Nat) :
    (a.extractLsb' j k).toNat = a.toNat / 2 ^ j % 2 ^ k := by
  rw [BitVec.extractLsb'_toNat, Nat.shiftRight_eq_div_pow]

theorem bramWea_iff {sz : BitVec 2} {addr lane : BitVec 3} : bramWea sz addr lane = true ↔
    lane.toNat / 2 ^ sz.toNat = addr.toNat / 2 ^ sz.toNat := by
  revert sz addr lane
  decide

theorem bramDin_eq {sz : BitVec 2} {data : Flit} {lane : BitVec 3} : bramDin sz data lane =
    data.extractLsb' (8 * (2 ^ sz.toNat - 1 - lane.toNat % 2 ^ sz.toNat)) 8 := by
  have hcases : sz = 0 ∨ sz = 1 ∨ sz = 2 ∨ sz = 3 := by revert sz; decide
  have hl := lane.isLt
  obtain rfl | rfl | rfl | rfl := hcases
  · simp [bramDin, Nat.mod_one]
  · rfl
  · rfl
  · simp [bramDin, Nat.mod_eq_of_lt hl]

/-- The bytes of a block that a write of the controller's port covers. -/
def portWrite (off : BitVec 9) (sz : BitVec 2) (data : Flit) : Overlay (BitVec 9) (BitVec 8) :=
  fun o =>
    if o.extractLsb' 3 6 = off.extractLsb' 3 6 && bramWea sz (off.extractLsb' 0 3) (o.extractLsb' 0 3)
    then some (bramDin sz data (o.extractLsb' 0 3)) else none

section Addresses

variable {w m : Nat} {e e' : BitVec (w + m)} {b : Bram} {off o : BitVec 9}

theorem toNat_dmaAddr : ((CacheManager.dmaAddr e).extractLsb' 9 3).toNat = e.toNat % 8 := by
  rw [toNat_slice, CacheManager.dmaAddr, toNat_append_eq, BitVec.toNat_setWidth]
  simp

theorem dmaAddr_inj (hn : w + m ≤ 3) : (CacheManager.dmaAddr e).extractLsb' 9 3 =
    (CacheManager.dmaAddr e').extractLsb' 9 3 ↔ e = e' := by
  have hpow : 2 ^ (w + m) ≤ 2 ^ 3 := Nat.pow_le_pow_right (by decide) hn
  have he := e.isLt
  have he' := e'.isLt
  rw [← BitVec.toNat_inj, toNat_dmaAddr, toNat_dmaAddr, Nat.mod_eq_of_lt (by omega),
    Nat.mod_eq_of_lt (by omega), BitVec.toNat_inj]

theorem read_eq : b.read (e.setWidth 23 ++ off) = wordOf fun lane =>
    b.block (CacheManager.dmaAddr e) (BitVec.ofNat 9 (off.toNat / 8 * 8 + lane.toNat)) := by
  refine congrArg wordOf (funext fun lane => congrArg b (BitVec.eq_of_toNat_eq ?_))
  have hoff := off.isLt
  have hl := lane.isLt
  rw [toNat_append_eq, toNat_append_eq, toNat_dmaAddr, toNat_slice, toNat_append_eq,
    BitVec.toNat_setWidth, BitVec.toNat_ofNat]
  omega

theorem block_write (hn : w + m ≤ 3) {sz : BitVec 2} {data : Flit} :
    (b.write (e.setWidth 23 ++ off) sz data).block (CacheManager.dmaAddr e') =
      if e' = e then (portWrite off sz data).onto (b.block (CacheManager.dmaAddr e))
      else b.block (CacheManager.dmaAddr e') := by
  have hpow : 2 ^ (w + m) ≤ 2 ^ 3 := Nat.pow_le_pow_right (by decide) hn
  have he := e.isLt
  have he' := e'.isLt
  funext o
  have hlow : ((e.setWidth 23 ++ off : BitVec 32).extractLsb' 0 3) = off.extractLsb' 0 3 := by
    apply BitVec.eq_of_toNat_eq
    rw [toNat_slice, toNat_slice, toNat_append_eq]
    omega
  have hlane : ((CacheManager.dmaAddr e').extractLsb' 9 3 ++ o).extractLsb' 0 3 =
      o.extractLsb' 0 3 := by
    apply BitVec.eq_of_toNat_eq
    rw [toNat_slice, toNat_slice, toNat_append_eq]
    omega
  have hword : ((CacheManager.dmaAddr e').extractLsb' 9 3 ++ o).extractLsb' 3 9 =
      (e.setWidth 23 ++ off : BitVec 32).extractLsb' 3 9 ↔
        e' = e ∧ o.extractLsb' 3 6 = off.extractLsb' 3 6 := by
    have ho := o.isLt
    have hoff := off.isLt
    rw [← BitVec.toNat_inj, ← BitVec.toNat_inj, ← BitVec.toNat_inj, toNat_slice, toNat_slice,
      toNat_slice, toNat_slice, toNat_append_eq, toNat_append_eq, toNat_dmaAddr,
      BitVec.toNat_setWidth]
    omega
  unfold Bram.block Bram.write
  simp only [hlow, hlane, hword, Bool.and_eq_true, decide_eq_true_iff]
  by_cases hee : e' = e
  · subst hee
    rw [if_pos rfl]
    unfold Overlay.onto portWrite
    simp only [true_and, Bool.and_eq_true, decide_eq_true_iff]
    split <;> rfl
  · rw [if_neg hee, if_neg fun h => hee h.1.1]

end Addresses

/-- The bytes of word `k` of a store. -/
def Exchange.word (x : Exchange) (k : Nat) : Overlay (BitVec 9) (BitVec 8) := fun o =>
  if o.toNat / x.size = x.offset / x.size ∧ o.toNat % x.size / 8 = k
  then some (x.dataByte (o.toNat % x.size)) else none

theorem toNat_wordOffset {sz : BitVec 3} {a : BitVec 40} {k : BitVec 3} (h : sz ≠ 0)
    (hk : k.toNat < wordCount sz) : (wordOffset sz a k).toNat =
      a.toNat % 512 / 2 ^ (sz.toNat - 1) * 2 ^ (sz.toNat - 1) + 8 * k.toNat := by
  have hword : ∀ j n m : Nat, (a.extractLsb' j n ++ k.extractLsb' 0 m ++ 0#3).toNat =
      (a.toNat / 2 ^ j % 2 ^ n * 2 ^ m + k.toNat % 2 ^ m) * 8 := fun j n m => by
    rw [toNat_append_eq, toNat_append_eq, toNat_slice, toNat_slice, Nat.pow_zero, Nat.div_one]
    rfl
  obtain rfl | rfl | rfl | rfl | rfl | rfl | rfl := dataSize_cases h
  · have hk : k.toNat < 1 := hk
    refine (toNat_slice a 0 9).trans ?_
    simp
    omega
  · have hk : k.toNat < 1 := hk
    refine (toNat_append_eq (a.extractLsb' 1 8) 0#1).trans ?_
    rw [toNat_slice]
    simp
    omega
  · have hk : k.toNat < 1 := hk
    refine (toNat_append_eq (a.extractLsb' 2 7) 0#2).trans ?_
    rw [toNat_slice]
    simp
    omega
  · have hk : k.toNat < 1 := hk
    refine (toNat_append_eq (a.extractLsb' 3 6) 0#3).trans ?_
    rw [toNat_slice]
    simp
    omega
  · have hk : k.toNat < 2 := hk
    refine (hword 4 5 1).trans ?_
    simp
    omega
  · have hk : k.toNat < 4 := hk
    refine (hword 5 4 2).trans ?_
    simp
    omega
  · have hk : k.toNat < 8 := hk
    refine (toNat_append_eq (a.extractLsb' 6 3 ++ k) 0#3).trans ?_
    rw [toNat_append_eq, toNat_slice]
    simp
    omega

/-- A write of the controller covers the bytes of its word. -/
theorem covers_iff {sz : BitVec 3} {off o k : Nat} (h : sz ≠ 0) (hk : k < wordCount sz)
    (ho : o < 512) (hoff : off < 512) :
    (o / 8 % 64 = (off / 2 ^ (sz.toNat - 1) * 2 ^ (sz.toNat - 1) + 8 * k) / 8 % 64 ∧
      o % 8 / 2 ^ (bufferSz sz).toNat =
        (off / 2 ^ (sz.toNat - 1) * 2 ^ (sz.toNat - 1) + 8 * k) % 8 / 2 ^ (bufferSz sz).toNat) ↔
      o / 2 ^ (sz.toNat - 1) = off / 2 ^ (sz.toNat - 1) ∧ o % 2 ^ (sz.toNat - 1) / 8 = k := by
  obtain rfl | rfl | rfl | rfl | rfl | rfl | rfl := dataSize_cases h
  · have hk : k < 1 := hk
    simp [bufferSz]
    omega
  · have hk : k < 1 := hk
    simp [bufferSz]
    omega
  · have hk : k < 1 := hk
    simp [bufferSz]
    omega
  · have hk : k < 1 := hk
    simp [bufferSz]
    omega
  · have hk : k < 2 := hk
    simp [bufferSz]
    omega
  · have hk : k < 4 := hk
    simp [bufferSz]
    omega
  · have hk : k < 8 := hk
    simp [bufferSz]
    omega

theorem byte_eq {sz : BitVec 3} {o k : Nat} (h : sz ≠ 0)
    (hk : o % 2 ^ (sz.toNat - 1) / 8 = k) :
    2 ^ (bufferSz sz).toNat - 1 - o % 8 % 2 ^ (bufferSz sz).toNat =
      min (2 ^ (sz.toNat - 1)) 8 - 1 - o % 2 ^ (sz.toNat - 1) % 8 := by
  obtain rfl | rfl | rfl | rfl | rfl | rfl | rfl := dataSize_cases h <;> simp [bufferSz] <;> omega

theorem portWrite_eq {x : Exchange} {k : BitVec 3} (h : x.addrFlit.dataSize ≠ 0)
    (hk : k.toNat < wordCount x.addrFlit.dataSize) :
    portWrite (wordOffset x.addrFlit.dataSize x.addrFlit.addrRemapped k)
      (bufferSz x.addrFlit.dataSize) (x.flits.getD (3 + k.toNat) 0) = x.word k.toNat := by
  funext o
  have hcov := covers_iff h hk o.isLt (Nat.mod_lt x.addrFlit.addrRemapped.toNat (by decide : 0 < 512))
  have hiff : (o.extractLsb' 3 6 =
        (wordOffset x.addrFlit.dataSize x.addrFlit.addrRemapped k).extractLsb' 3 6 &&
      bramWea (bufferSz x.addrFlit.dataSize)
        ((wordOffset x.addrFlit.dataSize x.addrFlit.addrRemapped k).extractLsb' 0 3)
        (o.extractLsb' 0 3)) = true ↔
      o.toNat / x.size = x.offset / x.size ∧ o.toNat % x.size / 8 = k.toNat := by
    rw [Bool.and_eq_true, decide_eq_true_iff, bramWea_iff, ← BitVec.toNat_inj, toNat_slice,
      toNat_slice, toNat_slice, toNat_slice, toNat_wordOffset h hk]
    simpa [Exchange.size, Exchange.offset] using hcov
  unfold portWrite Exchange.word
  by_cases hin : o.toNat / x.size = x.offset / x.size ∧ o.toNat % x.size / 8 = k.toNat
  · rw [if_pos (hiff.2 hin), if_pos hin, bramDin_eq, toNat_slice, Exchange.dataByte, hin.2]
    have hbyte := byte_eq h hin.2
    unfold Exchange.size
    rw [← hbyte]
    simp
  · rw [if_neg fun hc => hin (hiff.1 hc), if_neg hin]

/-- The first words and the next one. -/
theorem writes_succ (x : Exchange) (k : Nat) : x.writes (k + 1) = (x.writes k).put (x.word k) := by
  funext o
  unfold Overlay.put Exchange.writes Exchange.word
  split_ifs <;> first | rfl | omega

theorem writes_zero (x : Exchange) : x.writes 0 = Overlay.empty := by
  funext o
  unfold Exchange.writes
  rw [if_neg (by omega)]
  rfl

theorem div_lt_wordCount {sz : BitVec 3} (h : sz ≠ 0) (o : Nat) :
    o % 2 ^ (sz.toNat - 1) / 8 < wordCount sz := by
  obtain rfl | rfl | rfl | rfl | rfl | rfl | rfl := dataSize_cases h <;> simp [wordCount] <;> omega

/-- All words of a store. -/
theorem writes_all {x : Exchange} (h : x.addrFlit.dataSize ≠ 0) :
    x.writes (wordCount x.addrFlit.dataSize) = x.stores := by
  funext o
  unfold Exchange.writes Exchange.stores
  have := div_lt_wordCount h o.toNat
  simp only [show o.toNat % x.size / 8 < wordCount x.addrFlit.dataSize from this, and_true]

/-- What a load reads in a block. -/
theorem wordOf_read {x : Exchange} {b : Block} {k : BitVec 3} (h : x.addrFlit.dataSize ≠ 0)
    (hk : k.toNat < wordCount x.addrFlit.dataSize) : (wordOf fun lane => b (BitVec.ofNat 9
      ((wordOffset x.addrFlit.dataSize x.addrFlit.addrRemapped k).toNat / 8 * 8 + lane.toNat))) =
      x.loadWord b k.toNat := by
  have hstart : (wordOffset x.addrFlit.dataSize x.addrFlit.addrRemapped k).toNat / 8 * 8 =
      x.wordStart k.toNat := by
    rw [toNat_wordOffset h hk]
    unfold Exchange.wordStart Exchange.size Exchange.offset
    generalize x.addrFlit.dataSize = sz at *
    obtain rfl | rfl | rfl | rfl | rfl | rfl | rfl := dataSize_cases h <;>
      simp [wordCount] at hk ⊢ <;> omega
  unfold Exchange.loadWord
  rw [hstart]

end Piton.Sd
