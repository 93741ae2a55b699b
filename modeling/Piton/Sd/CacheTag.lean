import Mathlib.Algebra.Group.Nat.Defs
import Mathlib.Data.FinEnum
import Piton.Lib.Recency

/-! `piton_sd_cache_tag`: the tags of one index of the SD block cache, `2 ^ w` entries. -/

namespace Piton.Sd

open Hw

variable {w t : Nat}

/-! ### Loops over the entries -/

/-- Some entry of an index has the property. -/
def anyEntry (p : BitVec w → Bool) : Bool :=
  (List.range (2 ^ w)).any fun j => p (BitVec.ofNat w j)

/-- The loop that keeps the last entry with a property. -/
def lastEntry (p : BitVec w → Bool) : BitVec w :=
  (List.range (2 ^ w)).foldl (fun e j => if p (BitVec.ofNat w j) then BitVec.ofNat w j else e) 0

section Loops

variable {p : BitVec w → Bool}

theorem anyEntry_iff : anyEntry p = true ↔ ∃ e, p e = true := by
  rw [anyEntry, List.any_eq_true]
  constructor
  · rintro ⟨j, _, hj⟩
    exact ⟨_, hj⟩
  · rintro ⟨e, he⟩
    refine ⟨e.toNat, List.mem_range.2 e.isLt, ?_⟩
    rwa [BitVec.ofNat_toNat, BitVec.setWidth_eq]

theorem lastEntry_foldl (l : List Nat) (acc : BitVec w)
    (h : p acc = true ∨ ∃ j ∈ l, p (BitVec.ofNat w j) = true) :
    p (l.foldl (fun e j => if p (BitVec.ofNat w j) then BitVec.ofNat w j else e) acc) = true := by
  induction l generalizing acc with
  | nil =>
    obtain h | ⟨j, hj, _⟩ := h
    · exact h
    · cases hj
  | cons a l ih =>
    rw [List.foldl_cons]
    apply ih
    by_cases ha : p (BitVec.ofNat w a) = true
    · rw [if_pos ha]
      exact .inl ha
    · rw [if_neg ha]
      obtain h | ⟨j, hj, hp⟩ := h
      · exact .inl h
      · obtain rfl | hj := List.mem_cons.1 hj
        · exact absurd hp ha
        · exact .inr ⟨j, hj, hp⟩

theorem lastEntry_spec {e : BitVec w} (h : p e = true) : p (lastEntry p) = true := by
  refine lastEntry_foldl _ _ (.inr ⟨e.toNat, List.mem_range.2 e.isLt, ?_⟩)
  rwa [BitVec.ofNat_toNat, BitVec.setWidth_eq]

end Loops

/-! ### The tags -/

/-- The tags of one index: for each entry its block, its valid and dirty bits and its rank in the
order of use. -/
structure CacheTag (w t : Nat) where
  cachedAddr : BitVec w → BitVec t
  cacheValid : BitVec w → Bool
  cacheDirty : BitVec w → Bool
  cacheLru : BitVec w → BitVec w

namespace CacheTag

/-- The tags after `reset`. -/
def init : CacheTag w t where
  cachedAddr := fun _ => 0
  cacheValid := fun _ => false
  cacheDirty := fun _ => false
  cacheLru := fun _ => 0

variable (s : CacheTag w t)

/-- The entry holds the block. -/
def cacheHit (addr : BitVec t) (e : BitVec w) : Bool := s.cacheValid e && s.cachedAddr e = addr

/-- Some entry holds the block. -/
def hitLkp (addr : BitVec t) : Bool := anyEntry (s.cacheHit addr)

/-- A hit, else an invalid slot, else the LRU slot. -/
def entryLkp (addr : BitVec t) : BitVec w :=
  if s.hitLkp addr then lastEntry (s.cacheHit addr)
  else if anyEntry fun e => !s.cacheValid e then lastEntry fun e => !s.cacheValid e
  else lastEntry fun e => s.cacheLru e = 0

/-- The block of the entry that an access will use. -/
def addrLkp (addr : BitVec t) : BitVec t := s.cachedAddr (s.entryLkp addr)

/-- The entry that an access will use must be written back first. -/
def dirtyLkp (addr : BitVec t) : Bool :=
  s.cacheDirty (s.entryLkp addr) && s.cacheValid (s.entryLkp addr)

/-- The entry must be written back. -/
def dirtyQuery (entry : BitVec w) : Bool := s.cacheValid entry && s.cacheDirty entry

/-- The block of the entry. -/
def addrQuery (entry : BitVec w) : BitVec t := s.cachedAddr entry

/-- One clock edge with `we`. -/
def write (addrW : BitVec t) (entryW : BitVec w) (dirtyW : Bool) : CacheTag w t where
  cachedAddr := fun i => if i = entryW then addrW else s.cachedAddr i
  cacheValid := fun i => if i = entryW then true else s.cacheValid i
  cacheDirty := fun i => if i = entryW then dirtyW else s.cacheDirty i
  cacheLru := fun i =>
    if i = entryW then BitVec.ofNat w (2 ^ w - 1)
    else if s.cacheLru i > s.cacheLru entryW then s.cacheLru i - 1 else s.cacheLru i

/-! ### Lookups -/

section Lookups

variable {s} {addr : BitVec t} {e : BitVec w}

theorem cacheHit_iff : s.cacheHit addr e = true ↔ s.cacheValid e = true ∧ s.cachedAddr e = addr := by
  rw [cacheHit, Bool.and_eq_true, decide_eq_true_iff]

theorem hitLkp_iff : s.hitLkp addr = true ↔ ∃ e, s.cacheValid e = true ∧ s.cachedAddr e = addr := by
  rw [hitLkp, anyEntry_iff]
  simp only [cacheHit_iff]

theorem entryLkp_of_hit (h : s.hitLkp addr = true) :
    s.cacheValid (s.entryLkp addr) = true ∧ s.cachedAddr (s.entryLkp addr) = addr := by
  obtain ⟨e, he⟩ := anyEntry_iff.1 h
  rw [entryLkp, if_pos h]
  exact cacheHit_iff.1 (lastEntry_spec he)

theorem entryLkp_of_full (h : s.hitLkp addr = false) (hfull : ∀ e, s.cacheValid e = true)
    (he : s.cacheLru e = 0) : s.cacheLru (s.entryLkp addr) = 0 := by
  have hany : ¬ (anyEntry fun e => !s.cacheValid e) = true := by
    rw [anyEntry_iff]
    rintro ⟨e, hv⟩
    simp [hfull e] at hv
  rw [entryLkp, if_neg (by simp [h]), if_neg hany]
  exact of_decide_eq_true (lastEntry_spec (p := fun e => decide (s.cacheLru e = 0)) (by simpa using he))

/-- Hits depend on the valid tags alone. -/
theorem cacheHit_congr {s' : CacheTag w t} (hv : s'.cacheValid = s.cacheValid)
    (ha : s'.cachedAddr = s.cachedAddr) : s'.cacheHit = s.cacheHit := by
  funext addr e
  rw [cacheHit, cacheHit, hv, ha]

theorem hitLkp_congr {s' : CacheTag w t} (hv : s'.cacheValid = s.cacheValid)
    (ha : s'.cachedAddr = s.cachedAddr) : s'.hitLkp addr = s.hitLkp addr := by
  rw [hitLkp, hitLkp, cacheHit_congr hv ha]

theorem entryLkp_congr {s' : CacheTag w t} (hv : s'.cacheValid = s.cacheValid)
    (ha : s'.cachedAddr = s.cachedAddr) (h : s.hitLkp addr = true) :
    s'.entryLkp addr = s.entryLkp addr := by
  have h' : s'.hitLkp addr = true := (hitLkp_congr hv ha).trans h
  rw [entryLkp, entryLkp, if_pos h, if_pos h', cacheHit_congr hv ha]

end Lookups

/-! ### The ranks -/

section Ranks

variable {s} {writes : List (BitVec w)} {addr : BitVec t} {e e' : BitVec w} {d : Bool}

/-- The tags after a list of writes, the last one first: the entries written are valid, no two of
them have the same tag, and the ranks follow the order of the last writes. -/
structure Ok (s : CacheTag w t) (writes : List (BitVec w)) : Prop where
  valid_iff : ∀ e, s.cacheValid e = true ↔ e ∈ writes
  distinct : ∀ e e', s.cacheValid e = true → s.cacheValid e' = true →
    s.cachedAddr e = s.cachedAddr e' → e = e'
  ranked : Ranked (2 ^ w - 1) (fun e => (s.cacheLru e).toNat) (recent writes)

theorem card_entries : Fintype.card (BitVec w) = 2 ^ w - 1 + 1 := by
  have := Nat.two_pow_pos w
  rw [← FinEnum.card_eq_fintypeCard, FinEnum.card_bitVec]
  omega

theorem toNat_write_lru : (fun i => ((s.write addr e d).cacheLru i).toNat) =
    touch (2 ^ w - 1) (fun i => (s.cacheLru i).toNat) e := by
  funext i
  have hpos := Nat.two_pow_pos w
  by_cases hi : i = e
  · simp only [write, touch, if_pos hi, BitVec.toNat_ofNat]
    exact Nat.mod_eq_of_lt (by omega)
  · simp only [write, touch, if_neg hi, gt_iff_lt, BitVec.lt_def]
    split
    next hlt =>
      have hone : (1 : BitVec w).toNat ≤ (s.cacheLru i).toNat := by
        have : (1 : BitVec w).toNat ≤ 1 := Nat.mod_le 1 (2 ^ w)
        omega
      rw [BitVec.toNat_sub_of_le hone]
      have hw : 1 < 2 ^ w := by
        have := (s.cacheLru i).isLt
        omega
      have : (1 : BitVec w).toNat = 1 := Nat.mod_eq_of_lt hw
      rw [this]
    next => rfl

theorem Ok.init : (init : CacheTag w t).Ok [] where
  valid_iff := fun e => by simp [CacheTag.init]
  distinct := fun e e' h => by cases h
  ranked := .nil

/-- Writing the only entry that may hold the tag. -/
theorem Ok.write (h : s.Ok writes)
    (he : ∀ e', s.cacheValid e' = true → s.cachedAddr e' = addr → e' = e) :
    (s.write addr e d).Ok (e :: writes) where
  valid_iff i := by
    by_cases hi : i = e
    · simp [CacheTag.write, hi]
    · simp [CacheTag.write, hi, h.valid_iff]
  distinct i j hi hj hij := by
    simp only [CacheTag.write] at hi hj hij
    by_cases hie : i = e
    · by_cases hje : j = e
      · rw [hie, hje]
      · rw [if_pos hie, if_neg hje] at hij
        rw [if_neg hje] at hj
        exact absurd (he j hj hij.symm) hje
    · rw [if_neg hie] at hi hij
      by_cases hje : j = e
      · rw [if_pos hje] at hij
        exact absurd (he i hi hij) hie
      · rw [if_neg hje] at hj hij
        exact h.distinct i j hi hj hij
  ranked := by
    rw [toNat_write_lru]
    exact h.ranked.touch card_entries

/-- The looked-up entry is the only one that may hold the tag. -/
theorem Ok.eq_entryLkp (h : s.Ok writes) (hv : s.cacheValid e = true)
    (ha : s.cachedAddr e = addr) : e = s.entryLkp addr := by
  obtain ⟨hv', ha'⟩ := entryLkp_of_hit (hitLkp_iff.2 ⟨e, hv, ha⟩)
  exact h.distinct _ _ hv hv' (ha.trans ha'.symm)

theorem Ok.lru_injective (h : s.Ok writes) (hv : s.cacheValid e = true)
    (hv' : s.cacheValid e' = true) (hr : s.cacheLru e = s.cacheLru e') : e = e' :=
  h.ranked.eq_of_rank_eq (mem_recent.2 ((h.valid_iff e).1 hv))
    (mem_recent.2 ((h.valid_iff e').1 hv')) (congrArg BitVec.toNat hr)

theorem Ok.lru_lt (h : s.Ok writes) (hv : s.cacheValid e = true) (hv' : s.cacheValid e' = false) :
    s.cacheLru e' < s.cacheLru e := by
  have he' : e' ∉ recent writes := by
    rw [mem_recent, ← h.valid_iff, hv']
    exact Bool.false_ne_true
  have hpos := h.ranked.pos card_entries (mem_recent.2 ((h.valid_iff e).1 hv)) he'
  have hzero := h.ranked.rank_not_mem e' he'
  rw [BitVec.lt_def]
  omega

/-- With all entries valid the ranks are a permutation. -/
theorem Ok.lru_bijective (h : s.Ok writes) (hfull : ∀ e, s.cacheValid e = true) :
    Function.Bijective s.cacheLru :=
  Finite.injective_iff_bijective.1 fun e e' hr => h.lru_injective (hfull e) (hfull e') hr

/-- A miss with all entries valid takes the entry that was last written the longest time ago. -/
theorem Ok.oldest_of_miss (h : s.Ok writes) (hfull : ∀ e, s.cacheValid e = true)
    (hmiss : s.hitLkp addr = false) (he : e ≠ s.entryLkp addr) :
    writes.idxOf e < writes.idxOf (s.entryLkp addr) := by
  have hmem : ∀ e, e ∈ writes := fun e => (h.valid_iff e).1 (hfull e)
  obtain ⟨e₀, he₀⟩ := (h.lru_bijective hfull).2 0
  have hzero : (s.cacheLru (s.entryLkp addr)).toNat = 0 := by
    simp [entryLkp_of_full hmiss hfull he₀]
  have hlt : (s.cacheLru (s.entryLkp addr)).toNat < (s.cacheLru e).toNat := by
    rw [hzero, Nat.pos_iff_ne_zero]
    intro hn
    exact he (h.lru_injective (hfull _) (hfull _) (BitVec.eq_of_toNat_eq (hn.trans hzero.symm)))
  have hord := (h.ranked.lt_iff (mem_recent.2 (hmem _)) (mem_recent.2 (hmem _))).1 hlt
  exact (idxOf_recent_lt_iff (hmem _) (hmem _)).1 hord

end Ranks

end CacheTag

end Piton.Sd
