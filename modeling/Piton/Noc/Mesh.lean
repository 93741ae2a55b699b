import Mathlib.Algebra.Group.Nat.Defs
import Mathlib.Logic.Relation
import Mathlib.Data.List.Pairwise
import Piton.Noc.Route

/-! Routes through the mesh: the wiring of `chip.v`, the chain of requests that a header makes and
the channels that it waits for. -/

namespace Piton.Noc

/-! ### The mesh -/

/-- The bits that the comparisons give a coordinate. -/
def Routing.coordBits : Routing → Nat
  | .xy => 8
  | .chipId => 7

/-- A mesh of tiles whose coordinates fit the compared fields. -/
structure Mesh where
  routing : Routing
  chipId : BitVec 14
  xTiles : Nat
  yTiles : Nat
  x_pos : 0 < xTiles
  y_pos : 0 < yTiles
  x_le : xTiles ≤ 2 ^ routing.coordBits
  y_le : yTiles ≤ 2 ^ routing.coordBits

/-- A tile, by column and row. -/
abbrev Mesh.Tile (m : Mesh) := Fin m.xTiles × Fin m.yTiles

namespace Mesh

variable (m : Mesh)

/-- The tile that a port leads to; ports at the border lead to no tile. -/
def neighbour (t : m.Tile) : Port → Option m.Tile
  | .n => if 0 < t.2.val then some (t.1, ⟨t.2 - 1, by omega⟩) else none
  | .s => if h : t.2 + 1 < m.yTiles then some (t.1, ⟨t.2 + 1, h⟩) else none
  | .w => if 0 < t.1.val then some (⟨t.1 - 1, by omega⟩, t.2) else none
  | .e => if h : t.1 + 1 < m.xTiles then some (⟨t.1 + 1, h⟩, t.2) else none
  | .p => none

/-- `my_chip_id_in` of a tile: with routing by chip id it holds the coordinates. -/
def myChipId (t : m.Tile) : BitVec 14 :=
  match m.routing with
  | .xy => m.chipId
  | .chipId => BitVec.ofNat 7 t.1 ++ BitVec.ofNat 7 t.2

/-- The requests that header `h` raises at tile `t`. -/
def requests (h : Flit) (t : m.Tile) : Port → Bool :=
  dynamicInputRouteRequestCalcPara m.routing (BitVec.ofNat 8 t.1) (BitVec.ofNat 8 t.2)
    (m.myChipId t) h.absX h.absY h.absChipId h.finalBits true

/-- The coordinates that a header asks for: those of the off-chip node for another chip's id. -/
def destination (h : Flit) : Nat × Nat :=
  match m.routing with
  | .xy =>
    if h.absChipId ≠ m.chipId then (offChipNodeX.toNat, offChipNodeY.toNat)
    else (h.absX.toNat, h.absY.toNat)
  | .chipId => ((h.absChipId.extractLsb' 7 7).toNat, (h.absChipId.extractLsb' 0 7).toNat)

/-- Header `h` asks for tile `d`, with one of the defined codes. -/
structure Addresses (h : Flit) (d : m.Tile) : Prop where
  tile : m.destination h = (d.1.val, d.2.val)
  final : (finalPort h.finalBits).isSome

/-- The header leaves the mesh at its destination: the port that the final bits name leads to no
tile. -/
def Exits (h : Flit) (d : m.Tile) : Prop :=
  ∀ q, finalPort h.finalBits = some q → m.neighbour d q = none

/-- A chain of requests, each taken to the tile behind its port. -/
inductive Chain (h : Flit) : m.Tile → List (m.Tile × Port) → m.Tile → Prop
  | nil (t : m.Tile) : Chain h t [] t
  | cons {t t' d : m.Tile} {q : Port} {hops : List (m.Tile × Port)} :
    m.requests h t q = true → m.neighbour t q = some t' → Chain h t' hops d →
      Chain h t ((t, q) :: hops) d

/-- The distance `|dx| + |dy|` of two tiles. -/
def distance (t d : m.Tile) : Nat :=
  (t.1.val - d.1.val) + (d.1.val - t.1.val) + ((t.2.val - d.2.val) + (d.2.val - t.2.val))

/-- A channel of the mesh: a port that leads to another tile. -/
structure Channel where
  tile : m.Tile
  port : Port
  next : m.Tile
  link : m.neighbour tile port = some next

/-- A header that meets `ok` holds channel `c` and requests channel `c'`. -/
def WaitsFor (ok : Flit → Prop) (c c' : m.Channel) : Prop :=
  ∃ h, ok h ∧ m.requests h c.tile c.port = true ∧ c.next = c'.tile ∧
    m.requests h c'.tile c'.port = true

end Mesh

/-- A hop in the second dimension. -/
def Port.isY : Port → Bool
  | .n | .s => true
  | .e | .w | .p => false

/-- No hop in the first dimension comes after one in the second. -/
def XBeforeY {α : Type} (hops : List (α × Port)) : Prop :=
  hops.Pairwise fun a b => a.2.isY = true → b.2.isY = true

/-! ### Requests -/

/-- The port to a destination from a tile, or the final port. -/
def portTo (d t : Nat × Nat) (last : Option Port) : Option Port :=
  if t.1 < d.1 then some .e
  else if d.1 < t.1 then some .w
  else if d.2 < t.2 then some .n
  else if t.2 < d.2 then some .s
  else last

theorem finalPort_iff (b : BitVec 3) :
    (finalPort b = some .n ↔ b = 0b101#3) ∧ (finalPort b = some .s ↔ b = 0b011#3) ∧
      (finalPort b = some .e ↔ b = 0b100#3) ∧ (finalPort b = some .w ↔ b = 0b010#3) ∧
      (finalPort b = some .p ↔ b = 0b000#3) := by
  revert b
  decide

theorem meshRequests_iff {ax ay lx ly : BitVec 8} {off : Bool} {b : BitVec 3} {q : Port} :
    meshRequests ax ay lx ly off b true q = true ↔
      portTo ((if off then offChipNodeX else ax).toNat, (if off then offChipNodeY else ay).toNat)
        (lx.toNat, ly.toNat) (finalPort b) = some q := by
  obtain ⟨hn, hs, he, hw, hp⟩ := finalPort_iff b
  generalize hdx : (if off then offChipNodeX else ax) = dx
  generalize hdy : (if off then offChipNodeY else ay) = dy
  have hreq : meshRequests ax ay lx ly off b true q =
      meshRequests dx dy lx ly false b true q := by
    subst hdx hdy
    cases off <;> rfl
  rw [hreq]
  unfold portTo
  rcases Nat.lt_trichotomy lx.toNat dx.toNat with hx | hx | hx <;>
    rcases Nat.lt_trichotomy ly.toNat dy.toNat with hy | hy | hy <;>
    cases q <;>
    simp [meshRequests, BitVec.lt_def, BitVec.toNat_eq, hx, hy, hn, hs, he, hw, hp,
      Nat.lt_asymm, Nat.ne_of_lt, Nat.ne_of_gt]

/-- A coordinate of seven bits. -/
theorem toNat_coord (v : BitVec 7) : (0#1 ++ v : BitVec 8).toNat = v.toNat := by
  revert v
  decide

theorem extract_chipId (x y : BitVec 7) :
    (x ++ y : BitVec 14).extractLsb' 7 7 = x ∧ (x ++ y : BitVec 14).extractLsb' 0 7 = y :=
  ⟨BitVec.extractLsb'_append_eq_left, BitVec.extractLsb'_append_eq_right⟩

section

variable {m : Mesh} {h : Flit} {d t t' : m.Tile} {q : Port} {hops : List (m.Tile × Port)}

/-- The requests of a header at a tile: one port on the way to its destination, and the final port
there. -/
theorem Mesh.Addresses.requests_iff (ha : m.Addresses h d) :
    m.requests h t q = true ↔
      portTo (d.1.val, d.2.val) (t.1.val, t.2.val) (finalPort h.finalBits) = some q := by
  obtain ⟨hdest, -⟩ := ha
  have hx := Nat.lt_of_lt_of_le t.1.isLt m.x_le
  have hy := Nat.lt_of_lt_of_le t.2.isLt m.y_le
  unfold Mesh.requests dynamicInputRouteRequestCalcPara Mesh.myChipId
  unfold Mesh.destination at hdest
  cases hr : m.routing <;> rw [hr] at hdest hx hy <;> simp only [Routing.coordBits] at hx hy
  case xy =>
    have hx : t.1.val < 256 := hx
    have hy : t.2.val < 256 := hy
    rw [meshRequests_iff, ← hdest]
    by_cases hc : h.absChipId = m.chipId <;>
      simp [hc, Nat.mod_eq_of_lt hx, Nat.mod_eq_of_lt hy]
  case chipId =>
    obtain ⟨hhi, hlo⟩ := extract_chipId (BitVec.ofNat 7 t.1) (BitVec.ofNat 7 t.2)
    rw [meshRequests_iff, ← hdest, hhi, hlo, if_neg Bool.false_ne_true, if_neg Bool.false_ne_true,
      toNat_coord, toNat_coord, toNat_coord, toNat_coord, BitVec.toNat_ofNat, BitVec.toNat_ofNat,
      Nat.mod_eq_of_lt hx, Nat.mod_eq_of_lt hy]

/-- Away from the destination the requested port leads to a tile that is one hop closer; only in the
column of the destination is it a port of the second dimension. -/
theorem Mesh.Addresses.hop (ha : m.Addresses h d) (hq : m.requests h t q = true) (hne : t ≠ d) :
    ∃ t', m.neighbour t q = some t' ∧ m.distance t' d + 1 = m.distance t d ∧
      (q.isY = true ↔ t.1 = d.1) ∧ (t.1 = d.1 → t'.1 = d.1) := by
  rw [ha.requests_iff] at hq
  obtain ⟨⟨tx, htx⟩, ⟨ty, hty⟩⟩ := t
  obtain ⟨⟨dx, hdx⟩, ⟨dy, hdy⟩⟩ := d
  simp only [ne_eq, Prod.mk.injEq, Fin.mk.injEq] at hne hq ⊢
  unfold portTo at hq
  simp only at hq
  split at hq
  case isTrue hlt =>
    cases hq
    refine ⟨(⟨tx + 1, by omega⟩, ⟨ty, hty⟩), dif_pos (show tx + 1 < m.xTiles by omega), ?_, ?_, ?_⟩
    · simp only [Mesh.distance]
      omega
    · simp only [Port.isY, Bool.false_eq_true, false_iff]
      omega
    · omega
  case isFalse =>
    split at hq
    case isTrue hlt =>
      cases hq
      refine ⟨(⟨tx - 1, by omega⟩, ⟨ty, hty⟩), if_pos (show 0 < tx by omega), ?_, ?_, ?_⟩
      · simp only [Mesh.distance]
        omega
      · simp only [Port.isY, Bool.false_eq_true, false_iff]
        omega
      · omega
    case isFalse =>
      have hcol : tx = dx := by omega
      split at hq
      case isTrue hlt =>
        cases hq
        refine ⟨(⟨tx, htx⟩, ⟨ty - 1, by omega⟩), if_pos (show 0 < ty by omega), ?_, ?_, ?_⟩
        · simp only [Mesh.distance]
          omega
        · simp only [Port.isY, hcol]
        · exact fun h => Fin.ext h
      case isFalse =>
        split at hq
        case isTrue hlt =>
          cases hq
          refine ⟨(⟨tx, htx⟩, ⟨ty + 1, by omega⟩), dif_pos (show ty + 1 < m.yTiles by omega), ?_,
            ?_, ?_⟩
          · simp only [Mesh.distance]
            omega
          · simp only [Port.isY, hcol]
          · exact fun h => Fin.ext h
        case isFalse => omega

theorem Mesh.Addresses.exists_request (ha : m.Addresses h d) (t : m.Tile) :
    ∃ q, ∀ q', m.requests h t q' = true ↔ q' = q := by
  obtain ⟨last, hlast⟩ := Option.isSome_iff_exists.mp ha.final
  have hsome : (portTo (d.1.val, d.2.val) (t.1.val, t.2.val) (some last)).isSome := by
    unfold portTo
    repeat' split
    all_goals rfl
  obtain ⟨q, hq⟩ := Option.isSome_iff_exists.mp hsome
  refine ⟨q, fun q' => ?_⟩
  rw [ha.requests_iff, hlast, hq, Option.some_inj, eq_comm]

theorem Mesh.Addresses.requests_destination (ha : m.Addresses h d) :
    m.requests h d q = true ↔ finalPort h.finalBits = some q := by
  rw [ha.requests_iff]
  simp [portTo]

theorem Mesh.distance_eq_zero : m.distance t d = 0 ↔ t = d := by
  obtain ⟨⟨tx, htx⟩, ⟨ty, hty⟩⟩ := t
  obtain ⟨⟨dx, hdx⟩, ⟨dy, hdy⟩⟩ := d
  simp only [Mesh.distance, Prod.mk.injEq, Fin.mk.injEq]
  omega

/-! ### Chains -/

/-- The chain of requests to the destination. -/
theorem Mesh.Addresses.exists_chain (ha : m.Addresses h d) (t : m.Tile) :
    ∃ hops, m.Chain h t hops d ∧ hops.length = m.distance t d ∧ ∀ hop ∈ hops, hop.1 ≠ d := by
  induction hn : m.distance t d generalizing t with
  | zero =>
    obtain rfl := Mesh.distance_eq_zero.mp hn
    exact ⟨[], .nil t, rfl, fun _ h => absurd h List.not_mem_nil⟩
  | succ n ih =>
    have hne : t ≠ d := by
      intro heq
      rw [Mesh.distance_eq_zero.mpr heq] at hn
      cases hn
    obtain ⟨q, hq⟩ := ha.exists_request t
    obtain ⟨t', hlink, hcloser, -⟩ := ha.hop ((hq q).mpr rfl) hne
    obtain ⟨hops, hchain, hlen, haway⟩ := ih t' (by omega)
    refine ⟨(t, q) :: hops, .cons ((hq q).mpr rfl) hlink hchain, by simp [hlen], ?_⟩
    intro hop hmem
    rcases List.mem_cons.mp hmem with rfl | hmem
    · exact hne
    · exact haway hop hmem

theorem Mesh.Chain.requests {e : m.Tile} (hc : m.Chain h t hops e) :
    ∀ hop ∈ hops, m.requests h hop.1 hop.2 = true := by
  induction hc with
  | nil t => exact fun _ h => absurd h List.not_mem_nil
  | cons hq _ _ ih =>
    intro hop hmem
    rcases List.mem_cons.mp hmem with rfl | hmem
    · exact hq
    · exact ih hop hmem

/-- In the column of the destination all hops are in the second dimension. -/
theorem Mesh.Chain.isY {e : m.Tile} (hc : m.Chain h t hops e) (ha : m.Addresses h d)
    (haway : ∀ hop ∈ hops, hop.1 ≠ d) (hcol : t.1 = d.1) : ∀ hop ∈ hops, hop.2.isY = true := by
  induction hc with
  | nil t => exact fun _ h => absurd h List.not_mem_nil
  | @cons t t' e q hops hq hlink _ ih =>
    obtain ⟨s, hs, -, hy, hstay⟩ := ha.hop hq (haway _ List.mem_cons_self)
    obtain rfl : t' = s := by simpa [hlink] using hs
    intro hop hmem
    rcases List.mem_cons.mp hmem with rfl | hmem
    · exact hy.mpr hcol
    · exact ih (fun hop hmem => haway hop (List.mem_cons_of_mem _ hmem)) (hstay hcol) hop hmem

theorem Mesh.Chain.xBeforeY {e : m.Tile} (hc : m.Chain h t hops e) (ha : m.Addresses h d)
    (haway : ∀ hop ∈ hops, hop.1 ≠ d) : XBeforeY hops := by
  induction hc with
  | nil t => exact List.Pairwise.nil
  | @cons t t' e q hops hq hlink hc ih =>
    have haway' : ∀ hop ∈ hops, hop.1 ≠ d := fun hop hmem =>
      haway hop (List.mem_cons_of_mem _ hmem)
    obtain ⟨s, hs, -, hy, hstay⟩ := ha.hop hq (haway _ List.mem_cons_self)
    obtain rfl : t' = s := by simpa [hlink] using hs
    refine List.Pairwise.cons ?_ (ih haway')
    intro hop hmem hqy
    exact hc.isY ha haway' (hstay (hy.mp hqy)) hop hmem

/-- A header that exits at its destination goes no further. -/
theorem Mesh.Chain.away {e : m.Tile} (hc : m.Chain h t hops e) (ha : m.Addresses h d)
    (hx : m.Exits h d) : ∀ hop ∈ hops, hop.1 ≠ d := by
  induction hc with
  | nil t => exact fun _ h => absurd h List.not_mem_nil
  | @cons t t' e q hops hq hlink _ ih =>
    intro hop hmem
    rcases List.mem_cons.mp hmem with rfl | hmem
    · rintro rfl
      rw [hx q (ha.requests_destination.mp hq)] at hlink
      cases hlink
    · exact ih hop hmem

/-! ### Channels -/

/-- The order of the channels: columns first, in the direction of travel, then rows. -/
def Mesh.Channel.rank (c : m.Channel) : Nat :=
  match c.port with
  | .e => c.tile.1
  | .w => m.xTiles - c.tile.1
  | .s => m.xTiles + 1 + c.tile.2
  | .n => m.xTiles + 1 + (m.yTiles - c.tile.2)
  | .p => 0

/-- The coordinates of a neighbour. -/
theorem Mesh.neighbour_coords {t t' : m.Tile} {q : Port} (h : m.neighbour t q = some t') :
    (q = .n → t'.1.val = t.1.val ∧ t'.2.val + 1 = t.2.val) ∧
      (q = .s → t'.1.val = t.1.val ∧ t'.2.val = t.2.val + 1) ∧
      (q = .w → t'.1.val + 1 = t.1.val ∧ t'.2.val = t.2.val) ∧
      (q = .e → t'.1.val = t.1.val + 1 ∧ t'.2.val = t.2.val) ∧ q ≠ .p := by
  cases q with
  | p => exact absurd h (by simp [Mesh.neighbour])
  | n | s | w | e =>
    simp only [Mesh.neighbour] at h
    split at h
    · cases h
      simp
      try omega
    · cases h

theorem Mesh.WaitsFor.rank_lt {ok : Flit → Prop} {c c' : m.Channel} (hw : m.WaitsFor ok c c')
    (hok : ∀ h, ok h → ∃ d, m.Addresses h d ∧ m.Exits h d) : c.rank < c'.rank := by
  obtain ⟨h, hh, hq, hnext, hq'⟩ := hw
  obtain ⟨d, ha, hx⟩ := hok h hh
  have away : ∀ e : m.Channel, m.requests h e.tile e.port = true → e.tile ≠ d := by
    rintro e he rfl
    have hnone := hx _ (ha.requests_destination.mp he)
    rw [e.link] at hnone
    cases hnone
  obtain ⟨⟨⟨tx, htx⟩, ⟨ty, hty⟩⟩, q, next, hlink⟩ := c
  obtain ⟨⟨⟨tx', htx'⟩, ⟨ty', hty'⟩⟩, q', next', hlink'⟩ := c'
  have haway := away _ hq
  have haway' := away _ hq'
  obtain ⟨⟨dx, hdx⟩, ⟨dy, hdy⟩⟩ := d
  subst hnext
  rw [ha.requests_iff] at hq hq'
  simp only [ne_eq, Prod.mk.injEq, Fin.mk.injEq] at hq hq' haway haway'
  unfold portTo at hq hq'
  simp only [Mesh.Channel.rank]
  have hcoords := Mesh.neighbour_coords hlink
  have hcoords' := Mesh.neighbour_coords hlink'
  simp only at hcoords hcoords'
  clear hlink hlink'
  cases q <;> cases q' <;> simp only [reduceCtorEq, false_implies, forall_const] at * <;> grind

end

/-- A header with a defined code exits at its destination. -/
def Mesh.ExitsMesh (m : Mesh) (h : Flit) : Prop := ∃ d, m.Addresses h d ∧ m.Exits h d

/-- No channel waits for itself. -/
theorem Mesh.waitsFor_acyclic (m : Mesh) (c : m.Channel) :
    ¬ Relation.TransGen (m.WaitsFor m.ExitsMesh) c c := by
  intro hcycle
  have hlt : Relation.TransGen (· < ·) c.rank c.rank :=
    hcycle.lift Mesh.Channel.rank fun _ _ hw => hw.rank_lt fun _ hh => hh
  rw [Relation.transGen_eq_self] at hlt
  exact Nat.lt_irrefl _ hlt

/-- A header with a defined code to a tile of the mesh. -/
def Mesh.InMesh (m : Mesh) (h : Flit) : Prop := ∃ d, m.Addresses h d

/-- Two tiles in a row, routed by coordinates. -/
def twoTiles : Mesh where
  routing := .xy
  chipId := 0
  xTiles := 2
  yTiles := 1
  x_pos := by decide
  y_pos := Nat.one_pos
  x_le := by decide
  y_le := by decide

/-- A header to the first tile whose final bits name the port to the second. -/
def turningHeader : Flit := 0b100#64 <<< 30

/-- A header whose final port leads back into the mesh goes to and fro. -/
theorem inMesh_cyclic :
    ¬ ∀ m : Mesh, ∀ c, ¬ Relation.TransGen (m.WaitsFor m.InMesh) c c := by
  intro hacyclic
  let first : twoTiles.Tile := (⟨0, by decide⟩, ⟨0, by decide⟩)
  let second : twoTiles.Tile := (⟨1, by decide⟩, ⟨0, by decide⟩)
  have hin : twoTiles.InMesh turningHeader := ⟨first, by decide, by decide⟩
  let east : twoTiles.Channel := ⟨first, .e, second, by decide⟩
  let west : twoTiles.Channel := ⟨second, .w, first, by decide⟩
  have hew : twoTiles.WaitsFor twoTiles.InMesh east west :=
    ⟨turningHeader, hin, by decide, rfl, by decide⟩
  have hwe : twoTiles.WaitsFor twoTiles.InMesh west east :=
    ⟨turningHeader, hin, by decide, rfl, by decide⟩
  exact hacyclic twoTiles east (.tail (.single hew) hwe)

/-! ### Three dimensions -/

/-- The port to a node: the third dimension first, then the second, then the first. -/
def port3dTo (dest my : BitVec 14) : Port3d :=
  if dim3 my < dim3 dest then .dir5
  else if dim3 dest < dim3 my then .dir2
  else if dim2 my < dim2 dest then .dir3
  else if dim2 dest < dim2 my then .dir0
  else if dim1 my < dim1 dest then .dir1
  else if dim1 dest < dim1 my then .dir4
  else .dir6

theorem requests3d_iff {my dest : BitVec 14} {q : Port3d} :
    dynamicInputRouteRequestCalc3d my dest true q = true ↔ q = port3dTo dest my := by
  unfold port3dTo
  generalize hd : dynamicInputRouteRequestCalc3d my dest true q = r
  rcases Nat.lt_trichotomy (dim3 my).toNat (dim3 dest).toNat with h3 | h3 | h3 <;>
    rcases Nat.lt_trichotomy (dim2 my).toNat (dim2 dest).toNat with h2 | h2 | h2 <;>
    rcases Nat.lt_trichotomy (dim1 my).toNat (dim1 dest).toNat with h1 | h1 | h1 <;>
    cases q <;> rw [← hd] <;>
    simp [dynamicInputRouteRequestCalc3d, BitVec.lt_def, BitVec.toNat_eq, h1, h2, h3,
      Nat.lt_asymm, Nat.ne_of_lt, Nat.ne_of_gt]

/-! ### Delivery -/

/-- Header `h` goes from tile `src` to tile `d` by the shortest way, columns first, with one request at
each tile, and requests the port of its final bits there. -/
structure Mesh.Delivers (m : Mesh) (h : Flit) (src d : m.Tile) : Prop where
  chain : ∃ hops, m.Chain h src hops d ∧ hops.length = m.distance src d ∧ XBeforeY hops ∧
    ∀ hop ∈ hops, ∀ q, m.requests h hop.1 q = true ↔ q = hop.2
  final : ∀ q, m.requests h d q = true ↔ finalPort h.finalBits = some q

theorem Mesh.Addresses.delivers {m : Mesh} {h : Flit} {d : m.Tile} (ha : m.Addresses h d)
    (src : m.Tile) : m.Delivers h src d where
  chain := by
    obtain ⟨hops, hchain, hlen, haway⟩ := ha.exists_chain src
    refine ⟨hops, hchain, hlen, hchain.xBeforeY ha haway, ?_⟩
    intro hop hmem q
    obtain ⟨q', hone⟩ := ha.exists_request hop.1
    rw [hone, (hone hop.2).mp (hchain.requests hop hmem)]
  final _ := ha.requests_destination

/-- Headers are delivered; those that leave the mesh at their destination turn at most once and no
channel waits for itself; in three dimensions each node raises the one request of the first
dimension that is not done. -/
theorem mesh_delivers (m : Mesh) :
    (∀ h t, m.routing = .xy → m.requests h t =
      dynamicInputRouteRequestCalc (BitVec.ofNat 8 t.1) (BitVec.ofNat 8 t.2) m.chipId
        h.absX h.absY h.absChipId h.finalBits true) ∧
    (∀ h d, m.Addresses h d → ∀ src, m.Delivers h src d ∧
      (m.Exits h d → ∀ hops t, m.Chain h src hops t → XBeforeY hops)) ∧
    (∀ c, ¬ Relation.TransGen (m.WaitsFor m.ExitsMesh) c c) ∧
    (∀ my dest q, dynamicInputRouteRequestCalc3d my dest true q = true ↔ q = port3dTo dest my) := by
  refine ⟨?_, ?_, m.waitsFor_acyclic, fun _ _ _ => requests3d_iff⟩
  · intro h t hr
    unfold Mesh.requests dynamicInputRouteRequestCalcPara Mesh.myChipId
    rw [hr]
    rfl
  · intro h d ha src
    refine ⟨ha.delivers src, ?_⟩
    intro hx hops t hchain
    exact hchain.xBeforeY ha (hchain.away ha hx)

end Piton.Noc
