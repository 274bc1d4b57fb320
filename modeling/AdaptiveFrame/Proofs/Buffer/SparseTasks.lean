import AdaptiveFrame.Buffer.Sparse
import AdaptiveFrame.Proofs.Buffer.Tasks

/-!
# The tasks of a sparse buffer

A sparse buffer numbers the tasks of the tiles that it owns. Those that it schedules are tasks of the image,
under another number (`denseId`): they cover the same pixels, and no two of them are the same task. The
buffers that share out the tiles of an image share out its tasks with them.
-/

namespace AdaptiveFrame

variable {d : BufferDesc} {id : Nat} {place : Point}

namespace BufferDesc.Valid

theorem tasks_x (hd : d.Valid) : d.tasksPerTile.x * d.taskSize.x = tileSize := Nat.div_mul_cancel hd.task_x
theorem tasks_y (hd : d.Valid) : d.tasksPerTile.y * d.taskSize.y = tileSize := Nat.div_mul_cancel hd.task_y

theorem perTile_pos (hd : d.Valid) : 0 < d.tasksPerTile.area :=
  Nat.mul_pos (Nat.pos_of_mul_pos_right (b := d.taskSize.x) (by rw [hd.tasks_x]; decide))
    (Nat.pos_of_mul_pos_right (b := d.taskSize.y) (by rw [hd.tasks_y]; decide))

end BufferDesc.Valid

namespace Tiling

/-- The place of a task in a tile as a position on the task grid of the image. -/
def gridPos (d : BufferDesc) (tileId : Nat) (place : Point) : Point :=
  .ofRowMajor (tileCount d.size).x tileId * d.tasksPerTile + place

theorem cellOf_lower (size : Point) (id : Nat) :
    cellOf (tileRegion size id).lower = .ofRowMajor (tileCount size).x id :=
  Point.ext (Nat.mul_div_cancel _ (by decide)) (Nat.mul_div_cancel _ (by decide))

/-- A tile lies in its cell, and in the image. -/
theorem cell_of_contains_tileRegion {size p : Point} (hp : (tileRegion size id).contains p = true) :
    cellOf p = .ofRowMajor (tileCount size).x id ∧ (Region.ofSize size).contains p = true := by
  have hp := Region.contains_iff.1 hp
  simp only [tileRegion, Point.mul_x, Point.mul_y, Point.square_x, Point.square_y, Point.min_x, Point.min_y,
    Point.add_x, Point.add_y] at hp
  have hx : p.x / tileSize = (Point.ofRowMajor (tileCount size).x id).x := (div_eq_iff_block (by decide)).2 (by omega)
  have hy : p.y / tileSize = (Point.ofRowMajor (tileCount size).x id).y := (div_eq_iff_block (by decide)).2 (by omega)
  exact ⟨Point.ext hx hy, Region.contains_ofSize.2 (by omega)⟩

end Tiling

/-! ## Along one axis -/

/-- The block at a place of a cell lies in the cell. -/
theorem block_in_cell {c n t k : Nat} (hn : n * t = tileSize) (hk : k < n) :
    (c * n + k) * t = c * tileSize + k * t ∧ k * t + t ≤ tileSize := by
  have hmul : (k + 1) * t ≤ n * t := Nat.mul_le_mul_right t hk
  have hsplit : (c * n + k) * t = c * (n * t) + k * t := by rw [Nat.add_mul, Nat.mul_assoc]
  rw [hn] at hmul hsplit
  rw [Nat.succ_mul] at hmul
  exact ⟨hsplit, hmul⟩

theorem cell_of_place {n c k : Nat} (hk : k < n) : (c * n + k) / n = c :=
  (div_eq_iff_block (Nat.zero_lt_of_lt hk)).2 (by omega)

/-- The cell and the place in it can be read off a position. -/
theorem cell_place_inj {n c k c' k' : Nat} (hk : k < n) (hk' : k' < n) (h : c * n + k = c' * n + k') :
    c = c' ∧ k = k' := by
  have hc : c = c' := by rw [← cell_of_place (c := c) hk, h, cell_of_place hk']
  subst hc
  exact ⟨rfl, by omega⟩

namespace SparseBuffer

variable {s s' : SparseBuffer} {ids ids' : List Nat} {i j : Nat}

/-! ## One task of a tile -/

theorem place_lt (hd : d.Valid) (i : Nat) :
    (placeInTile d i).x < d.tasksPerTile.x ∧ (placeInTile d i).y < d.tasksPerTile.y :=
  Point.ofRowMajor_lt (Nat.mod_lt i hd.perTile_pos)

theorem local_eq (d : BufferDesc) (i : Nat) :
    tileIndexOf d i * d.tasksPerTile.area + (placeInTile d i).rowMajor d.tasksPerTile.x = i := by
  rw [placeInTile, Point.rowMajor_ofRowMajor]
  exact Nat.div_add_mod' ..

theorem tileIndexOf_local (k : Nat) (hx : place.x < d.tasksPerTile.x) (hy : place.y < d.tasksPerTile.y) :
    tileIndexOf d (k * d.tasksPerTile.area + place.rowMajor d.tasksPerTile.x) = k ∧
      placeInTile d (k * d.tasksPerTile.area + place.rowMajor d.tasksPerTile.x) = place := by
  have hlt := Point.rowMajor_lt hx hy
  unfold tileIndexOf placeInTile
  rw [Nat.mul_comm, Nat.mul_add_div (by omega), Nat.mul_add_mod, Nat.div_eq_of_lt hlt, Nat.mod_eq_of_lt hlt]
  exact ⟨rfl, Point.ofRowMajor_rowMajor hx⟩

/-- The number in the image of a task. -/
def denseId (s : SparseBuffer) (i : Nat) : Nat := (s.taskGridPos i).rowMajor (DenseBuffer.gridOf s.desc).x

/-! ## Owned tiles -/

/-- The buffer owns the tiles with the given numbers, in this order. -/
structure Owns (ids : List Nat) (s : SparseBuffer) : Prop where
  valid : s.desc.Valid
  nodup : ids.Nodup
  inside : ∀ id ∈ ids, id < (Tiling.tileCount s.desc.size).area
  regions : s.tiles.toList.map OwnedTile.region = ids.map (Tiling.tileRegion s.desc.size)
  slots : ∀ k id : Nat, ids[k]? = some id → s.slots[id]? = some (some k)
  grid : s.tracker.grid = if s.desc.has .variance then ⟨ids.length * s.desc.tasksPerTile.area, 1⟩ else .zero
  accumIds : s.accumIds.size = ids.length * s.desc.tasksPerTile.area

namespace Owns

theorem size_tiles (h : Owns ids s) : s.tiles.size = ids.length := by
  have hlen := congrArg List.length h.regions
  simpa using hlen

theorem region_tile (h : Owns ids s) (k : Nat) :
    (s.tiles[k]?).map OwnedTile.region = (ids[k]?).map (Tiling.tileRegion s.desc.size) := by
  have hk := congrArg (fun rs : List Region => rs[k]?) h.regions
  simpa using hk

theorem taskGridPos (h : Owns ids s) (hid : ids[tileIndexOf s.desc i]? = some id) :
    s.taskGridPos i = Tiling.gridPos s.desc id (placeInTile s.desc i) := by
  have hr := h.region_tile (tileIndexOf s.desc i)
  rw [hid] at hr
  obtain ⟨t, ht, hregion⟩ := Option.map_eq_some_iff.1 hr
  unfold SparseBuffer.taskGridPos
  rw [ht]
  show Tiling.cellOf t.region.lower * _ + _ = _
  rw [hregion, Tiling.cellOf_lower]
  rfl

theorem taskRegionOf_eq (h : Owns ids s) (hid : ids[tileIndexOf s.desc i]? = some id) :
    taskRegionOf s.desc s.tiles i = (Tiling.blockRegion s.desc.taskSize (s.taskGridPos i)).intersect
      (Tiling.tileRegion s.desc.size id) := by
  have hr := h.region_tile (tileIndexOf s.desc i)
  rw [hid] at hr
  obtain ⟨t, ht, hregion⟩ := Option.map_eq_some_iff.1 hr
  obtain ⟨hx, hy⟩ := place_lt h.valid i
  unfold taskRegionOf
  rw [ht, h.taskGridPos hid]
  have horigin : t.origin + placeInTile s.desc i * s.desc.taskSize =
      Tiling.gridPos s.desc id (placeInTile s.desc i) * s.desc.taskSize := by
    unfold OwnedTile.origin OwnedTile.cell
    rw [hregion, Tiling.cellOf_lower]
    exact Point.ext (block_in_cell h.valid.tasks_x hx).1.symm (block_in_cell h.valid.tasks_y hy).1.symm
  show Region.intersect ⟨t.origin + _, t.origin + _ + _⟩ t.region = _
  rw [horigin, hregion]
  rfl

/-- A task of an owned tile has pixels if it lies on the task grid, and then those of the task there. -/
theorem taskRegionOf_cases (h : Owns ids s) (hid : ids[tileIndexOf s.desc i]? = some id) :
    (0 < (taskRegionOf s.desc s.tiles i).area ↔ (s.taskGridPos i).x < (DenseBuffer.gridOf s.desc).x ∧
      (s.taskGridPos i).y < (DenseBuffer.gridOf s.desc).y) ∧
    (0 < (taskRegionOf s.desc s.tiles i).area →
      taskRegionOf s.desc s.tiles i = DenseBuffer.taskRegionOf s.desc (s.denseId i)) := by
  have hd := h.valid
  obtain ⟨hx, hy⟩ := place_lt hd i
  obtain ⟨hposx, hinx⟩ := block_in_cell (c := id % (Tiling.tileCount s.desc.size).x) hd.tasks_x hx
  obtain ⟨hposy, hiny⟩ := block_in_cell (c := id / (Tiling.tileCount s.desc.size).x) hd.tasks_y hy
  have hpos := h.taskGridPos hid
  have htx := hd.task_x_pos
  have hty := hd.task_y_pos
  have hiff : 0 < (taskRegionOf s.desc s.tiles i).area ↔ (s.taskGridPos i).x < (DenseBuffer.gridOf s.desc).x ∧
      (s.taskGridPos i).y < (DenseBuffer.gridOf s.desc).y := by
    rw [Region.area_pos_iff, h.taskRegionOf_eq hid, hpos]
    simp only [DenseBuffer.gridOf, Point.ceilDiv_x, Point.ceilDiv_y, lt_ceilDiv_iff htx, lt_ceilDiv_iff hty,
      Region.intersect, Tiling.blockRegion, Tiling.tileRegion, Tiling.gridPos, Point.max_x, Point.max_y, Point.min_x,
      Point.min_y, Point.mul_x, Point.mul_y, Point.add_x, Point.add_y, Point.ofRowMajor_x, Point.ofRowMajor_y,
      Point.square_x, Point.square_y, hposx, hposy]
    omega
  refine ⟨hiff, ?_⟩
  intro hpositive
  obtain ⟨hgx, hgy⟩ := hiff.1 hpositive
  have hlx := hgx
  have hly := hgy
  rw [hpos] at hlx hly
  simp only [DenseBuffer.gridOf, Point.ceilDiv_x, Point.ceilDiv_y, lt_ceilDiv_iff htx, lt_ceilDiv_iff hty,
    Tiling.gridPos, Point.mul_x, Point.mul_y, Point.add_x, Point.add_y, Point.ofRowMajor_x, Point.ofRowMajor_y, hposx,
    hposy] at hlx hly
  rw [DenseBuffer.taskRegionOf, denseId, Point.ofRowMajor_rowMajor hgx, h.taskRegionOf_eq hid, hpos]
  simp only [Region.intersect, Region.mk.injEq, Point.ext_iff, Tiling.blockRegion, Tiling.tileRegion, Tiling.gridPos,
    Point.max_x, Point.max_y, Point.min_x, Point.min_y, Point.mul_x, Point.mul_y, Point.add_x, Point.add_y,
    Point.ofRowMajor_x, Point.ofRowMajor_y, Point.square_x, Point.square_y, hposx, hposy]
  omega

/-! ## The tasks that are scheduled -/

theorem mem_taskOrder (h : Owns ids s) : i ∈ s.taskOrder ↔
    tileIndexOf s.desc i < ids.length ∧ 0 < (taskRegionOf s.desc s.tiles i).area := by
  have htile : ∀ k, i ∈ List.range' (k * s.desc.tasksPerTile.area) s.desc.tasksPerTile.area ↔
      tileIndexOf s.desc i = k := fun k => by
    rw [List.mem_range'_1, tileIndexOf, div_eq_iff_block h.valid.perTile_pos]
  unfold taskOrder taskOrderOf
  simp only [List.mem_filter, List.mem_flatMap, List.mem_range, (ZOrder.sortBy_perm ..).mem_iff, htile,
    Bool.not_eq_true', Region.isEmpty_eq_false, h.size_tiles, exists_eq_right']

theorem nodup_taskOrder (h : Owns ids s) : s.taskOrder.Nodup := by
  unfold taskOrder taskOrderOf
  refine List.Nodup.filter _ (List.nodup_flatMap.2 ⟨fun k _ => ?_, ?_⟩)
  · exact (ZOrder.sortBy_perm ..).nodup_iff.2 List.nodup_range'
  · refine List.nodup_range.imp fun {k l} hkl i hk hl => hkl ?_
    have hk := List.mem_range'_1.1 ((ZOrder.sortBy_perm ..).mem_iff.1 hk)
    have hl := List.mem_range'_1.1 ((ZOrder.sortBy_perm ..).mem_iff.1 hl)
    rw [← (div_eq_iff_block h.valid.perTile_pos).2 hk, ← (div_eq_iff_block h.valid.perTile_pos).2 hl]

theorem tile_task (h : Owns ids s) (hi : i ∈ s.taskOrder) : ∃ id, ids[tileIndexOf s.desc i]? = some id :=
  ⟨_, List.getElem?_eq_getElem (h.mem_taskOrder.1 hi).1⟩

theorem pos_lt (h : Owns ids s) (hi : i ∈ s.taskOrder) : (s.taskGridPos i).x < (DenseBuffer.gridOf s.desc).x ∧
    (s.taskGridPos i).y < (DenseBuffer.gridOf s.desc).y := by
  obtain ⟨id, hid⟩ := h.tile_task hi
  exact (h.taskRegionOf_cases hid).1.1 (h.mem_taskOrder.1 hi).2

theorem denseId_lt (h : Owns ids s) (hi : i ∈ s.taskOrder) : s.denseId i < (DenseBuffer.gridOf s.desc).area :=
  Point.rowMajor_lt (h.pos_lt hi).1 (h.pos_lt hi).2

theorem ofRowMajor_denseId (h : Owns ids s) (hi : i ∈ s.taskOrder) :
    Point.ofRowMajor (DenseBuffer.gridOf s.desc).x (s.denseId i) = s.taskGridPos i :=
  Point.ofRowMajor_rowMajor (h.pos_lt hi).1

theorem region_task (h : Owns ids s) (hi : i ∈ s.taskOrder) :
    taskRegionOf s.desc s.tiles i = DenseBuffer.taskRegionOf s.desc (s.denseId i) := by
  obtain ⟨id, hid⟩ := h.tile_task hi
  exact (h.taskRegionOf_cases hid).2 (h.mem_taskOrder.1 hi).2

theorem local_lt (h : Owns ids s) (hi : i ∈ s.taskOrder) : i < ids.length * s.desc.tasksPerTile.area :=
  (Nat.div_lt_iff_lt_mul h.valid.perTile_pos).1 (h.mem_taskOrder.1 hi).1

end Owns

/-- The tile of a task of an image. -/
def tileAt (d : BufferDesc) (t : Nat) : Nat :=
  (Tiling.cellOf (DenseBuffer.taskRegionOf d t).lower).rowMajor (Tiling.tileCount d.size).x

theorem tileAt_lt (hd : d.Valid) {t : Nat} (ht : t < (DenseBuffer.gridOf d).area) :
    tileAt d t < (Tiling.tileCount d.size).area := by
  obtain ⟨hx, hy⟩ := DenseBuffer.cell_lt hd ht
  exact Point.rowMajor_lt hx hy

/-- The cell of a task as the quotient of its position. -/
theorem cellOf_task (hd : d.Valid) (t : Nat) : Tiling.cellOf (DenseBuffer.taskRegionOf d t).lower =
    .ofRowMajor (DenseBuffer.gridOf d).x t / d.tasksPerTile := by
  have hquot : ∀ {n t k : Nat}, 0 < t → n * t = tileSize → k * t / tileSize = k / n := by
    intro n t k ht hn
    rw [← hn, Nat.mul_div_mul_right k n ht]
  exact Point.ext (hquot hd.task_x_pos hd.tasks_x) (hquot hd.task_y_pos hd.tasks_y)

/-- The task of a pixel lies in the tile of the pixel. -/
theorem tileAt_taskAt (hd : d.Valid) {p : Point} (hp : (Tiling.tileRegion d.size id).contains p = true) :
    tileAt d (DenseBuffer.taskAt d p) = id := by
  obtain ⟨hcell, himage⟩ := Tiling.cell_of_contains_tileRegion hp
  have hmem : (DenseBuffer.taskRegionOf d (DenseBuffer.taskAt d p)).contains p = true :=
    (DenseBuffer.contains_taskRegionOf_iff hd himage).2 rfl
  have hblock := ((DenseBuffer.contains_taskRegionOf hd).1 hmem).2
  have hquot : ∀ {n t m : Nat}, m * t = tileSize → n / t / m = n / tileSize := by
    intro n t m hm
    rw [Nat.div_div_eq_div_mul, Nat.mul_comm, hm]
  have hcell' : Tiling.cellOf (DenseBuffer.taskRegionOf d (DenseBuffer.taskAt d p)).lower = Tiling.cellOf p := by
    rw [cellOf_task hd, ← hblock]
    exact Point.ext (hquot hd.tasks_x) (hquot hd.tasks_y)
  rw [tileAt, hcell', hcell, Point.rowMajor_ofRowMajor]

namespace Owns

theorem tileAt_denseId (h : Owns ids s) (hi : i ∈ s.taskOrder) (hid : ids[tileIndexOf s.desc i]? = some id) :
    tileAt s.desc (s.denseId i) = id := by
  obtain ⟨hx, hy⟩ := place_lt h.valid i
  have hcell : s.taskGridPos i / s.desc.tasksPerTile = .ofRowMajor (Tiling.tileCount s.desc.size).x id := by
    rw [h.taskGridPos hid]
    exact Point.ext (cell_of_place hx) (cell_of_place hy)
  rw [tileAt, cellOf_task h.valid, h.ofRowMajor_denseId hi, hcell, Point.rowMajor_ofRowMajor]

/-- Tasks of owned tiles that are one task of the image have the same tile and place. -/
theorem denseId_inj (h : Owns ids s) (h' : Owns ids' s') (hd : s.desc = s'.desc) (hi : i ∈ s.taskOrder)
    (hj : j ∈ s'.taskOrder) (heq : s.denseId i = s'.denseId j) :
    ids[tileIndexOf s.desc i]? = ids'[tileIndexOf s'.desc j]? ∧ placeInTile s.desc i = placeInTile s'.desc j := by
  obtain ⟨id, hid⟩ := h.tile_task hi
  obtain ⟨id', hid'⟩ := h'.tile_task hj
  have htile : id = id' := by rw [← h.tileAt_denseId hi hid, ← h'.tileAt_denseId hj hid', hd, heq]
  subst htile
  have hpos : s.taskGridPos i = s'.taskGridPos j := by
    rw [← h.ofRowMajor_denseId hi, ← h'.ofRowMajor_denseId hj, hd, heq]
  rw [h.taskGridPos hid, h'.taskGridPos hid', ← hd] at hpos
  obtain ⟨hx, hy⟩ := place_lt h.valid i
  obtain ⟨hx', hy'⟩ := place_lt h.valid j
  obtain ⟨hpx, hpy⟩ := Point.ext_iff.1 hpos
  refine ⟨hid.trans hid'.symm, ?_⟩
  rw [← hd]
  exact Point.ext (cell_place_inj hx hx' hpx).2 (cell_place_inj hy hy' hpy).2

theorem eq_of_denseId_eq (h : Owns ids s) (hi : i ∈ s.taskOrder) (hj : j ∈ s.taskOrder)
    (heq : s.denseId i = s.denseId j) : i = j := by
  obtain ⟨htile, hplace⟩ := h.denseId_inj h rfl hi hj heq
  have hindex : tileIndexOf s.desc i = tileIndexOf s.desc j :=
    (List.getElem?_inj (h.mem_taskOrder.1 hi).1 h.nodup).1 htile
  rw [← local_eq s.desc i, ← local_eq s.desc j, hindex, hplace]

/-- Every task of an owned tile is scheduled. -/
theorem exists_denseId_eq (h : Owns ids s) {t : Nat} (ht : t < (DenseBuffer.gridOf s.desc).area)
    (htile : tileAt s.desc t ∈ ids) : ∃ i ∈ s.taskOrder, s.denseId i = t := by
  obtain ⟨k, hk, hid⟩ := List.getElem_of_mem htile
  have hid : ids[k]? = some (tileAt s.desc t) := List.getElem?_eq_some_iff.2 ⟨hk, hid⟩
  have hper := h.valid.perTile_pos
  have hpos := Nat.pos_of_mul_pos_right hper
  have hpos' := Nat.pos_of_mul_pos_left hper
  let pos : Point := .ofRowMajor (DenseBuffer.gridOf s.desc).x t
  let place : Point := ⟨pos.x % s.desc.tasksPerTile.x, pos.y % s.desc.tasksPerTile.y⟩
  have hx : place.x < s.desc.tasksPerTile.x := Nat.mod_lt _ hpos
  have hy : place.y < s.desc.tasksPerTile.y := Nat.mod_lt _ hpos'
  obtain ⟨hindex, hplace⟩ := tileIndexOf_local k hx hy
  generalize k * s.desc.tasksPerTile.area + place.rowMajor s.desc.tasksPerTile.x = i at hindex hplace
  rw [← hindex] at hid hk
  have hgrid : s.taskGridPos i = pos := by
    rw [h.taskGridPos hid, hplace, Tiling.gridPos, tileAt, Point.ofRowMajor_rowMajor (DenseBuffer.cell_lt h.valid ht).1,
      cellOf_task h.valid]
    exact Point.ext (Nat.div_add_mod' ..) (Nat.div_add_mod' ..)
  have hlt := Point.ofRowMajor_lt ht
  refine ⟨i, h.mem_taskOrder.2 ⟨hk, (h.taskRegionOf_cases hid).1.2 ?_⟩, ?_⟩
  · rw [hgrid]
    exact hlt
  · rw [denseId, hgrid, Point.rowMajor_ofRowMajor]

end Owns

/-- Buffers that share out the tiles of an image schedule its tasks, each once. -/
theorem denseIds_perm (hd : d.Valid) {idss : List (List Nat)} {f : List Nat → SparseBuffer}
    (hf : ∀ ids ∈ idss, Owns ids (f ids) ∧ (f ids).desc = d) (hnd : idss.flatten.Nodup)
    (hall : ∀ id, id < (Tiling.tileCount d.size).area → id ∈ idss.flatten) :
    ((idss.map f).flatMap fun s => s.taskOrder.map s.denseId).Perm (DenseBuffer.taskOrderOf d) := by
  obtain ⟨-, hdisjoint⟩ := List.nodup_flatten.1 hnd
  refine (List.perm_ext_iff_of_nodup ?_ (DenseBuffer.nodup_taskOrderOf d)).2 fun t => ?_
  · rw [List.flatMap_map, List.nodup_flatMap]
    refine ⟨fun ids hids => ?_, hdisjoint.imp_of_mem fun {ids ids'} hids hids' hdis t ht ht' => ?_⟩
    · obtain ⟨howns, -⟩ := hf ids hids
      exact howns.nodup_taskOrder.map_on fun i hi j hj => howns.eq_of_denseId_eq hi hj
    · obtain ⟨i, hi, rfl⟩ := List.mem_map.1 ht
      obtain ⟨j, hj, heq⟩ := List.mem_map.1 ht'
      obtain ⟨howns, hdesc⟩ := hf ids hids
      obtain ⟨howns', hdesc'⟩ := hf ids' hids'
      obtain ⟨id, hid⟩ := howns.tile_task hi
      have htile := (howns.denseId_inj howns' (hdesc.trans hdesc'.symm) hi hj heq.symm).1
      rw [hid] at htile
      exact hdis (List.mem_of_getElem? hid) (List.mem_of_getElem? htile.symm)
  · simp only [List.mem_flatMap, List.mem_map, DenseBuffer.mem_taskOrderOf]
    constructor
    · rintro ⟨_, ⟨ids, hids, rfl⟩, i, hi, rfl⟩
      obtain ⟨howns, hdesc⟩ := hf ids hids
      rw [← hdesc]
      exact howns.denseId_lt hi
    · intro ht
      obtain ⟨ids, hids, hmem⟩ := List.mem_flatten.1 (hall _ (tileAt_lt hd ht))
      obtain ⟨howns, hdesc⟩ := hf ids hids
      have hmem : tileAt (f ids).desc t ∈ ids := by rw [hdesc]; exact hmem
      obtain ⟨i, hi, heq⟩ := howns.exists_denseId_eq (by rw [hdesc]; exact ht) hmem
      exact ⟨_, ⟨ids, hids, rfl⟩, i, hi, heq⟩

/-! ## Choosing tiles -/

/-- A tile that was just taken. -/
def freshTile (d : BufferDesc) (id : Nat) : OwnedTile := ⟨id, 0, .fill (Tiling.tileRegion d.size id) .blank⟩

/-- The tiles `pre` of `n` are taken, in this order. -/
structure Taken (d : BufferDesc) (n : Nat) (pre : List Nat) (owned : Array OwnedTile × Array (Option Nat)) : Prop where
  tiles : owned.1.toList = pre.map (freshTile d)
  slots : owned.2.size = n
  taken : ∀ k id : Nat, pre[k]? = some id → owned.2[id]? = some (some k)
  free : ∀ id, id < n → id ∉ pre → owned.2[id]? = some none

theorem Taken.own {n : Nat} {pre : List Nat} {owned : Array OwnedTile × Array (Option Nat)} (h : Taken d n pre owned)
    (hlt : id < n) (hfree : id ∉ pre) : Taken d n (pre ++ [id]) (own d owned id) := by
  obtain ⟨tiles, slots⟩ := owned
  have hslot := h.free id hlt hfree
  have hown : SparseBuffer.own d (tiles, slots) id =
      (tiles.push (freshTile d id), slots.setIfInBounds id (some tiles.size)) := by
    unfold SparseBuffer.own
    dsimp only at hslot ⊢
    rw [hslot]
    rfl
  have hsize : tiles.size = pre.length := by
    rw [← Array.length_toList, h.tiles, List.length_map]
  rw [hown]
  have hid : id < slots.size := (Array.getElem?_eq_some_iff.1 hslot).1
  refine ⟨?_, (Array.size_setIfInBounds ..).trans h.slots, ?_, ?_⟩
  · rw [Array.toList_push, h.tiles, List.map_append]
    rfl
  · intro k j hk
    rcases Nat.lt_trichotomy k pre.length with hlt' | heq | hgt
    · rw [List.getElem?_append_left hlt'] at hk
      have hne : id ≠ j := by
        rintro rfl
        exact hfree (List.mem_of_getElem? hk)
      rw [Array.getElem?_setIfInBounds_ne hne]
      exact h.taken k j hk
    · subst heq
      rw [List.getElem?_concat_length, Option.some_inj] at hk
      subst hk
      rw [Array.getElem?_setIfInBounds_self_of_lt hid, hsize]
    · rw [List.getElem?_eq_none (by simp; omega)] at hk
      cases hk
  · intro j hj hjfree
    simp only [List.mem_append, List.mem_singleton, not_or] at hjfree
    rw [Array.getElem?_setIfInBounds_ne (Ne.symm hjfree.2)]
    exact h.free j hj hjfree.1

theorem Taken.foldl {n : Nat} {pre : List Nat} {owned : Array OwnedTile × Array (Option Nat)}
    (h : Taken d n pre owned) (hnd : ids.Nodup) (hlt : ∀ id ∈ ids, id < n) (hfree : ∀ id ∈ ids, id ∉ pre) :
    Taken d n (pre ++ ids) (ids.foldl (SparseBuffer.own d) owned) := by
  induction ids generalizing pre owned with
  | nil => rwa [List.append_nil]
  | cons id ids ih =>
    obtain ⟨hid, hnd⟩ := List.nodup_cons.1 hnd
    have hstep := h.own (hlt id (by simp)) (hfree id (by simp))
    have hlt' : ∀ j ∈ ids, j < n := by
      intro j hj
      exact hlt j (by simp [hj])
    have hfree' : ∀ j ∈ ids, j ∉ pre ++ [id] := by
      intro j hj
      simp only [List.mem_append, List.mem_singleton, not_or]
      refine ⟨hfree j (by simp [hj]), ?_⟩
      rintro rfl
      exact hid hj
    have hrest := ih hstep hnd hlt' hfree'
    rw [List.append_assoc] at hrest
    exact hrest

theorem taken_nil (d : BufferDesc) (n : Nat) : Taken d n [] (#[], Array.replicate n none) := by
  refine ⟨rfl, Array.size_replicate, fun k id hk => by simp at hk, ?_⟩
  intro id hid _
  rw [Array.getElem?_replicate, if_pos hid]

theorem taken_setTiles (b : SparseBuffer) (hnd : ids.Nodup)
    (hlt : ∀ id ∈ ids, id < (Tiling.tileCount b.desc.size).area) :
    Taken b.desc (Tiling.tileCount b.desc.size).area ids ((b.setTiles ids).tiles, (b.setTiles ids).slots) :=
  (taken_nil ..).foldl hnd hlt (by simp)

theorem tileIds_setTiles (b : SparseBuffer) (hnd : ids.Nodup)
    (hlt : ∀ id ∈ ids, id < (Tiling.tileCount b.desc.size).area) : (b.setTiles ids).tileIds = ids := by
  rw [tileIds, (taken_setTiles b hnd hlt).tiles, List.map_map]
  exact List.map_id ids

/-- The pixels of a tile that was just taken are blank. -/
theorem storeAt_setTiles (b : SparseBuffer) (hnd : ids.Nodup)
    (hlt : ∀ id ∈ ids, id < (Tiling.tileCount b.desc.size).area) {k : Nat} (hid : ids[k]? = some id) :
    storeAt (b.setTiles ids).tiles k = .fill (Tiling.tileRegion b.desc.size id) .blank := by
  have htile := congrArg (fun ts : List OwnedTile => ts[k]?) (taken_setTiles b hnd hlt).tiles
  rw [List.getElem?_map, hid, Array.getElem?_toList] at htile
  unfold storeAt
  rw [htile]
  rfl

theorem owns_setTiles (b : SparseBuffer) (hd : b.desc.Valid) (hnd : ids.Nodup)
    (hlt : ∀ id ∈ ids, id < (Tiling.tileCount b.desc.size).area) : Owns ids (b.setTiles ids) := by
  have htaken := taken_setTiles b hnd hlt
  have hsize : (b.setTiles ids).tiles.size = ids.length := by
    rw [← Array.length_toList, htaken.tiles, List.length_map]
  refine ⟨hd, hnd, hlt, ?_, htaken.taken, ?_, ?_⟩
  · rw [htaken.tiles, List.map_map]
    rfl
  · rw [← hsize]
    show ErrorTracker.grid (if b.desc.has .variance then _ else _) = if b.desc.has .variance then _ else _
    split <;> rfl
  · rw [← hsize]
    exact Array.size_replicate

end SparseBuffer

end AdaptiveFrame
