import AdaptiveFrame.Proofs.Buffer.Owning

/-!
# What is chosen from a list of tiles

A sparse buffer keeps four things in step: its tiles, the slots they are found by, the tasks that it schedules and what
it knows of them. From any list of tile numbers (`ChosenFrom`) it owns the tiles of the image, each where the list names
it first; slots and tiles lead to each other; and the tasks that it schedules share out the pixels of its tiles, tile
after tile and along the Z-order curve in each.
-/

namespace AdaptiveFrame.SparseBuffer

open FrameBuffer

variable {d : BufferDesc} {s s' : SparseBuffer} {ids : List Nat} {i j : Nat} {p : Point}

/-- Where a task stands on the Z-order curve of its tile. -/
def zCode (d : BufferDesc) (i : Nat) : Nat := ZOrder.code (placeInTile d i).x (placeInTile d i).y

/-- The tasks of one tile are told apart by where they stand on its curve. -/
theorem eq_of_zCode_eq (hd : d.Valid) (htile : tileIndexOf d i = tileIndexOf d j) (h : zCode d i = zCode d j) :
    i = j := by
  have hle : ∀ {n t : Nat}, 0 < t → n * t = tileSize → n ≤ tileSize := by
    intro n t ht hn
    rw [← hn]
    exact Nat.le_mul_of_pos_right n ht
  have hxle := hle hd.task_x_pos hd.tasks_x
  have hyle := hle hd.task_y_pos hd.tasks_y
  have hsmall : ∀ k, (placeInTile d k).x < 2 ^ 16 ∧ (placeInTile d k).y < 2 ^ 16 := by
    intro k
    obtain ⟨hx, hy⟩ := place_lt hd k
    have hsize : tileSize < 2 ^ 16 := by decide
    omega
  obtain ⟨hx, hy⟩ := ZOrder.code_inj (hsmall i).1 (hsmall i).2 (hsmall j).1 (hsmall j).2 h
  rw [← local_eq d i, ← local_eq d j, htile, Point.ext hx hy]

theorem SameTasks.taskCount (h : SameTasks s s') : FrameBuffer.taskCount s' = FrameBuffer.taskCount s := by
  have hsize : s'.tiles.size = s.tiles.size := by
    have hlen := congrArg List.length h.regions
    simpa using hlen
  show (⟨s'.tiles.size * s'.desc.tasksPerTile.x, s'.desc.tasksPerTile.y⟩ : Point).area = _
  rw [hsize, h.desc]
  rfl

namespace Owns

theorem taskCount_eq (h : Owns ids s) : taskCount s = ids.length * s.desc.tasksPerTile.area := by
  show s.tiles.size * s.desc.tasksPerTile.x * s.desc.tasksPerTile.y = _
  rw [h.size_tiles, Nat.mul_assoc]
  rfl

theorem mem_taskOrder_iff_taskCount (h : Owns ids s) : i ∈ s.taskOrder ↔
    i < taskCount s ∧ (taskRegionOf s.desc s.tiles i).isEmpty = false := by
  rw [h.mem_taskOrder, h.taskCount_eq, Region.isEmpty_eq_false, tileIndexOf, Nat.div_lt_iff_lt_mul h.valid.perTile_pos]

/-- Tile after tile, and along the curve in each. -/
theorem pairwise_taskOrder (h : Owns ids s) : s.taskOrder.Pairwise fun i j =>
    tileIndexOf s.desc i < tileIndexOf s.desc j ∨
      tileIndexOf s.desc i = tileIndexOf s.desc j ∧ zCode s.desc i < zCode s.desc j := by
  have hper := h.valid.perTile_pos
  have htile : ∀ k i, i ∈ ZOrder.sortBy (fun id => ((placeInTile s.desc id).x, (placeInTile s.desc id).y))
      (List.range' (k * s.desc.tasksPerTile.area) s.desc.tasksPerTile.area) → tileIndexOf s.desc i = k := by
    intro k i hi
    have hi := List.mem_range'_1.1 ((ZOrder.sortBy_perm ..).mem_iff.1 hi)
    exact (div_eq_iff_block hper).2 hi
  unfold taskOrder taskOrderOf
  refine List.Pairwise.filter _ (List.pairwise_flatMap.2 ⟨fun k _ => ?_, ?_⟩)
  · have hnodup := (ZOrder.sortBy_perm (fun id => ((placeInTile s.desc id).x, (placeInTile s.desc id).y))
      (List.range' (k * s.desc.tasksPerTile.area) s.desc.tasksPerTile.area)).nodup_iff.2 List.nodup_range'
    refine ((ZOrder.pairwise_sortBy _ _).and hnodup).imp_of_mem fun {i j} hi hj hij => .inr ?_
    have hsame := (htile k i hi).trans (htile k j hj).symm
    exact ⟨hsame, Nat.lt_of_le_of_ne hij.1 fun hcode => hij.2 (eq_of_zCode_eq h.valid hsame hcode)⟩
  · refine List.pairwise_lt_range.imp fun {k l} hkl i hi j hj => .inl ?_
    rw [htile k i hi, htile l j hj]
    exact hkl

/-- A pixel of an owned tile lies in one task that is scheduled, and in no other. -/
theorem existsUnique_task (h : Owns ids s) {u : OwnedTile} (hu : u ∈ s.tiles) (hp : u.region.contains p = true) :
    ∃! i, i ∈ s.taskOrder ∧ (taskRegionOf s.desc s.tiles i).contains p = true := by
  obtain ⟨k, hk⟩ := Array.mem_iff_getElem?.1 hu
  obtain ⟨i, hi, -, -, hin, -⟩ := h.exists_task_of_tile hk hp
  refine ⟨i, ⟨hi, hin⟩, ?_⟩
  rintro j ⟨hj, hjn⟩
  have hin : (taskRegionOf s.desc s.tiles i).contains p = true := hin
  rw [h.region_task hi] at hin
  rw [h.region_task hj] at hjn
  have himage := DenseBuffer.image_contains_of_task h.valid hin
  have hdense := (DenseBuffer.contains_taskRegionOf_iff h.valid himage).1 hin
  have hdense' := (DenseBuffer.contains_taskRegionOf_iff h.valid himage).1 hjn
  exact h.eq_of_denseId_eq hj hi (hdense'.symm.trans hdense)

/-- The pixels of a task lie in its tile. -/
theorem tile_contains_task (h : Owns ids s) (hi : i ∈ s.taskOrder)
    (hp : (taskRegionOf s.desc s.tiles i).contains p = true) :
    ∃ u, s.tiles[tileIndexOf s.desc i]? = some u ∧ u.region.contains p = true := by
  obtain ⟨id, hid⟩ := h.tile_task hi
  have hr := h.region_tile (tileIndexOf s.desc i)
  rw [hid] at hr
  obtain ⟨u, hu, hregion⟩ := Option.map_eq_some_iff.1 hr
  rw [h.taskRegionOf_eq hid] at hp
  refine ⟨u, hu, ?_⟩
  rw [hregion]
  exact (Region.contains_intersect_iff.1 hp).2

end Owns

/-- What a buffer keeps of a list of tile numbers. -/
structure ChosenFrom (ids : List Nat) (s : SparseBuffer) : Prop where
  /-- Of the numbers of tiles of the image each is kept once, where it comes first. -/
  tileIds : s.tileIds = (ids.filter (· < (Tiling.tileCount s.desc.size).area)).eraseDups
  regions : ∀ u ∈ s.tiles, u.region = Tiling.tileRegion s.desc.size u.id
  /-- The slot of a tile leads to its place, and the tile at a place back to its slot. -/
  slot_iff : ∀ id k : Nat, s.slots[id]? = some (some k) ↔ s.tileIds[k]? = some id
  free : ∀ id, id < (Tiling.tileCount s.desc.size).area → id ∉ s.tileIds → s.slots[id]? = some none
  outside : ∀ id, (Tiling.tileCount s.desc.size).area ≤ id → s.slots[id]? = none
  /-- The tasks that have pixels are scheduled, each once. -/
  tasks : ∀ i, i ∈ s.taskOrder ↔ i < taskCount s ∧ (taskRegionOf s.desc s.tiles i).isEmpty = false
  once : s.taskOrder.Nodup
  /-- They come tile after tile, and along the Z-order curve in each. -/
  order : s.taskOrder.Pairwise fun i j => tileIndexOf s.desc i < tileIndexOf s.desc j ∨
    tileIndexOf s.desc i = tileIndexOf s.desc j ∧ zCode s.desc i < zCode s.desc j
  /-- A pixel of an owned tile lies in just one of them, and their pixels lie in their tiles. -/
  covered : ∀ u ∈ s.tiles, ∀ p, u.region.contains p = true →
    ∃! i, i ∈ s.taskOrder ∧ (taskRegionOf s.desc s.tiles i).contains p = true
  inside : ∀ i ∈ s.taskOrder, ∀ p, (taskRegionOf s.desc s.tiles i).contains p = true →
    ∃ u, s.tiles[tileIndexOf s.desc i]? = some u ∧ u.region.contains p = true

theorem chosenFrom (ho : Owns s.tileIds s) (hi : Indexed s)
    (hids : s.tileIds = kept (Tiling.tileCount s.desc.size).area ids) : ChosenFrom ids s where
  tileIds := hids
  regions _ hu := ho.region_eq hu
  slot_iff := hi.slot_iff
  free _ hlt hid := hi.slot_of_not_mem hlt hid
  outside _ hle := Array.getElem?_eq_none (hi.size ▸ hle)
  tasks _ := ho.mem_taskOrder_iff_taskCount
  once := ho.nodup_taskOrder
  order := ho.pairwise_taskOrder
  covered _ hu _ hp := ho.existsUnique_task hu hp
  inside _ htask _ hp := ho.tile_contains_task htask hp

end AdaptiveFrame.SparseBuffer
