import AdaptiveFrame.Proofs.Accum.Receive
import AdaptiveFrame.Proofs.Buffer.DenseFold
import AdaptiveFrame.Proofs.Buffer.SparseTasks

/-!
# Folding tiles into a sparse buffer

A tile changes the patches of the tasks that it overlaps, as in a dense buffer, but only those of the owned tile
that it is looked up under (`takes`). What a sparse buffer is never asked to change in a frame is which tasks it
has (`SameTasks`).
-/

namespace AdaptiveFrame.SparseBuffer

variable {s s' s'' : SparseBuffer} {d : BufferDesc} {ids : List Nat} {t : Tile} {tiles tiles' : Array OwnedTile}
  {i j k id : Nat}

/-! ## The same tasks -/

/-- A buffer that owns the same tiles. -/
structure SameTasks (s s' : SparseBuffer) : Prop where
  desc : s'.desc = s.desc
  regions : s'.tiles.toList.map OwnedTile.region = s.tiles.toList.map OwnedTile.region
  slots : s'.slots = s.slots
  grid : s'.tracker.grid = s.tracker.grid
  accumIds : s'.accumIds.size = s.accumIds.size

theorem region_getElem? (h : tiles'.toList.map OwnedTile.region = tiles.toList.map OwnedTile.region) (k : Nat) :
    (tiles'[k]?).map OwnedTile.region = (tiles[k]?).map OwnedTile.region := by
  have hk := congrArg (fun rs : List Region => rs[k]?) h
  simpa using hk

theorem taskRegionOf_congr (h : tiles'.toList.map OwnedTile.region = tiles.toList.map OwnedTile.region) (i : Nat) :
    taskRegionOf d tiles' i = taskRegionOf d tiles i := by
  have hk := region_getElem? h (tileIndexOf d i)
  unfold taskRegionOf
  cases ht : tiles[tileIndexOf d i]? with
  | none =>
    rw [ht] at hk
    rw [Option.map_eq_none_iff.1 hk]
  | some u =>
    rw [ht] at hk
    obtain ⟨u', hu', hregion⟩ := Option.map_eq_some_iff.1 hk
    rw [hu']
    dsimp only [OwnedTile.origin, OwnedTile.cell]
    rw [hregion]

theorem taskOrderOf_congr (h : tiles'.toList.map OwnedTile.region = tiles.toList.map OwnedTile.region) :
    taskOrderOf d tiles' = taskOrderOf d tiles := by
  have hsize : tiles'.size = tiles.size := by
    have hlen := congrArg List.length h
    simpa using hlen
  unfold taskOrderOf
  rw [hsize]
  simp only [taskRegionOf_congr h]

namespace SameTasks

protected theorem refl (s : SparseBuffer) : SameTasks s s := ⟨rfl, rfl, rfl, rfl, rfl⟩

protected theorem trans (h : SameTasks s s') (h' : SameTasks s' s'') : SameTasks s s'' :=
  ⟨h'.desc.trans h.desc, h'.regions.trans h.regions, h'.slots.trans h.slots, h'.grid.trans h.grid,
    h'.accumIds.trans h.accumIds⟩

theorem owns (h : SameTasks s s') (ho : Owns ids s) : Owns ids s' := by
  refine ⟨?_, ho.nodup, ?_, ?_, ?_, ?_, ?_⟩
  · rw [h.desc]; exact ho.valid
  · rw [h.desc]; exact ho.inside
  · rw [h.regions, h.desc]; exact ho.regions
  · rw [h.slots]; exact ho.slots
  · rw [h.grid, h.desc]; exact ho.grid
  · rw [h.accumIds, h.desc]; exact ho.accumIds

theorem taskRegionOf (h : SameTasks s s') (i : Nat) :
    SparseBuffer.taskRegionOf s'.desc s'.tiles i = SparseBuffer.taskRegionOf s.desc s.tiles i := by
  rw [h.desc]
  exact taskRegionOf_congr h.regions i

theorem taskOrder (h : SameTasks s s') : s'.taskOrder = s.taskOrder := by
  unfold SparseBuffer.taskOrder
  rw [h.desc]
  exact taskOrderOf_congr h.regions

theorem taskGridPos (h : SameTasks s s') (i : Nat) : s'.taskGridPos i = s.taskGridPos i := by
  have hk := region_getElem? h.regions (tileIndexOf s.desc i)
  unfold SparseBuffer.taskGridPos
  rw [h.desc]
  cases ht : s.tiles[tileIndexOf s.desc i]? with
  | none =>
    rw [ht] at hk
    rw [Option.map_eq_none_iff.1 hk]
  | some u =>
    rw [ht] at hk
    obtain ⟨u', hu', hregion⟩ := Option.map_eq_some_iff.1 hk
    rw [hu']
    dsimp only [OwnedTile.cell]
    rw [hregion]

theorem denseId (h : SameTasks s s') (i : Nat) : s'.denseId i = s.denseId i := by
  rw [SparseBuffer.denseId, SparseBuffer.denseId, h.taskGridPos, h.desc]

end SameTasks

/-- The same tiles are found under the same cells. -/
theorem SameTasks.owner? (h : SameTasks s s') : s'.owner? t = s.owner? t := by
  have hcell : s'.cellId t = s.cellId t := by rw [cellId, cellId, h.desc]
  unfold SparseBuffer.owner? ownedAt?
  rw [hcell, h.slots]
  split
  · rename_i k _
    have hk := congrArg (Option.map fun r => (k, r)) (region_getElem? h.regions k)
    rwa [Option.map_map, Option.map_map] at hk
  · rfl

/-! ## The pixels of owned tiles -/

theorem region_mapStore (f : Store → Store) (hf : ∀ st, (f st).region = st.region) (u : OwnedTile) :
    (u.mapStore f).region = u.region := hf u.store

theorem regions_modify {f : Store → Store} (hf : ∀ st, (f st).region = st.region) (tiles : Array OwnedTile) (k : Nat) :
    (tiles.modify k (OwnedTile.mapStore f)).toList.map OwnedTile.region = tiles.toList.map OwnedTile.region := by
  refine List.ext_getElem? ?_
  intro j
  simp only [List.getElem?_map, Array.getElem?_toList, Array.getElem?_modify]
  by_cases hj : k = j
  · rw [if_pos hj, Option.map_map]
    exact congrArg (fun g => Option.map g tiles[j]?) (funext fun u => region_mapStore f hf u)
  · rw [if_neg hj]

theorem storeAt_modify_self {f : Store → Store} (hk : k < tiles.size) :
    storeAt (tiles.modify k (OwnedTile.mapStore f)) k = f (storeAt tiles k) := by
  unfold storeAt
  rw [Array.getElem?_modify, if_pos rfl, Array.getElem?_eq_getElem hk]
  rfl

theorem storeAt_modify_of_ne {f : Store → Store} (hk : k ≠ j) :
    storeAt (tiles.modify k (OwnedTile.mapStore f)) j = storeAt tiles j := by
  unfold storeAt
  rw [Array.getElem?_modify, if_neg hk]

theorem modify_modify {f g : Store → Store} (tiles : Array OwnedTile) (k : Nat) :
    (tiles.modify k (OwnedTile.mapStore f)).modify k (OwnedTile.mapStore g) =
      tiles.modify k (OwnedTile.mapStore fun st => g (f st)) := by
  refine Array.ext_getElem? ?_
  intro j
  simp only [Array.getElem?_modify]
  by_cases hj : k = j
  · rw [if_pos hj, if_pos hj, if_pos hj, Option.map_map]
    rfl
  · rw [if_neg hj, if_neg hj, if_neg hj]

/-- Only the pixels that are there matter. -/
theorem modify_congr {f g : Store → Store} (h : f (storeAt tiles k) = g (storeAt tiles k)) :
    tiles.modify k (OwnedTile.mapStore f) = tiles.modify k (OwnedTile.mapStore g) := by
  refine Array.ext_getElem? ?_
  intro j
  simp only [Array.getElem?_modify]
  by_cases hj : k = j
  · subst hj
    unfold storeAt at h
    cases ht : tiles[k]? with
    | none => rfl
    | some u =>
      rw [ht] at h
      rw [if_pos rfl, if_pos rfl]
      exact congrArg (fun st => some (⟨u.id, u.accumId, st⟩ : OwnedTile)) h
  · rw [if_neg hj, if_neg hj]

namespace Owns

theorem region_storeAt (h : Owns ids s) (hid : ids[k]? = some id) :
    (storeAt s.tiles k).region = Tiling.tileRegion s.desc.size id := by
  have hr := h.region_tile k
  rw [hid] at hr
  obtain ⟨u, hu, hregion⟩ := Option.map_eq_some_iff.1 hr
  unfold storeAt
  rw [hu]
  exact hregion

theorem contains_store (h : Owns ids s) (hid : ids[tileIndexOf s.desc i]? = some id) {p : Point}
    (hp : (taskRegionOf s.desc s.tiles i).contains p = true) :
    (storeAt s.tiles (tileIndexOf s.desc i)).region.contains p = true := by
  rw [h.taskRegionOf_eq hid] at hp
  rw [h.region_storeAt hid]
  exact (Region.contains_intersect_iff.1 hp).2

end Owns

/-! ## Patches -/

/-- What the buffer holds for a task. -/
def patch (s : SparseBuffer) (i : Nat) : Patch :=
  ⟨(storeAt s.tiles (tileIndexOf s.desc i)).restrict (taskRegionOf s.desc s.tiles i) .blank, s.tracker.get i,
    s.taskAccumId i⟩

/-- A pixel of an owned tile lies in the patch of one of its tasks. -/
theorem Owns.exists_task_of_tile (h : Owns ids s) {u : OwnedTile} {p : Point} (hu : s.tiles[k]? = some u)
    (hp : u.region.contains p = true) : ∃ i ∈ s.taskOrder, tileIndexOf s.desc i = k ∧
      s.denseId i = DenseBuffer.taskAt s.desc p ∧ (s.patch i).pixels.region.contains p = true ∧
      (s.patch i).pixels.getD p .blank = u.store.getD p .blank := by
  have hr := h.region_tile k
  rw [hu] at hr
  obtain ⟨id, hid, hregion⟩ := Option.map_eq_some_iff.1 hr.symm
  rw [← hregion] at hp
  have himage := (Tiling.cell_of_contains_tileRegion hp).2
  have htile := tileAt_taskAt h.valid hp
  obtain ⟨i, hi, hdense⟩ :=
    h.exists_denseId_eq (DenseBuffer.taskAt_lt h.valid himage) (htile ▸ List.mem_of_getElem? hid)
  obtain ⟨id', hid'⟩ := h.tile_task hi
  have hsame : id' = id := by rw [← h.tileAt_denseId hi hid', hdense, htile]
  subst hsame
  have hk := (List.getElem?_inj (h.mem_taskOrder.1 hi).1 h.nodup).1 (hid'.trans hid.symm)
  have hin : (taskRegionOf s.desc s.tiles i).contains p = true := by
    rw [h.region_task hi, hdense]
    exact (DenseBuffer.contains_taskRegionOf_iff h.valid himage).2 rfl
  refine ⟨i, hi, hk, hdense, hin, ?_⟩
  rw [patch, Raster.restrict, Raster.getD_tabulate hin, hk, storeAt, hu]

/-- What is found under a number is in the slot of the number. -/
theorem tile_of_ownedAt? {n : Nat} {r : Region} (ho : s.ownedAt? n = some (k, r)) :
    (s.slots[n]?).join = some k ∧ ∃ u, s.tiles[k]? = some u ∧ u.region = r := by
  unfold ownedAt? at ho
  split at ho
  · rename_i index hslot
    obtain ⟨u, hu, hpair⟩ := Option.map_eq_some_iff.1 ho
    obtain ⟨rfl, hregion⟩ := Prod.mk.inj hpair
    exact ⟨hslot, u, hu, hregion⟩
  · cases ho

theorem lt_of_ownedAt? {n : Nat} {r : Region} (ho : s.ownedAt? n = some (k, r)) : k < s.tiles.size := by
  obtain ⟨-, u, hu, -⟩ := tile_of_ownedAt? ho
  exact (Array.getElem?_eq_some_iff.1 hu).1

/-- Whether folding a tile changes a task: one of the tile that it is looked up under, with a common pixel. -/
def takes (s : SparseBuffer) (t : Tile) (i : Nat) : Bool :=
  (s.owner? t).map Prod.fst == some (tileIndexOf s.desc i) && t.region.overlaps (taskRegionOf s.desc s.tiles i)

theorem takes_eq_true : s.takes t i = true ↔
    (s.owner? t).map Prod.fst = some (tileIndexOf s.desc i) ∧
      t.region.overlaps (taskRegionOf s.desc s.tiles i) = true := by
  rw [takes, Bool.and_eq_true, beq_iff_eq]

theorem SameTasks.takes (h : SameTasks s s') (t : Tile) (i : Nat) : s'.takes t i = s.takes t i := by
  rw [SparseBuffer.takes, SparseBuffer.takes, h.owner?, h.taskRegionOf, h.desc]

namespace Owns

/-- Cells are found by the number of their tile. -/
theorem owner?_eq (h : Owns ids s) (hid : ids[k]? = some id) (hcell : s.cellId t = id) :
    s.owner? t = some (k, Tiling.tileRegion s.desc.size id) := by
  have hr := h.region_tile k
  rw [hid] at hr
  obtain ⟨u, hu, hregion⟩ := Option.map_eq_some_iff.1 hr
  unfold owner? ownedAt?
  rw [hcell, h.slots _ id hid]
  show (s.tiles[k]?).map _ = _
  rw [hu, Option.map_some, hregion]

/-- A tile that fits a cell is folded into every owned task that it overlaps. -/
theorem takes_iff_overlaps (h : Owns ids s) (hi : i ∈ s.taskOrder) (hf : t.fitsCell = true) :
    s.takes t i = true ↔ t.region.overlaps (taskRegionOf s.desc s.tiles i) = true := by
  rw [takes_eq_true]
  refine and_iff_right_of_imp fun ho => ?_
  obtain ⟨id, hid⟩ := h.tile_task hi
  obtain ⟨p, hp, hc⟩ := Region.overlaps_iff.1 ho
  rw [h.taskRegionOf_eq hid] at hc
  have hcell := (Tiling.cell_of_contains_tileRegion (Region.contains_intersect_iff.1 hc).2).1
  have hcellId : s.cellId t = id := by
    rw [cellId, Tile.cell, ← Tiling.cellOf_eq_of_fitsCell hf hp, hcell, Point.rowMajor_ofRowMajor]
  rw [h.owner?_eq hid hcellId, Option.map_some]

/-- What is found under a number is a tile that is owned. -/
theorem owned_of_ownedAt? (h : Owns ids s) {n : Nat} {r : Region} (ho : s.ownedAt? n = some (k, r)) :
    ∃ id, ids[k]? = some id ∧ r = Tiling.tileRegion s.desc.size id := by
  obtain ⟨-, u, hu, rfl⟩ := tile_of_ownedAt? ho
  have hr := h.region_tile k
  rw [hu] at hr
  obtain ⟨id, hid, hregion⟩ := Option.map_eq_some_iff.1 hr.symm
  exact ⟨id, hid, hregion.symm⟩

end Owns

/-! ## One tile -/

/-- The tasks of an owned tile that a tile is folded into, seen from the corner of the owned one. -/
def tasksOf (d : BufferDesc) (r : Region) (t : Tile) : List Point :=
  (Tiling.tasksOver d.taskSize ((t.region.intersect r).relativeTo (Tiling.cellOf r.lower * .square tileSize))).points

/-- The number of a task by its tile and its place in it. -/
def localId (d : BufferDesc) (k : Nat) (pos : Point) : Nat :=
  k * d.tasksPerTile.area + pos.rowMajor d.tasksPerTile.x

/-- The block of a task by its tile and its place in it. -/
def blockAt (d : BufferDesc) (r : Region) (pos : Point) : Region :=
  ⟨Tiling.cellOf r.lower * .square tileSize + pos * d.taskSize,
    Tiling.cellOf r.lower * .square tileSize + pos * d.taskSize + d.taskSize⟩

/-- The buffer after a tile was folded into the owned tile at a place. -/
def received (s : SparseBuffer) (k : Nat) (r : Region) (t : Tile) : SparseBuffer :=
  { s with
    life := s.life.addRendered (t.region.intersect r).area
    tiles := s.tiles.modify k (OwnedTile.mapStore (·.receive (.sparse s.desc) s.life.pipeline t))
    tracker :=
      if (FoldRule.sparse s.desc).updatesError t.accumId then
        (tasksOf s.desc r t).foldl (fun tr pos => tr.update ⟨localId s.desc k pos, 0⟩
          (((storeAt s.tiles k).receive (.sparse s.desc) s.life.pipeline t).meanError (blockAt s.desc r pos)))
          s.tracker
      else s.tracker
    accumIds := (tasksOf s.desc r t).foldl
      (fun ids pos => ids.setIfInBounds (localId s.desc k pos) (t.accumId + 1)) s.accumIds }

theorem absorbAt_of_outside {r : Region} (h : t.region.overlaps r = false) : s.absorbAt k r t = (s, t) := by
  have hempty : (t.region.intersect r).isEmpty = true := by simpa [Region.overlaps] using h
  obtain ⟨life, tiles, slots, tracker, accumIds⟩ := s
  simp only [absorbAt, hempty, if_true]

theorem absorbAt_eq {r : Region} (hk : k < s.tiles.size) (h : t.region.overlaps r = true) :
    (s.absorbAt k r t).1 = s.received k r t := by
  have hempty : (t.region.intersect r).isEmpty = false := by simpa [Region.overlaps] using h
  unfold received
  simp only [Store.meanError_receive]
  obtain ⟨life, tiles, slots, tracker, accumIds⟩ := s
  simp only [SparseBuffer.desc] at hk ⊢
  simp only [absorbAt, hempty, Bool.false_eq_true, if_false, storeAt_modify_self hk, modify_modify]
  rw [modify_congr (g := fun st => Store.receive (.sparse life.desc) life.pipeline st t) rfl]
  rfl

theorem sameTasks_received (s : SparseBuffer) (k : Nat) (r : Region) (t : Tile) : SameTasks s (s.received k r t) := by
  refine ⟨rfl, regions_modify (fun _ => Store.region_receive) .., rfl, ?_, ?_⟩
  · show ErrorTracker.grid (if _ then _ else _) = _
    split
    · exact Writes.inv_foldl (I := fun tr : ErrorTracker => tr.grid = s.tracker.grid) rfl fun _ _ _ hg => hg
    · rfl
  · refine Writes.inv_foldl (I := fun ids : Array Int => ids.size = s.accumIds.size) rfl ?_
    intro ids pos _ hsize
    rwa [Array.size_setIfInBounds]

theorem absorbAt_keeps {r : Region} (hk : k < s.tiles.size) (t : Tile) :
    SameTasks s (s.absorbAt k r t).1 ∧ ∃ status, (s.absorbAt k r t).1.life = { s.life with status } := by
  rcases ho : t.region.overlaps r with _ | _
  · rw [absorbAt_of_outside ho]
    exact ⟨.refl s, s.life.status, rfl⟩
  · rw [absorbAt_eq hk ho]
    exact ⟨sameTasks_received .., _, rfl⟩

/-- Folding a tile keeps the tasks, and all of the shared state but the status. -/
theorem accumulate_keeps (s : SparseBuffer) (t : Tile) :
    SameTasks s (s.accumulate t).1 ∧ ∃ status, (s.accumulate t).1.life = { s.life with status } := by
  unfold accumulate
  split
  · rename_i ho
    exact absorbAt_keeps (lt_of_ownedAt? ho) t
  · exact ⟨.refl s, s.life.status, rfl⟩

theorem accumulateAll_keeps (s : SparseBuffer) (tiles : List Tile) :
    SameTasks s (s.accumulateAll tiles) ∧ ∃ status, (s.accumulateAll tiles).life = { s.life with status } := by
  refine Writes.inv_foldl (I := fun c : SparseBuffer => SameTasks s c ∧ ∃ status, c.life = { s.life with status })
    ⟨.refl s, s.life.status, rfl⟩ ?_
  rintro c t - ⟨hc, status, hl⟩
  obtain ⟨hsame, status', hl'⟩ := accumulate_keeps c t
  refine ⟨hc.trans hsame, status', hl'.trans ?_⟩
  rw [hl]

namespace Owns

/-- A task that a tile changes is one that is scheduled. -/
theorem mem_taskOrder_of_takes (h : Owns ids s) (ht : s.takes t i = true) : i ∈ s.taskOrder := by
  obtain ⟨howner, ho⟩ := takes_eq_true.1 ht
  obtain ⟨⟨k, r⟩, hpair, hk⟩ := Option.map_eq_some_iff.1 howner
  obtain ⟨id, hid, -⟩ := h.owned_of_ownedAt? hpair
  obtain ⟨p, -, hp⟩ := Region.overlaps_iff.1 ho
  have hlt := (List.getElem?_eq_some_iff.1 hid).1
  exact h.mem_taskOrder.2 ⟨hk ▸ hlt, Region.area_pos_of_contains hp⟩

/-- A tile is folded into the owned tile that it is looked up under, or it changes nothing; and while the buffer
has the same tasks it does so again. -/
theorem accumulate_cases (h : Owns ids s) (t : Tile) :
    ((∀ c, SameTasks s c → (c.accumulate t).1 = c) ∧ ∀ i, s.takes t i = false) ∨
    ∃ k id, ids[k]? = some id ∧ s.owner? t = some (k, Tiling.tileRegion s.desc.size id) ∧
      t.region.overlaps (Tiling.tileRegion s.desc.size id) = true ∧
      ∀ c, SameTasks s c → (c.accumulate t).1 = c.received k (Tiling.tileRegion s.desc.size id) t := by
  unfold accumulate
  cases howner : s.owner? t with
  | none =>
    refine .inl ⟨fun c hc => ?_, fun i => by simp [takes, howner]⟩
    rw [hc.owner?, howner]
  | some owned =>
    obtain ⟨k, r⟩ := owned
    obtain ⟨id, hid, rfl⟩ := h.owned_of_ownedAt? howner
    rcases ho : t.region.overlaps (Tiling.tileRegion s.desc.size id) with _ | _
    · refine .inl ⟨fun c hc => ?_, fun i => ?_⟩
      · rw [hc.owner?, howner]
        exact congrArg Prod.fst (absorbAt_of_outside ho)
      · rw [Bool.eq_false_iff]
        intro ht
        obtain ⟨hindex, hover⟩ := takes_eq_true.1 ht
        rw [howner, Option.map_some, Option.some_inj] at hindex
        obtain ⟨p, hp, hc⟩ := Region.overlaps_iff.1 hover
        have hindex : k = tileIndexOf s.desc i := hindex
        subst hindex
        rw [h.taskRegionOf_eq hid] at hc
        have hin := (Region.contains_intersect_iff.1 hc).2
        rw [Region.overlaps_eq_false_iff.1 ho p hp] at hin
        cases hin
    · refine .inr ⟨k, id, hid, rfl, ho, fun c hc => ?_⟩
      have hk : k < c.tiles.size := lt_of_ownedAt? (hc.owner?.trans howner)
      rw [hc.owner?, howner]
      exact absorbAt_eq hk ho

/-! ### The tasks of the owned tile -/

/-- A task of a tile is folded into where the tile has a pixel of it. -/
theorem mem_tasksOf (h : Owns ids s) (ho : t.region.overlaps (Tiling.tileRegion s.desc.size id) = true) {pos : Point} :
    pos ∈ tasksOf s.desc (Tiling.tileRegion s.desc.size id) t ↔
      ∃ p, (t.region.intersect (Tiling.tileRegion s.desc.size id)).contains p = true ∧
        (blockAt s.desc (Tiling.tileRegion s.desc.size id) pos).contains p = true := by
  have horigin : Tiling.cellOf (Tiling.tileRegion s.desc.size id).lower * .square tileSize =
      (Tiling.tileRegion s.desc.size id).lower := by
    rw [Tiling.cellOf_lower]
    rfl
  unfold tasksOf blockAt
  rw [horigin]
  exact Tiling.mem_tasksOver_relativeTo h.valid.task_x_pos h.valid.task_y_pos (Region.overlaps_iff_area_pos.1 ho)
    ⟨Nat.le_max_right .., Nat.le_max_right ..⟩

theorem blockAt_eq (h : Owns ids s) (hid : ids[tileIndexOf s.desc i]? = some id) :
    blockAt s.desc (Tiling.tileRegion s.desc.size id) (placeInTile s.desc i) =
      Tiling.blockRegion s.desc.taskSize (s.taskGridPos i) := by
  obtain ⟨hx, hy⟩ := place_lt h.valid i
  have horigin : Tiling.cellOf (Tiling.tileRegion s.desc.size id).lower * .square tileSize +
      placeInTile s.desc i * s.desc.taskSize = s.taskGridPos i * s.desc.taskSize := by
    rw [Tiling.cellOf_lower, h.taskGridPos hid]
    exact Point.ext (block_in_cell h.valid.tasks_x hx).1.symm (block_in_cell h.valid.tasks_y hy).1.symm
  rw [blockAt, horigin]
  rfl

/-- A task of the owned tile is folded into if the tile overlaps it. -/
theorem place_mem_tasksOf (h : Owns ids s) (hid : ids[tileIndexOf s.desc i]? = some id)
    (ho : t.region.overlaps (Tiling.tileRegion s.desc.size id) = true) :
    placeInTile s.desc i ∈ tasksOf s.desc (Tiling.tileRegion s.desc.size id) t ↔
      t.region.overlaps (taskRegionOf s.desc s.tiles i) = true := by
  rw [h.mem_tasksOf ho, h.blockAt_eq hid, Region.overlaps_iff, h.taskRegionOf_eq hid]
  refine exists_congr fun p => ?_
  simp only [Region.contains_intersect_iff]
  tauto

/-- The tasks of a tile have places in it. -/
theorem place_of_mem_tasksOf (h : Owns ids s) (ho : t.region.overlaps (Tiling.tileRegion s.desc.size id) = true)
    {pos : Point} (hpos : pos ∈ tasksOf s.desc (Tiling.tileRegion s.desc.size id) t) :
    pos.x < s.desc.tasksPerTile.x ∧ pos.y < s.desc.tasksPerTile.y := by
  obtain ⟨p, hp, hb⟩ := (h.mem_tasksOf ho).1 hpos
  have hp := Region.contains_iff.1 (Region.contains_intersect_iff.1 hp).2
  have hb := Region.contains_iff.1 hb
  have hx := h.valid.tasks_x
  have hy := h.valid.tasks_y
  rw [blockAt, Tiling.cellOf_lower] at hb
  simp only [Tiling.tileRegion, Point.mul_x, Point.mul_y, Point.add_x, Point.add_y, Point.min_x, Point.min_y,
    Point.square_x, Point.square_y] at hp hb
  refine ⟨Nat.lt_of_mul_lt_mul_right (a := s.desc.taskSize.x) ?_,
    Nat.lt_of_mul_lt_mul_right (a := s.desc.taskSize.y) ?_⟩
  · omega
  · omega

/-- The tasks that a tile is folded into are told apart by their numbers. -/
theorem eq_of_mem_tasksOf (h : Owns ids s) (ho : t.region.overlaps (Tiling.tileRegion s.desc.size id) = true)
    {pos : Point} (hpos : pos ∈ tasksOf s.desc (Tiling.tileRegion s.desc.size id) t)
    (heq : localId s.desc k pos = i) : pos = placeInTile s.desc i := by
  obtain ⟨hx, hy⟩ := h.place_of_mem_tasksOf ho hpos
  subst heq
  exact (tileIndexOf_local k hx hy).2.symm

theorem localId_eq_iff (hd : d.Valid) : localId d k (placeInTile d i) = i ↔ k = tileIndexOf d i := by
  obtain ⟨hx, hy⟩ := place_lt hd i
  constructor
  · intro heq
    have hindex := (tileIndexOf_local k hx hy).1
    rw [← localId, heq] at hindex
    exact hindex.symm
  · rintro rfl
    exact local_eq d i

/-- A task is folded into if the tile takes it. -/
theorem mem_tasksOf_and (h : Owns ids s) (hid : ids[k]? = some id)
    (hk : s.owner? t = some (k, Tiling.tileRegion s.desc.size id))
    (ho : t.region.overlaps (Tiling.tileRegion s.desc.size id) = true) (i : Nat) :
    (placeInTile s.desc i ∈ tasksOf s.desc (Tiling.tileRegion s.desc.size id) t ∧
        localId s.desc k (placeInTile s.desc i) = i) ↔ s.takes t i = true := by
  rw [localId_eq_iff h.valid, takes_eq_true, hk, Option.map_some, Option.some_inj, and_comm]
  refine and_congr_right fun hindex => ?_
  subst hindex
  exact h.place_mem_tasksOf hid ho

/-! ### Patches -/

/-- The mean error that a task gets only depends on its patch. -/
theorem meanError_block (h : Owns ids s) (hi : i ∈ s.taskOrder) (t : Tile) (rule : FoldRule) (pl : Pipeline) :
    ((storeAt s.tiles (tileIndexOf s.desc i)).receive rule pl t).meanError
      (Tiling.blockRegion s.desc.taskSize (s.taskGridPos i)) =
      (Store.receive rule pl (s.patch i).pixels t).meanError (s.patch i).pixels.region := by
  obtain ⟨id, hid⟩ := h.tile_task hi
  have hpart : (Tiling.blockRegion s.desc.taskSize (s.taskGridPos i)).intersect
      (storeAt s.tiles (tileIndexOf s.desc i)).region = taskRegionOf s.desc s.tiles i := by
    rw [h.region_storeAt hid, h.taskRegionOf_eq hid]
  have hself := Region.intersect_self (h.mem_taskOrder.1 hi).2
  refine Store.meanError_congr (hpart.trans hself.symm) ?_
  intro p hp
  have hp : (taskRegionOf s.desc s.tiles i).contains p = true := by rw [← hpart]; exact hp
  have hpatch : (s.patch i).pixels.region.contains p = true := hp
  rw [Store.getD_receive (h.contains_store hid hp), Store.getD_receive hpatch, patch, Raster.restrict,
    Raster.getD_tabulate hp]
  exact ⟨rfl, rfl⟩

theorem size_errors (h : Owns ids s) (hv : s.desc.has .variance = true) :
    s.tracker.errors.size = ids.length * s.desc.tasksPerTile.area := by
  have hgrid := h.grid
  rw [if_pos hv] at hgrid
  rw [s.tracker.size_eq, hgrid, Point.area, Nat.mul_one]

theorem get_update (h : Owns ids s) (hj : j ∈ s.taskOrder) (e : Float32)
    (hv : s.desc.has .variance = true) : (s.tracker.update ⟨i, 0⟩ e).get j = if i = j then e else s.tracker.get j := by
  have hlt := h.local_lt hj
  rw [ErrorTracker.get_update, h.size_errors hv, Point.rowMajor, Nat.zero_mul, Nat.zero_add]
  simp only [hlt, and_true]

section Received

variable (h : Owns ids s) (hid : ids[k]? = some id)
  (hk : s.owner? t = some (k, Tiling.tileRegion s.desc.size id))

include h hid hk

theorem pixels_received :
    ((s.received k (Tiling.tileRegion s.desc.size id) t).patch i).pixels =
      if s.takes t i = true then (s.patch i).pixels.receive (.sparse s.desc) s.life.pipeline t
      else (s.patch i).pixels := by
  have hlt := lt_of_ownedAt? hk
  have hregion := (sameTasks_received s k (Tiling.tileRegion s.desc.size id) t).taskRegionOf i
  show (storeAt (s.tiles.modify k _) (tileIndexOf s.desc i)).restrict (taskRegionOf s.desc _ i) .blank = _
  rw [show taskRegionOf s.desc (s.received k (Tiling.tileRegion s.desc.size id) t).tiles i = _ from hregion]
  by_cases hindex : k = tileIndexOf s.desc i
  · subst hindex
    have hrest : (Store.receive (.sparse s.desc) s.life.pipeline (storeAt s.tiles (tileIndexOf s.desc i)) t).restrict
        (taskRegionOf s.desc s.tiles i) .blank = (s.patch i).pixels.receive (.sparse s.desc) s.life.pipeline t :=
      Store.restrict_receive fun p hp => h.contains_store hid hp
    rw [storeAt_modify_self hlt, hrest]
    by_cases ht : s.takes t i = true
    · rw [if_pos ht]
    · rw [if_neg ht]
      refine Store.receive_of_disjoint (Bool.eq_false_iff.2 fun hover => ht (takes_eq_true.2 ⟨?_, hover⟩))
      rw [hk, Option.map_some]
  · have ht : ¬ s.takes t i = true := by
      intro ht
      have heq := (takes_eq_true.1 ht).1
      rw [hk, Option.map_some, Option.some_inj] at heq
      exact hindex heq
    rw [storeAt_modify_of_ne hindex, if_neg ht]
    rfl

variable (ho : t.region.overlaps (Tiling.tileRegion s.desc.size id) = true)
  (hi : i < ids.length * s.desc.tasksPerTile.area)

include ho hi

theorem get_received :
    (s.received k (Tiling.tileRegion s.desc.size id) t).tracker.get i =
      if s.takes t i = true then ((s.patch i).receive (.sparse s.desc) s.life.pipeline t).error
      else s.tracker.get i := by
  show ErrorTracker.get (if _ then _ else _) i = if _ then (if _ then _ else _) else _
  by_cases hu : (FoldRule.sparse s.desc).updatesError t.accumId = true
  · have hv : s.desc.has .variance = true := (Bool.and_eq_true_iff.1 hu).1
    have hlt : i < s.tracker.errors.size := by rwa [h.size_errors hv]
    have hrow : ∀ pos, (⟨localId s.desc k pos, 0⟩ : Point).rowMajor s.tracker.grid.x = localId s.desc k pos := by
      intro pos
      rw [Point.rowMajor, Nat.zero_mul, Nat.zero_add]
    rw [if_pos hu, if_pos hu]
    refine (ErrorTracker.get_foldl_update (fun pos => ⟨localId s.desc k pos, 0⟩) (Region.nodup_points _) hlt
      fun q hq heq => h.eq_of_mem_tasksOf ho hq ((hrow q).symm.trans heq)).trans ?_
    rw [hrow]
    refine (if_congr (h.mem_tasksOf_and hid hk ho i) rfl rfl).trans ?_
    by_cases ht : s.takes t i = true
    · obtain ⟨hindex, -⟩ := takes_eq_true.1 ht
      rw [hk, Option.map_some, Option.some_inj] at hindex
      have hindex : k = tileIndexOf s.desc i := hindex
      subst hindex
      rw [if_pos ht, if_pos ht, h.blockAt_eq hid]
      exact h.meanError_block (h.mem_taskOrder_of_takes ht) ..
    · rw [if_neg ht, if_neg ht]
  · rw [if_neg hu, if_neg hu]
    exact (ite_self _).symm

theorem taskAccumId_received :
    (s.received k (Tiling.tileRegion s.desc.size id) t).taskAccumId i =
      if s.takes t i = true then t.accumId + 1 else s.taskAccumId i := by
  refine (getD_foldl_setIfInBounds (localId s.desc k) (Region.nodup_points _) (h.accumIds ▸ hi)
    fun q hq => h.eq_of_mem_tasksOf ho hq).trans ?_
  exact if_congr (h.mem_tasksOf_and hid hk ho i) rfl rfl

end Received

/-- A tile changes the patches of the tasks that it is folded into. -/
theorem patch_accumulate (h : Owns ids s) (hi : i < ids.length * s.desc.tasksPerTile.area) (t : Tile) :
    (s.accumulate t).1.patch i =
      if s.takes t i = true then (s.patch i).receive (.sparse s.desc) s.life.pipeline t else s.patch i := by
  rcases h.accumulate_cases t with ⟨heq, hnone⟩ | ⟨k, id, hid, hk, ho, heq⟩
  · rw [heq s (.refl s), if_neg (by simp [hnone i])]
  · have hpixels := h.pixels_received (i := i) hid hk
    have herror := h.get_received hid hk ho hi
    have hcount := h.taskAccumId_received hid hk ho hi
    rw [heq s (.refl s)]
    by_cases ht : s.takes t i = true
    · rw [if_pos ht] at hpixels herror hcount ⊢
      exact Patch.ext hpixels herror hcount
    · rw [if_neg ht] at hpixels herror hcount ⊢
      exact Patch.ext hpixels herror hcount

/-- The tile of a task changes that task alone. -/
theorem takes_task (h : Owns ids s) (hi : i ∈ s.taskOrder) (ht : t.region = taskRegionOf s.desc s.tiles i) :
    s.takes t j = true ↔ i = j := by
  by_cases hj : j ∈ s.taskOrder
  · have hfits : t.fitsCell = true := by
      rw [Tile.fitsCell, ht, h.region_task hi]
      exact DenseBuffer.fitsCell_taskRegionOf h.valid (h.denseId_lt hi)
    rw [h.takes_iff_overlaps hj hfits, ht, h.region_task hi, h.region_task hj,
      DenseBuffer.overlaps_task h.valid (h.denseId_lt hi)]
    constructor
    · exact h.eq_of_denseId_eq hi hj
    · rintro rfl
      rfl
  · exact iff_of_false (fun htakes => hj (h.mem_taskOrder_of_takes htakes)) fun hij => hj (hij ▸ hi)

/-! ## Batches -/

/-- Folding a batch changes the patches of its tasks, each by its own tile. -/
theorem patch_accumulateAll (h : Owns ids s) {locals : List Nat} {tile : Nat → Tile} (hnd : locals.Nodup)
    (hsub : ∀ i ∈ locals, i ∈ s.taskOrder) (htile : ∀ i ∈ locals, (tile i).region = taskRegionOf s.desc s.tiles i)
    (hj : j < ids.length * s.desc.tasksPerTile.area) : (s.accumulateAll (locals.map tile)).patch j =
      if j ∈ locals then (s.patch j).receive (.sparse s.desc) s.life.pipeline (tile j) else s.patch j := by
  let I : SparseBuffer → Prop := fun c => SameTasks s c ∧ ∃ status, c.life = { s.life with status }
  let step : SparseBuffer → Nat → SparseBuffer := fun c i => (c.accumulate (tile i)).1
  have hinv : ∀ c, ∀ i ∈ locals, I c → I (step c i) := by
    rintro c i - ⟨hc, status, hl⟩
    obtain ⟨hsame, status', hl'⟩ := accumulate_keeps c (tile i)
    refine ⟨hc.trans hsame, status', hl'.trans ?_⟩
    rw [hl]
  have hread : ∀ c, ∀ i ∈ locals, I c → (step c i).patch j =
      if i = j then (c.patch j).receive (.sparse s.desc) s.life.pipeline (tile j) else c.patch j := by
    rintro c i hi ⟨hc, status, hl⟩
    have ho := hc.owns h
    have hic : i ∈ c.taskOrder := by rw [hc.taskOrder]; exact hsub i hi
    have htakes := ho.takes_task (j := j) hic ((htile i hi).trans (hc.taskRegionOf i).symm)
    have hpatch := ho.patch_accumulate (hc.desc.symm ▸ hj) (tile i)
    rw [hc.desc, hl] at hpatch
    refine hpatch.trans ?_
    by_cases hij : i = j
    · rw [if_pos (htakes.2 hij), if_pos hij, hij]
    · rw [if_neg fun ht => hij (htakes.1 ht), if_neg hij]
  have hfold : s.accumulateAll (locals.map tile) = locals.foldl step s := List.foldl_map ..
  rw [hfold]
  exact Writes.read_foldl_ite (I := I) (fun c => c.patch j) (f := fun x : Patch => x.receive _ _ (tile j))
    ⟨.refl s, s.life.status, rfl⟩ hinv hnd hread

/-- Buffers with the same tasks, and the same patches of all of them, know the same errors and sample counts. -/
theorem known_ext (h : Owns ids s) (h' : Owns ids s') (hd : s'.desc = s.desc)
    (hregions : s'.tracker.regions = s.tracker.regions)
    (herror : ∀ i < ids.length * s.desc.tasksPerTile.area, s'.tracker.get i = s.tracker.get i)
    (hcount : ∀ i < ids.length * s.desc.tasksPerTile.area, s'.taskAccumId i = s.taskAccumId i) :
    s'.tracker = s.tracker ∧ s'.accumIds = s.accumIds := by
  constructor
  · have hgrid : s'.tracker.grid = s.tracker.grid := by rw [h'.grid, h.grid, hd]
    refine ErrorTracker.ext_get hgrid hregions fun i hi => herror i ?_
    rw [hgrid, h.grid] at hi
    split at hi
    · rwa [Point.area, Nat.mul_one] at hi
    · exact absurd hi (Nat.not_lt_zero i)
  · have hsize : s'.accumIds.size = s.accumIds.size := by rw [h'.accumIds, h.accumIds, hd]
    refine Array.ext hsize fun i hi hi' => ?_
    have hcount := hcount i (h.accumIds ▸ hi')
    simpa only [taskAccumId, Array.getElem?_eq_getElem hi, Array.getElem?_eq_getElem hi', Option.getD_some] using hcount

end Owns

/-! ## What folding leaves alone -/

/-- Number and sample count of every owned tile. -/
def labels (s : SparseBuffer) : List (Nat × Int) := s.tiles.toList.map fun u => (u.id, u.accumId)

theorem tileIds_eq (s : SparseBuffer) : s.tileIds = s.labels.map Prod.fst := by
  rw [labels, List.map_map]
  rfl

theorem labels_received (s : SparseBuffer) (k : Nat) (r : Region) (t : Tile) : (s.received k r t).labels = s.labels := by
  refine List.ext_getElem? fun j => ?_
  show ((s.tiles.modify k _).toList.map _)[j]? = _
  simp only [labels, List.getElem?_map, Array.getElem?_toList, Array.getElem?_modify]
  by_cases hj : k = j
  · rw [if_pos hj, Option.map_map]
    rfl
  · rw [if_neg hj]

theorem regions_received (s : SparseBuffer) (k : Nat) (r : Region) (t : Tile) :
    (s.received k r t).tracker.regions = s.tracker.regions := by
  show ErrorTracker.regions (if _ then _ else _) = _
  split
  · exact Writes.inv_foldl (I := fun tr : ErrorTracker => tr.regions = s.tracker.regions) rfl fun _ _ _ hr => hr
  · rfl

/-- Folding a tile leaves the labels, the boxes of the tracker and the request to stop alone. -/
theorem absorbAt_frame {r : Region} (hk : k < s.tiles.size) (t : Tile) :
    (s.absorbAt k r t).1.labels = s.labels ∧ (s.absorbAt k r t).1.tracker.regions = s.tracker.regions ∧
      (s.absorbAt k r t).1.life.status.cancelled = s.life.status.cancelled := by
  rcases ho : t.region.overlaps r with _ | _
  · rw [absorbAt_of_outside ho]
    exact ⟨rfl, rfl, rfl⟩
  · rw [absorbAt_eq hk ho]
    exact ⟨labels_received .., regions_received .., rfl⟩

theorem accumulate_frame (s : SparseBuffer) (t : Tile) :
    (s.accumulate t).1.labels = s.labels ∧ (s.accumulate t).1.tracker.regions = s.tracker.regions ∧
      (s.accumulate t).1.life.status.cancelled = s.life.status.cancelled := by
  unfold accumulate
  split
  · rename_i ho
    exact absorbAt_frame (lt_of_ownedAt? ho) t
  · exact ⟨rfl, rfl, rfl⟩

theorem accumulateAll_frame (s : SparseBuffer) (tiles : List Tile) :
    (s.accumulateAll tiles).labels = s.labels ∧ (s.accumulateAll tiles).tracker.regions = s.tracker.regions ∧
      (s.accumulateAll tiles).life.status.cancelled = s.life.status.cancelled := by
  refine Writes.inv_foldl (I := fun c : SparseBuffer => c.labels = s.labels ∧
    c.tracker.regions = s.tracker.regions ∧ c.life.status.cancelled = s.life.status.cancelled) ⟨rfl, rfl, rfl⟩ ?_
  rintro c t - ⟨hlabels, hregions, hcancelled⟩
  obtain ⟨hlabels', hregions', hcancelled'⟩ := accumulate_frame c t
  exact ⟨hlabels'.trans hlabels, hregions'.trans hregions, hcancelled'.trans hcancelled⟩

end AdaptiveFrame.SparseBuffer
