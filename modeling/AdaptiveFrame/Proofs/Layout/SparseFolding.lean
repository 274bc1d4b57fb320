import AdaptiveFrame.Proofs.Layout.SparseTasks

/-!
# Folding tiles into a sparse buffer in memory

An owned tile is found by its place, its pixels from its own first one, and its tasks by their numbers in the
buffer. So a tile is folded into the layout as it is into the buffer.
-/

namespace AdaptiveFrame.SparseBuffer

variable {d : BufferDesc} {s s' : SparseBuffer} {u : OwnedTile} {t : Tile} {k id : Nat} {p pos : Point}

/-! ## One owned tile -/

section Owned

theorem finds_owned (u : OwnedTile) (t : Tile) :
    (View.ofRegion u.region).Finds u.store.region (t.region.intersect u.store.region) :=
  View.finds_ofRegion fun _ hp => (Region.contains_intersect_iff.1 hp).2

/-- What the owned tile gives back for a sample is what its pixel gives back after the sample was folded. -/
theorem reflect?_eq (hp : (t.region.intersect u.store.region).contains p = true) :
    SparseLayout.reflect? (.sparse d) u.shown (.ofStore d (u.store.foldTile (.sparse d) t)) t.accumId p (t.sampleAt p) =
      some (((u.store.foldTile (.sparse d) t).getD p .blank).reflect (.sparse d) (t.sampleAt p)) := by
  obtain ⟨ht, hu⟩ := Region.contains_intersect_iff.1 hp
  have hold : u.shown.sample? p = some (u.store.getD p .blank).shown := by
    refine (Tile.sample?_eq (t := u.shown) hu).trans (congrArg some ?_)
    exact Raster.getD_map hu Pixel.shown .blank _
  have hfold : (u.store.foldTile (.sparse d) t).getD p .blank =
      (u.store.getD p .blank).fold (.sparse d) t.accumId (t.sampleAt p) := (Store.getD_foldTile hu).trans (if_pos ht)
  have hmean : (View.ofRegion u.region).readKept? ((u.store.foldTile (.sparse d) t).plane (d.has .accum) Pixel.accum) p
      (t.sampleAt p).color =
      some (if d.has .accum then ((u.store.foldTile (.sparse d) t).getD p .blank).accum else (t.sampleAt p).color) :=
    Raster.readKept?_plane (g := u.store.foldTile (.sparse d) t) (finds_owned u t) hp .blank _
  have hregion : u.shown.region = u.region := rfl
  unfold SparseLayout.reflect? Means.ofStore
  simp only [hold, hregion, hmean, hfold, Option.bind_eq_bind, Option.bind_some]
  rfl

theorem reflectTile?_eq (u : OwnedTile) (t : Tile) : SparseLayout.reflectTile? (.sparse d) u.shown
    (.ofStore d (u.store.foldTile (.sparse d) t)) (t.region.intersect u.store.region) t =
      some ((u.store.foldTile (.sparse d) t).reflectTile (.sparse d) t) := by
  unfold SparseLayout.reflectTile? Store.reflectTile
  rw [Store.region_foldTile]
  refine Tile.mapPoints?_eq fun p _ => ?_
  split
  · rename_i hp
    exact reflect?_eq hp
  · rfl

/-- A sample that comes back from an owned tile, after the pixel operations, is the one that the tile shows. -/
theorem sampleAt_left (pl : Pipeline) (hp : (t.region.intersect u.store.region).contains p = true) :
    (pl.recolor ((u.store.foldTile (.sparse d) t).reflectTile (.sparse d) t)).sampleAt p =
      ((u.store.receive (.sparse d) pl t).getD p .blank).shown := by
  obtain ⟨ht, hu⟩ := Region.contains_intersect_iff.1 hp
  have hfold : (u.store.foldTile (.sparse d) t).getD p .blank =
      (u.store.getD p .blank).fold (.sparse d) t.accumId (t.sampleAt p) := (Store.getD_foldTile hu).trans (if_pos ht)
  have hreceive : (u.store.receive (.sparse d) pl t).getD p .blank =
      (u.store.getD p .blank).receive (.sparse d) pl t.accumId (t.sampleAt p) := (Store.getD_receive hu).trans (if_pos ht)
  have hreflect : ((u.store.foldTile (.sparse d) t).reflectTile (.sparse d) t).sampleAt p =
      ((u.store.getD p .blank).fold (.sparse d) t.accumId (t.sampleAt p)).reflect (.sparse d) (t.sampleAt p) := by
    refine (Raster.getD_mapPoints (g := t.toRaster) ht _ Sample.blank _).trans ?_
    rw [Store.region_foldTile, if_pos hp, hfold]
    rfl
  have hregion : ((u.store.foldTile (.sparse d) t).reflectTile (.sparse d) t).region.contains p = true := ht
  rw [Pipeline.sampleAt_recolor hregion, hreflect, hreceive]
  rfl

theorem showSamples?_eq (pl : Pipeline) (u : OwnedTile) (t : Tile) :
    SparseLayout.showSamples? (t.region.intersect u.store.region)
      (pl.recolor ((u.store.foldTile (.sparse d) t).reflectTile (.sparse d) t)) u.shown =
      some ⟨(u.store.receive (.sparse d) pl t).map Pixel.shown, u.accumId⟩ := by
  have hleft : (pl.recolor ((u.store.foldTile (.sparse d) t).reflectTile (.sparse d) t)).region = t.region :=
    Pipeline.region_recolor ..
  generalize hrecolored : pl.recolor ((u.store.foldTile (.sparse d) t).reflectTile (.sparse d) t) = left at hleft
  have hshow : (u.store.receive (.sparse d) pl t).map Pixel.shown =
      (u.store.map Pixel.shown).modifyOn t.region fun p _ => left.sampleAt p := by
    refine Raster.ext_getD .blank rfl fun p hp => ?_
    have hu : u.store.region.contains p = true := hp
    have hnew : (u.store.receive (.sparse d) pl t).region.contains p = true := hp
    rw [Raster.getD_map hnew _ .blank, Raster.getD_modifyOn (g := u.store.map Pixel.shown) hu]
    split
    · rename_i ht
      rw [← hrecolored]
      exact (sampleAt_left pl (Region.contains_intersect_iff.2 ⟨ht, hu⟩)).symm
    · rename_i ht
      rw [Store.getD_receive hu, if_neg ht, Raster.getD_map hu _ .blank]
  rw [hshow, Raster.modifyOn_eq_foldl]
  refine foldlM_eq_some (R := fun g : Raster Sample => (⟨g, u.accumId⟩ : Tile))
    (I := fun g : Raster Sample => g.region = u.store.region) rfl fun g p hp hg => ⟨?_, hg⟩
  obtain ⟨ht, hu⟩ := Region.contains_intersect_iff.1 (Region.mem_points.1 hp)
  rw [Tile.sample?_eq (hleft ▸ ht), Option.bind_eq_bind, Option.bind_some]
  exact Tile.write?_eq (t := ⟨g, u.accumId⟩) (hg ▸ hu) _

end Owned

/-! ## The tasks of one owned tile -/

section Tasks

variable {g : Store} {number : Point → Nat} {origin : Point} {tasks : List Point} {tracker : ErrorTracker}

theorem renewErrors?_eq (hd : d.Valid) (hv : d.has .variance = true)
    (hin : ∀ pos ∈ tasks, number pos < tracker.grid.x ∧ 0 < tracker.grid.y) :
    SparseLayout.renewErrors? d g.region (.ofStore d g) number origin tasks tracker =
      some (tasks.foldl (fun tr pos => tr.update ⟨number pos, 0⟩
        (g.meanError ⟨origin + pos * d.taskSize, origin + pos * d.taskSize + d.taskSize⟩)) tracker) := by
  refine foldlM_eq_some (R := id) (I := fun tr : ErrorTracker => tr.grid = tracker.grid) rfl fun tr pos hpos htr => ⟨?_, htr⟩
  have hfind : (View.ofRegion g.region).Finds g.region
      ((⟨origin + pos * d.taskSize, origin + pos * d.taskSize + d.taskSize⟩ : Region).intersect g.region) :=
    View.finds_ofRegion fun _ hp => (Region.contains_intersect_iff.1 hp).2
  have herror := Means.error?_eq hv (hd.accum hv) hfind fun _ hp => hp
  show ((Means.ofStore d g).error? _ _).bind _ = _
  rw [herror]
  exact ErrorTracker.update?_eq (fun _ => htr ▸ hin pos hpos) _

/-- Errors are renewed where the second mean is kept. -/
theorem updateErrors?_eq (hd : d.Valid) (hpos : 0 < g.region.area) (number : Point → Nat) (origin : Point) (k : Int)
    (henabled : d.has .variance = true → tracker.isEnabled = true)
    (hin : d.has .variance = true → ∀ pos ∈ tasks, number pos < tracker.grid.x ∧ 0 < tracker.grid.y) :
    SparseLayout.updateErrors? d g.region (.ofStore d g) number origin k tasks tracker =
      some (if (FoldRule.sparse d).updatesError k then
        tasks.foldl (fun tr pos => tr.update ⟨number pos, 0⟩
          (g.meanError ⟨origin + pos * d.taskSize, origin + pos * d.taskSize + d.taskSize⟩)) tracker
      else tracker) := by
  have hodd : (Means.ofStore d g).oddMean.isEmpty = !d.has .variance := Raster.isEmpty_plane hpos ..
  have hupdates : (FoldRule.sparse d).updatesError k = (d.has .variance && Blend.isOdd k) := rfl
  unfold SparseLayout.updateErrors?
  rw [hodd, Bool.not_not, hupdates]
  cases hv : d.has .variance with
  | false => rfl
  | true =>
    rw [henabled hv, Bool.and_true]
    split
    · exact renewErrors?_eq hd hv (hin hv)
    · rfl

theorem noteAccumIds?_eq {accumIds : Array Int} (hin : ∀ pos ∈ tasks, number pos < accumIds.size) (n : Int) :
    SparseLayout.noteAccumIds? number tasks n accumIds =
      some (tasks.foldl (fun ids pos => ids.setIfInBounds (number pos) n) accumIds) := by
  refine foldlM_eq_some (R := id) (I := fun ids : Array Int => ids.size = accumIds.size) rfl fun ids pos hpos hids => ⟨?_, ?_⟩
  · have hlt : number pos < ids.size := hids ▸ hin pos hpos
    exact Span.write?_whole hlt n
  · exact (Array.size_setIfInBounds ..).trans hids

end Tasks

/-! ## Folding a tile -/

/-- The part of a tile in an owned one begins behind the first pixel of its cell. -/
theorem relativeTo?_eq (u : OwnedTile) (t : Tile) (hpos : 0 < (t.region.intersect u.region).area) :
    (t.region.intersect u.region).lower.sub? u.origin =
      some ((t.region.intersect u.region).relativeTo u.origin).lower ∧
    (t.region.intersect u.region).upper.sub? u.origin =
      some ((t.region.intersect u.region).relativeTo u.origin).upper := by
  obtain ⟨hx, hy⟩ := Region.area_pos_iff.1 hpos
  have hcellx : u.origin.x ≤ u.region.lower.x := Nat.div_mul_le_self ..
  have hcelly : u.origin.y ≤ u.region.lower.y := Nat.div_mul_le_self ..
  have hlx : u.region.lower.x ≤ (t.region.intersect u.region).lower.x := Nat.le_max_right ..
  have hly : u.region.lower.y ≤ (t.region.intersect u.region).lower.y := Nat.le_max_right ..
  exact ⟨Point.sub?_eq (by omega) (by omega), Point.sub?_eq (by omega) (by omega)⟩

/-- An owned tile knows its number and its region. -/
theorem Owns.exists_id {ids : List Nat} (h : Owns ids s) (hu : s.tiles[k]? = some u) :
    ∃ id, ids[k]? = some id ∧ u.region = Tiling.tileRegion s.desc.size id := by
  have hr := h.region_tile k
  rw [hu] at hr
  obtain ⟨id, hid, hregion⟩ := Option.map_eq_some_iff.1 hr.symm
  exact ⟨id, hid, hregion.symm⟩

/-- The tasks that a tile is folded into are tasks of the buffer. -/
theorem Owns.localId_lt {ids : List Nat} (h : Owns ids s) (hu : s.tiles[k]? = some u)
    (ho : t.region.overlaps u.region = true) (hpos : pos ∈ tasksOf s.desc u.region t) :
    localId s.desc k pos < ids.length * s.desc.tasksPerTile.area := by
  obtain ⟨id, hid, hregion⟩ := h.exists_id hu
  rw [hregion] at ho hpos
  obtain ⟨hx, hy⟩ := h.place_of_mem_tasksOf ho hpos
  have hplace := Point.rowMajor_lt hx hy
  have hmul : (k + 1) * s.desc.tasksPerTile.area ≤ ids.length * s.desc.tasksPerTile.area :=
    Nat.mul_le_mul_right _ (List.getElem?_eq_some_iff.1 hid).1
  rw [Nat.succ_mul] at hmul
  rw [localId]
  omega

/-- A buffer that is asked for errors tracks those of all its tasks. -/
theorem Owns.tracked {ids : List Nat} (h : Owns ids s) (hv : s.desc.has .variance = true) :
    s.tracker.grid = ⟨s.accumIds.size, 1⟩ ∧ (0 < s.tiles.size → s.tracker.isEnabled = true) := by
  have hgrid : s.tracker.grid = ⟨s.accumIds.size, 1⟩ := by rw [h.grid, if_pos hv, h.accumIds]
  refine ⟨hgrid, fun hpos => ?_⟩
  rw [ErrorTracker.isEnabled_eq, hgrid, decide_eq_true_eq, Point.area, Nat.mul_one, h.accumIds, ← h.size_tiles]
  exact Nat.mul_pos hpos h.valid.perTile_pos

/-- A tracker of the tasks that tracks any tracks all of them. -/
theorem Owns.grid_of_enabled {ids : List Nat} (h : Owns ids s) {tracker : ErrorTracker}
    (hgrid : tracker.grid = s.tracker.grid) (he : tracker.isEnabled = true) : tracker.grid = ⟨s.accumIds.size, 1⟩ := by
  have hv : s.desc.has .variance = true := by
    by_contra hv
    rw [ErrorTracker.isEnabled_eq, hgrid, h.grid, if_neg hv] at he
    cases he
  exact hgrid.trans (h.tracked hv).1

theorem storeAt_of_tile (hu : s.tiles[k]? = some u) : storeAt s.tiles k = u.store := by
  unfold storeAt
  rw [hu]

/-- The tile that is left after it was folded into an owned one. -/
theorem absorbAt_left (hu : s.tiles[k]? = some u) (ho : t.region.overlaps u.region = true) :
    (s.absorbAt k u.region t).2 =
      s.life.pipeline.recolor ((u.store.foldTile (.sparse s.desc) t).reflectTile (.sparse s.desc) t) := by
  have hempty : (t.region.intersect u.region).isEmpty = false := by simpa [Region.overlaps] using ho
  have hstore := storeAt_of_tile hu
  obtain ⟨life, tiles, slots, tracker, accumIds⟩ := s
  have hk : k < tiles.size := (Array.getElem?_eq_some_iff.1 hu).1
  have hstore : storeAt tiles k = u.store := hstore
  simp only [absorbAt, hempty, Bool.false_eq_true, if_false, storeAt_modify_self hk, hstore]
  rfl

/-- A tile in memory after another tile was folded into it. -/
theorem map_modify_receive (hu : s.tiles[k]? = some u) (pl : Pipeline) :
    (s.tiles.modify k (OwnedTile.mapStore (·.receive (.sparse d) pl t))).map (layoutTile d) =
      (s.tiles.map (layoutTile d)).setIfInBounds k
        ⟨u.id, ⟨(u.store.receive (.sparse d) pl t).map Pixel.shown, u.accumId⟩,
          .ofStore d (u.store.foldTile (.sparse d) t)⟩ := by
  have hmeans : Means.ofStore d (u.store.receive (.sparse d) pl t) = .ofStore d (u.store.foldTile (.sparse d) t) :=
    (ofStore_showColors ..).1
  have hk : k < s.tiles.size := (Array.getElem?_eq_some_iff.1 hu).1
  refine Array.ext_getElem? fun j => ?_
  rw [Array.getElem?_map, Array.getElem?_modify, Array.getElem?_setIfInBounds, Array.size_map]
  by_cases hj : k = j
  · subst hj
    rw [if_pos rfl, if_pos rfl, if_pos hk, hu, ← hmeans]
    rfl
  · rw [if_neg hj, if_neg hj, Array.getElem?_map]

/-- The layout after a tile was folded into an owned one. -/
theorem layout_received (hu : s.tiles[k]? = some u) : (s.received k u.region t).layout =
    { s.layout with
      life := s.life.addRendered (t.region.intersect u.region).area
      tiles := s.layout.tiles.setIfInBounds k
        ⟨u.id, ⟨(u.store.receive (.sparse s.desc) s.life.pipeline t).map Pixel.shown, u.accumId⟩,
          .ofStore s.desc (u.store.foldTile (.sparse s.desc) t)⟩
      tracker :=
        if (FoldRule.sparse s.desc).updatesError t.accumId then
          (tasksOf s.desc u.region t).foldl (fun tr pos => tr.update ⟨localId s.desc k pos, 0⟩
            ((u.store.foldTile (.sparse s.desc) t).meanError (blockAt s.desc u.region pos))) s.tracker
        else s.tracker
      accumIds := (tasksOf s.desc u.region t).foldl
        (fun ids pos => ids.setIfInBounds (localId s.desc k pos) (t.accumId + 1)) s.accumIds } := by
  have htiles := map_modify_receive (d := s.desc) (t := t) hu s.life.pipeline
  have horder := (sameTasks_received s k u.region t).taskOrder
  have hmean : ∀ r, ((storeAt s.tiles k).receive (.sparse s.desc) s.life.pipeline t).meanError r =
      (u.store.foldTile (.sparse s.desc) t).meanError r := by
    intro r
    rw [storeAt_of_tile hu, Store.meanError_receive]
  unfold layout
  rw [horder, ← htiles]
  unfold received
  simp only [hmean]
  rfl

theorem layout_tile (hu : s.tiles[k]? = some u) : s.layout.tiles[k]? = some (layoutTile s.desc u) := by
  show (s.tiles.map (layoutTile s.desc))[k]? = _
  rw [Array.getElem?_map, hu]
  rfl

/-- A tile beside the owned one is not folded. -/
theorem absorbAt?_of_outside (hd : s.desc.Valid) (hu : s.tiles[k]? = some u) (ho : t.region.overlaps u.region = false) :
    s.layout.absorbAt? k t = some (s.layout, t) ∧ s.absorbAt k u.region t = (s, t) := by
  have hempty : (t.region.intersect u.region).isEmpty = true := by simpa [Region.overlaps] using ho
  have hdesc : s.layout.desc = s.desc := rfl
  have hregion : (layoutTile s.desc u).tile.region = u.region := rfl
  constructor
  · unfold SparseLayout.absorbAt?
    simp only [hdesc, tasksPerTile?_eq hd, layout_tile hu, hregion, hempty, if_true, Option.bind_eq_bind,
      Option.bind_some]
    rfl
  · obtain ⟨life, tiles, slots, tracker, accumIds⟩ := s
    simp only [absorbAt, hempty, if_true]

/-- Every access that folding a tile makes finds its place. -/
theorem absorbAt?_of_overlaps {ids : List Nat} (h : Owns ids s) (hu : s.tiles[k]? = some u)
    (ho : t.region.overlaps u.region = true) :
    s.layout.absorbAt? k t = some ((s.absorbAt k u.region t).1.layout, (s.absorbAt k u.region t).2) := by
  have hd := h.valid
  have hk : k < s.tiles.size := (Array.getElem?_eq_some_iff.1 hu).1
  have hdesc : s.layout.desc = s.desc := rfl
  have hregion : (layoutTile s.desc u).tile.region = u.region := rfl
  have hpos := Region.overlaps_iff_area_pos.1 ho
  have hempty : (t.region.intersect u.region).isEmpty = false := Region.isEmpty_eq_false.2 hpos
  have hstored : 0 < u.store.region.area := by
    obtain ⟨p, -, hp⟩ := Region.overlaps_iff.1 ho
    exact Region.area_pos_of_contains hp
  have hmeans : (layoutTile s.desc u).means.foldTile? (.ofRegion u.region) ((FoldRule.sparse s.desc).weight t.accumId)
      (t.region.intersect u.region) t = some (.ofStore s.desc (u.store.foldTile (.sparse s.desc) t)) :=
    Means.foldTile?_eq (Means.ruled_sparse hd.accum) (finds_owned u t) rfl
  have hback : SparseLayout.reflectTile? (.sparse s.desc) (layoutTile s.desc u).tile
      (.ofStore s.desc (u.store.foldTile (.sparse s.desc) t)) (t.region.intersect u.region) t = some _ :=
    reflectTile?_eq u t
  have horigin : (layoutTile s.desc u).tile.cellOrigin = u.origin := rfl
  obtain ⟨hlower, hupper⟩ := relativeTo?_eq u t hpos
  have htasks : Tiling.tasksOver? s.desc.taskSize ⟨((t.region.intersect u.region).relativeTo u.origin).lower,
      ((t.region.intersect u.region).relativeTo u.origin).upper⟩ = some _ :=
    Tiling.tasksOver?_eq ((t.region.intersect u.region).relativeTo u.origin) hd.task_x_pos hd.task_y_pos
  have hlocal : ∀ pos ∈ tasksOf s.desc u.region t, localId s.desc k pos < s.accumIds.size := by
    intro pos hpos
    rw [h.accumIds]
    exact h.localId_lt hu ho hpos
  have herrors : SparseLayout.updateErrors? s.desc u.region (.ofStore s.desc (u.store.foldTile (.sparse s.desc) t))
      (SparseLayout.localId s.desc.tasksPerTile k) u.origin t.accumId
      (Tiling.tasksOver s.desc.taskSize ((t.region.intersect u.region).relativeTo u.origin)).points s.tracker = some _ :=
    updateErrors?_eq (g := u.store.foldTile (.sparse s.desc) t) hd hstored (localId s.desc k) u.origin t.accumId
      (fun hv => (h.tracked hv).2 (Nat.zero_lt_of_lt hk)) fun hv pos hpos => by
        rw [(h.tracked hv).1]
        exact ⟨hlocal pos hpos, Nat.one_pos⟩
  have hnote : SparseLayout.noteAccumIds? (SparseLayout.localId s.desc.tasksPerTile k)
      (Tiling.tasksOver s.desc.taskSize ((t.region.intersect u.region).relativeTo u.origin)).points (t.accumId + 1)
      s.accumIds = some _ := noteAccumIds?_eq hlocal (t.accumId + 1)
  have hshow : SparseLayout.showSamples? (t.region.intersect u.region) (s.life.pipeline.recolor
      ((u.store.foldTile (.sparse s.desc) t).reflectTile (.sparse s.desc) t)) (layoutTile s.desc u).tile = some _ :=
    showSamples?_eq s.life.pipeline u t
  have hlife : s.layout.life = s.life := rfl
  have htracker : s.layout.tracker = s.tracker := rfl
  have haccum : s.layout.accumIds = s.accumIds := rfl
  rw [absorbAt_left hu ho, absorbAt_eq hk ho]
  unfold SparseLayout.absorbAt?
  simp only [hdesc, hlife, htracker, haccum, tasksPerTile?_eq hd, layout_tile hu, hregion, hempty, Bool.false_eq_true, if_false,
    hmeans, hback, horigin, hlower, hupper, htasks, herrors, hnote, hshow, Option.bind_eq_bind, Option.bind_some]
  rw [layout_received hu]
  rfl

theorem absorbAt?_eq {ids : List Nat} (h : Owns ids s) (hu : s.tiles[k]? = some u) (t : Tile) :
    s.layout.absorbAt? k t = some ((s.absorbAt k u.region t).1.layout, (s.absorbAt k u.region t).2) := by
  cases ho : t.region.overlaps u.region with
  | false =>
    obtain ⟨hleft, hplain⟩ := absorbAt?_of_outside h.valid hu ho
    rw [hleft, hplain]
  | true => exact absorbAt?_of_overlaps h hu ho

/-! ## One tile and many -/

theorem accumulate?_eq (h : Placed s) (t : Tile) :
    s.layout.accumulate? t = some ((s.accumulate t).1.layout, (s.accumulate t).2) := by
  have hslot : (s.layout.slots[t.cell.rowMajor (Tiling.tileCount s.layout.desc.size).x]?).join =
      (s.slots[s.cellId t]?).join := rfl
  unfold SparseLayout.accumulate? accumulate owner? ownedAt?
  rw [hslot]
  cases hfound : (s.slots[s.cellId t]?).join with
  | none => rfl
  | some index =>
    have hlt : index < s.tiles.size := h.place _ _ (Option.join_eq_some_iff.1 hfound)
    have hu := Array.getElem?_eq_getElem hlt
    simp only [hu, Option.map_some]
    exact absorbAt?_eq h.owns hu t

theorem accumulateAll?_eq (h : Placed s) (tiles : List Tile) :
    s.layout.accumulateAll? tiles = some (s.accumulateAll tiles).layout := by
  refine foldlM_eq_some (R := layout) (I := Placed) h fun c t _ hc => ⟨?_, hc.step (.accumulate c t)⟩
  rw [accumulate?_eq hc]
  rfl

/-! ## Overrides -/

theorem setTaskError?_eq (h : Placed s) (i : Nat) (e : Float32) :
    s.layout.setTaskError? i e = some (s.setTaskError i e).layout := by
  unfold SparseLayout.setTaskError? setTaskError
  show (if i < s.accumIds.size then _ else _) = _
  split
  · rename_i hi
    have hin : s.tracker.isEnabled = true → i < s.tracker.grid.x ∧ 0 < s.tracker.grid.y := by
      intro he
      rw [h.owns.grid_of_enabled rfl he]
      exact ⟨hi, Nat.one_pos⟩
    have hupdate : s.layout.tracker.update? ⟨i, 0⟩ e = some (s.tracker.update ⟨i, 0⟩ e) :=
      ErrorTracker.update?_eq (t := s.tracker) hin e
    rw [hupdate]
    rfl
  · rfl

theorem layout_setTaskAccumId (s : SparseBuffer) (i : Nat) (n : Int) :
    s.layout.setTaskAccumId i n = (s.setTaskAccumId i n).layout := rfl

/-! ## Frames -/

theorem layout_commit (s : SparseBuffer) : s.layout.commit = s.commit.map layout := by
  unfold SparseLayout.commit commit
  show (s.life.commit false >>= _) = _
  unfold Lifecycle.commit
  cases Pipeline.build s.life.imageOps s.life.desc false with
  | error e => rfl
  | ok pl => rfl

/-- Numbering the owned tiles anew. -/
theorem map_setAccumIds (d : BufferDesc) (tiles : Array OwnedTile) (n : Int) :
    SparseLayout.setAccumIds (tiles.map (layoutTile d)) n =
      (tiles.map fun t => { t with accumId := n }).map (layoutTile d) := by
  rw [SparseLayout.setAccumIds, Array.map_map, Array.map_map]
  rfl

theorem layout_beginFrame (s : SparseBuffer) : s.layout.beginFrame = s.beginFrame.layout := by
  have htiles := map_setAccumIds s.desc s.tiles s.life.beginFrame.frameId
  have horder := (sameTasks_beginFrame s).taskOrder
  unfold layout
  rw [horder]
  exact congrArg (fun tiles => { s.layout with life := s.life.beginFrame, tiles }) htiles

theorem layout_endFrame (s : SparseBuffer) : s.layout.endFrame = s.endFrame.layout := by
  rw [endFrame_eq]
  unfold SparseLayout.endFrame finalVariance
  show (if s.tracker.isEnabled then _ else _) = _
  split <;> rfl

theorem clear?_eq (h : Placed s) : s.layout.clear? = some s.clear.layout := by
  have hsettle : SparseLayout.settleEmptyTasks? s.layout.desc s.layout.tiles s.layout.accumIds.size
      s.layout.tracker.clear = some (settleEmptyTasks s.desc s.tiles s.tracker.clear) :=
    settleEmptyTasks?_eq h.owns.valid s.tiles fun he => h.owns.grid_of_enabled rfl he
  have htiles := map_setAccumIds s.desc s.tiles 0
  have horder := (sameTasks_clear s).taskOrder
  unfold SparseLayout.clear?
  rw [hsettle]
  unfold layout
  rw [horder]
  exact congrArg (fun tiles => some { s.clear.layout with order := s.taskOrder, tiles }) htiles

end AdaptiveFrame.SparseBuffer
