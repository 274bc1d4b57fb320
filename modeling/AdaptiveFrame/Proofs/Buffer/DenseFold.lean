import AdaptiveFrame.Proofs.Buffer.Intact
import Mathlib.Data.List.Flatten

/-!
# Folding tiles into a dense buffer

A tile changes the patches of the tasks that it overlaps, each as its pixels in the patch say, and no other
patch (`patch_absorb`). A batch of whole tasks does the same at once, although it is folded one row of tile
cells after another.
-/

namespace AdaptiveFrame

theorem ErrorTracker.get_update (t : ErrorTracker) (pos : Point) (e : Float32) (i : Nat) :
    (t.update pos e).get i =
      if pos.rowMajor t.grid.x = i ∧ i < t.errors.size then e else t.get i := by
  obtain ⟨grid, errors, regions, size_eq⟩ := t
  simp only [get, update, Array.getElem?_setIfInBounds]
  by_cases hi : pos.rowMajor grid.x = i
  · by_cases hlt : i < errors.size
    · rw [if_pos hi, if_pos (hi ▸ hlt), if_pos ⟨hi, hlt⟩, Option.getD_some]
    · rw [if_pos hi, if_neg (hi ▸ hlt), if_neg (by simp [hlt]), Array.getElem?_eq_none (by omega)]
  · rw [if_neg hi, if_neg (by simp [hi])]

theorem Lifecycle.addRendered_zero (c : Lifecycle) : c.addRendered 0 = c := by
  have hzero : c.status.rendered + UInt64.ofNat 0 = c.status.rendered := UInt64.add_zero _
  simp only [addRendered, FrameStatus.addRendered, hzero]

/-! ## Loops over tasks -/

section Loops

variable {tasks : List Point} {pos : Point} {i : Nat}

/-- A loop over tasks renews the error of each by its own value. -/
theorem ErrorTracker.get_foldl_update (place : Point → Point) {error : Point → Float32} {tracker : ErrorTracker}
    (hnd : tasks.Nodup) (hi : i < tracker.errors.size)
    (hplace : ∀ q ∈ tasks, (place q).rowMajor tracker.grid.x = i → q = pos) :
    (tasks.foldl (fun t q => t.update (place q) (error q)) tracker).get i =
      if pos ∈ tasks ∧ (place pos).rowMajor tracker.grid.x = i then error pos else tracker.get i := by
  rw [ite_and]
  refine Writes.read_foldl_ite (I := fun t : ErrorTracker => t.grid = tracker.grid) (fun t => t.get i)
    (f := fun e => if (place pos).rowMajor tracker.grid.x = i then error pos else e) rfl (fun _ _ _ h => h) hnd ?_
  intro t q hq hgrid
  have hlt : i < t.errors.size := by rwa [t.size_eq, hgrid, ← tracker.size_eq]
  simp only [ErrorTracker.get_update, hgrid, hlt, and_true]
  by_cases heq : q = pos
  · rw [if_pos heq, heq]
  · rw [if_neg heq, if_neg fun h => heq (hplace q hq h)]

/-- A loop over tasks notes one sample count for each. -/
theorem getD_foldl_setIfInBounds (key : Point → Nat) {count : Int} {accumIds : Array Int} (hnd : tasks.Nodup)
    (hi : i < accumIds.size) (hkey : ∀ q ∈ tasks, key q = i → q = pos) :
    ((tasks.foldl (fun ids q => ids.setIfInBounds (key q) count) accumIds)[i]?).getD 0 =
      if pos ∈ tasks ∧ key pos = i then count else (accumIds[i]?).getD 0 := by
  rw [ite_and]
  refine Writes.read_foldl_ite (I := fun ids : Array Int => ids.size = accumIds.size)
    (fun ids => (ids[i]?).getD 0) (f := fun e => if key pos = i then count else e) rfl ?_ hnd ?_
  · intro ids q _ hsize
    rwa [Array.size_setIfInBounds]
  · intro ids q hq hsize
    have hlt : i < ids.size := hsize.symm ▸ hi
    rw [Array.getElem?_setIfInBounds]
    by_cases heq : q = pos
    · rw [if_pos heq, heq]
      by_cases hkey : key pos = i
      · rw [if_pos hkey, if_pos hkey, hkey, if_pos hlt, Option.getD_some]
      · rw [if_neg hkey, if_neg hkey]
    · rw [if_neg heq, if_neg fun h => heq (hkey q hq h)]

end Loops

namespace DenseBuffer

variable {b : DenseBuffer} {t : Tile} {i id : Nat} {p : Point}

/-- What the buffer holds for a task. -/
def patch (b : DenseBuffer) (id : Nat) : Patch :=
  ⟨b.pixels.restrict (taskRegionOf b.desc id) .blank, b.tracker.get id, b.taskAccumId id⟩

/-- A pixel of the image is a pixel of the patch of its task. -/
theorem getD_patch (h : b.Intact) (hp : b.desc.image.contains p = true) :
    (b.patch (taskAt b.desc p)).pixels.getD p .blank = b.pixels.getD p .blank :=
  Raster.getD_tabulate ((contains_taskRegionOf_iff h.valid hp).2 rfl) _ _

/-! ## One tile -/

/-- The tasks of the image that a tile is folded into. -/
def tasksOf (d : BufferDesc) (t : Tile) : List Point :=
  (Tiling.tasksOver d.taskSize (t.region.intersect d.image)).points

theorem absorb_of_outside (h : t.region.overlaps b.desc.image = false) : (b.absorb t).1 = b := by
  have hempty : (t.region.intersect b.desc.image).isEmpty = true := by simpa [Region.overlaps] using h
  obtain ⟨life, pixels, display, output, tracker, accumIds⟩ := b
  simp only [desc] at hempty
  simp only [absorb, hempty, if_true]

theorem absorb_eq (h : t.region.overlaps b.desc.image = true) :
    (b.absorb t).1 =
      { b with
        pixels := b.pixels.receive (.dense b.desc) b.life.pipeline t
        display := encodeTile b.desc.format
          (b.life.pipeline.recolor ((b.pixels.foldTile (.dense b.desc) t).reflectTile (.dense b.desc) t)) b.display
        tracker :=
          if (FoldRule.dense b.desc).updatesError t.accumId then
            renewErrors b.desc (b.pixels.receive (.dense b.desc) b.life.pipeline t) (tasksOf b.desc t) b.tracker
          else b.tracker
        accumIds := noteAccumIds (gridOf b.desc) (tasksOf b.desc t) (t.accumId + 1) b.accumIds } := by
  have hempty : (t.region.intersect b.desc.image).isEmpty = false := by simpa [Region.overlaps] using h
  unfold renewErrors
  simp only [Store.meanError_receive]
  obtain ⟨life, pixels, display, output, tracker, accumIds⟩ := b
  simp only [desc] at hempty
  simp only [absorb, hempty, Bool.false_eq_true, if_false]
  rfl

/-- Folding a tile leaves the boxes of the tracker and the output of the frame operations alone. -/
theorem boxes_absorb (b : DenseBuffer) (t : Tile) : (b.absorb t).1.tracker.grid = b.tracker.grid ∧
    (b.absorb t).1.tracker.regions = b.tracker.regions ∧ (b.absorb t).1.output = b.output := by
  rcases ho : t.region.overlaps b.desc.image with _ | _
  · rw [absorb_of_outside ho]
    exact ⟨rfl, rfl, rfl⟩
  · rw [absorb_eq ho]
    show ErrorTracker.grid (if _ then _ else _) = _ ∧ ErrorTracker.regions (if _ then _ else _) = _ ∧ _
    split
    · rw [grid_renewErrors, regions_renewErrors]
      exact ⟨rfl, rfl, rfl⟩
    · exact ⟨rfl, rfl, rfl⟩

/-- The pixels receive every tile, whether it reaches into the image or not. -/
theorem pixels_absorb (h : b.Intact) (t : Tile) :
    (b.absorb t).1.pixels = b.pixels.receive (.dense b.desc) b.life.pipeline t := by
  rcases ho : t.region.overlaps b.desc.image with _ | _
  · rw [absorb_of_outside ho, Store.receive_of_disjoint (h.pixels ▸ ho)]
  · rw [absorb_eq ho]

/-- A tile that overlaps a task reaches into the image. -/
theorem overlaps_image (hd : b.desc.Valid) (h : t.region.overlaps (taskRegionOf b.desc id) = true) :
    t.region.overlaps b.desc.image = true := by
  obtain ⟨p, hp, hc⟩ := Region.overlaps_iff.1 h
  exact Region.overlaps_iff.2 ⟨p, hp, image_contains_of_task hd hc⟩

/-- The tasks of the image that a tile is folded into are told apart by their numbers. -/
theorem eq_of_mem_tasksOf (hd : b.desc.Valid) (ho : t.region.overlaps b.desc.image = true) {q : Point}
    (hq : q ∈ tasksOf b.desc t) (h : q.rowMajor (gridOf b.desc).x = id) : q = .ofRowMajor (gridOf b.desc).x id := by
  subst h
  exact (Point.ofRowMajor_rowMajor (lt_of_mem_tasksOver hd ho hq).1).symm

/-- A task is folded into if the tile overlaps it. -/
theorem mem_tasksOf_and (hd : b.desc.Valid) (ho : t.region.overlaps b.desc.image = true) (id : Nat) :
    (Point.ofRowMajor (gridOf b.desc).x id ∈ tasksOf b.desc t ∧
        (Point.ofRowMajor (gridOf b.desc).x id).rowMajor (gridOf b.desc).x = id) ↔
      t.region.overlaps (taskRegionOf b.desc id) = true := by
  rw [Point.rowMajor_ofRowMajor, ← mem_tasksOver_image hd ho]
  exact and_iff_left rfl

/-- The mean error that a task gets only depends on its patch. -/
theorem meanError_block (h : b.Intact) (hi : i < (gridOf b.desc).area) (t : Tile) (rule : FoldRule)
    (pl : Pipeline) : (b.pixels.receive rule pl t).meanError
      (Tiling.blockRegion b.desc.taskSize (.ofRowMajor (gridOf b.desc).x i)) =
      (Store.receive rule pl (b.patch i).pixels t).meanError (b.patch i).pixels.region := by
  have hpart : (Tiling.blockRegion b.desc.taskSize (.ofRowMajor (gridOf b.desc).x i)).intersect b.pixels.region =
      taskRegionOf b.desc i := by rw [h.pixels, block_intersect_image h.valid hi]
  have hself := Region.intersect_self (area_taskRegionOf_pos h.valid hi)
  refine Store.meanError_congr (hpart.trans hself.symm) ?_
  intro p hp
  have hp : (taskRegionOf b.desc i).contains p = true := by rw [← hpart]; exact hp
  have hin : b.pixels.region.contains p = true := by rw [h.pixels]; exact image_contains_of_task h.valid hp
  have hpatch : (b.patch i).pixels.region.contains p = true := hp
  rw [Store.getD_receive hin, Store.getD_receive hpatch, patch, Raster.restrict, Raster.getD_tabulate hp]
  exact ⟨rfl, rfl⟩

theorem get_absorb (h : b.Intact) (hid : id < (gridOf b.desc).area) (t : Tile) :
    (b.absorb t).1.tracker.get id =
      if t.region.overlaps (taskRegionOf b.desc id) = true then
        ((b.patch id).receive (.dense b.desc) b.life.pipeline t).error
      else b.tracker.get id := by
  rcases ho : t.region.overlaps b.desc.image with _ | _
  · rw [absorb_of_outside ho, if_neg fun hc => by simp [overlaps_image h.valid hc] at ho]
  · rw [absorb_eq ho]
    show ErrorTracker.get (if _ then _ else _) id = if _ then (if _ then _ else _) else _
    by_cases hu : (FoldRule.dense b.desc).updatesError t.accumId = true
    · have hv : b.desc.has .variance = true := (Bool.and_eq_true_iff.1 hu).1
      have hgrid : b.tracker.grid = gridOf b.desc := by rw [h.grid, trackedGrid, if_pos hv]
      have hlt : id < b.tracker.errors.size := by rwa [b.tracker.size_eq, hgrid]
      have hplace : ∀ q ∈ tasksOf b.desc t,
          q.rowMajor b.tracker.grid.x = id → q = .ofRowMajor (gridOf b.desc).x id := by
        intro q hq
        rw [hgrid]
        exact eq_of_mem_tasksOf h.valid ho hq
      rw [if_pos hu, if_pos hu]
      refine (ErrorTracker.get_foldl_update (fun q => q) (Region.nodup_points _) hlt hplace).trans ?_
      rw [hgrid]
      exact if_congr (mem_tasksOf_and h.valid ho id) (meanError_block h hid ..) rfl
    · rw [if_neg hu, if_neg hu]
      exact (ite_self _).symm

theorem taskAccumId_absorb (h : b.Intact) (hid : id < (gridOf b.desc).area) (t : Tile) :
    (b.absorb t).1.taskAccumId id =
      if t.region.overlaps (taskRegionOf b.desc id) = true then t.accumId + 1 else b.taskAccumId id := by
  rcases ho : t.region.overlaps b.desc.image with _ | _
  · rw [absorb_of_outside ho, if_neg fun hc => by simp [overlaps_image h.valid hc] at ho]
  · rw [absorb_eq ho]
    refine (getD_foldl_setIfInBounds (fun q => q.rowMajor _) (Region.nodup_points _) (h.accumIds ▸ hid)
      fun q hq => eq_of_mem_tasksOf h.valid ho hq).trans ?_
    exact if_congr (mem_tasksOf_and h.valid ho id) rfl rfl

/-- A tile changes the patches of the tasks that it overlaps. -/
theorem patch_absorb (h : b.Intact) (hid : id < (gridOf b.desc).area) (t : Tile) :
    ((b.absorb t).1).patch id =
      if t.region.overlaps (taskRegionOf b.desc id) = true then
        (b.patch id).receive (.dense b.desc) b.life.pipeline t
      else b.patch id := by
  have hin : ∀ p, (taskRegionOf b.desc id).contains p = true → b.pixels.region.contains p = true := by
    intro p hp
    rw [h.pixels]
    exact image_contains_of_task h.valid hp
  have hdesc : (b.absorb t).1.desc = b.desc := congrArg Lifecycle.desc (h.absorb t).2
  have hpixels : ((b.absorb t).1.patch id).pixels = (b.patch id).pixels.receive (.dense b.desc) b.life.pipeline t := by
    rw [patch, hdesc, pixels_absorb h]
    exact Store.restrict_receive hin
  have herror := get_absorb h hid t
  have hcount := taskAccumId_absorb h hid t
  by_cases ho : t.region.overlaps (taskRegionOf b.desc id) = true
  · rw [if_pos ho] at herror hcount ⊢
    exact Patch.ext hpixels herror hcount
  · rw [if_neg ho] at herror hcount ⊢
    exact Patch.ext (hpixels.trans (Store.receive_of_disjoint (Bool.eq_false_iff.2 ho))) herror hcount

theorem overlaps_task {d : BufferDesc} (hd : d.Valid) (hi : i < (gridOf d).area) :
    (taskRegionOf d i).overlaps (taskRegionOf d id) = true ↔ i = id := by
  rw [Region.overlaps_iff]
  constructor
  · rintro ⟨p, hp, hp'⟩
    have himage := image_contains_of_task hd hp
    exact ((contains_taskRegionOf_iff hd himage).1 hp).symm.trans ((contains_taskRegionOf_iff hd himage).1 hp')
  · rintro rfl
    exact ⟨_, taskRegionOf_contains_lower hd hi, taskRegionOf_contains_lower hd hi⟩

theorem accumulate_eq (b : DenseBuffer) (t : Tile) :
    (b.accumulate t).1 = if t.fitsCell = true then (b.absorb t).1.addRendered t.region.area else b := by
  unfold accumulate
  split <;> rfl

/-! ## Batches -/

section Batch

variable {ids : List Nat} {tile : Nat → Tile}

/-- Going through the keys below a bound meets the entries with such a key, each once. -/
theorem flatMap_filter_perm {α : Type} (key : α → Nat) (xs : List α) (n : Nat) :
    ((List.range n).flatMap fun k => xs.filter fun x => key x == k).Perm (xs.filter fun x => key x < n) := by
  induction n with
  | zero => simp
  | succ n ih =>
    rw [List.range_succ, List.flatMap_append, List.flatMap_singleton]
    have hlast : (xs.filter fun x => key x < n + 1).filter (fun x => !decide (key x < n)) =
        xs.filter fun x => key x == n := by
      rw [List.filter_filter]
      refine List.filter_congr fun x _ => ?_
      rw [Bool.eq_iff_iff]
      simp
      omega
    have hbelow : (xs.filter fun x => key x < n + 1).filter (fun x => decide (key x < n)) =
        xs.filter fun x => key x < n := by
      rw [List.filter_filter]
      refine List.filter_congr fun x _ => ?_
      rw [Bool.eq_iff_iff]
      simp
      omega
    have hsplit := List.filter_append_perm (fun x => decide (key x < n)) (xs.filter fun x => key x < n + 1)
    rw [hlast, hbelow] at hsplit
    exact (ih.append_right _).trans hsplit

/-- A batch is folded tile by tile, in some order. -/
theorem accumulateAll_eq (hd : b.desc.Valid) (hids : ∀ i ∈ ids, i < (gridOf b.desc).area)
    (htile : ∀ i ∈ ids, (tile i).region = taskRegionOf b.desc i) : ∃ (order : List Nat) (n : Nat), order.Perm ids ∧
      b.accumulateAll (ids.map tile) = (order.foldl (fun b i => (b.absorb (tile i)).1) b).addRendered n := by
  have hband : ∀ row, band (ids.map tile) row =
      (ids.filter fun i => (Tiling.cellOf (taskRegionOf b.desc i).lower).y == row).map tile := by
    intro row
    rw [band, List.filter_map]
    congr 1
    refine List.filter_congr ?_
    intro i hi
    have hfits : (tile i).fitsCell = true := by
      rw [Tile.fitsCell, htile i hi]
      exact fitsCell_taskRegionOf hd (hids i hi)
    simp only [Function.comp_apply, hfits, Bool.true_and, Tile.cell, htile i hi]
  have hall : (ids.filter fun i =>
      (Tiling.cellOf (taskRegionOf b.desc i).lower).y < (Tiling.tileCount b.desc.size).y) = ids := by
    refine List.filter_eq_self.2 fun i hi => ?_
    exact decide_eq_true (cell_lt hd (hids i hi)).2
  have hperm := flatMap_filter_perm (fun i => (Tiling.cellOf (taskRegionOf b.desc i).lower).y) ids
    (Tiling.tileCount b.desc.size).y
  rw [hall] at hperm
  refine ⟨_, (((ids.map tile).filter Tile.fitsCell).map fun t => t.region.area).foldr (· + ·) 0, hperm, ?_⟩
  simp only [accumulateAll, hband, List.foldl_map, List.foldl_flatMap]

/-- Folding a batch changes the patches of its tasks, each by its own tile. -/
theorem patch_accumulateAll (h : b.Intact) (hnd : ids.Nodup) (hids : ∀ i ∈ ids, i < (gridOf b.desc).area)
    (htile : ∀ i ∈ ids, (tile i).region = taskRegionOf b.desc i) (hid : id < (gridOf b.desc).area) :
    (b.accumulateAll (ids.map tile)).patch id =
      if id ∈ ids then (b.patch id).receive (.dense b.desc) b.life.pipeline (tile id) else b.patch id := by
  obtain ⟨order, n, hperm, heq⟩ := accumulateAll_eq h.valid hids htile
  let I : DenseBuffer → Prop := fun c => c.Intact ∧ c.life = b.life
  have hinv : ∀ c, ∀ i ∈ order, I c → I (c.absorb (tile i)).1 := by
    rintro c i - ⟨hc, hl⟩
    exact ⟨(hc.absorb _).1, (hc.absorb _).2.trans hl⟩
  have hstep : ∀ c, ∀ i ∈ order, I c → ((c.absorb (tile i)).1).patch id =
      if i = id then (c.patch id).receive (.dense b.desc) b.life.pipeline (tile id) else c.patch id := by
    rintro c i hi ⟨hc, hl⟩
    have hi := hperm.mem_iff.1 hi
    have hdesc : c.desc = b.desc := congrArg Lifecycle.desc hl
    rw [patch_absorb hc (hdesc ▸ hid), hdesc, hl, htile i hi]
    by_cases hii : i = id
    · rw [if_pos ((overlaps_task h.valid (hids i hi)).2 hii), if_pos hii, hii]
    · rw [if_neg fun ho => hii ((overlaps_task h.valid (hids i hi)).1 ho), if_neg hii]
  have hfold : (order.foldl (fun b i => (b.absorb (tile i)).1) b).patch id =
      if id ∈ order then (b.patch id).receive (.dense b.desc) b.life.pipeline (tile id) else b.patch id :=
    Writes.read_foldl_ite (I := I) (fun c => c.patch id)
      (f := fun x : Patch => x.receive _ _ (tile id)) ⟨h, rfl⟩ hinv (hperm.nodup_iff.2 hnd) hstep
  rw [heq]
  exact hfold.trans (if_congr hperm.mem_iff rfl rfl)

/-- Without tiles nothing is folded. -/
theorem accumulateAll_nil (b : DenseBuffer) : b.accumulateAll [] = b := by
  have hrows : (List.range (Tiling.tileCount b.desc.size).y).foldl
      (fun b row => (band [] row).foldl (fun b t => (b.absorb t).1) b) b = b :=
    Writes.inv_foldl (I := fun c : DenseBuffer => c = b) rfl fun _ _ _ hc => hc
  rw [accumulateAll, hrows]
  exact congrArg (fun life => { b with life }) b.life.addRendered_zero

theorem life_accumulateAll (h : b.Intact) (tiles : List Tile) :
    ∃ n, (b.accumulateAll tiles).life = b.life.addRendered n := by
  have hrows : Intact ((List.range (Tiling.tileCount b.desc.size).y).foldl
        (fun b row => (band tiles row).foldl (fun b t => (b.absorb t).1) b) b) ∧
      ((List.range (Tiling.tileCount b.desc.size).y).foldl
        (fun b row => (band tiles row).foldl (fun b t => (b.absorb t).1) b) b).life = b.life :=
    Writes.inv_foldl (I := fun c : DenseBuffer => c.Intact ∧ c.life = b.life) ⟨h, rfl⟩
      fun c _ _ hc => ⟨(hc.1.foldl_absorb _).1, (hc.1.foldl_absorb _).2.trans hc.2⟩
  exact ⟨_, congrArg (fun l : Lifecycle => l.addRendered _) hrows.2⟩

/-- Folding tiles leaves the boxes of the tracker and the output of the frame operations alone. -/
theorem boxes_accumulateAll (b : DenseBuffer) (tiles : List Tile) :
    (b.accumulateAll tiles).tracker.grid = b.tracker.grid ∧
    (b.accumulateAll tiles).tracker.regions = b.tracker.regions ∧ (b.accumulateAll tiles).output = b.output := by
  let I : DenseBuffer → Prop := fun c =>
    c.tracker.grid = b.tracker.grid ∧ c.tracker.regions = b.tracker.regions ∧ c.output = b.output
  have habsorb : ∀ c t, I c → I (c.absorb t).1 := by
    rintro c t ⟨hgrid, hregions, houtput⟩
    obtain ⟨hgrid', hregions', houtput'⟩ := boxes_absorb c t
    exact ⟨hgrid'.trans hgrid, hregions'.trans hregions, houtput'.trans houtput⟩
  have hrows : I ((List.range (Tiling.tileCount b.desc.size).y).foldl
      (fun b row => (band tiles row).foldl (fun b t => (b.absorb t).1) b) b) :=
    Writes.inv_foldl (I := I) ⟨rfl, rfl, rfl⟩ fun c row _ hc =>
      Writes.inv_foldl (I := I) hc fun c t _ hc => habsorb c t hc
  exact hrows

end Batch

end DenseBuffer

end AdaptiveFrame
