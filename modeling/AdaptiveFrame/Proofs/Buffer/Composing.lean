import AdaptiveFrame.Render.Devices
import AdaptiveFrame.Proofs.Accum.Visible
import AdaptiveFrame.Proofs.Buffer.Displaying
import AdaptiveFrame.Proofs.Buffer.SparseFold

/-!
# Composing device buffers

A device buffer that agrees with a dense buffer on its own tasks brings another dense buffer up to the first
one on these tasks: it shows the same samples and has the same errors and sample counts. What was up to date
before stays so. Composing all devices that share an image therefore makes the two buffers alike.
-/

namespace AdaptiveFrame

/-- The patches of a sparse buffer look like those of the image. -/
structure SparseBuffer.Agrees (b : DenseBuffer) (s : SparseBuffer) : Prop where
  owns : ∃ ids, s.Owns ids
  desc : s.desc = b.desc
  patches : ∀ i ∈ s.taskOrder, (s.patch i).visible b.desc = (b.patch (s.denseId i)).visible b.desc

namespace DenseBuffer

open SparseBuffer (Agrees)

variable {b c c₀ : DenseBuffer} {s : SparseBuffer} {t : Nat} {p : Point}

/-! ## What composing leaves alone -/

/-- A buffer into which parts of a frame were copied. -/
structure ComposedFrom (c₀ c : DenseBuffer) : Prop where
  intact : c.Intact
  life : ∃ status, c.life = { c₀.life with status }
  cancelled : c.life.status.cancelled = c₀.life.status.cancelled
  output : c.output = c₀.output
  regions : c.tracker.regions = c₀.tracker.regions

namespace ComposedFrom

theorem self (h : c.Intact) : ComposedFrom c c := ⟨h, ⟨c.life.status, rfl⟩, rfl, rfl, rfl⟩

theorem desc (h : ComposedFrom c₀ c) : c.desc = c₀.desc := by
  obtain ⟨status, hl⟩ := h.life
  rw [DenseBuffer.desc, hl]
  rfl

theorem writeTile (h : ComposedFrom c₀ c) (u : Tile) : ComposedFrom c₀ (c.writeTile u) := by
  refine ⟨h.intact.writeTile u, ?_, h.cancelled, h.output, h.regions⟩
  obtain ⟨status, hl⟩ := h.life
  refine ⟨(c.life.addRendered (u.region.intersect c.life.desc.image).area).status, ?_⟩
  show c.life.addRendered _ = _
  rw [hl]
  rfl

theorem takeTask (h : ComposedFrom c₀ c) (s : SparseBuffer) (i : Nat) : ComposedFrom c₀ (c.takeTask s i) := by
  have hi := h.intact.takeTask s i
  revert hi
  unfold DenseBuffer.takeTask
  dsimp only
  split
  · intro hi
    refine ⟨hi, h.life, h.cancelled, h.output, ?_⟩
    show ErrorTracker.regions (if _ then _ else _) = _
    split <;> exact h.regions
  · intro _
    exact h

end ComposedFrom

/-! ## Pixels -/

/-- The pixel of `c` shows what that of `b` does, also on display. -/
structure ShowsPixel (b c : DenseBuffer) (p : Point) : Prop where
  sample : (c.pixels.getD p .blank).shown.visible b.desc = (b.pixels.getD p .blank).shown.visible b.desc
  display : c.Displays p

/-- What a tile of an agreeing buffer stores for a pixel. -/
theorem visible_of_tile (hb : b.Intact) (h : Agrees b s) (hp : b.desc.image.contains p = true) {k : Nat} {u : OwnedTile}
    (hu : s.tiles[k]? = some u) (hc : u.region.contains p = true) :
    (u.store.getD p .blank).visible b.desc = (b.pixels.getD p .blank).visible b.desc := by
  obtain ⟨⟨ids, ho⟩, hd, hpatches⟩ := h
  obtain ⟨i, hi, -, hdense, hin, hstore⟩ := ho.exists_task_of_tile hu hc
  have hpixel := Patch.pixel_visible (hpatches i hi) hin
  rw [hstore, hdense, hd, getD_patch hb hp] at hpixel
  exact hpixel

theorem getD_writeTile (hp : c.pixels.region.contains p = true) (u : Tile) :
    (c.writeTile u).pixels.getD p .blank =
      if u.region.contains p = true then { c.pixels.getD p .blank with shown := u.sampleAt p }
      else c.pixels.getD p .blank := Raster.getD_modifyOn hp u.region _ _

/-- A tile brings the pixels inside it up to date, and leaves those outside it alone. -/
theorem showsPixel_writeTile (hb : b.Intact) (hc : c.Intact) (hd : c.desc = b.desc) (h : Agrees b s)
    (hp : b.desc.image.contains p = true) {u : OwnedTile} (hu : u ∈ s.tiles.toList)
    (hold : u.region.contains p = true ∨ ShowsPixel b c p) : ShowsPixel b (c.writeTile u.shown) p := by
  obtain ⟨k, hk⟩ := List.mem_iff_getElem?.1 hu
  rw [Array.getElem?_toList] at hk
  have hpc : c.pixels.region.contains p = true := by rw [hc.pixels, hd]; exact hp
  have hpixel := getD_writeTile hpc u.shown
  by_cases hin : u.region.contains p = true
  · have hin' : u.shown.region.contains p = true := hin
    have hsample : u.shown.sampleAt p = (u.store.getD p .blank).shown := Raster.getD_map hin _ _ _
    have hvisible := Pixel.shown_visible (visible_of_tile hb h hp hk hin)
    rw [if_pos hin', hsample] at hpixel
    refine ⟨by rw [hpixel]; exact hvisible, ?_⟩
    intro encode g he hg
    obtain ⟨g₀, -, hget⟩ := getD_encodeTile he hc.display (hd ▸ hp) hg
    rw [hget, if_pos hin', hsample, hpixel]
  · have hin' : ¬ u.shown.region.contains p = true := hin
    have hold := hold.resolve_left hin
    rw [if_neg hin'] at hpixel
    refine ⟨by rw [hpixel]; exact hold.sample, ?_⟩
    intro encode g he hg
    obtain ⟨g₀, hg₀, hget⟩ := getD_encodeTile he hc.display (hd ▸ hp) hg
    rw [hget, if_neg hin', hpixel]
    exact hold.display encode g₀ he hg₀

/-! ## Tasks -/

/-- The error and the sample count of the task are those of `b`. -/
structure KnowsTask (b c : DenseBuffer) (t : Nat) : Prop where
  error : c.tracker.get t = b.tracker.get t
  accumId : c.taskAccumId t = b.taskAccumId t

theorem Intact.size_errors (h : b.Intact) : b.tracker.errors.size = (trackedGrid b.desc).area := by
  rw [b.tracker.size_eq, h.grid]

/-- A buffer that tracks no errors reads all of them as infinite. -/
theorem Intact.get_untracked (h : b.Intact) (hv : b.desc.has .variance = false) (t : Nat) :
    b.tracker.get t = Binary32.posInf := by
  have hsize := h.size_errors
  rw [trackedGrid, if_neg (by simp [hv])] at hsize
  have hnone : b.tracker.errors[t]? = none := Array.getElem?_eq_none (by rw [hsize]; exact Nat.zero_le t)
  rw [ErrorTracker.get, hnone]
  rfl

theorem taskIdAt?_denseId (ho : ∃ ids, s.Owns ids) (hd : s.desc = c.desc) {i : Nat} (hi : i ∈ s.taskOrder) :
    c.taskIdAt? (s.taskGridPos i) = some (s.denseId i) := by
  obtain ⟨ids, ho⟩ := ho
  have hlt := ho.pos_lt hi
  rw [hd] at hlt
  unfold taskIdAt? SparseBuffer.denseId
  rw [hd]
  refine if_pos ?_
  simp only [Bool.and_eq_true, decide_eq_true_eq]
  exact hlt

/-- A task at a position of the grid takes over the sample count, and the error where both buffers track errors. -/
theorem takeTask_of_some {i id : Nat} (h : c.taskIdAt? (s.taskGridPos i) = some id) :
    c.takeTask s i =
      { c with
        tracker :=
          if s.desc.has .variance && c.tracker.isEnabled then c.tracker.update (s.taskGridPos i) (s.taskError i)
          else c.tracker
        accumIds := c.accumIds.setIfInBounds id (s.taskAccumId i) } := by
  unfold DenseBuffer.takeTask
  dsimp only
  rw [h]

theorem takeTask_of_none {i : Nat} (h : c.taskIdAt? (s.taskGridPos i) = none) : c.takeTask s i = c := by
  unfold DenseBuffer.takeTask
  dsimp only
  rw [h]

/-- Taking over a task brings it up to date, and leaves the others alone. -/
theorem knowsTask_takeTask (hb : b.Intact) (hc : c.Intact) (hd : c.desc = b.desc) (h : Agrees b s) {i : Nat}
    (hi : i ∈ s.taskOrder) (ht : t < (gridOf b.desc).area) (hold : s.denseId i = t ∨ KnowsTask b c t) :
    KnowsTask b (c.takeTask s i) t := by
  have hdesc : s.desc = c.desc := h.desc.trans hd.symm
  obtain ⟨ids, ho⟩ := h.owns
  have herror : s.taskError i = b.tracker.get (s.denseId i) := (Patch.error_visible (h.patches i hi))
  have haccum : s.taskAccumId i = b.taskAccumId (s.denseId i) := (Patch.accumId_visible (h.patches i hi))
  rw [takeTask_of_some (taskIdAt?_denseId ⟨ids, ho⟩ hdesc hi)]
  constructor
  · show ErrorTracker.get (if _ then _ else _) t = _
    cases hv : b.desc.has .variance with
    | false =>
      rw [hdesc, hd, hv, Bool.false_and, if_neg (by decide), hb.get_untracked hv, hc.get_untracked (hd ▸ hv)]
    | true =>
      have hgrid : c.tracker.grid = gridOf b.desc := by rw [hc.grid, hd, trackedGrid, if_pos hv]
      have hsize : c.tracker.errors.size = (gridOf b.desc).area := by rw [c.tracker.size_eq, hgrid]
      have hon : c.tracker.isEnabled = true := by
        rw [ErrorTracker.isEnabled_eq, hgrid, decide_eq_true_eq]
        omega
      have hpos : (s.taskGridPos i).rowMajor (gridOf b.desc).x = s.denseId i := by
        rw [SparseBuffer.denseId, h.desc]
      rw [hdesc, hd, hv, hon, Bool.and_self, if_pos rfl, ErrorTracker.get_update, hsize, hgrid, hpos, herror]
      by_cases heq : s.denseId i = t
      · rw [if_pos ⟨heq, ht⟩, heq]
      · rw [if_neg (by simp [heq])]
        exact (hold.resolve_left heq).error
  · show ((c.accumIds.setIfInBounds (s.denseId i) (s.taskAccumId i))[t]?).getD 0 = _
    rw [Array.getElem?_setIfInBounds, hc.accumIds, hd, haccum]
    by_cases heq : s.denseId i = t
    · rw [if_pos heq, if_pos (heq ▸ ht), heq, Option.getD_some]
    · rw [if_neg heq]
      exact (hold.resolve_left heq).accumId

theorem pixels_takeTask (c : DenseBuffer) (s : SparseBuffer) (i : Nat) : (c.takeTask s i).desc = c.desc ∧
    (c.takeTask s i).pixels = c.pixels ∧ (c.takeTask s i).display = c.display := by
  unfold DenseBuffer.takeTask
  dsimp only
  split <;> exact ⟨rfl, rfl, rfl⟩

/-! ## Devices -/

/-- All that `c` shows and knows of a task is up to `b`. -/
structure UpToDate (b c : DenseBuffer) (t : Nat) : Prop where
  pixels : ∀ p, (taskRegionOf b.desc t).contains p = true → ShowsPixel b c p
  task : KnowsTask b c t

theorem compose_eq (hd : s.desc = c.desc) : DeviceGroup.compose c s =
    s.taskOrder.foldl (takeTask s) (c.writeTiles (s.tiles.toList.map OwnedTile.shown)) := by
  unfold DeviceGroup.compose writeSparse
  rw [if_pos (by rw [hd])]

theorem composedFrom_writeTiles (h : ComposedFrom c₀ c) (tiles : List Tile) :
    ComposedFrom c₀ (c.writeTiles tiles) :=
  Writes.inv_foldl (I := ComposedFrom c₀) h fun _ u _ hx => hx.writeTile u

theorem composedFrom_compose (h : ComposedFrom c₀ c) (s : SparseBuffer) :
    ComposedFrom c₀ (DeviceGroup.compose c s) := by
  unfold DeviceGroup.compose writeSparse
  by_cases hsize : c.desc.taskSize = s.desc.taskSize
  · rw [if_pos hsize]
    exact Writes.inv_foldl (I := ComposedFrom c₀) (composedFrom_writeTiles h _) fun _ i _ hx => hx.takeTask s i
  · rw [if_neg hsize]
    exact h

theorem composedFrom_composeAll (hc : c.Intact) (ss : List SparseBuffer) :
    ComposedFrom c (ss.foldl DeviceGroup.compose c) :=
  Writes.inv_foldl (.self hc) fun _ s _ hx => composedFrom_compose hx s

theorem showsPixel_writeTiles (hb : b.Intact) (hd : c₀.desc = b.desc) (hc : ComposedFrom c₀ c) (h : Agrees b s)
    (hp : b.desc.image.contains p = true)
    (hold : (∃ u ∈ s.tiles.toList, u.region.contains p = true) ∨ ShowsPixel b c p) :
    ShowsPixel b (c.writeTiles (s.tiles.toList.map OwnedTile.shown)) p := by
  have hwrite : ∀ x, ∀ u ∈ s.tiles.toList, ComposedFrom c₀ x → (u.region.contains p = true ∨ ShowsPixel b x p) →
      ShowsPixel b (x.writeTile u.shown) p := fun x u hu hx hor =>
    showsPixel_writeTile hb hx.intact (hx.desc.trans hd) h hp hu hor
  have hinv : ∀ x, ∀ u ∈ s.tiles.toList, ComposedFrom c₀ x → ComposedFrom c₀ (x.writeTile u.shown) :=
    fun x u _ hx => hx.writeTile u.shown
  rw [writeTiles, List.foldl_map]
  rcases hold with ⟨u, hu, hin⟩ | hold
  · exact Writes.holds_foldl_of_hit (I := ComposedFrom c₀) (P := fun x => ShowsPixel b x p) hc hinv
      (fun x u hu hx hP => hwrite x u hu hx (.inr hP)) ⟨u, hu, fun x hx => hwrite x u hu hx (.inl hin)⟩
  · refine (Writes.inv_foldl (I := fun x => ComposedFrom c₀ x ∧ ShowsPixel b x p) ⟨hc, hold⟩ ?_).2
    exact fun x u hu hx => ⟨hinv x u hu hx.1, hwrite x u hu hx.1 (.inr hx.2)⟩

theorem showsPixel_takeTasks (h : ShowsPixel b c p) (order : List Nat) :
    ShowsPixel b (order.foldl (takeTask s) c) p := by
  refine Writes.inv_foldl (I := fun x => ShowsPixel b x p) h ?_
  intro x i _ hx
  obtain ⟨hd, hpixels, hdisplay⟩ := pixels_takeTask x s i
  refine ⟨by rw [hpixels]; exact hx.sample, ?_⟩
  unfold Displays
  rw [hd, hpixels, hdisplay]
  exact hx.display

theorem knowsTask_takeTasks (hb : b.Intact) (hd : c₀.desc = b.desc) (hc : ComposedFrom c₀ c) (h : Agrees b s)
    (ht : t < (gridOf b.desc).area) (hold : (∃ i ∈ s.taskOrder, s.denseId i = t) ∨ KnowsTask b c t) :
    KnowsTask b (s.taskOrder.foldl (takeTask s) c) t := by
  have htake : ∀ x, ∀ i ∈ s.taskOrder, ComposedFrom c₀ x → (s.denseId i = t ∨ KnowsTask b x t) →
      KnowsTask b (x.takeTask s i) t := fun x i hi hx hor =>
    knowsTask_takeTask hb hx.intact (hx.desc.trans hd) h hi ht hor
  have hinv : ∀ x, ∀ i ∈ s.taskOrder, ComposedFrom c₀ x → ComposedFrom c₀ (x.takeTask s i) :=
    fun x i _ hx => hx.takeTask s i
  rcases hold with ⟨i, hi, heq⟩ | hold
  · exact Writes.holds_foldl_of_hit (I := ComposedFrom c₀) (P := fun x => KnowsTask b x t) hc hinv
      (fun x j hj hx hP => htake x j hj hx (.inr hP)) ⟨i, hi, fun x hx => htake x i hi hx (.inl heq)⟩
  · refine (Writes.inv_foldl (I := fun x => ComposedFrom c₀ x ∧ KnowsTask b x t) ⟨hc, hold⟩ ?_).2
    exact fun x i hi hx => ⟨hinv x i hi hx.1, htake x i hi hx.1 (.inr hx.2)⟩

/-- Composing a device brings its own tasks up to date, and leaves the others so. -/
theorem upToDate_compose (hb : b.Intact) (hd : c₀.desc = b.desc) (hc : ComposedFrom c₀ c) (h : Agrees b s)
    (ht : t < (gridOf b.desc).area) (hold : (∃ i ∈ s.taskOrder, s.denseId i = t) ∨ UpToDate b c t) :
    UpToDate b (DeviceGroup.compose c s) t := by
  have hsc : s.desc = c₀.desc := h.desc.trans hd.symm
  have htiles := composedFrom_writeTiles hc (s.tiles.toList.map OwnedTile.shown)
  obtain ⟨ids, ho⟩ := h.owns
  rw [compose_eq (hsc.trans hc.desc.symm)]
  refine ⟨fun p hp => showsPixel_takeTasks ?_ _, knowsTask_takeTasks hb hd htiles h ht ?_⟩
  · have himage := image_contains_of_task hb.valid hp
    refine showsPixel_writeTiles hb hd hc h himage (hold.imp ?_ fun hold => hold.pixels p hp)
    -- The tile that stores the task is among those that are written.
    rintro ⟨i, hi, heq⟩
    have hk := (ho.mem_taskOrder.1 hi).1
    rw [← ho.size_tiles] at hk
    rw [← heq, ← h.desc, ← ho.region_task hi] at hp
    obtain ⟨id, hid⟩ := ho.tile_task hi
    have hin := ho.contains_store hid hp
    rw [SparseBuffer.storeAt, Array.getElem?_eq_getElem hk] at hin
    exact ⟨_, Array.getElem_mem_toList hk, hin⟩
  · refine hold.imp id ?_
    intro hold
    exact Writes.inv_foldl (I := fun x => KnowsTask b x t) hold.task fun _ _ _ hx => ⟨hx.error, hx.accumId⟩

/-- Composing all devices that share an image brings every task up to date. -/
theorem upToDate_composeAll (hb : b.Intact) (hc : c.Intact) (hd : c.desc = b.desc) {ss : List SparseBuffer}
    (h : ∀ s ∈ ss, Agrees b s) (hall : ∀ t, t < (gridOf b.desc).area → ∃ s ∈ ss, ∃ i ∈ s.taskOrder, s.denseId i = t) :
    ComposedFrom c (ss.foldl DeviceGroup.compose c) ∧
      ∀ t, t < (gridOf b.desc).area → UpToDate b (ss.foldl DeviceGroup.compose c) t := by
  have hstart := ComposedFrom.self hc
  have hinv : ∀ x, ∀ s ∈ ss, ComposedFrom c x → ComposedFrom c (DeviceGroup.compose x s) := fun _ s _ hx =>
    composedFrom_compose hx s
  refine ⟨composedFrom_composeAll hc ss, ?_⟩
  intro t ht
  obtain ⟨s, hs, i, hi, heq⟩ := hall t ht
  exact Writes.holds_foldl_of_hit (I := ComposedFrom c) (P := fun x => UpToDate b x t) hstart hinv
    (fun x s hs hx hPx => upToDate_compose hb hd hx (h s hs) ht (.inr hPx))
    ⟨s, hs, fun x hx => upToDate_compose hb hd hx (h s hs) ht (.inl ⟨i, hi, heq⟩)⟩

end DenseBuffer

end AdaptiveFrame
