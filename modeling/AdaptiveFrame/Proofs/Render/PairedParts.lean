import AdaptiveFrame.Proofs.Render.DeviceFrame
import AdaptiveFrame.Proofs.Render.PairedFrames

/-!
# Two sparse buffers through the same frames

Driven by itself, a sparse buffer renders the tasks of its tiles as a dense one does those of the image. Two
that own the same tiles and schedule by the same errors and counts go through the same frames (`Paired`), and
if their pixels are related by a relation that samples keep, they stay so.
-/

namespace AdaptiveFrame.SparseBuffer

open AdaptiveFrame.Frame FrameBuffer

variable {s t : SparseBuffer} {ids : List Nat} {i : Nat}

/-! ## One frame -/

section Frame

variable (render : PixelRenderer) (shot : Shot)

theorem renderedIds_sublist (s : SparseBuffer) : (renderedIds shot s).Sublist s.taskOrder := by
  have hsub := Frame.renderedIds_sublist shot s fun _ => rfl
  refine hsub.trans ?_
  show (s.beginFrame.schedule shot.config.threshold shot.config.samplesPerPixel).Sublist s.taskOrder
  rw [schedule_beginFrame]
  exact List.filter_sublist

/-- The buffer of a frame when all its tiles are in. -/
def gathered (s : SparseBuffer) (render : PixelRenderer) (shot : Shot) : SparseBuffer :=
  let opened : SparseBuffer := if shot.stop.reaches (tasks s.beginFrame shot.config).length then
    cancelFrame s.beginFrame else s.beginFrame
  opened.accumulateAll ((renderedIds shot s).map (Frame.tileOf render shot s))

theorem opened_eq (s : SparseBuffer) : ∃ status : FrameStatus,
    status.cancelled = shot.stop.reaches (tasks s.beginFrame shot.config).length ∧
    (if shot.stop.reaches (tasks s.beginFrame shot.config).length then cancelFrame s.beginFrame else s.beginFrame :
      SparseBuffer) = { s.beginFrame with life := { s.life with frameId := s.life.frameId + 1, status } } := by
  cases shot.stop.reaches (tasks s.beginFrame shot.config).length with
  | true => exact ⟨_, rfl, rfl⟩
  | false => exact ⟨_, rfl, rfl⟩

/-- What a frame leaves alone until it is closed. -/
theorem gathered_frame (s : SparseBuffer) : SameTasks s (s.gathered render shot) ∧
    (∃ status : FrameStatus, status.cancelled = shot.stop.reaches (tasks s.beginFrame shot.config).length ∧
      (s.gathered render shot).life = { s.life with frameId := s.life.frameId + 1, status }) ∧
    (s.gathered render shot).labels = s.labels.map (fun u => (u.1, s.life.frameId + 1)) ∧
    (s.gathered render shot).tracker.regions = s.tracker.regions := by
  obtain ⟨status, hcancelled, hopened⟩ := opened_eq shot s
  unfold gathered
  rw [hopened]
  generalize hs : ({ s.beginFrame with life := { s.life with frameId := s.life.frameId + 1, status } } :
    SparseBuffer) = opened
  have hsame : SameTasks s opened := hs ▸ (sameTasks_beginFrame s).trans (sameTasks_setLife _ _ rfl)
  have hlabels : opened.labels = s.labels.map (fun u => (u.1, s.life.frameId + 1)) := by
    rw [← hs]
    exact labels_setAccumIds ..
  obtain ⟨hkeeps, hregions, hkept⟩ :=
    accumulateAll_frame opened ((renderedIds shot s).map (Frame.tileOf render shot s))
  obtain ⟨hfolds, status', hlife⟩ :=
    accumulateAll_keeps opened ((renderedIds shot s).map (Frame.tileOf render shot s))
  refine ⟨hsame.trans hfolds, ⟨status', ?_, ?_⟩, hkeeps.trans hlabels, hregions.trans ?_⟩
  · rw [hlife, ← hs] at hkept
    exact hkept.trans hcancelled
  · rw [hlife, ← hs]
  · rw [← hs]
    rfl

/-- A frame changes the patches of the tasks that it renders. -/
theorem patch_gathered (h : Owns ids s) (hi : i < ids.length * s.desc.tasksPerTile.area) :
    (s.gathered render shot).patch i =
      if i ∈ renderedIds shot s then
        (s.patch i).receive (.sparse s.desc) s.life.pipeline (Frame.tileOf render shot s i)
      else s.patch i := by
  obtain ⟨status, -, hopened⟩ := opened_eq shot s
  unfold gathered
  rw [hopened]
  generalize hs : ({ s.beginFrame with life := { s.life with frameId := s.life.frameId + 1, status } } :
    SparseBuffer) = opened
  have hsame : SameTasks s opened := hs ▸ (sameTasks_beginFrame s).trans (sameTasks_setLife _ _ rfl)
  have hpipeline : opened.life.pipeline = s.life.pipeline := by rw [← hs]
  have hpatch : opened.patch i = s.patch i := by rw [← hs]; exact patch_beginFrame s i
  have hsub : ∀ i ∈ renderedIds shot s, i ∈ opened.taskOrder := by
    rw [hsame.taskOrder]
    exact (renderedIds_sublist shot s).subset
  have hregion : ∀ i ∈ renderedIds shot s,
      (Frame.tileOf render shot s i).region = taskRegionOf opened.desc opened.tiles i := by
    intro i _
    rw [hsame.taskRegionOf, ← (sameTasks_beginFrame s).taskRegionOf]
    rfl
  have hnd := (renderedIds_sublist shot s).nodup h.nodup_taskOrder
  rw [(hsame.owns h).patch_accumulateAll hnd hsub hregion (hsame.desc.symm ▸ hi), hpatch, hsame.desc, hpipeline]

theorem after_eq (s : SparseBuffer) : after render s shot =
    complete (complete (s.gathered render shot) .worldRendered).endFrame .frameFinished := by
  unfold gathered Frame.after Frame.render
  rw [← Frame.tiles_eq_map render shot s fun _ => rfl]
  rfl

theorem close_eq (s : SparseBuffer) : complete (complete s .worldRendered).endFrame .frameFinished =
    { s with
      life := { s.life with
        variance := s.finalVariance
        status := (s.life.status.complete .worldRendered).complete .frameFinished } } := by
  rw [endFrame_eq]
  rfl

/-- Closing a frame leaves the tiles, the errors and the sample counts alone. -/
theorem after_fields (s : SparseBuffer) : after render s shot =
    { s.gathered render shot with
      life := { (s.gathered render shot).life with
        variance := (s.gathered render shot).finalVariance
        status := ((s.gathered render shot).life.status.complete .worldRendered).complete .frameFinished } } := by
  rw [after_eq, close_eq]

/-- A frame counts up, and leaves the tasks, the numbers of the tiles and the image operations alone. -/
theorem after_frame (s : SparseBuffer) : SameTasks s (after render s shot) ∧
    (∃ variance status, (after render s shot).life = { s.life with frameId := s.life.frameId + 1, variance, status }) ∧
    (after render s shot).tileIds = s.tileIds ∧ (after render s shot).tracker.regions = s.tracker.regions := by
  obtain ⟨hsame, ⟨status, -, hlife⟩, hlabels, hregions⟩ := gathered_frame render shot s
  have hids : (s.gathered render shot).tileIds = s.tileIds := by
    rw [tileIds_eq, tileIds_eq, hlabels, List.map_map]
    rfl
  rw [after_fields]
  generalize s.gathered render shot = x at hsame hlife hids hregions ⊢
  exact ⟨hsame.trans (sameTasks_setLife x _ rfl), ⟨_, _, by rw [hlife]⟩, hids, hregions⟩

theorem patch_after (h : Owns ids s) (hi : i < ids.length * s.desc.tasksPerTile.area) :
    (after render s shot).patch i =
      if i ∈ renderedIds shot s then
        (s.patch i).receive (.sparse s.desc) s.life.pipeline (Frame.tileOf render shot s i)
      else s.patch i := by
  have hclosed : ∀ (x : SparseBuffer) (variance : Float32) (status : FrameStatus),
      SparseBuffer.patch { x with life := { x.life with variance, status } } i = x.patch i := fun _ _ _ => rfl
  rw [after_fields, hclosed, patch_gathered render shot h hi]

theorem after_taskAccumId (h : Owns ids s) (hi : i < ids.length * s.desc.tasksPerTile.area) :
    (after render s shot).taskAccumId i =
      if i ∈ renderedIds shot s then s.taskAccumId i + 1 else s.taskAccumId i := by
  have hcount : ∀ x : SparseBuffer, x.taskAccumId i = (x.patch i).accumId := fun _ => rfl
  rw [hcount, patch_after render shot h hi]
  split <;> rfl

end Frame

/-! ## The same tiles -/

/-- Buffers with the same tiles and sample counts describe their tasks alike. -/
theorem task_congr (hd : t.desc = s.desc)
    (hregions : t.tiles.toList.map OwnedTile.region = s.tiles.toList.map OwnedTile.region)
    (hcounts : t.accumIds = s.accumIds) (i : Nat) : t.task i = s.task i := by
  unfold task taskAccumId
  rw [hd, taskRegionOf_congr hregions, hcounts]

/-- A pixel of tiles at the same place lies in the same patch of both buffers. -/
theorem Owns.exists_task_of_tiles (h : Owns ids s) (h' : Owns ids t) (hd : t.desc = s.desc) {k : Nat} {u v : OwnedTile}
    (hu : s.tiles[k]? = some u) (hv : t.tiles[k]? = some v) {p : Point} (hp : u.region.contains p = true) :
    ∃ i ∈ s.taskOrder, (s.patch i).pixels.region.contains p = true ∧
      (s.patch i).pixels.getD p .blank = u.store.getD p .blank ∧
      (t.patch i).pixels.getD p .blank = v.store.getD p .blank := by
  obtain ⟨i, hi, hk, -, hin, hget⟩ := h.exists_task_of_tile hu hp
  have hregions : t.tiles.toList.map OwnedTile.region = s.tiles.toList.map OwnedTile.region := by
    rw [h'.regions, h.regions, hd]
  have hin' : (taskRegionOf t.desc t.tiles i).contains p = true := by
    rw [hd, taskRegionOf_congr hregions]
    exact hin
  refine ⟨i, hi, hin, hget, ?_⟩
  rw [patch, Raster.restrict, Raster.getD_tabulate hin', hd, hk, storeAt, hv]

/-! ## Steered alike -/

/-- Two buffers that own the same tiles, are steered alike and whose pixels are related. -/
structure Paired (ids : List Nat) (Q : Int → Pixel → Pixel → Prop) (s t : SparseBuffer) : Prop where
  left : Owns ids s
  right : Owns ids t
  desc : t.desc = s.desc
  frameId : t.life.frameId = s.life.frameId
  variance : t.life.variance = s.life.variance
  labels : t.labels = s.labels
  regions : t.tracker.regions = s.tracker.regions
  patches : ∀ i < ids.length * s.desc.tasksPerTile.area, (s.patch i).Paired Q (t.patch i)
  kept : Kept (.sparse s.desc) s.life.pipeline t.life.pipeline Q

namespace Paired

variable {Q : Int → Pixel → Pixel → Prop} (render : PixelRenderer) (shot : Shot)

theorem tileRegions (h : Paired ids Q s t) : t.tiles.toList.map OwnedTile.region = s.tiles.toList.map OwnedTile.region := by
  rw [h.right.regions, h.left.regions, h.desc]

theorem taskRegionOf_eq (h : Paired ids Q s t) (i : Nat) :
    taskRegionOf t.desc t.tiles i = taskRegionOf s.desc s.tiles i := by
  rw [h.desc]
  exact taskRegionOf_congr h.tileRegions i

theorem taskOrder_eq (h : Paired ids Q s t) : t.taskOrder = s.taskOrder := by
  unfold taskOrder
  rw [h.desc]
  exact taskOrderOf_congr h.tileRegions

theorem known_eq (h : Paired ids Q s t) : t.tracker = s.tracker ∧ t.accumIds = s.accumIds :=
  h.left.known_ext h.right h.desc h.regions (fun i hi => (h.patches i hi).error.symm)
    fun i hi => (h.patches i hi).accumId.symm

theorem schedule_eq (h : Paired ids Q s t) (config : SamplingConfig) :
    t.beginFrame.schedule config.threshold config.samplesPerPixel =
      s.beginFrame.schedule config.threshold config.samplesPerPixel := by
  have hwanted : t.wanted config = s.wanted config := by
    funext i
    rw [wanted, wanted, adaptive, adaptive, h.known_eq.1, h.frameId]
  rw [schedule_beginFrame, schedule_beginFrame, h.taskOrder_eq, hwanted]

theorem task_eq (h : Paired ids Q s t) (i : Nat) : t.beginFrame.task i = s.beginFrame.task i := by
  have hd : t.beginFrame.desc = s.beginFrame.desc := h.desc
  refine task_congr hd ?_ h.known_eq.2 i
  rw [(sameTasks_beginFrame t).regions, (sameTasks_beginFrame s).regions, h.tileRegions]

theorem renderedIds_eq (h : Paired ids Q s t) : renderedIds shot t = renderedIds shot s := by
  have htasks : tasks t.beginFrame shot.config = tasks s.beginFrame shot.config := by
    show (t.beginFrame.schedule _ _).map t.beginFrame.task = (s.beginFrame.schedule _ _).map s.beginFrame.task
    rw [h.schedule_eq, funext h.task_eq]
  exact congrArg (fun ts => (reached shot.stop 0 ts).map RenderTask.id) htasks

theorem tileOf_eq (h : Paired ids Q s t) (i : Nat) : Frame.tileOf render shot t i = Frame.tileOf render shot s i := by
  have hcontext : context (FrameBuffer.beginFrame t) shot.camera shot.config =
      context (FrameBuffer.beginFrame s) shot.camera shot.config := by
    show (⟨shot.camera, t.desc.size, t.life.frameId + 1, _⟩ : FrameContext) =
      ⟨shot.camera, s.desc.size, s.life.frameId + 1, _⟩
    rw [h.desc, h.frameId]
  show render.tile _ (t.beginFrame.task i).region (t.beginFrame.task i).accumId = _
  rw [hcontext, h.task_eq]
  rfl

/-! ## Frames -/

/-- When all tiles of a frame are in, the buffers are as before. -/
theorem gathered (h : Paired ids Q s t) : Paired ids Q (s.gathered render shot) (t.gathered render shot) := by
  obtain ⟨hs, ⟨status, -, hlife⟩, hlabels, hregions⟩ := gathered_frame render shot s
  obtain ⟨ht, ⟨status', -, hlife'⟩, hlabels', hregions'⟩ := gathered_frame render shot t
  refine ⟨hs.owns h.left, ht.owns h.right, ?_, ?_, ?_, ?_, ?_, ?_, ?_⟩
  · rw [ht.desc, hs.desc, h.desc]
  · rw [hlife, hlife']
    exact congrArg (· + 1) h.frameId
  · rw [hlife, hlife']
    exact h.variance
  · rw [hlabels, hlabels', h.labels, h.frameId]
  · rw [hregions, hregions', h.regions]
  · intro i hi
    rw [hs.desc] at hi
    rw [patch_gathered render shot h.left hi, patch_gathered render shot h.right (h.desc.symm ▸ hi),
      h.renderedIds_eq, h.tileOf_eq, h.desc]
    by_cases hr : i ∈ renderedIds shot s
    · have hregion : (Frame.tileOf render shot s i).region = (s.patch i).pixels.region :=
        (sameTasks_beginFrame s).taskRegionOf i
      rw [if_pos hr, if_pos hr]
      exact (h.patches i hi).receive h.kept hregion rfl
    · rw [if_neg hr, if_neg hr]
      exact h.patches i hi
  · rw [hs.desc, hlife, hlife']
    exact h.kept

/-- A frame leaves the buffers as they were. -/
theorem after (h : Paired ids Q s t) : Paired ids Q (Frame.after render s shot) (Frame.after render t shot) := by
  have hgathered := h.gathered render shot
  have hvariance : (t.gathered render shot).finalVariance = (s.gathered render shot).finalVariance := by
    unfold finalVariance
    rw [hgathered.known_eq.1, hgathered.taskOrder_eq, hgathered.variance]
  rw [after_fields, after_fields]
  generalize s.gathered render shot = x at hgathered hvariance ⊢
  generalize t.gathered render shot = y at hgathered hvariance ⊢
  have hsame : ∀ (z : SparseBuffer) (variance : Float32) (status : FrameStatus),
      SameTasks z { z with life := { z.life with variance, status } } := fun z _ _ => sameTasks_setLife z _ rfl
  exact ⟨(hsame x _ _).owns hgathered.left, (hsame y _ _).owns hgathered.right, hgathered.desc, hgathered.frameId,
    hvariance, hgathered.labels, hgathered.regions, hgathered.patches, hgathered.kept⟩

/-- Settling reads which tasks have pixels, so clearing leaves the buffers as they were, too. -/
theorem clear (h : Paired ids Q s t) : Paired ids Q s.clear t.clear := by
  have hs := sameTasks_clear s
  have ht := sameTasks_clear t
  have htracker : t.clear.tracker = s.clear.tracker := by
    show settleEmptyTasks t.desc t.tiles t.tracker.clear = settleEmptyTasks s.desc s.tiles s.tracker.clear
    unfold settleEmptyTasks
    rw [h.known_eq.1, funext h.taskRegionOf_eq]
  have hlabels : ∀ x : SparseBuffer, x.clear.labels = x.labels.map fun u => (u.1, 0) :=
    fun x => labels_setAccumIds ..
  refine ⟨hs.owns h.left, ht.owns h.right, h.desc, rfl, rfl, ?_, congrArg ErrorTracker.regions htracker, ?_, h.kept⟩
  · rw [hlabels, hlabels, h.labels]
  · intro i hi
    have hzero : ∀ x : SparseBuffer, x.clear.taskAccumId i = 0 := fun x => getD_replicate_zero ..
    refine (h.patches i hi).of_pixels (hs.pixels_patch (fun _ => storeAt_setAccumIds ..) i)
      (ht.pixels_patch (fun _ => storeAt_setAccumIds ..) i) ?_ ?_ ?_
    · exact congrArg (fun tr : ErrorTracker => tr.get i) htracker.symm
    · exact (hzero s).trans (hzero t).symm
    · intro px qx hq
      show Q (s.clear.taskAccumId i) px qx
      rw [hzero s]
      exact h.kept.restart hq

/-- A frame reports the same of both buffers. -/
theorem report_eq (h : Paired ids Q s t) : report render t shot = report render s shot := by
  have hafter := h.after render shot
  have hcancelled : ∀ x : SparseBuffer, (Frame.after render x shot).life.status.cancelled =
      shot.stop.reaches (x.beginFrame.schedule shot.config.threshold shot.config.samplesPerPixel).length := by
    intro x
    obtain ⟨-, ⟨status, hstatus, hlife⟩, -⟩ := gathered_frame render shot x
    rw [after_fields, hlife]
    exact hstatus.trans (congrArg shot.stop.reaches (List.length_map ..))
  have hreport : ∀ x : SparseBuffer, report render x shot =
      ⟨x.beginFrame.schedule shot.config.threshold shot.config.samplesPerPixel,
        stats (Frame.after render x shot) ((renderedIds shot x).map (Frame.tileOf render shot x))⟩ := by
    intro x
    rw [← Frame.tiles_eq_map render shot x fun _ => rfl]
    rfl
  have hstats : ∀ x : SparseBuffer, ∀ tiles, stats x tiles =
      ⟨x.life.frameId, tiles.length, pixelCount tiles, x.life.variance, x.life.status.cancelled⟩ := fun _ _ => rfl
  rw [hreport, hreport, hstats, hstats, hcancelled, hcancelled, h.schedule_eq, h.renderedIds_eq,
    funext (h.tileOf_eq render shot), hafter.frameId, hafter.variance]

/-- Whatever frames and clears follow, they report the same of both buffers and leave them as they were. -/
theorem handleAll (events : List Event) (h : Paired ids Q s t) : reports render events t = reports render events s ∧
    Paired ids Q (Frame.handleAll render events s) (Frame.handleAll render events t) :=
  Frame.reports_congr render (R := Paired ids Q) (fun h shot => ⟨h.report_eq render shot, h.after render shot⟩)
    Paired.clear events h

/-! ## Pixels -/

/-- Tiles at the same place are labelled alike and cover the same pixels. -/
theorem exists_tile (h : Paired ids Q s t) {k : Nat} {u : OwnedTile} (hu : s.tiles[k]? = some u) :
    ∃ v, t.tiles[k]? = some v ∧ v.region = u.region ∧ v.accumId = u.accumId := by
  have hregion := region_getElem? h.tileRegions k
  have hlabel : (t.tiles[k]?).map (fun u => (u.id, u.accumId)) = (s.tiles[k]?).map fun u => (u.id, u.accumId) := by
    have hk := congrArg (fun ls : List (Nat × Int) => ls[k]?) h.labels
    simpa [SparseBuffer.labels] using hk
  rw [hu] at hregion hlabel
  obtain ⟨v, hv, hlabel⟩ := Option.map_eq_some_iff.1 hlabel
  rw [hv] at hregion
  exact ⟨v, hv, Option.some.inj hregion, congrArg Prod.snd hlabel⟩

/-- The pixels of tiles at the same place are related by the sample counts of their tasks. -/
theorem pixels (h : Paired ids Q s t) {k : Nat} {u v : OwnedTile} (hu : s.tiles[k]? = some u)
    (hv : t.tiles[k]? = some v) {p : Point} (hp : u.region.contains p = true) :
    ∃ i ∈ s.taskOrder, Q (s.taskAccumId i) (u.store.getD p .blank) (v.store.getD p .blank) := by
  obtain ⟨i, hi, hin, hget, hget'⟩ := h.left.exists_task_of_tiles h.right h.desc hu hv hp
  have hpixels := (h.patches i (h.left.local_lt hi)).pixels p hin
  rw [hget, hget'] at hpixels
  exact ⟨i, hi, hpixels⟩

end Paired

end AdaptiveFrame.SparseBuffer
