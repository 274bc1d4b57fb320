import AdaptiveFrame.Proofs.Accum.Paired
import AdaptiveFrame.Proofs.Render.DenseFrame

/-!
# Two dense buffers through the same frames

Two buffers that schedule by the same errors and counts render the same tiles. If their pixels are related by
a relation that samples keep (`Paired`), a frame reports the same of both and leaves them so
(`Paired.after`, `Paired.statsOf_eq`), whatever thresholds drop and requests to stop skip. Clearing both keeps
the relation as well, and so does a whole course of frames and clears (`Paired.handleAll`).
-/

namespace AdaptiveFrame

open FrameBuffer

namespace Frame

/-- What happens to a buffer that is rendered into. -/
inductive Event where
  | frame (shot : Shot)
  | clear

/-- What is known of a frame: the tasks that it schedules, and what it reports. -/
structure Report where
  scheduled : List Nat
  stats : FrameStats

variable {β : Type} [FrameBuffer β] (render : PixelRenderer)

def report (b : β) (shot : Shot) : Report :=
  ⟨schedule (beginFrame b) shot.config.threshold shot.config.samplesPerPixel,
    (Frame.render shot.stop render shot.camera shot.config b).2⟩

/-- A buffer after an event. -/
def handle (b : β) : Event → β
  | .frame shot => after render b shot
  | .clear => FrameBuffer.clear b

/-- A buffer after a course of events. -/
def handleAll (events : List Event) (b : β) : β := events.foldl (handle render) b

/-- The reports of the frames of a course of events. -/
def reports : List Event → β → List Report
  | [], _ => []
  | .frame shot :: events, b => report render b shot :: reports events (after render b shot)
  | .clear :: events, b => reports events (FrameBuffer.clear b)

/-- A relation that frames and clears keep, and that makes frames report the same, does so for whole courses. -/
theorem reports_congr {R : β → β → Prop} (hframe : ∀ {b c}, R b c → ∀ shot,
      report render c shot = report render b shot ∧ R (after render b shot) (after render c shot))
    (hclear : ∀ {b c}, R b c → R (FrameBuffer.clear b) (FrameBuffer.clear c)) (events : List Event) {b c : β}
    (h : R b c) : reports render events c = reports render events b ∧
      R (handleAll render events b) (handleAll render events c) := by
  induction events generalizing b c with
  | nil => exact ⟨rfl, h⟩
  | cons e events ih =>
    cases e with
    | frame shot =>
      obtain ⟨hreport, hafter⟩ := hframe h shot
      obtain ⟨hreports, hend⟩ := ih hafter
      refine ⟨?_, hend⟩
      rw [reports, reports, hreport, hreports]
    | clear => exact ih (hclear h)

theorem handleAll_frames (shots : List Shot) (b : β) :
    handleAll render (shots.map .frame) b = play render shots b := List.foldl_map ..

end Frame

namespace DenseBuffer

open AdaptiveFrame.Frame

/-- Two buffers, maybe of different color formats, that are steered alike and whose pixels are related. -/
structure Paired (Q : Int → Pixel → Pixel → Prop) (b c : DenseBuffer) : Prop where
  left : b.Intact
  right : c.Intact
  desc : ∃ format, c.desc = { b.desc with format }
  frameId : c.life.frameId = b.life.frameId
  variance : c.life.variance = b.life.variance
  regions : c.tracker.regions = b.tracker.regions
  patches : ∀ id, id < (gridOf b.desc).area → (b.patch id).Paired Q (c.patch id)
  kept : Kept (.dense b.desc) b.life.pipeline c.life.pipeline Q

/-- A course of frames and clears leaves the description and the operations alone. -/
theorem handleAll_intact (render : PixelRenderer) (events : List Event) {b : DenseBuffer} (h : b.Intact) :
    (Frame.handleAll render events b).Intact ∧ (Frame.handleAll render events b).desc = b.desc ∧
      (Frame.handleAll render events b).life.pipeline = b.life.pipeline := by
  let I : DenseBuffer → Prop := fun c => c.Intact ∧ c.desc = b.desc ∧ c.life.pipeline = b.life.pipeline
  refine Writes.inv_foldl (I := I) ⟨h, rfl, rfl⟩ ?_
  rintro c e - ⟨hc, hd, hp⟩
  cases e with
  | frame shot =>
    exact ⟨after_intact render shot hc, (after_desc render shot hc).trans hd, (after_pipeline render shot hc).trans hp⟩
  | clear => exact ⟨hc.clear, hd, hp⟩

namespace Paired

variable {Q : Int → Pixel → Pixel → Prop} {b c : DenseBuffer} {id : Nat} {p : Point}

/-! ## Steered alike -/

/-- The format is all that the descriptions differ in. -/
theorem geometry (h : Paired Q b c) : gridOf c.desc = gridOf b.desc ∧ c.desc.image = b.desc.image ∧
    (∀ ch, c.desc.has ch = b.desc.has ch) ∧ (∀ id, taskRegionOf c.desc id = taskRegionOf b.desc id) ∧
    taskOrderOf c.desc = taskOrderOf b.desc ∧ FoldRule.dense c.desc = .dense b.desc := by
  obtain ⟨format, hd⟩ := h.desc
  rw [hd]
  exact ⟨rfl, rfl, fun _ => rfl, fun _ => rfl, rfl, rfl⟩

theorem taskAccumId (h : Paired Q b c) (hid : id < (gridOf b.desc).area) : c.taskAccumId id = b.taskAccumId id :=
  (h.patches id hid).accumId.symm

theorem tracker_eq (h : Paired Q b c) : c.tracker = b.tracker := by
  obtain ⟨hgridOf, -, hhas, -⟩ := h.geometry
  have hgrid : c.tracker.grid = b.tracker.grid := by
    rw [h.right.grid, h.left.grid, trackedGrid, trackedGrid, hhas, hgridOf]
  refine ErrorTracker.ext_get hgrid h.regions ?_
  intro i hi
  rw [hgrid, h.left.grid, trackedGrid] at hi
  by_cases hv : b.desc.has .variance = true
  · rw [if_pos hv] at hi
    exact (h.patches i hi).error.symm
  · rw [if_neg hv] at hi
    exact absurd hi (Nat.not_lt_zero i)

theorem accumIds_eq (h : Paired Q b c) : c.accumIds = b.accumIds := by
  have hsize : c.accumIds.size = b.accumIds.size := by rw [h.right.accumIds, h.left.accumIds, h.geometry.1]
  refine Array.ext hsize ?_
  intro i hi hi'
  have hcount := h.taskAccumId (h.left.accumIds ▸ hi')
  rwa [DenseBuffer.taskAccumId, DenseBuffer.taskAccumId, Array.getElem?_eq_getElem hi,
    Array.getElem?_eq_getElem hi'] at hcount

theorem nextTasks_eq (h : Paired Q b c) (config : SamplingConfig) : c.nextTasks config = b.nextTasks config := by
  obtain ⟨-, -, -, -, horder, -⟩ := h.geometry
  have hwanted : c.wanted config = b.wanted config := by
    funext t
    unfold wanted adaptive
    rw [h.tracker_eq, h.frameId]
  rw [DenseBuffer.nextTasks_eq, DenseBuffer.nextTasks_eq, taskOrder, taskOrder, horder, hwanted]

theorem tasks_eq (h : Paired Q b c) (config : SamplingConfig) :
    tasks c.beginFrame config = tasks b.beginFrame config := by
  obtain ⟨format, hd⟩ := h.desc
  have htask : c.beginFrame.task = b.beginFrame.task := by
    funext id
    show (⟨id, (Tiling.cellOf (taskRegionOf c.desc id).lower).rowMajor (Tiling.tileCount c.desc.size).x,
      taskRegionOf c.desc id, (c.accumIds[id]?).getD 0⟩ : RenderTask) = _
    rw [h.accumIds_eq, hd]
    rfl
  show (c.nextTasks config).map c.beginFrame.task = (b.nextTasks config).map b.beginFrame.task
  rw [h.nextTasks_eq, htask]

theorem renderedIds_eq (h : Paired Q b c) (shot : Shot) : renderedIds shot c = renderedIds shot b :=
  congrArg (fun ts => (reached shot.stop 0 ts).map RenderTask.id) (h.tasks_eq shot.config)

theorem tileOf_eq (h : Paired Q b c) (render : PixelRenderer) (shot : Shot) (id : Nat) :
    tileOf render shot c id = tileOf render shot b id := by
  obtain ⟨format, hd⟩ := h.desc
  show render.tile ⟨shot.camera, c.desc.size, c.life.frameId + 1, shot.config.samplesPerPixel⟩
    (taskRegionOf c.desc id) ((c.accumIds[id]?).getD 0) = _
  rw [h.accumIds_eq, h.frameId, hd]
  rfl

/-! ## Frames -/

variable (render : PixelRenderer) (shot : Shot)

/-- When all tiles of a frame are in, the buffers are as before. -/
theorem folded (h : Paired Q b c) : Paired Q (b.folded render shot) (c.folded render shot) := by
  obtain ⟨hb, status, hlife⟩ := folded_intact render shot h.left
  obtain ⟨hc, status', hlife'⟩ := folded_intact render shot h.right
  have hd := desc_folded render shot h.left
  have hd' := desc_folded render shot h.right
  obtain ⟨hgrid, -, -, -, -, hrule⟩ := h.geometry
  refine ⟨hb, hc, ?_, ?_, ?_, ?_, ?_, ?_⟩
  · rw [hd, hd']
    exact h.desc
  · rw [hlife, hlife']
    exact congrArg (· + 1) h.frameId
  · rw [hlife, hlife']
    exact h.variance
  · rw [(boxes_folded render shot b).2.1, (boxes_folded render shot c).2.1]
    exact h.regions
  · intro id hid
    rw [hd] at hid
    rw [patch_folded render shot h.left hid, patch_folded render shot h.right (hgrid ▸ hid), h.renderedIds_eq,
      h.tileOf_eq, hrule]
    by_cases hr : id ∈ renderedIds shot b
    · rw [if_pos hr, if_pos hr]
      exact (h.patches id hid).receive h.kept rfl rfl
    · rw [if_neg hr, if_neg hr]
      exact h.patches id hid
  · rw [hd, hlife, hlife']
    exact h.kept

/-- A frame leaves the buffers as they were. -/
theorem after (h : Paired Q b c) : Paired Q (Frame.after render b shot) (Frame.after render c shot) := by
  have hfolded := h.folded render shot
  have htracker := hfolded.tracker_eq
  have hd := desc_folded render shot h.left
  refine ⟨after_intact render shot h.left, after_intact render shot h.right, ?_, ?_, ?_, ?_, ?_, ?_⟩
  · rw [after_desc render shot h.left, after_desc render shot h.right]
    exact h.desc
  · rw [after_frameId render shot h.left, after_frameId render shot h.right, h.frameId]
  · rw [after_fields, after_fields]
    show finalVariance _ _ = finalVariance _ _
    unfold finalVariance
    rw [htracker, hfolded.variance]
  · rw [after_fields, after_fields]
    exact congrArg (fun t : ErrorTracker => (t.refine shot.config.threshold).1.regions) htracker
  · intro id hid
    rw [after_desc render shot h.left, ← hd] at hid
    obtain ⟨hpixels, hcount⟩ := patch_after render shot b id
    obtain ⟨hpixels', hcount'⟩ := patch_after render shot c id
    refine (hfolded.patches id hid).of_pixels hpixels hpixels' ?_ ?_ ?_
    · rw [after_fields, after_fields]
      exact congrArg (fun t : ErrorTracker => (t.refine shot.config.threshold).1.get id) htracker.symm
    · rw [hcount, hcount']
      exact (hfolded.patches id hid).accumId
    · rw [hcount]
      exact fun _ _ hq => hq
  · rw [after_desc render shot h.left, after_pipeline render shot h.left, after_pipeline render shot h.right]
    exact h.kept

theorem clear (h : Paired Q b c) : Paired Q b.clear c.clear := by
  refine ⟨h.left.clear, h.right.clear, h.desc, rfl, rfl, ?_, ?_, h.kept⟩
  · exact congrArg (fun t : ErrorTracker => t.clear.regions) h.tracker_eq
  · intro id hid
    have hzero : ∀ x : DenseBuffer, x.clear.taskAccumId id = 0 := fun x => getD_replicate_zero ..
    refine (h.patches id hid).of_pixels rfl rfl ?_ ?_ ?_
    · exact congrArg (fun t : ErrorTracker => t.clear.get id) h.tracker_eq.symm
    · exact (hzero b).trans (hzero c).symm
    · intro px qx hq
      show Q (b.clear.taskAccumId id) px qx
      rw [hzero b]
      exact h.kept.restart hq

/-! ## What frames report -/

/-- A frame reports the same of both buffers. -/
theorem statsOf_eq (h : Paired Q b c) : statsOf render shot c = statsOf render shot b := by
  have hafter := h.after render shot
  have hstats : ∀ x : DenseBuffer, statsOf render shot x =
      stats (Frame.after render x shot) ((renderedIds shot x).map (tileOf render shot x)) := by
    intro x
    rw [← tiles_eq_map]
    rfl
  have hcancelled : (Frame.after render c shot).life.status.cancelled =
      (Frame.after render b shot).life.status.cancelled := by
    have hb := cancelled_statsOf render shot h.left
    have hc := cancelled_statsOf render shot h.right
    rw [h.nextTasks_eq] at hc
    exact hc.trans hb.symm
  have htiles : (renderedIds shot c).map (tileOf render shot c) = (renderedIds shot b).map (tileOf render shot b) := by
    rw [h.renderedIds_eq]
    exact List.map_congr_left fun id _ => h.tileOf_eq render shot id
  rw [hstats, hstats, htiles]
  show (⟨(Frame.after render c shot).life.frameId, _, _, (Frame.after render c shot).life.variance,
    (Frame.after render c shot).life.status.cancelled⟩ : FrameStats) = _
  rw [hafter.frameId, hafter.variance, hcancelled]
  rfl

theorem report_eq (h : Paired Q b c) : report render c shot = report render b shot := by
  show (⟨c.nextTasks shot.config, statsOf render shot c⟩ : Report) = ⟨b.nextTasks shot.config, statsOf render shot b⟩
  rw [h.nextTasks_eq, h.statsOf_eq]

/-! ## Courses of frames and clears -/

/-- Whatever frames and clears follow, they report the same of both buffers and leave them as they were. -/
theorem handleAll (events : List Event) (h : Paired Q b c) : reports render events c = reports render events b ∧
    Paired Q (Frame.handleAll render events b) (Frame.handleAll render events c) :=
  Frame.reports_congr render (R := Paired Q) (fun h shot => ⟨h.report_eq render shot, h.after render shot⟩)
    Paired.clear events h

/-! ## Pixels -/

/-- The pixels of the image are related by the sample counts of their tasks. -/
theorem pixels (h : Paired Q b c) (hp : b.desc.image.contains p = true) :
    Q (b.taskAccumId (taskAt b.desc p)) (b.pixels.getD p .blank) (c.pixels.getD p .blank) := by
  obtain ⟨format, hd⟩ := h.desc
  have hin := (contains_taskRegionOf_iff h.left.valid hp).2 rfl
  have hpatch := (h.patches _ (taskAt_lt h.left.valid hp)).pixels p hin
  have htask : taskAt c.desc p = taskAt b.desc p := by rw [hd]; rfl
  have himage : c.desc.image.contains p = true := by rw [hd]; exact hp
  have hget := getD_patch h.right himage
  rw [htask] at hget
  rw [getD_patch h.left hp, hget] at hpatch
  exact hpatch

/-- Where related pixels are equal, the images are. -/
theorem pixels_eq (h : Paired (fun _ px qx => px = qx) b c) : c.pixels = b.pixels := by
  have hregion : c.pixels.region = b.pixels.region := by rw [h.right.pixels, h.left.pixels, h.geometry.2.1]
  refine Raster.ext_getD .blank hregion fun p hp => ?_
  rw [hregion, h.left.pixels] at hp
  exact (h.pixels hp).symm

/-- Buffers are paired if they agree on what steers them and the pixels of each task are related. -/
theorem of_pixels (hb : b.Intact) (hc : c.Intact) (hd : ∃ format, c.desc = { b.desc with format })
    (hframe : c.life.frameId = b.life.frameId) (hvariance : c.life.variance = b.life.variance)
    (htracker : c.tracker = b.tracker) (haccum : c.accumIds = b.accumIds)
    (hpixels : ∀ p, b.desc.image.contains p = true →
      Q (b.taskAccumId (taskAt b.desc p)) (b.pixels.getD p .blank) (c.pixels.getD p .blank))
    (hkept : Kept (.dense b.desc) b.life.pipeline c.life.pipeline Q) : Paired Q b c := by
  refine ⟨hb, hc, hd, hframe, hvariance, congrArg _ htracker, fun id hid => ?_, hkept⟩
  obtain ⟨format, hd⟩ := hd
  have hregion : taskRegionOf c.desc id = taskRegionOf b.desc id := by rw [hd]; rfl
  refine ⟨hregion.symm, ?_, congrArg (fun t : ErrorTracker => t.get id) htracker.symm,
    congrArg (fun ids : Array Int => (ids[id]?).getD 0) haccum.symm⟩
  intro p hp
  have hp : (taskRegionOf b.desc id).contains p = true := hp
  have hp' : (taskRegionOf c.desc id).contains p = true := hregion ▸ hp
  have himage := image_contains_of_task hb.valid hp
  have hq := hpixels p himage
  rw [(contains_taskRegionOf_iff hb.valid himage).1 hp] at hq
  have hleft : (b.patch id).pixels.getD p .blank = b.pixels.getD p .blank := Raster.getD_tabulate hp _ _
  have hright : (c.patch id).pixels.getD p .blank = c.pixels.getD p .blank := Raster.getD_tabulate hp' _ _
  rw [hleft, hright]
  exact hq

end Paired

end DenseBuffer

end AdaptiveFrame
