import AdaptiveFrame.Render.Frame
import AdaptiveFrame.Proofs.Buffer.Displaying

/-!
# Frames of a dense buffer

A frame renders a sub-list of the tasks it schedules, each to the tile that its sample count asks for. It
changes the patches of these tasks (`patch_folded`), refines the errors (`tracker_render`) and leaves all
else of the patches alone. A run is a list of shots, each with its own camera, sampling and interruption.
-/

namespace AdaptiveFrame

open FrameBuffer

/-- The settings of one frame. -/
structure Shot where
  stop : Interruption
  camera : Camera
  config : SamplingConfig

namespace Frame

variable {β : Type} [FrameBuffer β]

/-- The tasks that a frame renders. -/
def renderedIds (shot : Shot) (b : β) : List Nat :=
  (reached shot.stop 0 (tasks (beginFrame b) shot.config)).map RenderTask.id

/-- The tile that a frame renders for a task. -/
def tileOf (render : PixelRenderer) (shot : Shot) (b : β) (id : Nat) : Tile :=
  render.tile (context (beginFrame b) shot.camera shot.config) (task (beginFrame b) id).region
    (task (beginFrame b) id).accumId

/-- A buffer after one frame. -/
def after (render : PixelRenderer) (b : β) (shot : Shot) : β :=
  (Frame.render shot.stop render shot.camera shot.config b).1

/-- A buffer after a run of frames. -/
def play (render : PixelRenderer) (shots : List Shot) (b : β) : β := shots.foldl (after render) b

/-- What every step of a frame keeps holds after the frame, whatever it skips. -/
theorem after_keeps {I : β → Prop} {b : β} (h : I b) (hbegin : ∀ b, I b → I (beginFrame b))
    (hstatus : ∀ b status, I b → I (setStatus b status)) (hfold : ∀ b tiles, I b → I (accumulateAll b tiles))
    (hend : ∀ b threshold, I b → I (endFrame b threshold)) (hpost : ∀ b, I b → I (postProcess b))
    (render : PixelRenderer) (shot : Shot) : I (after render b shot) := by
  have hclose : ∀ b tiles, I b → I (Frame.close b shot.config.threshold tiles) := fun b tiles h =>
    hstatus _ _ (hpost _ (hend _ _ (hstatus _ _ (hfold b tiles h))))
  have hopen := hbegin b h
  refine hclose _ _ ?_
  split
  · exact hstatus _ _ hopen
  · exact hopen

theorem reached_sublist (stop : Interruption) (first : Nat) (ts : List RenderTask) :
    (reached stop first ts).Sublist ts := by
  have h := (List.filter_sublist (p := fun x : RenderTask × Nat => !stop.skips x.2) (l := ts.zipIdx first)).map Prod.fst
  rw [List.zipIdx_map_fst] at h
  exact h

/-- A frame reaches all tasks if none of their positions is skipped. -/
theorem reached_eq_self {stop : Interruption} {first : Nat} {ts : List RenderTask}
    (h : ∀ i, i < first + ts.length → stop.skips i = false) : reached stop first ts = ts := by
  have hfilter : (ts.zipIdx first).filter (fun x => !stop.skips x.2) = ts.zipIdx first := by
    refine List.filter_eq_self.2 ?_
    intro x hx
    obtain ⟨-, hlt, -⟩ := List.mem_zipIdx hx
    rw [h x.2 hlt]
    rfl
  unfold reached
  exact (congrArg (List.map Prod.fst) hfilter).trans (List.zipIdx_map_fst ..)

theorem reached_none (first : Nat) (ts : List RenderTask) : reached .none first ts = ts :=
  reached_eq_self fun _ _ => rfl

section Rendered

variable (render : PixelRenderer) (shot : Shot) (b : β) (hid : ∀ id, (task (beginFrame b) id).id = id)

include hid

/-- What a frame renders is part of what it schedules. -/
theorem renderedIds_sublist :
    (renderedIds shot b).Sublist (schedule (beginFrame b) shot.config.threshold shot.config.samplesPerPixel) := by
  have hsub := (reached_sublist shot.stop 0 (tasks (beginFrame b) shot.config)).map RenderTask.id
  have hids : (tasks (beginFrame b) shot.config).map RenderTask.id =
      schedule (beginFrame b) shot.config.threshold shot.config.samplesPerPixel := by
    rw [tasks, List.map_map]
    exact (List.map_congr_left fun id _ => hid id).trans (List.map_id _)
  rw [hids] at hsub
  exact hsub

theorem reached_eq_map :
    reached shot.stop 0 (tasks (beginFrame b) shot.config) = (renderedIds shot b).map (task (beginFrame b)) := by
  have htask : ∀ t ∈ reached shot.stop 0 (tasks (beginFrame b) shot.config), task (beginFrame b) t.id = t := by
    intro t ht
    obtain ⟨id, -, rfl⟩ := List.mem_map.1 ((reached_sublist shot.stop 0 (tasks (beginFrame b) shot.config)).subset ht)
    rw [hid]
  unfold renderedIds
  rw [List.map_map]
  exact ((List.map_congr_left htask).trans (List.map_id _)).symm

/-- A frame renders each of its tasks to the tile of the task. -/
theorem tiles_eq_map : tiles render (context (beginFrame b) shot.camera shot.config)
    (reached shot.stop 0 (tasks (beginFrame b) shot.config)) = (renderedIds shot b).map (tileOf render shot b) := by
  rw [reached_eq_map shot b hid, tiles, List.map_map]
  rfl

end Rendered

/-- A frame that nobody interrupts renders all that it schedules. -/
theorem renderedIds_none (shot : Shot) (b : β) (hid : ∀ id, (task (beginFrame b) id).id = id)
    (hstop : shot.stop = .none) :
    renderedIds shot b = schedule (beginFrame b) shot.config.threshold shot.config.samplesPerPixel := by
  unfold renderedIds
  rw [hstop, reached_none, tasks, List.map_map]
  exact (List.map_congr_left fun id _ => hid id).trans (List.map_id _)

end Frame

/-- No task is dropped in the first two frames. -/
theorem adaptiveAllowed_of_lt {frameId : Int} {threshold : Float32} {samplesPerPixel : Nat} (h : frameId < 2) :
    adaptiveAllowed frameId threshold samplesPerPixel = false := by
  have hmin : (2 : Int) ≤ minAdaptiveFrames samplesPerPixel := by
    exact_mod_cast Nat.le_max_right _ _
  have hlt : ¬ (minAdaptiveFrames samplesPerPixel : Int) ≤ frameId := by omega
  rw [adaptiveAllowed, decide_eq_false hlt, Bool.and_false]

namespace DenseBuffer

open AdaptiveFrame.Frame

variable {b : DenseBuffer} (render : PixelRenderer) (shot : Shot) {config : SamplingConfig} {id t : Nat}

theorem renderedIds_sublist (b : DenseBuffer) :
    (renderedIds shot b).Sublist (b.beginFrame.schedule shot.config.threshold shot.config.samplesPerPixel) :=
  Frame.renderedIds_sublist shot b fun _ => rfl

theorem schedule_sublist (b : DenseBuffer) (threshold : Float32) (n : Nat) :
    (b.schedule threshold n).Sublist b.taskOrder := by
  unfold schedule
  split
  · exact List.filter_sublist
  · exact .refl _

theorem nodup_renderedIds (b : DenseBuffer) : (renderedIds shot b).Nodup :=
  ((renderedIds_sublist shot b).trans (schedule_sublist ..)).nodup (nodup_taskOrderOf _)

theorem renderedIds_lt {shot : Shot} (h : id ∈ renderedIds shot b) : id < (gridOf b.desc).area :=
  mem_taskOrderOf.1 (((renderedIds_sublist shot b).trans (schedule_sublist ..)).subset h)

theorem tiles_eq_map (b : DenseBuffer) :
    tiles render (context b.beginFrame shot.camera shot.config)
      (reached shot.stop 0 (tasks b.beginFrame shot.config)) = (renderedIds shot b).map (tileOf render shot b) :=
  Frame.tiles_eq_map render shot b fun _ => rfl

/-! ## The tasks of the next frame -/

/-- The tasks that the next frame schedules. -/
def nextTasks (b : DenseBuffer) (config : SamplingConfig) : List Nat :=
  b.beginFrame.schedule config.threshold config.samplesPerPixel

/-- Whether the next frame may leave tasks out. -/
def adaptive (b : DenseBuffer) (config : SamplingConfig) : Bool :=
  b.tracker.isEnabled && adaptiveAllowed (b.life.frameId + 1) config.threshold config.samplesPerPixel

/-- Whether the next frame schedules a task of the image. -/
def wanted (b : DenseBuffer) (config : SamplingConfig) (t : Nat) : Bool :=
  !b.adaptive config || config.threshold < b.tracker.get t

theorem nextTasks_eq (b : DenseBuffer) (config : SamplingConfig) :
    b.nextTasks config = b.taskOrder.filter (b.wanted config) := by
  unfold nextTasks schedule wanted
  show (if b.adaptive config = true then _ else _) = _
  cases b.adaptive config with
  | true => simp only [if_true, Bool.not_true, Bool.false_or]; rfl
  | false => exact (List.filter_eq_self.2 fun _ _ => rfl).symm

/-- The first two frames schedule all tasks. -/
theorem wanted_of_frameId_lt (h : b.life.frameId < 1) (t : Nat) : b.wanted config t = true := by
  have hallowed : adaptiveAllowed (b.life.frameId + 1) config.threshold config.samplesPerPixel = false :=
    adaptiveAllowed_of_lt (by omega)
  rw [wanted, adaptive, hallowed, Bool.and_false]
  rfl

theorem renderedIds_none (b : DenseBuffer) (hstop : shot.stop = .none) :
    renderedIds shot b = b.nextTasks shot.config := Frame.renderedIds_none shot b (fun _ => rfl) hstop

theorem mem_nextTasks : t ∈ b.nextTasks config ↔ t < (gridOf b.desc).area ∧ b.wanted config t = true := by
  rw [nextTasks_eq, List.mem_filter, taskOrder, mem_taskOrderOf]

theorem length_tasks (b : DenseBuffer) (config : SamplingConfig) :
    (tasks b.beginFrame config).length = (b.nextTasks config).length := List.length_map ..

/-- What a frame reports. -/
def statsOf (b : DenseBuffer) : FrameStats :=
  (Frame.render shot.stop render shot.camera shot.config b).2

/-- The buffer of a frame when all its tiles are in. -/
def folded (b : DenseBuffer) (render : PixelRenderer) (shot : Shot) : DenseBuffer :=
  let opened : DenseBuffer := if shot.stop.reaches (tasks b.beginFrame shot.config).length then
    cancelFrame b.beginFrame else b.beginFrame
  opened.accumulateAll ((renderedIds shot b).map (tileOf render shot b))

theorem after_eq (b : DenseBuffer) : after render b shot =
    complete ((complete (b.folded render shot) .worldRendered).endFrame shot.config.threshold).postProcess
      .frameFinished := by
  unfold folded
  rw [← tiles_eq_map]
  rfl

/-! ## Closing a frame -/

/-- The output of the frame operations at the end of a frame. -/
def finalOutput (b : DenseBuffer) : Option (Raster Vec4) :=
  if b.life.pipeline.hasFrameOps && b.desc.hasColor then some (b.life.pipeline.finish b.frameImage) else b.output

/-- The error of a frame at its end. -/
def finalVariance (b : DenseBuffer) (threshold : Float32) : Float32 :=
  if b.tracker.isEnabled then (b.tracker.refine threshold).2 else b.life.variance

/-- A display with the output of the frame operations on it. -/
def withOutput (encode : Option (Vec4 → Rgba8)) (output : Option (Raster Vec4)) (display : Option (Raster Rgba8)) :
    Option (Raster Rgba8) :=
  match encode, display, output with
  | some encode, some _, some output => some (output.map encode)
  | _, display, _ => display

/-- The display at the end of a frame. -/
def finalDisplay (b : DenseBuffer) (output : Option (Raster Vec4)) : Option (Raster Rgba8) :=
  if b.life.pipeline.hasFrameOps then withOutput (Color.encoding? b.desc.format) output b.display else b.display

theorem postProcess_eq (b : DenseBuffer) : b.postProcess = { b with display := b.finalDisplay b.output } := by
  unfold postProcess finalDisplay withOutput
  by_cases hf : b.life.pipeline.hasFrameOps = true
  · rw [if_pos hf, if_pos hf]
    cases Color.encoding? b.desc.format with
    | none => rfl
    | some encode =>
      cases hd : b.display with
      | none => simp only [← hd]
      | some shown =>
        cases ho : b.output with
        | none => simp only [← hd, ← ho]
        | some output => simp only [← ho]
  · rw [if_neg hf, if_neg hf]

theorem endFrame_eq (b : DenseBuffer) (threshold : Float32) : b.endFrame threshold =
    { b with
      output := b.finalOutput
      tracker := (b.tracker.refine threshold).1
      life := { b.life with variance := b.finalVariance threshold } } := by
  unfold endFrame finalOutput finalVariance
  dsimp only
  by_cases he : b.tracker.isEnabled = true
  · by_cases hf : (b.life.pipeline.hasFrameOps && b.desc.hasColor) = true
    · rw [if_pos hf, if_pos hf, if_pos he, if_pos he]
    · rw [if_neg hf, if_neg hf, if_pos he, if_pos he]
  · have htracker : (b.tracker.refine threshold).1 = b.tracker := by rw [ErrorTracker.refine, if_neg he]
    by_cases hf : (b.life.pipeline.hasFrameOps && b.desc.hasColor) = true
    · rw [if_pos hf, if_pos hf, if_neg he, if_neg he, htracker]
    · rw [if_neg hf, if_neg hf, if_neg he, if_neg he, htracker]

theorem complete_eq (b : DenseBuffer) (e : SyncEvent) :
    complete b e = { b with life := { b.life with status := b.life.status.complete e } } := rfl

theorem close_eq (b : DenseBuffer) (threshold : Float32) :
    complete ((complete b .worldRendered).endFrame threshold).postProcess .frameFinished =
      { b with
        output := b.finalOutput
        display := b.finalDisplay b.finalOutput
        tracker := (b.tracker.refine threshold).1
        life := { b.life with
          variance := b.finalVariance threshold
          status := (b.life.status.complete .worldRendered).complete .frameFinished } } := by
  rw [complete_eq, complete_eq, postProcess_eq, endFrame_eq]
  rfl

/-! ## The patches of a frame -/

theorem opened_eq (b : DenseBuffer) : ∃ status,
    (if shot.stop.reaches (tasks b.beginFrame shot.config).length then cancelFrame b.beginFrame else b.beginFrame :
      DenseBuffer) = { b with life := { b.life with frameId := b.life.frameId + 1, status } } := by
  split
  · exact ⟨_, rfl⟩
  · exact ⟨_, rfl⟩

theorem region_tileOf (b : DenseBuffer) (id : Nat) :
    (tileOf render shot b id).region = taskRegionOf b.desc id := rfl

theorem accumId_tileOf (b : DenseBuffer) (id : Nat) :
    (tileOf render shot b id).accumId = b.taskAccumId id := rfl

theorem folded_intact (h : b.Intact) : (b.folded render shot).Intact ∧ ∃ status, (b.folded render shot).life =
    { b.life with frameId := b.life.frameId + 1, status } := by
  obtain ⟨status, hopened⟩ := opened_eq shot b
  unfold folded
  rw [hopened]
  have hi : Intact { b with life := { b.life with frameId := b.life.frameId + 1, status } } := h.setLife rfl
  obtain ⟨n, hlife⟩ := life_accumulateAll hi ((renderedIds shot b).map (tileOf render shot b))
  exact ⟨hi.accumulateAll _, _, hlife⟩

theorem desc_folded (h : b.Intact) : (b.folded render shot).desc = b.desc := by
  obtain ⟨-, status, hl⟩ := folded_intact render shot h
  rw [desc, hl]
  rfl

/-- A frame changes the patches of the tasks that it renders. -/
theorem patch_folded (h : b.Intact) (hid : id < (gridOf b.desc).area) : (b.folded render shot).patch id =
    if id ∈ renderedIds shot b then
      (b.patch id).receive (.dense b.desc) b.life.pipeline (tileOf render shot b id)
    else b.patch id := by
  obtain ⟨status, hopened⟩ := opened_eq shot b
  unfold folded
  rw [hopened]
  have hi : Intact { b with life := { b.life with frameId := b.life.frameId + 1, status } } := h.setLife rfl
  have hids : ∀ i ∈ renderedIds shot b, i < (gridOf b.desc).area := fun i => renderedIds_lt
  exact patch_accumulateAll hi (nodup_renderedIds shot b) hids (fun i _ => region_tileOf render shot b i) hid

theorem boxes_folded (b : DenseBuffer) : (b.folded render shot).tracker.grid = b.tracker.grid ∧
    (b.folded render shot).tracker.regions = b.tracker.regions ∧ (b.folded render shot).output = b.output := by
  obtain ⟨status, hopened⟩ := opened_eq shot b
  unfold folded
  rw [hopened]
  exact boxes_accumulateAll ..

theorem after_fields (b : DenseBuffer) : after render b shot =
    { b.folded render shot with
      output := (b.folded render shot).finalOutput
      display := (b.folded render shot).finalDisplay (b.folded render shot).finalOutput
      tracker := ((b.folded render shot).tracker.refine shot.config.threshold).1
      life := { (b.folded render shot).life with
        variance := (b.folded render shot).finalVariance shot.config.threshold
        status := ((b.folded render shot).life.status.complete .worldRendered).complete .frameFinished } } := by
  rw [after_eq, close_eq]

/-- A frame reports that it was cancelled if the request to stop came by its end. -/
theorem cancelled_statsOf (h : b.Intact) :
    (statsOf render shot b).cancelled = shot.stop.reaches (b.nextTasks shot.config).length := by
  have hlife : (statsOf render shot b).cancelled = (b.folded render shot).life.status.cancelled := by
    show (after render b shot).life.status.cancelled = _
    rw [after_fields]
    rfl
  rw [hlife, ← length_tasks]
  unfold folded
  cases hreach : shot.stop.reaches (tasks b.beginFrame shot.config).length with
  | true =>
    have hi : Intact (FrameBuffer.cancelFrame b.beginFrame) := h.setLife rfl
    obtain ⟨n, hn⟩ := life_accumulateAll hi ((renderedIds shot b).map (tileOf render shot b))
    rw [if_pos rfl, hn]
    rfl
  | false =>
    have hi : Intact b.beginFrame := h.setLife rfl
    obtain ⟨n, hn⟩ := life_accumulateAll hi ((renderedIds shot b).map (tileOf render shot b))
    rw [if_neg (by decide), hn]
    rfl

theorem after_intact (h : b.Intact) : (after render b shot).Intact := by
  have hf : Intact (complete (b.folded render shot) .worldRendered) := (folded_intact render shot h).1.setLife rfl
  rw [after_eq]
  exact (hf.endFrame _).postProcess.setLife rfl

/-- A frame counts up and leaves the description and the image operations alone. -/
theorem after_life (h : b.Intact) : ∃ variance status, (after render b shot).life =
    { b.life with frameId := b.life.frameId + 1, variance, status } := by
  obtain ⟨-, status, hf⟩ := folded_intact render shot h
  exact ⟨_, _, by rw [after_fields, hf]⟩

theorem after_desc (h : b.Intact) : (after render b shot).desc = b.desc := by
  obtain ⟨variance, status, hl⟩ := after_life render shot h
  rw [desc, hl]
  rfl

theorem after_frameId (h : b.Intact) : (after render b shot).life.frameId = b.life.frameId + 1 := by
  obtain ⟨variance, status, hl⟩ := after_life render shot h
  rw [hl]

theorem after_pipeline (h : b.Intact) : (after render b shot).life.pipeline = b.life.pipeline := by
  obtain ⟨variance, status, hl⟩ := after_life render shot h
  rw [hl]

/-- Closing the frame leaves the pixels and the sample counts of all patches alone. -/
theorem patch_after (b : DenseBuffer) (id : Nat) :
    ((after render b shot).patch id).pixels = ((b.folded render shot).patch id).pixels ∧
    ((after render b shot).patch id).accumId = ((b.folded render shot).patch id).accumId := by
  rw [after_fields]
  exact ⟨rfl, rfl⟩

theorem after_taskAccumId (h : b.Intact) (hid : id < (gridOf b.desc).area) : (after render b shot).taskAccumId id =
    if id ∈ renderedIds shot b then b.taskAccumId id + 1 else b.taskAccumId id := by
  have ha : (after render b shot).taskAccumId id = ((b.folded render shot).patch id).accumId :=
    (patch_after render shot b id).2
  rw [ha, patch_folded render shot h hid]
  split <;> rfl

/-- What a frame does to one pixel. -/
theorem after_pixel (h : b.Intact) {p : Point} (hp : b.desc.image.contains p = true) :
    (after render b shot).pixels.getD p .blank =
      if taskAt b.desc p ∈ renderedIds shot b then
        (b.pixels.getD p .blank).receive (.dense b.desc) b.life.pipeline (b.taskAccumId (taskAt b.desc p))
          (render.sample (context b.beginFrame shot.camera shot.config) (b.taskAccumId (taskAt b.desc p)) p)
      else b.pixels.getD p .blank := by
  have hid := taskAt_lt h.valid hp
  have hin : (taskRegionOf b.desc (taskAt b.desc p)).contains p = true :=
    (contains_taskRegionOf_iff h.valid hp).2 rfl
  have hd := after_desc render shot h
  have hpatch := getD_patch (after_intact render shot h) (hd ▸ hp)
  rw [hd, (patch_after render shot b _).1, patch_folded render shot h hid] at hpatch
  rw [← hpatch]
  by_cases hr : taskAt b.desc p ∈ renderedIds shot b
  · rw [if_pos hr, if_pos hr, Patch.receive, Store.getD_receive hin, region_tileOf, if_pos hin, getD_patch h hp,
      accumId_tileOf]
    exact congrArg (fun s => Pixel.receive _ _ _ s _) (Raster.getD_tabulate hin _ _)
  · rw [if_neg hr, if_neg hr, getD_patch h hp]

/-! ## What is on display -/

/-- What the frame operations last made is on display. -/
structure Finished (b : DenseBuffer) : Prop where
  output : b.finalOutput = b.output
  display : b.finalDisplay b.output = b.display

theorem after_finished (b : DenseBuffer) (shot : Shot) : (after render b shot).Finished := by
  rw [after_fields]
  generalize b.folded render shot = c
  have houtput : ∀ output display tracker variance status,
      finalOutput { c with output, display, tracker, life := { c.life with variance, status } } =
        if c.life.pipeline.hasFrameOps && c.desc.hasColor then some (c.life.pipeline.finish c.frameImage) else output :=
    fun _ _ _ _ _ => rfl
  constructor
  · rw [houtput]
    unfold finalOutput
    split <;> rfl
  · show (if c.life.pipeline.hasFrameOps then withOutput (Color.encoding? c.desc.format) c.finalOutput
      (c.finalDisplay c.finalOutput) else c.finalDisplay c.finalOutput) = c.finalDisplay c.finalOutput
    unfold finalDisplay withOutput
    by_cases hf : c.life.pipeline.hasFrameOps = true
    · rw [if_pos hf, if_pos hf]
      cases Color.encoding? c.desc.format <;> cases c.display <;> cases c.finalOutput <;> rfl
    · rw [if_neg hf, if_neg hf]

/-- A frame that renders a pixel, or finds it on display, leaves it on display. -/
theorem displays_folded (h : b.Intact) {p : Point} (hp : b.desc.image.contains p = true)
    (hold : taskAt b.desc p ∈ renderedIds shot b ∨ b.Displays p) : (b.folded render shot).Displays p := by
  obtain ⟨status, hopened⟩ := opened_eq shot b
  unfold folded
  rw [hopened]
  have hi : Intact { b with life := { b.life with frameId := b.life.frameId + 1, status } } := h.setLife rfl
  have hids : ∀ i ∈ renderedIds shot b, i < (gridOf b.desc).area := fun i => renderedIds_lt
  exact displays_accumulateAll hi hids (fun i _ => region_tileOf render shot b i) hp hold

/-- A frame leaves the pixels that it does not render as they are displayed. -/
theorem DisplaysAs.folded (h : b.Intact) {p : Point} {color : Vec4} (hp : b.desc.image.contains p = true)
    (hother : taskAt b.desc p ∉ renderedIds shot b) (hold : b.DisplaysAs p color) :
    (b.folded render shot).DisplaysAs p color := by
  obtain ⟨status, hopened⟩ := opened_eq shot b
  unfold DenseBuffer.folded
  rw [hopened]
  have hi : Intact { b with life := { b.life with frameId := b.life.frameId + 1, status } } := h.setLife rfl
  have hids : ∀ i ∈ renderedIds shot b, i < (gridOf b.desc).area := fun i => renderedIds_lt
  exact DisplaysAs.accumulateAll hi hids (fun i _ => region_tileOf render shot b i) hp hother hold

/-- Without frame operations, closing the frame leaves the display alone. -/
theorem DisplaysAs.after (h : b.Intact) {p : Point} {color : Vec4} (hf : b.life.pipeline.hasFrameOps = false)
    (hfolded : (b.folded render shot).DisplaysAs p color) : (Frame.after render b shot).DisplaysAs p color := by
  obtain ⟨-, status, hlife⟩ := folded_intact render shot h
  have hdisplay : (Frame.after render b shot).display = (b.folded render shot).display := by
    rw [after_fields]
    show finalDisplay _ _ = _
    unfold finalDisplay
    rw [hlife, if_neg (Bool.not_eq_true _ ▸ hf)]
  unfold DisplaysAs
  rw [hdisplay, after_fields]
  exact hfolded

theorem displays_after (h : b.Intact) {p : Point} (hf : b.life.pipeline.hasFrameOps = false)
    (hdisplays : (b.folded render shot).Displays p) : (after render b shot).Displays p := by
  have hpixels : (after render b shot).pixels = (b.folded render shot).pixels := by rw [after_fields]
  rw [displays_iff, hpixels]
  exact DisplaysAs.after render shot h hf hdisplays

/-! ## Runs -/

theorem play_intact (h : b.Intact) (shots : List Shot) :
    (play render shots b).Intact ∧ (play render shots b).desc = b.desc :=
  Writes.inv_foldl (I := fun c : DenseBuffer => c.Intact ∧ c.desc = b.desc) ⟨h, rfl⟩
    fun _ shot _ hc => ⟨after_intact render shot hc.1, (after_desc render shot hc.1).trans hc.2⟩

end DenseBuffer

end AdaptiveFrame
