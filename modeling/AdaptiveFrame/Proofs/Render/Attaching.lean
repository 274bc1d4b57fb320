import AdaptiveFrame.Proofs.Render.PairedParts

/-!
# Operations that are attached and not committed

Nothing but a commit reads the list of operations that are attached to a buffer. So a buffer and one with another
list go through the same frames and clears and stay equal but for the list, and so do devices that share an image.
-/

namespace AdaptiveFrame

open AdaptiveFrame.Frame FrameBuffer

variable (render : PixelRenderer) (shot : Shot) (ops : List ImageOp)

/-- A frame reports on the buffer that it leaves. -/
theorem Frame.report_eq {β : Type} [FrameBuffer β] (b : β) : report render b shot =
    ⟨schedule (beginFrame b) shot.config.threshold shot.config.samplesPerPixel, stats (after render b shot)
      (tiles render (context (beginFrame b) shot.camera shot.config)
        (reached shot.stop 0 (tasks (beginFrame b) shot.config)))⟩ := rfl

/-- If a frame and clearing do the same whatever is attached, so do whole courses of them. -/
theorem Frame.reports_setImageOps {β : Type} [FrameBuffer β]
    (hframe : ∀ (b : β) shot, report render (setImageOps b ops) shot = report render b shot ∧
      after render (setImageOps b ops) shot = setImageOps (after render b shot) ops)
    (hclear : ∀ b : β, clear (setImageOps b ops) = setImageOps (clear b) ops) (events : List Event) (b : β) :
    reports render events (setImageOps b ops) = reports render events b ∧
      handleAll render events (setImageOps b ops) = setImageOps (handleAll render events b) ops := by
  refine reports_congr render (R := fun b c => c = setImageOps b ops) ?_ ?_ events rfl
  · rintro b _ rfl shot
    exact hframe b shot
  · rintro b _ rfl
    exact hclear b

/-! ## Dense buffers -/

namespace DenseBuffer

variable (b : DenseBuffer)

theorem absorb_setImageOps (t : Tile) :
    (setImageOps b ops).absorb t = (setImageOps (b.absorb t).1 ops, (b.absorb t).2) := by
  obtain ⟨life, pixels, display, output, tracker, accumIds⟩ := b
  show (if (t.region.intersect life.desc.image).isEmpty then _ else _) = _
  unfold absorb
  dsimp only
  by_cases hempty : (t.region.intersect life.desc.image).isEmpty = true
  · rw [if_pos hempty, if_pos hempty]
    rfl
  · rw [if_neg hempty, if_neg hempty]
    rfl

theorem foldl_absorb_setImageOps (tiles : List Tile) : tiles.foldl (fun c t => (c.absorb t).1) (setImageOps b ops) =
    setImageOps (tiles.foldl (fun c t => (c.absorb t).1) b) ops :=
  List.foldl_hom (fun c => setImageOps c ops) fun c t => congrArg Prod.fst (absorb_setImageOps ops c t)

theorem accumulateAll_setImageOps (tiles : List Tile) :
    (setImageOps b ops).accumulateAll tiles = setImageOps (b.accumulateAll tiles) ops := by
  let foldBand (c : DenseBuffer) (row : Nat) : DenseBuffer := (band tiles row).foldl (fun c t => (c.absorb t).1) c
  have hrows : ∀ rows : List Nat, rows.foldl foldBand (setImageOps b ops) = setImageOps (rows.foldl foldBand b) ops :=
    fun rows => List.foldl_hom (fun c => setImageOps c ops) fun c row => foldl_absorb_setImageOps ops c (band tiles row)
  exact congrArg (fun c => addRendered c _) (hrows _)

theorem folded_setImageOps : (setImageOps b ops).folded render shot = setImageOps (b.folded render shot) ops := by
  have hopened : (if shot.stop.reaches (tasks b.beginFrame shot.config).length then
        cancelFrame (setImageOps b ops).beginFrame else (setImageOps b ops).beginFrame : DenseBuffer) =
      setImageOps (if shot.stop.reaches (tasks b.beginFrame shot.config).length then
        cancelFrame b.beginFrame else b.beginFrame) ops := by
    split <;> rfl
  have htiles : (renderedIds shot (setImageOps b ops)).map (tileOf render shot (setImageOps b ops)) =
      (renderedIds shot b).map (tileOf render shot b) := rfl
  unfold folded
  exact (congrArg₂ accumulateAll hopened htiles).trans (accumulateAll_setImageOps ..)

/-- Closing a frame reads nothing of what is attached. -/
theorem close_setImageOps (threshold : Float32) :
    ((complete (setImageOps b ops) .worldRendered).endFrame threshold).postProcess =
      setImageOps ((complete b .worldRendered).endFrame threshold).postProcess ops := by
  rw [postProcess_eq, postProcess_eq, endFrame_eq, endFrame_eq]
  rfl

theorem after_setImageOps : after render (setImageOps b ops) shot = setImageOps (after render b shot) ops := by
  rw [after_eq, after_eq, folded_setImageOps, close_setImageOps]
  rfl

theorem report_setImageOps : report render (setImageOps b ops) shot = report render b shot := by
  have hstats : ∀ c : DenseBuffer, stats (setImageOps c ops) = stats c := fun _ => rfl
  rw [report_eq, report_eq, after_setImageOps, hstats]
  rfl

end DenseBuffer

/-! ## Sparse buffers -/

namespace SparseBuffer

variable (s : SparseBuffer)

theorem absorbAt_setImageOps (k : Nat) (r : Region) (t : Tile) :
    (setImageOps s ops).absorbAt k r t = (setImageOps (s.absorbAt k r t).1 ops, (s.absorbAt k r t).2) := by
  obtain ⟨life, tiles, slots, tracker, accumIds⟩ := s
  show (if (t.region.intersect r).isEmpty then _ else _) = _
  unfold absorbAt
  dsimp only
  by_cases hempty : (t.region.intersect r).isEmpty = true
  · rw [if_pos hempty, if_pos hempty]
    rfl
  · rw [if_neg hempty, if_neg hempty]
    rfl

theorem accumulate_setImageOps (t : Tile) :
    (setImageOps s ops).accumulate t = (setImageOps (s.accumulate t).1 ops, (s.accumulate t).2) := by
  have howner : (setImageOps s ops).owner? t = s.owner? t := rfl
  unfold accumulate
  rw [howner]
  cases s.owner? t with
  | none => rfl
  | some owner => exact absorbAt_setImageOps ops s owner.1 owner.2 t

theorem accumulateAll_setImageOps (tiles : List Tile) :
    (setImageOps s ops).accumulateAll tiles = setImageOps (s.accumulateAll tiles) ops :=
  List.foldl_hom (fun c => setImageOps c ops) fun c t => congrArg Prod.fst (accumulate_setImageOps ops c t)

theorem endFrame_setImageOps : (setImageOps s ops).endFrame = setImageOps s.endFrame ops := by
  rw [endFrame_eq, endFrame_eq]
  rfl

theorem setTaskError_setImageOps (i : Nat) (e : Float32) :
    (setImageOps s ops).setTaskError i e = setImageOps (s.setTaskError i e) ops := by
  unfold setTaskError
  by_cases hi : i < s.accumIds.size
  · rw [if_pos hi]
    exact if_pos hi
  · rw [if_neg hi]
    exact if_neg hi

theorem gathered_setImageOps : (setImageOps s ops).gathered render shot = setImageOps (s.gathered render shot) ops := by
  have hopened : (if shot.stop.reaches (tasks s.beginFrame shot.config).length then
        cancelFrame (setImageOps s ops).beginFrame else (setImageOps s ops).beginFrame : SparseBuffer) =
      setImageOps (if shot.stop.reaches (tasks s.beginFrame shot.config).length then
        cancelFrame s.beginFrame else s.beginFrame) ops := by
    split <;> rfl
  have htiles : (renderedIds shot (setImageOps s ops)).map (Frame.tileOf render shot (setImageOps s ops)) =
      (renderedIds shot s).map (Frame.tileOf render shot s) := rfl
  unfold gathered
  exact (congrArg₂ accumulateAll hopened htiles).trans (accumulateAll_setImageOps ..)

/-- Closing a frame reads nothing of what is attached. -/
theorem close_setImageOps : complete (complete (setImageOps s ops) .worldRendered).endFrame .frameFinished =
    setImageOps (complete (complete s .worldRendered).endFrame .frameFinished) ops := by
  rw [close_eq, close_eq]
  rfl

theorem after_setImageOps : after render (setImageOps s ops) shot = setImageOps (after render s shot) ops := by
  rw [after_eq, after_eq, gathered_setImageOps, close_setImageOps]

theorem report_setImageOps : report render (setImageOps s ops) shot = report render s shot := by
  have hstats : ∀ c : SparseBuffer, stats (setImageOps c ops) = stats c := fun _ => rfl
  rw [report_eq, report_eq, after_setImageOps, hstats]
  rfl

end SparseBuffer

/-! ## Devices that share an image -/

namespace DeviceGroup

/-- A group in which the same operations are attached to all devices, and the old ones are still at work. -/
def withAttached (ops : List ImageOp) (g : DeviceGroup) : DeviceGroup :=
  ⟨g.devices.map fun s => FrameBuffer.setImageOps s ops⟩

variable (stop : Interruption) (ctx : FrameContext) (config : SamplingConfig)

/-- A part of a frame whose device has other operations attached. -/
def Part.withAttached (ops : List ImageOp) (part : Part) : Part :=
  { part with device := FrameBuffer.setImageOps part.device ops }

theorem renderPart_setImageOps (first : Nat) (s : SparseBuffer) :
    renderPart stop render ctx config first (FrameBuffer.setImageOps s ops) =
      (renderPart stop render ctx config first s).withAttached ops := by
  have hopened : (FrameBuffer.setImageOps s ops).beginFrame = FrameBuffer.setImageOps s.beginFrame ops := rfl
  have htasks : tasks (FrameBuffer.setImageOps s.beginFrame ops) config = tasks s.beginFrame config := rfl
  rw [renderPart_eq, renderPart_eq]
  dsimp only
  rw [hopened, htasks, SparseBuffer.accumulateAll_setImageOps, SparseBuffer.endFrame_setImageOps]
  rfl

theorem renderParts_setImageOps (first : Nat) (ss : List SparseBuffer) :
    renderParts stop render ctx config first (ss.map fun s => FrameBuffer.setImageOps s ops) =
      (renderParts stop render ctx config first ss).map (Part.withAttached ops) := by
  induction ss generalizing first with
  | nil => rfl
  | cons s ss ih =>
    rw [List.map_cons, renderParts, renderPart_setImageOps, ih]
    rfl

theorem pushBackAll_setImageOps (b : DenseBuffer) (tasks : List Nat) (s : SparseBuffer) :
    tasks.foldl (pushBack b) (FrameBuffer.setImageOps s ops) =
      FrameBuffer.setImageOps (tasks.foldl (pushBack b) s) ops := by
  refine List.foldl_hom (fun c => FrameBuffer.setImageOps c ops) fun c i => ?_
  unfold pushBack
  have hplace : (FrameBuffer.setImageOps c ops).taskGridPos i = c.taskGridPos i := rfl
  rw [hplace]
  cases b.taskIdAt? (c.taskGridPos i) with
  | none => rfl
  | some id =>
    show ((FrameBuffer.setImageOps c ops).setTaskError i (taskError b id)).setTaskAccumId i (b.taskAccumId id) =
      FrameBuffer.setImageOps ((c.setTaskError i (taskError b id)).setTaskAccumId i (b.taskAccumId id)) ops
    rw [SparseBuffer.setTaskError_setImageOps]
    rfl

/-- The image when the parts of all devices are in. -/
def joined (parts : List Part) (b : DenseBuffer) : DenseBuffer :=
  (parts.map Part.device).foldl compose (if stop.reaches ((parts.map Part.scheduled).foldr (· + ·) 0) then
    cancelFrame b.beginFrame else b.beginFrame)

/-- The image at the end of a frame, before the frame is reported finished. -/
def finished (parts : List Part) (b : DenseBuffer) : DenseBuffer :=
  ((complete (joined stop parts b) .worldRendered).endFrame config.threshold).postProcess

theorem render_eq (camera : Camera) (g : DeviceGroup) (b : DenseBuffer) :
    g.render stop render camera config b =
      let parts := renderParts stop render (context b.beginFrame camera config) config 0 g.devices
      let image := finished stop config parts b
      (⟨parts.map fun p => p.device.taskOrder.foldl (pushBack image) p.device⟩, complete image .frameFinished,
        stats (complete image .frameFinished) (parts.flatMap Part.tiles)) := rfl

theorem joined_withAttached (parts : List Part) (b : DenseBuffer) :
    joined stop (parts.map (Part.withAttached ops)) b = joined stop parts b := by
  unfold joined
  rw [List.map_map, List.map_map, List.foldl_map, List.foldl_map]
  rfl

/-- What is attached to the devices matters to neither the image nor the report of a frame. -/
theorem render_withAttached (camera : Camera) (g : DeviceGroup) (b : DenseBuffer) :
    (g.withAttached ops).render stop render camera config b =
      ((g.render stop render camera config b).1.withAttached ops, (g.render stop render camera config b).2) := by
  have hfinished : ∀ parts : List Part,
      finished stop config (parts.map (Part.withAttached ops)) b = finished stop config parts b := fun parts =>
    congrArg (fun c => ((complete c .worldRendered).endFrame config.threshold).postProcess)
      (joined_withAttached ops stop parts b)
  have hdevices : ∀ (c : DenseBuffer) (parts : List Part),
      (parts.map (Part.withAttached ops)).map (fun p => p.device.taskOrder.foldl (pushBack c) p.device) =
        (parts.map fun p => p.device.taskOrder.foldl (pushBack c) p.device).map fun s =>
          FrameBuffer.setImageOps s ops := by
    intro c parts
    rw [List.map_map, List.map_map]
    exact List.map_congr_left fun p _ => pushBackAll_setImageOps ops c p.device.taskOrder p.device
  have htiles : ∀ parts : List Part,
      (parts.map (Part.withAttached ops)).flatMap Part.tiles = parts.flatMap Part.tiles := fun _ => List.flatMap_map ..
  rw [render_eq, render_eq]
  unfold withAttached
  dsimp only
  rw [renderParts_setImageOps, hfinished, hdevices, htiles]

theorem compose_setImageOps (b : DenseBuffer) (s : SparseBuffer) :
    compose (FrameBuffer.setImageOps b ops) s = FrameBuffer.setImageOps (compose b s) ops := by
  have htiles : ∀ tiles : List Tile, (FrameBuffer.setImageOps b ops).writeTiles tiles =
      FrameBuffer.setImageOps (b.writeTiles tiles) ops :=
    fun tiles => List.foldl_hom (fun c => FrameBuffer.setImageOps c ops) fun _ _ => rfl
  have htasks : ∀ (c : DenseBuffer) (tasks : List Nat),
      tasks.foldl (DenseBuffer.takeTask s) (FrameBuffer.setImageOps c ops) =
        FrameBuffer.setImageOps (tasks.foldl (DenseBuffer.takeTask s) c) ops := by
    refine fun c tasks => List.foldl_hom (fun c => FrameBuffer.setImageOps c ops) fun c i => ?_
    have hplace : (FrameBuffer.setImageOps c ops).taskIdAt? (s.taskGridPos i) = c.taskIdAt? (s.taskGridPos i) := rfl
    unfold DenseBuffer.takeTask
    dsimp only
    rw [hplace]
    cases c.taskIdAt? (s.taskGridPos i) <;> rfl
  have hsize : (FrameBuffer.setImageOps b ops).desc.taskSize = b.desc.taskSize := rfl
  unfold compose DenseBuffer.writeSparse
  rw [hsize, htiles, htasks]
  by_cases heq : b.desc.taskSize = s.desc.taskSize
  · rw [if_pos heq, if_pos heq]
  · rw [if_neg heq, if_neg heq]

/-- Nor does what is attached to the image matter. -/
theorem render_setImageOps (camera : Camera) (g : DeviceGroup) (b : DenseBuffer) :
    g.render stop render camera config (FrameBuffer.setImageOps b ops) =
      ((g.render stop render camera config b).1, FrameBuffer.setImageOps (g.render stop render camera config b).2.1 ops,
        (g.render stop render camera config b).2.2) := by
  have hjoined : ∀ parts : List Part,
      joined stop parts (FrameBuffer.setImageOps b ops) = FrameBuffer.setImageOps (joined stop parts b) ops := by
    intro parts
    have hcomposed : ∀ (ss : List SparseBuffer) (c : DenseBuffer), ss.foldl compose (FrameBuffer.setImageOps c ops) =
        FrameBuffer.setImageOps (ss.foldl compose c) ops := fun ss c =>
      List.foldl_hom (fun c => FrameBuffer.setImageOps c ops) (compose_setImageOps ops)
    unfold joined
    rw [← hcomposed]
    split <;> rfl
  have hfinished : ∀ parts : List Part, finished stop config parts (FrameBuffer.setImageOps b ops) =
      FrameBuffer.setImageOps (finished stop config parts b) ops := by
    intro parts
    unfold finished
    rw [hjoined, DenseBuffer.close_setImageOps]
  have hopened : (FrameBuffer.setImageOps b ops).beginFrame = FrameBuffer.setImageOps b.beginFrame ops := rfl
  have hcontext : ∀ c : DenseBuffer, context (FrameBuffer.setImageOps c ops) camera config = context c camera config :=
    fun _ => rfl
  have hstats : ∀ c : DenseBuffer, stats (complete (FrameBuffer.setImageOps c ops) .frameFinished) =
      stats (complete c .frameFinished) := fun _ => rfl
  have hback : ∀ c : DenseBuffer, pushBack (FrameBuffer.setImageOps c ops) = pushBack c := fun _ => rfl
  rw [render_eq, render_eq]
  dsimp only
  rw [hopened, hcontext, hfinished, hstats, hback]
  rfl

theorem clear_withAttached (g : DeviceGroup) : (g.withAttached ops).clear = g.clear.withAttached ops := by
  unfold clear withAttached
  dsimp only
  rw [List.map_map, List.map_map]
  rfl

/-! ### Courses of frames and clears -/

/-- What happens to a group: it renders a frame into an image, which may have come to any state, or is cleared. -/
inductive Event where
  | frame (shot : Shot) (image : DenseBuffer)
  | clear

/-- What the frames of a course make of their images, and what they report. -/
def results : List Event → DeviceGroup → List (DenseBuffer × FrameStats)
  | [], _ => []
  | .frame shot image :: events, g =>
    let (g, result) := g.render shot.stop render shot.camera shot.config image
    result :: results events g
  | .clear :: events, g => results events g.clear

theorem results_withAttached (events : List Event) (g : DeviceGroup) :
    results render events (g.withAttached ops) = results render events g := by
  induction events generalizing g with
  | nil => rfl
  | cons e events ih =>
    cases e with
    | frame shot image =>
      unfold results
      rw [render_withAttached]
      dsimp only
      rw [ih]
    | clear =>
      unfold results
      rw [clear_withAttached, ih]

end DeviceGroup

end AdaptiveFrame
