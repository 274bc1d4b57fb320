import AdaptiveFrame.Proofs.Render.Alike
import AdaptiveFrame.Proofs.Render.DeviceFrame

/-!
# A group of devices mirrors a dense buffer

Next to a dense buffer that renders all tasks by itself stands a second one that devices compose into. The two
are alike and the devices follow the first one (`Mirrors`), before and after every frame: in a frame the
devices render what the first buffer does, composing their parts brings the second one up to it, and closing
the frame treats both the same. Clearing everything keeps the relation as well.
-/

namespace AdaptiveFrame

open AdaptiveFrame.Frame FrameBuffer SparseBuffer

/-- Devices whose image `c` is alike a buffer `b` that renders without devices. -/
structure Mirrors (b c : DenseBuffer) (ss : List SparseBuffer) : Prop where
  alike : DenseBuffer.Alike b c
  /-- After a frame the display is that of the pixels, unless frame operations write it. -/
  displays : 0 ≤ b.life.frameId → b.life.pipeline.hasFrameOps = false →
    ∀ p, b.desc.image.contains p = true → b.Displays p
  deal : (ss.flatMap fun s => s.taskOrder.map s.denseId).Perm b.taskOrder
  follows : ∀ s ∈ ss, Follows b s

variable {b c : DenseBuffer} {s : SparseBuffer} {ss : List SparseBuffer} (render : PixelRenderer) (camera : Camera)
  (config : SamplingConfig)

/-! ## The parts of a frame -/

namespace SparseBuffer

/-- A device when its part of a frame is done. -/
def part (ctx : FrameContext) (s : SparseBuffer) : SparseBuffer := (folded render ctx config s).endFrame

/-- After its part a device agrees with the dense buffer whose tiles are all in. -/
theorem Follows.part (h : Follows b s) (hb : b.Intact) :
    let s' := SparseBuffer.part render config (context b.beginFrame camera config) s
    SameTasks s s' ∧ s'.life.frameId = s.life.frameId + 1 ∧ s'.life.pipeline = s.life.pipeline ∧
      Agrees (b.folded render ⟨.none, camera, config⟩) s' := by
  intro s'
  obtain ⟨hsame, ⟨status, hlife⟩, hagrees⟩ := h.folded render camera hb config
  have hend := sameTasks_endFrame (SparseBuffer.folded render (context b.beginFrame camera config) config s)
  obtain ⟨variance, hclosed⟩ :=
    life_endFrame (SparseBuffer.folded render (context b.beginFrame camera config) config s)
  have hlife' : s'.life = { s.life with frameId := s.life.frameId + 1, status, variance } := by
    refine hclosed.trans ?_
    rw [hlife]
  exact ⟨hsame.trans hend, by rw [hlife'], by rw [hlife'], hagrees.of_same hend fun i _ => patch_endFrame _ i⟩

end SparseBuffer

namespace DeviceGroup

/-- The image when the parts of all devices are in. -/
def composed (ss : List SparseBuffer) (c : DenseBuffer) : DenseBuffer :=
  (ss.map (part render config (context c.beginFrame camera config))).foldl compose c.beginFrame

/-- The image at the end of a frame, before the frame is reported finished. -/
def closed (ss : List SparseBuffer) (c : DenseBuffer) : DenseBuffer :=
  ((complete (composed render camera config ss c) .worldRendered).endFrame config.threshold).postProcess

/-- A device after a frame. -/
def afterFrame (ss : List SparseBuffer) (c : DenseBuffer) (s : SparseBuffer) : SparseBuffer :=
  let s := part render config (context c.beginFrame camera config) s
  s.taskOrder.foldl (pushBack (closed render camera config ss c)) s

theorem renderParts_none (ctx : FrameContext) (ss : List SparseBuffer) (first : Nat) :
    renderParts .none render ctx config first ss = ss.map fun s =>
      ⟨part render config ctx s, (tasks s.beginFrame config).length,
        (s.beginFrame.schedule config.threshold config.samplesPerPixel).map (tileOf render ctx s)⟩ := by
  induction ss generalizing first with
  | nil => rfl
  | cons s ss ih =>
    have hpart : renderPart .none render ctx config first s =
        ⟨part render config ctx s, (tasks s.beginFrame config).length,
          (s.beginFrame.schedule config.threshold config.samplesPerPixel).map (tileOf render ctx s)⟩ := by
      unfold renderPart
      dsimp only
      rw [reached_none, tiles_eq]
      rfl
    rw [renderParts, hpart, ih]
    rfl

/-- A frame that nobody interrupts. -/
theorem render_none (ss : List SparseBuffer) (c : DenseBuffer) :
    DeviceGroup.render .none render camera config ⟨ss⟩ c =
      (⟨ss.map (afterFrame render camera config ss c)⟩, complete (closed render camera config ss c) .frameFinished,
        stats (complete (closed render camera config ss c) .frameFinished) (ss.flatMap fun s =>
          (s.beginFrame.schedule config.threshold config.samplesPerPixel).map
            (tileOf render (context c.beginFrame camera config) s))) := by
  have hreach : ∀ n, ¬ Interruption.none.reaches n = true := fun _ => Bool.false_ne_true
  unfold DeviceGroup.render
  dsimp only
  rw [renderParts_none, if_neg (hreach _), List.map_map, List.map_map, List.flatMap_map]
  unfold afterFrame closed composed
  rfl

end DeviceGroup

/-! ## The images when all tiles are in -/

theorem DenseBuffer.SameImage.context_eq (h : DenseBuffer.SameImage b c) :
    context c.beginFrame camera config = context b.beginFrame camera config := by
  obtain ⟨status, hl⟩ := h.life
  show (⟨camera, c.life.desc.size, c.life.frameId + 1, config.samplesPerPixel⟩ : FrameContext) =
    ⟨camera, b.life.desc.size, b.life.frameId + 1, config.samplesPerPixel⟩
  rw [hl]

/-- Two intact buffers look the same if one shows and knows of every task what the other does. -/
theorem DenseBuffer.sameImage_of_upToDate (hb : b.Intact) (hc : c.Intact)
    (hlife : ∃ status, c.life = { b.life with status }) (hregions : c.tracker.regions = b.tracker.regions)
    (houtput : c.output = b.output) (h : ∀ t, t < (gridOf b.desc).area → UpToDate b c t) : SameImage b c := by
  have hd : c.desc = b.desc := by
    obtain ⟨status, hl⟩ := hlife
    rw [desc, hl]
    rfl
  have hgrid : c.tracker.grid = b.tracker.grid := by rw [hc.grid, hb.grid, hd]
  have hsize : c.accumIds.size = b.accumIds.size := by rw [hc.accumIds, hb.accumIds, hd]
  refine ⟨hb, hc, hlife, ErrorTracker.ext_get hgrid hregions ?_, Array.ext hsize ?_, ?_, houtput⟩
  · intro i hi
    rw [hc.grid, hd, trackedGrid] at hi
    by_cases hv : b.desc.has .variance = true
    · rw [if_pos hv] at hi
      exact (h i hi).task.error
    · rw [if_neg hv] at hi
      exact absurd hi (Nat.not_lt_zero i)
  · intro i hi hi'
    have haccum := (h i (hb.accumIds ▸ hi')).task.accumId
    rwa [taskAccumId, taskAccumId, Array.getElem?_eq_getElem hi, Array.getElem?_eq_getElem hi'] at haccum
  · intro p hp
    have hin : (taskRegionOf b.desc (taskAt b.desc p)).contains p = true :=
      (contains_taskRegionOf_iff hb.valid hp).2 rfl
    exact ((h _ (taskAt_lt hb.valid hp)).pixels p hin).sample

namespace Mirrors

theorem part (h : Mirrors b c ss) (hs : s ∈ ss) :
    let s' := SparseBuffer.part render config (context c.beginFrame camera config) s
    SameTasks s s' ∧ s'.life.frameId = s.life.frameId + 1 ∧ s'.life.pipeline = s.life.pipeline ∧
      Agrees (b.folded render ⟨.none, camera, config⟩) s' := by
  rw [h.alike.context_eq]
  exact (h.follows s hs).part render camera config h.alike.left

/-- Every task is dealt to a device. -/
theorem exists_device (h : Mirrors b c ss) {t : Nat} (ht : t < (DenseBuffer.gridOf b.desc).area) :
    ∃ s ∈ ss, ∃ i ∈ s.taskOrder, s.denseId i = t := by
  have hmem : t ∈ ss.flatMap fun s => s.taskOrder.map s.denseId :=
    h.deal.mem_iff.2 (DenseBuffer.mem_taskOrderOf.2 ht)
  obtain ⟨s, hs, hi⟩ := List.mem_flatMap.1 hmem
  obtain ⟨i, hi, heq⟩ := List.mem_map.1 hi
  exact ⟨s, hs, i, hi, heq⟩

/-- While no frame operation writes the display, it is that of the pixels when the tiles are in. -/
theorem displays_folded (h : Mirrors b c ss) (hf : b.life.pipeline.hasFrameOps = false) {p : Point}
    (hp : b.desc.image.contains p = true) : (b.folded render ⟨.none, camera, config⟩).Displays p := by
  have hb := h.alike.left
  refine DenseBuffer.displays_folded render _ hb hp ?_
  rcases Int.lt_or_le b.life.frameId 0 with hneg | hpos
  · rw [DenseBuffer.renderedIds_none _ _ rfl]
    exact .inl (DenseBuffer.mem_nextTasks.2
      ⟨DenseBuffer.taskAt_lt hb.valid hp, DenseBuffer.wanted_of_frameId_lt (by omega) _⟩)
  · exact .inr (h.displays hpos hf p hp)

/-- Composing the parts of a frame brings every task up to date. -/
theorem upToDate (h : Mirrors b c ss) :
    let b' := b.folded render ⟨.none, camera, config⟩
    let c' := DeviceGroup.composed render camera config ss c
    DenseBuffer.ComposedFrom c.beginFrame c' ∧
      ∀ t, t < (DenseBuffer.gridOf b'.desc).area → DenseBuffer.UpToDate b' c' t := by
  intro b' c'
  obtain ⟨hb', -⟩ := DenseBuffer.folded_intact render ⟨.none, camera, config⟩ h.alike.left
  have hd : b'.desc = b.desc := DenseBuffer.desc_folded render ⟨.none, camera, config⟩ h.alike.left
  have hc : DenseBuffer.Intact c.beginFrame := h.alike.right.setLife rfl
  have hcd : c.beginFrame.desc = b'.desc := h.alike.desc.trans hd.symm
  refine DenseBuffer.upToDate_composeAll hb' hc hcd ?_ ?_
  · intro s' hs'
    obtain ⟨s, hs, rfl⟩ := List.mem_map.1 hs'
    exact (h.part render camera config hs).2.2.2
  · intro t ht
    obtain ⟨s, hs, i, hi, heq⟩ := h.exists_device (hd ▸ ht)
    obtain ⟨hsame, -⟩ := h.part render camera config hs
    refine ⟨_, List.mem_map_of_mem hs, i, ?_, (hsame.denseId i).trans heq⟩
    rw [hsame.taskOrder]
    exact hi

/-- When all tiles of a frame are in, the two images are the same, on display as well if it is the pixels'. -/
theorem sameImage (h : Mirrors b c ss) :
    let b' := b.folded render ⟨.none, camera, config⟩
    let c' := DeviceGroup.composed render camera config ss c
    DenseBuffer.SameImage b' c' ∧ (b'.life.pipeline.hasFrameOps = false → c'.display = b'.display) ∧
      c'.life.status.cancelled = false := by
  intro b' c'
  obtain ⟨hb', status, hlife⟩ := DenseBuffer.folded_intact render ⟨.none, camera, config⟩ h.alike.left
  obtain ⟨-, hregions, houtput⟩ := DenseBuffer.boxes_folded render ⟨.none, camera, config⟩ b
  obtain ⟨hcomposed, hready⟩ := h.upToDate render camera config
  have hd : b'.desc = b.desc := DenseBuffer.desc_folded render ⟨.none, camera, config⟩ h.alike.left
  have hlife' : ∃ status, c'.life = { b'.life with status } := by
    obtain ⟨status', hl⟩ := hcomposed.life
    obtain ⟨status'', hl'⟩ := h.alike.life
    refine ⟨status', ?_⟩
    rw [hl, hlife]
    show { Lifecycle.beginFrame c.life with status := status' } = _
    rw [hl']
    rfl
  have hregions' : c'.tracker.regions = b'.tracker.regions := by
    rw [hcomposed.regions, hregions]
    exact congrArg ErrorTracker.regions h.alike.tracker
  have houtput' : c'.output = b'.output := hcomposed.output.trans (h.alike.output.trans houtput.symm)
  have himage := DenseBuffer.sameImage_of_upToDate hb' hcomposed.intact hlife' hregions' houtput' hready
  refine ⟨himage, fun hf => himage.picture.display_eq ?_ ?_, hcomposed.cancelled⟩
  · intro p hp
    rw [hlife] at hf
    exact h.displays_folded render camera config hf (hd ▸ hp)
  · intro p hp
    have hin := (DenseBuffer.contains_taskRegionOf_iff hb'.valid hp).2 rfl
    exact ((hready _ (DenseBuffer.taskAt_lt hb'.valid hp)).pixels p hin).display

/-! ## Frames -/

/-- The devices render the tiles that the dense buffer does, in another order. -/
theorem tiles_perm (h : Mirrors b c ss) :
    (ss.flatMap fun s => (s.beginFrame.schedule config.threshold config.samplesPerPixel).map
      (SparseBuffer.tileOf render (context c.beginFrame camera config) s)).Perm
      ((renderedIds ⟨.none, camera, config⟩ b).map (Frame.tileOf render ⟨.none, camera, config⟩ b)) := by
  have hpart : ∀ s ∈ ss, (s.beginFrame.schedule config.threshold config.samplesPerPixel).map
      (SparseBuffer.tileOf render (context c.beginFrame camera config) s) =
        (((s.taskOrder.map s.denseId).filter (b.wanted config))).map
          (Frame.tileOf render ⟨.none, camera, config⟩ b) := by
    intro s hs
    rw [(h.follows s hs).schedule_eq h.alike.left, List.filter_map, List.map_map, h.alike.context_eq]
    refine List.map_congr_left ?_
    intro i hi
    exact (h.follows s hs).tileOf_eq render camera (List.mem_filter.1 hi).1
  rw [List.flatMap_congr hpart, ← List.map_flatMap, ← List.filter_flatMap,
    DenseBuffer.renderedIds_none _ _ rfl, DenseBuffer.nextTasks_eq]
  exact (h.deal.filter _).map _

/-- The two images are alike at the end of a frame. -/
theorem alike_closed (h : Mirrors b c ss) : (DeviceGroup.closed render camera config ss c).Intact ∧
    DenseBuffer.Alike (after render b ⟨.none, camera, config⟩)
      (complete (DeviceGroup.closed render camera config ss c) .frameFinished) := by
  obtain ⟨himage, hdisplay, -⟩ := h.sameImage render camera config
  have hworld : DenseBuffer.Intact (complete (DeviceGroup.composed render camera config ss c) .worldRendered) :=
    himage.right.setLife rfl
  refine ⟨(hworld.endFrame config.threshold).postProcess, ?_⟩
  rw [DenseBuffer.after_eq]
  exact himage.close hdisplay config.threshold

/-- A device that gets the errors of the closed image follows the buffer that the frame leaves. -/
theorem follows_afterFrame (h : Mirrors b c ss) (hs : s ∈ ss) :
    let s' := DeviceGroup.afterFrame render camera config ss c s
    SameTasks s s' ∧ Follows (after render b ⟨.none, camera, config⟩) s' := by
  intro s'
  have hb := h.alike.left
  obtain ⟨hsame, hframe, hpipeline, hagrees⟩ := h.part render camera config hs
  obtain ⟨hclosed, halike⟩ := h.alike_closed render camera config
  have hd : (after render b ⟨.none, camera, config⟩).desc = (b.folded render ⟨.none, camera, config⟩).desc :=
    (DenseBuffer.after_desc render _ hb).trans (DenseBuffer.desc_folded render _ hb).symm
  have hcd : (DeviceGroup.closed render camera config ss c).desc = (b.folded render ⟨.none, camera, config⟩).desc :=
    halike.desc.trans hd
  have hpixels : (after render b ⟨.none, camera, config⟩).pixels =
      (b.folded render ⟨.none, camera, config⟩).pixels := by rw [DenseBuffer.after_fields]
  obtain ⟨ids, ho⟩ := hagrees.owns
  obtain ⟨hback, hlife, -⟩ := pushBackAll _ hclosed ho (hagrees.desc.trans hcd.symm)
  have hafter : Agrees (after render b ⟨.none, camera, config⟩) s' :=
    hagrees.pushBack hclosed hd hcd hpixels halike.tracker halike.accumIds
  have hlife : s'.life = (SparseBuffer.part render config (context c.beginFrame camera config) s).life := hlife
  refine ⟨hsame.trans hback, ⟨hafter, ?_, ?_⟩⟩
  · rw [hlife, hframe, (h.follows s hs).frameId, DenseBuffer.after_frameId render _ hb]
  · rw [hlife, hpipeline, (h.follows s hs).pixelOps, DenseBuffer.after_pipeline render _ hb]

/-- The devices report what the dense buffer does. -/
theorem stats_eq (h : Mirrors b c ss) {tiles : List Tile}
    (hperm : tiles.Perm ((renderedIds ⟨.none, camera, config⟩ b).map (Frame.tileOf render ⟨.none, camera, config⟩ b))) :
    stats (complete (DeviceGroup.closed render camera config ss c) .frameFinished) tiles =
      DenseBuffer.statsOf render ⟨.none, camera, config⟩ b := by
  obtain ⟨-, -, hcancelled⟩ := h.sameImage render camera config
  obtain ⟨-, halike⟩ := h.alike_closed render camera config
  obtain ⟨status, hlife⟩ := halike.life
  have halone : DenseBuffer.statsOf render ⟨.none, camera, config⟩ b = stats (after render b ⟨.none, camera, config⟩)
      ((renderedIds ⟨.none, camera, config⟩ b).map (Frame.tileOf render ⟨.none, camera, config⟩ b)) := by
    rw [← DenseBuffer.tiles_eq_map]
    rfl
  have hcount : pixelCount tiles = pixelCount ((renderedIds ⟨.none, camera, config⟩ b).map
      (Frame.tileOf render ⟨.none, camera, config⟩ b)) := (hperm.map _).sum_eq
  have hclosed : (complete (DeviceGroup.closed render camera config ss c) .frameFinished).life.status.cancelled =
      (after render b ⟨.none, camera, config⟩).life.status.cancelled := by
    have hstop := DenseBuffer.cancelled_statsOf render ⟨.none, camera, config⟩ h.alike.left
    unfold DeviceGroup.closed
    rw [DenseBuffer.close_eq]
    exact hcancelled.trans hstop.symm
  rw [halone]
  unfold stats
  rw [hperm.length_eq, hcount]
  show (⟨(complete (DeviceGroup.closed render camera config ss c) .frameFinished).life.frameId, _, _,
    (complete (DeviceGroup.closed render camera config ss c) .frameFinished).life.variance,
    (complete (DeviceGroup.closed render camera config ss c) .frameFinished).life.status.cancelled⟩ : FrameStats) = _
  rw [hclosed, hlife]
  rfl

/-- A frame on the devices and one without them report the same and leave the relation intact. -/
theorem frame (h : Mirrors b c ss) : ∃ c' ss',
    DeviceGroup.render .none render camera config ⟨ss⟩ c =
      (⟨ss'⟩, c', DenseBuffer.statsOf render ⟨.none, camera, config⟩ b) ∧
    Mirrors (after render b ⟨.none, camera, config⟩) c' ss' := by
  have hb := h.alike.left
  obtain ⟨-, halike⟩ := h.alike_closed render camera config
  refine ⟨complete (DeviceGroup.closed render camera config ss c) .frameFinished,
    ss.map (DeviceGroup.afterFrame render camera config ss c), ?_, halike, fun _ hf p hp => ?_, ?_, fun s' hs' => ?_⟩
  · rw [DeviceGroup.render_none, h.stats_eq render camera config (h.tiles_perm render camera config)]
  · rw [DenseBuffer.after_desc render _ hb] at hp
    rw [DenseBuffer.after_pipeline render _ hb] at hf
    exact DenseBuffer.displays_after render _ hb hf (h.displays_folded render camera config hf hp)
  · have hsame : ∀ s ∈ ss, (DeviceGroup.afterFrame render camera config ss c s).taskOrder.map
        (DeviceGroup.afterFrame render camera config ss c s).denseId = s.taskOrder.map s.denseId := by
      intro s hs
      obtain ⟨hsame, -⟩ := h.follows_afterFrame render camera config hs
      rw [hsame.taskOrder]
      exact List.map_congr_left fun i _ => hsame.denseId i
    rw [List.flatMap_map, List.flatMap_congr hsame, DenseBuffer.taskOrder, DenseBuffer.after_desc render _ hb]
    exact h.deal
  · obtain ⟨s, hs, rfl⟩ := List.mem_map.1 hs'
    exact (h.follows_afterFrame render camera config hs).2

/-! ## Clearing -/

theorem clear (h : Mirrors b c ss) : Mirrors b.clear c.clear (ss.map SparseBuffer.clear) := by
  obtain ⟨status, hlife⟩ := h.alike.life
  refine ⟨⟨⟨h.alike.left.clear, h.alike.right.clear, ⟨status, ?_⟩, ?_, ?_, h.alike.shown, h.alike.output⟩,
    h.alike.display⟩, fun (hpos : (0 : Int) ≤ -1) => absurd hpos (by decide), ?_, fun s' hs' => ?_⟩
  · show c.life.clear = _
    rw [hlife]
    rfl
  · exact congrArg ErrorTracker.clear h.alike.tracker
  · exact congrArg (fun ids : Array Int => Array.replicate ids.size 0) h.alike.accumIds
  · have hsame : ∀ s ∈ ss, s.clear.taskOrder.map s.clear.denseId = s.taskOrder.map s.denseId := by
      intro s _
      rw [(sameTasks_clear s).taskOrder]
      exact List.map_congr_left fun i _ => (sameTasks_clear s).denseId i
    rw [List.flatMap_map, List.flatMap_congr hsame]
    exact h.deal
  · obtain ⟨s, hs, rfl⟩ := List.mem_map.1 hs'
    exact (h.follows s hs).clear

end Mirrors

end AdaptiveFrame
