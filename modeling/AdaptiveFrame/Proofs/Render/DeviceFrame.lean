import AdaptiveFrame.Proofs.Buffer.Composing
import AdaptiveFrame.Proofs.Buffer.Owning
import AdaptiveFrame.Proofs.Render.DenseFrame

/-!
# The part of a device in a frame

A device that agrees with a dense buffer (`Follows`) schedules the same of its own tasks, renders the same
tiles for them and agrees with the dense buffer again when its tiles are in. Given the refined errors it also
agrees with the buffer that the frame leaves.
-/

namespace AdaptiveFrame

open AdaptiveFrame.Frame

theorem DeviceGroup.renderPart_eq (stop : Interruption) (render : PixelRenderer) (ctx : FrameContext)
    (config : SamplingConfig) (first : Nat) (s : SparseBuffer) : renderPart stop render ctx config first s =
    let rendered := tiles render ctx (reached stop first (tasks s.beginFrame config))
    ⟨(s.beginFrame.accumulateAll rendered).endFrame, (tasks s.beginFrame config).length, rendered⟩ := rfl

/-- The parts of a frame are those of the devices, in their order. -/
theorem DeviceGroup.exists_renderPart {stop : Interruption} {render : PixelRenderer} {ctx : FrameContext}
    {config : SamplingConfig} {first k : Nat} {ds : List SparseBuffer} {part : Part}
    (h : (renderParts stop render ctx config first ds)[k]? = some part) :
    ∃ d first', ds[k]? = some d ∧ part = renderPart stop render ctx config first' d := by
  induction ds generalizing first k with
  | nil => simp [renderParts] at h
  | cons d ds ih =>
    cases k with
    | zero => exact ⟨d, first, rfl, (Option.some.inj h).symm⟩
    | succ k => exact ih h

namespace SparseBuffer

variable {b : DenseBuffer} {s s' : SparseBuffer} {i j : Nat} {config : SamplingConfig}

/-- A device between two frames. -/
structure Follows (b : DenseBuffer) (s : SparseBuffer) : Prop extends Agrees b s where
  frameId : s.life.frameId = b.life.frameId
  pixelOps : s.life.pipeline.pixelOps = b.life.pipeline.pixelOps

theorem Agrees.of_same (h : Agrees b s) (hsame : SameTasks s s') (hp : ∀ i ∈ s.taskOrder, s'.patch i = s.patch i) :
    Agrees b s' := by
  obtain ⟨⟨ids, ho⟩, hd, hpatches⟩ := h
  refine ⟨⟨ids, hsame.owns ho⟩, hsame.desc.trans hd, ?_⟩
  intro i hi
  rw [hsame.taskOrder] at hi
  rw [hp i hi, hsame.denseId]
  exact hpatches i hi

/-! ## Opening and closing -/

theorem storeAt_setAccumIds (tiles : Array OwnedTile) (n : Int) (k : Nat) :
    storeAt (tiles.map fun u => { u with accumId := n }) k = storeAt tiles k := by
  unfold storeAt
  rw [Array.getElem?_map]
  cases tiles[k]? <;> rfl

theorem SameTasks.pixels_patch (h : SameTasks s s') (hstore : ∀ k, storeAt s'.tiles k = storeAt s.tiles k) (i : Nat) :
    (s'.patch i).pixels = (s.patch i).pixels := by
  show (storeAt s'.tiles _).restrict _ _ = (storeAt s.tiles _).restrict _ _
  rw [hstore, h.taskRegionOf, h.desc]

theorem patch_beginFrame (s : SparseBuffer) (i : Nat) : s.beginFrame.patch i = s.patch i :=
  Patch.ext ((sameTasks_beginFrame s).pixels_patch (fun _ => storeAt_setAccumIds ..) i) rfl rfl

/-! ## Scheduling -/

theorem Follows.isEnabled_eq (h : Follows b s) (hb : b.Intact) (hi : i ∈ s.taskOrder) :
    s.tracker.isEnabled = b.tracker.isEnabled := by
  obtain ⟨ids, ho⟩ := h.owns
  have hlocal := ho.local_lt hi
  have hdense := ho.denseId_lt hi
  rw [h.desc] at hdense hlocal
  rw [ErrorTracker.isEnabled_eq, ErrorTracker.isEnabled_eq, ho.grid, hb.grid, h.desc, DenseBuffer.trackedGrid]
  cases b.desc.has .variance with
  | false => rfl
  | true =>
    have hleft : 0 < (⟨ids.length * b.desc.tasksPerTile.area, 1⟩ : Point).area := by
      rw [Point.area, Nat.mul_one]
      exact Nat.zero_lt_of_lt hlocal
    rw [if_pos rfl, if_pos rfl, decide_eq_true hleft, decide_eq_true (Nat.zero_lt_of_lt hdense)]

/-- Whether the next frame may leave tasks out. -/
def adaptive (s : SparseBuffer) (config : SamplingConfig) : Bool :=
  s.tracker.isEnabled && adaptiveAllowed (s.life.frameId + 1) config.threshold config.samplesPerPixel

/-- Whether the next frame schedules a task that has pixels. -/
def wanted (s : SparseBuffer) (config : SamplingConfig) (i : Nat) : Bool :=
  !s.adaptive config || config.threshold < s.tracker.get i

theorem schedule_beginFrame (s : SparseBuffer) (config : SamplingConfig) :
    s.beginFrame.schedule config.threshold config.samplesPerPixel = s.taskOrder.filter (s.wanted config) := by
  unfold schedule wanted
  rw [(sameTasks_beginFrame s).taskOrder]
  show (if s.adaptive config = true then _ else _) = _
  cases s.adaptive config with
  | true => simp only [if_true, Bool.not_true, Bool.false_or]; rfl
  | false => exact (List.filter_eq_self.2 fun _ _ => rfl).symm

/-- A device schedules its share of the tasks that the dense buffer does. -/
theorem Follows.schedule_eq (h : Follows b s) (hb : b.Intact) (config : SamplingConfig) :
    s.beginFrame.schedule config.threshold config.samplesPerPixel =
      s.taskOrder.filter fun i => b.wanted config (s.denseId i) := by
  rw [schedule_beginFrame]
  refine List.filter_congr ?_
  intro i hi
  have herror : s.tracker.get i = b.tracker.get (s.denseId i) := Patch.error_visible (h.patches i hi)
  rw [wanted, adaptive, h.isEnabled_eq hb hi, h.frameId, herror]
  rfl

/-! ## Rendering -/

/-- The tile that a device renders for a task. -/
def tileOf (render : PixelRenderer) (ctx : FrameContext) (s : SparseBuffer) (i : Nat) : Tile :=
  render.tile ctx (taskRegionOf s.desc s.tiles i) (s.taskAccumId i)

/-- A device when all tiles of its part are in. -/
def folded (render : PixelRenderer) (ctx : FrameContext) (config : SamplingConfig) (s : SparseBuffer) : SparseBuffer :=
  s.beginFrame.accumulateAll ((s.beginFrame.schedule config.threshold config.samplesPerPixel).map
    (tileOf render ctx s))

theorem tiles_eq (render : PixelRenderer) (ctx : FrameContext) (config : SamplingConfig) (s : SparseBuffer) :
    Frame.tiles render ctx (tasks s.beginFrame config) =
      (s.beginFrame.schedule config.threshold config.samplesPerPixel).map (tileOf render ctx s) := by
  rw [Frame.tiles, tasks, List.map_map]
  refine List.map_congr_left ?_
  intro i _
  show render.tile ctx (taskRegionOf s.beginFrame.desc s.beginFrame.tiles i) _ = _
  rw [(sameTasks_beginFrame s).taskRegionOf]
  rfl

variable (render : PixelRenderer) (camera : Camera)

/-- A device renders the tile that the dense buffer would. -/
theorem Follows.tileOf_eq (h : Follows b s) (hi : i ∈ s.taskOrder) :
    tileOf render (context b.beginFrame camera config) s i =
      Frame.tileOf render ⟨.none, camera, config⟩ b (s.denseId i) := by
  obtain ⟨ids, ho⟩ := h.owns
  have haccum : s.taskAccumId i = b.taskAccumId (s.denseId i) := Patch.accumId_visible (h.patches i hi)
  rw [tileOf, ho.region_task hi, h.desc, haccum]
  rfl

/-- When the tiles of a part are in, the device agrees with the dense buffer whose tiles are all in. -/
theorem Follows.folded (h : Follows b s) (hb : b.Intact) (config : SamplingConfig) :
    let s' := SparseBuffer.folded render (context b.beginFrame camera config) config s
    SameTasks s s' ∧ (∃ status, s'.life = { s.life with frameId := s.life.frameId + 1, status }) ∧
      Agrees (b.folded render ⟨.none, camera, config⟩) s' := by
  intro s'
  obtain ⟨ids, ho⟩ := h.owns
  have hopen := sameTasks_beginFrame s
  have hschedule := h.schedule_eq hb config
  have hsub : ∀ i ∈ s.beginFrame.schedule config.threshold config.samplesPerPixel, i ∈ s.beginFrame.taskOrder := by
    intro i hi
    rw [hschedule] at hi
    rw [hopen.taskOrder]
    exact (List.mem_filter.1 hi).1
  have hnd : (s.beginFrame.schedule config.threshold config.samplesPerPixel).Nodup := by
    rw [hschedule]
    exact ho.nodup_taskOrder.filter _
  have hregion : ∀ i ∈ s.beginFrame.schedule config.threshold config.samplesPerPixel,
      (tileOf render (context b.beginFrame camera config) s i).region =
        SparseBuffer.taskRegionOf s.beginFrame.desc s.beginFrame.tiles i := fun i _ => (hopen.taskRegionOf i).symm
  obtain ⟨hsame, status, hlife⟩ := accumulateAll_keeps s.beginFrame
    ((s.beginFrame.schedule config.threshold config.samplesPerPixel).map
      (tileOf render (context b.beginFrame camera config) s))
  have hd := DenseBuffer.desc_folded render ⟨.none, camera, config⟩ hb
  have hsame : SameTasks s s' := hopen.trans hsame
  refine ⟨hsame, ⟨status, hlife⟩, ⟨ids, hsame.owns ho⟩, hsame.desc.trans (h.desc.trans hd.symm), ?_⟩
  intro i hi
  rw [hsame.taskOrder] at hi
  have hdense := ho.denseId_lt hi
  rw [h.desc] at hdense
  have hlocal := (hopen.owns ho).patch_accumulateAll hnd hsub hregion
    ((hopen.owns ho).local_lt (by rw [hopen.taskOrder]; exact hi))
  rw [patch_beginFrame] at hlocal
  rw [hd, hsame.denseId, DenseBuffer.patch_folded render ⟨.none, camera, config⟩ hb hdense,
    DenseBuffer.renderedIds_none _ _ rfl]
  show (SparseBuffer.patch (SparseBuffer.accumulateAll _ _) i).visible b.desc = _
  rw [hlocal, hschedule]
  by_cases hw : b.wanted config (s.denseId i) = true
  · have hmem : s.denseId i ∈ b.nextTasks config := DenseBuffer.mem_nextTasks.2 ⟨hdense, hw⟩
    have hmem' : i ∈ s.taskOrder.filter fun i => b.wanted config (s.denseId i) := List.mem_filter.2 ⟨hi, hw⟩
    rw [if_pos hmem, if_pos hmem', h.tileOf_eq render camera hi]
    have hreceive := Patch.visible_receive h.pixelOps.symm (h.patches i hi).symm
      (Frame.tileOf render ⟨.none, camera, config⟩ b (s.denseId i))
    rw [← h.desc] at hreceive ⊢
    exact hreceive.symm
  · have hmem : s.denseId i ∉ b.nextTasks config := fun hc => hw (DenseBuffer.mem_nextTasks.1 hc).2
    have hmem' : i ∉ s.taskOrder.filter fun i => b.wanted config (s.denseId i) := fun hc => hw (List.mem_filter.1 hc).2
    rw [if_neg hmem, if_neg hmem']
    exact h.patches i hi

/-! ## Giving the errors back -/

theorem Owns.get_untracked {ids : List Nat} (h : Owns ids s) (hv : s.desc.has .variance = false) (i : Nat) :
    s.tracker.get i = Binary32.posInf := by
  have hgrid := h.grid
  rw [hv, if_neg (by decide)] at hgrid
  have hsize : s.tracker.errors.size = 0 := by rw [s.tracker.size_eq, hgrid]; rfl
  have hnone : s.tracker.errors[i]? = none := Array.getElem?_eq_none (by rw [hsize]; exact Nat.zero_le i)
  rw [ErrorTracker.get, hnone]
  rfl

theorem pushBack_eq (c : DenseBuffer) {ids : List Nat} (ho : Owns ids s) (hd : s.desc = c.desc) (hi : i ∈ s.taskOrder) :
    DeviceGroup.pushBack c s i =
      { s with
        tracker := s.tracker.update ⟨i, 0⟩ (c.tracker.get (s.denseId i))
        accumIds := s.accumIds.setIfInBounds i (c.taskAccumId (s.denseId i)) } := by
  have hlt := ho.local_lt hi
  rw [← ho.accumIds] at hlt
  unfold DeviceGroup.pushBack
  rw [DenseBuffer.taskIdAt?_denseId ⟨ids, ho⟩ hd hi]
  show (s.setTaskError i _).setTaskAccumId i _ = _
  rw [setTaskError, if_pos hlt]
  rfl

/-- A device that was given the errors and sample counts of an image has them for all its tasks. -/
theorem pushBackAll (c : DenseBuffer) (hc : c.Intact) {ids : List Nat} (ho : Owns ids s) (hd : s.desc = c.desc) :
    let s' := s.taskOrder.foldl (DeviceGroup.pushBack c) s
    SameTasks s s' ∧ s'.life = s.life ∧ s'.tiles = s.tiles ∧ ∀ j ∈ s.taskOrder,
      s'.tracker.get j = c.tracker.get (s.denseId j) ∧ s'.taskAccumId j = c.taskAccumId (s.denseId j) := by
  intro s'
  let I : SparseBuffer → Prop := fun x => SameTasks s x ∧ x.life = s.life ∧ x.tiles = s.tiles
  have hstep : ∀ x, ∀ i ∈ s.taskOrder, I x → DeviceGroup.pushBack c x i =
      { x with
        tracker := x.tracker.update ⟨i, 0⟩ (c.tracker.get (s.denseId i))
        accumIds := x.accumIds.setIfInBounds i (c.taskAccumId (s.denseId i)) } := by
    rintro x i hi ⟨hx, -, -⟩
    rw [pushBack_eq c (hx.owns ho) (hx.desc.trans hd) (by rw [hx.taskOrder]; exact hi), hx.denseId]
  have hinv : ∀ x, ∀ i ∈ s.taskOrder, I x → I (DeviceGroup.pushBack c x i) := by
    intro x i hi hI
    rw [hstep x i hi hI]
    obtain ⟨hx, hl, ht⟩ := hI
    exact ⟨hx.trans ⟨rfl, rfl, rfl, rfl, Array.size_setIfInBounds ..⟩, hl, ht⟩
  have hread : ∀ j ∈ s.taskOrder, ∀ x, ∀ i ∈ s.taskOrder, I x → (i = j ∨
      (x.tracker.get j = c.tracker.get (s.denseId j) ∧ x.taskAccumId j = c.taskAccumId (s.denseId j))) →
      (DeviceGroup.pushBack c x i).tracker.get j = c.tracker.get (s.denseId j) ∧
        (DeviceGroup.pushBack c x i).taskAccumId j = c.taskAccumId (s.denseId j) := by
    intro j hj x i hi hI hor
    have hxj : j ∈ x.taskOrder := by rw [hI.1.taskOrder]; exact hj
    have hox := hI.1.owns ho
    have hinv := hinv x i hi hI
    rw [hstep x i hi hI] at hinv ⊢
    have hlt := hox.local_lt hxj
    rw [← hox.accumIds] at hlt
    constructor
    · cases hv : s.desc.has .variance with
      | false =>
        rw [(hinv.1.owns ho).get_untracked (by rw [hinv.1.desc]; exact hv), hc.get_untracked (by rw [← hd]; exact hv)]
      | true =>
        refine (hox.get_update hxj _ (by rw [hI.1.desc]; exact hv)).trans ?_
        by_cases hij : i = j
        · rw [if_pos hij, hij]
        · rw [if_neg hij]
          exact (hor.resolve_left hij).1
    · show ((x.accumIds.setIfInBounds i (c.taskAccumId (s.denseId i)))[j]?).getD 0 = _
      rw [Array.getElem?_setIfInBounds]
      by_cases hij : i = j
      · rw [if_pos hij, if_pos (hij ▸ hlt), hij, Option.getD_some]
      · rw [if_neg hij]
        exact (hor.resolve_left hij).2
  have hstart : I s := ⟨.refl s, rfl, rfl⟩
  obtain ⟨hsame, hlife, htiles⟩ : I s' := Writes.inv_foldl hstart hinv
  refine ⟨hsame, hlife, htiles, ?_⟩
  intro j hj
  exact Writes.holds_foldl_of_hit (I := I)
    (P := fun x => x.tracker.get j = c.tracker.get (s.denseId j) ∧ x.taskAccumId j = c.taskAccumId (s.denseId j))
    hstart hinv (fun x i hi hx hP => hread j hj x i hi hx (.inr hP))
    ⟨j, hj, fun x hx => hread j hj x j hj hx (.inl rfl)⟩

/-- With the errors and sample counts of an image a device agrees with it, if it did so on the pixels. -/
theorem Agrees.pushBack {c b' : DenseBuffer} (h : Agrees b s) (hc : c.Intact) (hd : b'.desc = b.desc)
    (hcd : c.desc = b.desc) (hp : b'.pixels = b.pixels) (ht : c.tracker = b'.tracker) (ha : c.accumIds = b'.accumIds) :
    Agrees b' (s.taskOrder.foldl (DeviceGroup.pushBack c) s) := by
  obtain ⟨⟨ids, ho⟩, hsd, hpatches⟩ := h
  obtain ⟨hsame, -, htiles, hread⟩ := pushBackAll c hc ho (hsd.trans hcd.symm)
  refine ⟨⟨ids, hsame.owns ho⟩, hsame.desc.trans (hsd.trans hd.symm), ?_⟩
  intro i hi
  rw [hsame.taskOrder] at hi
  obtain ⟨herror, haccum⟩ := hread i hi
  have hpixels := hsame.pixels_patch (fun k => by rw [htiles]) i
  have hpixels' : (b'.patch (s.denseId i)).pixels = (b.patch (s.denseId i)).pixels := by
    show b'.pixels.restrict _ _ = b.pixels.restrict _ _
    rw [hp, hd]
  rw [hsame.denseId, hd]
  refine Patch.visible_of_pixels (hpatches i hi) hpixels hpixels' ?_ ?_
  · exact herror.trans (congrArg (fun t : ErrorTracker => t.get (s.denseId i)) ht)
  · refine haccum.trans ?_
    show (c.accumIds[_]?).getD 0 = (b'.accumIds[_]?).getD 0
    rw [ha]

/-! ## Clearing -/

theorem get_settleEmptyTasks (d : BufferDesc) (tiles : Array OwnedTile) (t : ErrorTracker)
    (hi : 0 < (taskRegionOf d tiles i).area) : (settleEmptyTasks d tiles t).get i = t.get i := by
  unfold settleEmptyTasks ErrorTracker.mapErrors ErrorTracker.get
  dsimp only
  rw [Array.getElem?_mapIdx]
  cases t.errors[i]? with
  | none => rfl
  | some e => simp [Region.isEmpty_eq_false.2 hi]

/-- Cleared together, a device and the image agree. -/
theorem Follows.clear (h : Follows b s) : Follows b.clear s.clear := by
  obtain ⟨ids, ho⟩ := h.owns
  have hsame := sameTasks_clear s
  refine ⟨⟨⟨ids, hsame.owns ho⟩, hsame.desc.trans h.desc, fun i hi => ?_⟩, rfl, h.pixelOps⟩
  rw [hsame.taskOrder] at hi
  have hpixels := hsame.pixels_patch (fun _ => storeAt_setAccumIds ..) i
  rw [hsame.denseId]
  refine Patch.visible_of_pixels (h.patches i hi) hpixels rfl ?_ ?_
  · refine (get_settleEmptyTasks _ _ _ (ho.mem_taskOrder.1 hi).2).trans ?_
    exact (ErrorTracker.get_fresh ..).trans (ErrorTracker.get_fresh ..).symm
  · exact (getD_replicate_zero ..).trans (getD_replicate_zero ..).symm

end SparseBuffer

end AdaptiveFrame
