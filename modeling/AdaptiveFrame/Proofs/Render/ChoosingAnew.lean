import AdaptiveFrame.Proofs.Render.Clearing

/-!
# Choosing tiles in the middle of a run

Choosing tiles forgets samples, errors and sample counts, but unlike clearing it goes on counting frames. All that
the number of a frame decides is whether tasks may be dropped, so the buffer goes on as a new one with these tiles
(`Ahead`) up to the first frame that drops a task which the new one still renders (`DropsEarly`).
-/

namespace AdaptiveFrame

open AdaptiveFrame.Frame FrameBuffer

namespace PixelRenderer

variable {render : PixelRenderer} {k : Int}

/-- A renderer that takes every frame for the one `k` frames later. -/
def later (k : Int) (render : PixelRenderer) : PixelRenderer := fun ctx =>
  render { ctx with frameId := ctx.frameId + k }

theorem tile_later (ctx : FrameContext) :
    (render.later k).tile ctx = render.tile { ctx with frameId := ctx.frameId + k } := rfl

end PixelRenderer

namespace SparseBuffer

variable {s s' t u : SparseBuffer} {ids : List Nat} {k : Int} {config : SamplingConfig}

/-! ## How frames are counted -/

/-- A step leaves the number of the frame alone, counts up or starts over. -/
theorem Step.frameId (hs : Step s s') : s'.life.frameId = s.life.frameId ∨
    s'.life.frameId = s.life.frameId + 1 ∨ s'.life.frameId = -1 := by
  have hkept : ∀ {x : SparseBuffer}, (∃ status, x.life = { s.life with status }) →
      x.life.frameId = s.life.frameId ∨ x.life.frameId = s.life.frameId + 1 ∨ x.life.frameId = -1 := by
    rintro x ⟨status, hlife⟩
    rw [hlife]
    exact .inl rfl
  cases hs with
  | setTiles ids => exact .inl rfl
  | setImageOps ops => exact .inl rfl
  | commit hc =>
    obtain ⟨_, -, rfl⟩ := eq_of_commit hc
    exact .inl rfl
  | beginFrame => exact .inr (.inl rfl)
  | accumulate t => exact hkept (accumulate_keeps s t).2
  | tryAccumulate hc =>
    obtain ⟨k, r, hk, rfl⟩ := eq_of_tryAccumulate hc
    exact hkept (absorbAt_keeps hk _).2
  | accumulateAll tiles => exact hkept (accumulateAll_keeps s tiles).2
  | setTaskError i e =>
    unfold SparseBuffer.setTaskError
    split
    · exact .inl rfl
    · exact .inl rfl
  | setTaskAccumId i n => exact .inl rfl
  | endFrame =>
    rw [endFrame_eq]
    exact .inl rfl
  | setStatus status => exact .inl rfl
  | clear => exact .inr (.inr rfl)
  | unmap => exact .inl rfl

/-- The buffer was just built, with the given tiles and the description and the operations that `s` has. -/
def NewLike (s : SparseBuffer) (ids : List Nat) (u : SparseBuffer) : Prop := ∃ u₀ ops,
  SparseBuffer.create s.desc ids = .ok u₀ ∧ (setImageOps u₀ ops).commit = .ok u ∧ u.life.pipeline = s.life.pipeline

/-- Frames do not change what a buffer has to be built with. -/
theorem NewLike.after (render : PixelRenderer) (shot : Shot) (h : s.NewLike ids u) :
    (Frame.after render s shot).NewLike ids u := by
  obtain ⟨u₀, ops, hcreate, hcommit, hpipeline⟩ := h
  obtain ⟨hsame, ⟨_, _, hlife⟩, -⟩ := after_frame render shot s
  refine ⟨u₀, ops, ?_, hcommit, ?_⟩
  · rw [hsame.desc]
    exact hcreate
  · rw [hlife]
    exact hpipeline

/-! ## The same work -/

/-- A buffer with the tiles and samples of another that has counted `k` frames more. -/
structure Ahead (k : Int) (s t : SparseBuffer) : Prop where
  left : Owns t.tileIds s
  right : Owns t.tileIds t
  desc : s.desc = t.desc
  frameId : s.life.frameId = t.life.frameId + k
  pipeline : s.life.pipeline = t.life.pipeline
  tileIds : s.tileIds = t.tileIds
  regions : s.tracker.regions = t.tracker.regions
  patches : ∀ i < t.tileIds.length * t.desc.tasksPerTile.area, s.patch i = t.patch i

namespace Ahead

variable {render : PixelRenderer} {shot : Shot}

theorem tileRegions (h : Ahead k s t) : s.tiles.toList.map OwnedTile.region = t.tiles.toList.map OwnedTile.region := by
  rw [h.left.regions, h.right.regions, h.desc]

theorem known_eq (h : Ahead k s t) : s.tracker = t.tracker ∧ s.accumIds = t.accumIds :=
  h.right.known_ext h.left h.desc h.regions (fun i hi => congrArg Patch.error (h.patches i hi))
    fun i hi => congrArg Patch.accumId (h.patches i hi)

theorem taskOrder_eq (h : Ahead k s t) : s.taskOrder = t.taskOrder := by
  unfold taskOrder
  rw [h.desc]
  exact taskOrderOf_congr h.tileRegions

/-- Tiles at the same place hold the same samples. -/
theorem tiles_eq (h : Ahead k s t) :
    s.tiles.map (fun u => (u.id, u.store)) = t.tiles.map fun u => (u.id, u.store) := by
  refine Array.ext_getElem? fun j => ?_
  rw [Array.getElem?_map, Array.getElem?_map]
  cases hv : t.tiles[j]? with
  | none =>
    have hsize : s.tiles.size = t.tiles.size := by rw [h.left.size_tiles, h.right.size_tiles]
    rw [Array.getElem?_eq_none (hsize ▸ Array.getElem?_eq_none_iff.1 hv)]
  | some v =>
    have hid : (s.tiles[j]?).map OwnedTile.id = (t.tiles[j]?).map OwnedTile.id := by
      have hj := congrArg (fun l : List Nat => l[j]?) h.tileIds
      simpa [SparseBuffer.tileIds] using hj
    have hregion := region_getElem? h.tileRegions j
    rw [hv] at hid hregion
    obtain ⟨u, hu, hid⟩ := Option.map_eq_some_iff.1 hid
    rw [hu] at hregion
    have hregion : u.region = v.region := Option.some.inj hregion
    have hstore : u.store = v.store := by
      refine Raster.ext_getD .blank hregion fun p hp => ?_
      obtain ⟨i, hi, -, hget, hget'⟩ := h.left.exists_task_of_tiles h.right h.desc.symm hu hv hp
      have hlt : i < t.tileIds.length * t.desc.tasksPerTile.area := h.desc ▸ h.left.local_lt hi
      rw [← hget, ← hget', h.patches i hlt]
    rw [hu, Option.map_some, Option.map_some, hid, hstore]

/-- A frame that asks for the same tasks makes the same of them. -/
theorem after (h : Ahead k s t)
    (hschedule : s.beginFrame.schedule shot.config.threshold shot.config.samplesPerPixel =
      t.beginFrame.schedule shot.config.threshold shot.config.samplesPerPixel) :
    Ahead k (Frame.after render s shot) (Frame.after (render.later k) t shot) := by
  obtain ⟨hs, ⟨_, _, hlife⟩, hids, hregions⟩ := after_frame render shot s
  obtain ⟨ht, ⟨_, _, hlife'⟩, hids', hregions'⟩ := after_frame (render.later k) shot t
  have htask : ∀ i, s.beginFrame.task i = t.beginFrame.task i := by
    have hd : s.beginFrame.desc = t.beginFrame.desc := h.desc
    refine task_congr hd ?_ h.known_eq.2
    rw [(sameTasks_beginFrame s).regions, (sameTasks_beginFrame t).regions, h.tileRegions]
  have hrendered : renderedIds shot s = renderedIds shot t := by
    have htasks : tasks s.beginFrame shot.config = tasks t.beginFrame shot.config := by
      show (s.beginFrame.schedule _ _).map s.beginFrame.task = (t.beginFrame.schedule _ _).map t.beginFrame.task
      rw [hschedule, funext htask]
    exact congrArg (fun ts => (reached shot.stop 0 ts).map RenderTask.id) htasks
  have htile : ∀ i, Frame.tileOf render shot s i = Frame.tileOf (render.later k) shot t i := by
    intro i
    have hcontext : context s.beginFrame shot.camera shot.config =
        { context t.beginFrame shot.camera shot.config with frameId := t.life.frameId + 1 + k } := by
      show (⟨shot.camera, s.desc.size, s.life.frameId + 1, _⟩ : FrameContext) =
        ⟨shot.camera, t.desc.size, t.life.frameId + 1 + k, _⟩
      rw [h.desc, h.frameId, Int.add_right_comm]
      rfl
    show render.tile (context s.beginFrame shot.camera shot.config) (s.beginFrame.task i).region _ =
      (render.later k).tile (context t.beginFrame shot.camera shot.config) (t.beginFrame.task i).region _
    rw [PixelRenderer.tile_later, hcontext]
    show render.tile _ (s.beginFrame.task i).region (s.beginFrame.task i).accumId = _
    rw [htask]
    rfl
  refine ⟨?_, ?_, ?_, ?_, ?_, ?_, ?_, fun i hi => ?_⟩
  · rw [hids']
    exact hs.owns h.left
  · rw [hids']
    exact ht.owns h.right
  · rw [hs.desc, ht.desc, h.desc]
  · rw [hlife, hlife']
    show s.life.frameId + 1 = t.life.frameId + 1 + k
    rw [h.frameId, Int.add_right_comm]
  · rw [hlife, hlife']
    exact h.pipeline
  · rw [hids, hids', h.tileIds]
  · rw [hregions, hregions', h.regions]
  · rw [hids', ht.desc] at hi
    rw [patch_after render shot h.left (h.desc.symm ▸ hi), patch_after (render.later k) shot h.right hi, hrendered,
      htile, h.patches i hi, h.desc, h.pipeline]

end Ahead

end SparseBuffer

end AdaptiveFrame
