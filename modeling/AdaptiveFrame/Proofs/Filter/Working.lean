import AdaptiveFrame.Filter.Worker
import AdaptiveFrame.Proofs.Grid.RasterCells

/-!
# What workers make of a frame

A worker empties its storage before it fills it, so whatever earlier frames left there, it makes of an image
what its operation does (`FrameWorker.process_eq`). Workers in order make what a pipeline of their operations
does.
-/

namespace AdaptiveFrame

namespace FrameWorker

variable {α : Type}

@[simp] theorem op_fresh (o : FrameOp) : (fresh o).op = o := by cases o <;> rfl

/-- Nothing of what was stored before is left. -/
theorem refill_eq (scratch values : Array α) : refill scratch values = values := by
  have hempty : scratch.shrink 0 = #[] := by
    rw [← Array.size_eq_zero_iff]
    simp
  rw [refill, hempty, Array.empty_append]

theorem ofFirst?_cells (g : Raster α) : Raster.ofFirst? g.region g.cells = some g := by
  have htake : g.cells.take g.region.area = g.cells := by rw [← g.size_eq, Array.take_eq_extract, Array.extract_size]
  unfold Raster.ofFirst? Raster.ofCells?
  rw [dif_pos (by rw [htake]; exact g.size_eq)]
  exact congrArg some (Raster.ext_cells rfl htake)

/-- A storage that holds a raster of the image serves as the raster. -/
theorem recolorFrom_cells {color : Raster Vec4} {g : Raster α} (h : g.region = color.region)
    (f : Raster α → Raster Vec4) : recolorFrom color g.cells f = f g := by
  unfold recolorFrom
  rw [← h, ofFirst?_cells]

/-- Whatever its storage holds, a worker makes of an image what its operation does. -/
theorem process_eq (worker : FrameWorker) (image : FrameImage) :
    (worker.process image).1.op = worker.op ∧ (worker.process image).2 = worker.op.apply image := by
  cases worker with
  | markRed => exact ⟨rfl, rfl⟩
  | depth => exact ⟨rfl, rfl⟩
  | blur scratch =>
    refine ⟨rfl, ?_⟩
    show recolorFrom image.color (refill scratch image.color.cells) _ = _
    rw [refill_eq]
    exact recolorFrom_cells rfl _
  | denoise scratch =>
    refine ⟨rfl, ?_⟩
    show recolorFrom image.color (refill scratch (image.color.map Vec4.xyz).cells) _ = _
    rw [refill_eq]
    exact recolorFrom_cells (g := image.color.map Vec4.xyz) rfl _

/-- Workers in order make of an image what a pipeline of their operations does, and stay workers of them. -/
theorem processAll_eq (workers : List FrameWorker) (image : FrameImage) (pixelOps : List PixelOp) :
    (processAll workers image).1.map op = workers.map op ∧
      (processAll workers image).2 = Pipeline.finish ⟨pixelOps, workers.map op⟩ image := by
  induction workers generalizing image with
  | nil => exact ⟨rfl, rfl⟩
  | cons worker workers ih =>
    obtain ⟨hop, hcolor⟩ := worker.process_eq image
    obtain ⟨hops, hrest⟩ := ih { image with color := (worker.process image).2 }
    refine ⟨congrArg₂ List.cons hop hops, ?_⟩
    show (processAll workers { image with color := (worker.process image).2 }).2 = _
    rw [hrest, hcolor]
    rfl

end FrameWorker

end AdaptiveFrame
