import AdaptiveFrame.Filter.Pipeline

/-!
# Frame operations at work

An operation that reads the neighbors of a pixel works from a copy of the color. The storage of the copy
stays with the operation from frame to frame; every frame empties it and fills it anew. A worker is an
operation together with this storage.
-/

namespace AdaptiveFrame

/-- A frame operation with the storage that it keeps. -/
inductive FrameWorker where
  | markRed
  | blur (scratch : Array Vec4)
  | depth
  | denoise (scratch : Array Vec3)

namespace FrameWorker

/-- A worker that has seen no frame yet. -/
def fresh : FrameOp → FrameWorker
  | .markRed => markRed
  | .blur => blur #[]
  | .depth => depth
  | .denoise => denoise #[]

/-- The operation of a worker. -/
def op : FrameWorker → FrameOp
  | markRed => .markRed
  | blur _ => .blur
  | depth => .depth
  | denoise _ => .denoise

/-- Empties a storage and fills it with other values. -/
def refill {α : Type} (scratch values : Array α) : Array α := scratch.shrink 0 ++ values

/-- Recolors an image from the values at the start of a storage, which has to hold one for every pixel. -/
def recolorFrom {α : Type} (color : Raster Vec4) (scratch : Array α) (f : Raster α → Raster Vec4) : Raster Vec4 :=
  match Raster.ofFirst? color.region scratch with
  | some copy => f copy
  | none => color

/-- One frame of a worker: what it keeps, and the new color of the image. -/
def process (worker : FrameWorker) (image : FrameImage) : FrameWorker × Raster Vec4 :=
  match worker with
  | markRed => (markRed, FrameOp.markRed.apply image)
  | blur scratch =>
    let scratch := refill scratch image.color.cells
    (blur scratch, recolorFrom image.color scratch fun copy =>
      image.color.mapPoints fun p _ => FrameImage.boxMean copy p)
  | depth => (depth, FrameOp.depth.apply image)
  | denoise scratch =>
    let scratch := refill scratch (image.color.cells.map Vec4.xyz)
    (denoise scratch, recolorFrom image.color scratch fun copy =>
      let smooth := ({} : Denoiser).run copy image.albedo image.normal
      image.color.mapPoints fun p c => c.withXyz (smooth.getD p .zero))

/-- One frame of workers in order. Each sees the color that its predecessor left. -/
def processAll : List FrameWorker → FrameImage → List FrameWorker × Raster Vec4
  | [], image => ([], image.color)
  | worker :: workers, image =>
    let (worker, color) := worker.process image
    let (workers, color) := processAll workers { image with color }
    (worker :: workers, color)

end FrameWorker

end AdaptiveFrame
