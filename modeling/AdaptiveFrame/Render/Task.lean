import AdaptiveFrame.Buffer.Contract
import AdaptiveFrame.Render.Camera

/-!
# Rendering tasks

A renderer makes one sample of one pixel. A task asks for the next samples of all its pixels: with `n`
samples per pixel and frame, the samples with the indices `k * n` to `k * n + n - 1` where `k` counts
the times that the task was rendered. Their colors are averaged; everything else comes from the first.
The indices are words, so they start again at zero once a word is used up.
-/

namespace AdaptiveFrame

/-- How long and how finely to sample (`AdaptiveSamplingConfig`). -/
structure SamplingConfig where
  /-- Tasks are left out once their error is at most this. Zero renders all tasks in every frame. -/
  threshold : Float32 := 0.02
  /-- Samples of a pixel in one frame. -/
  samplesPerPixel : Nat := 1

/-- What all tasks of a frame share. -/
structure FrameContext where
  camera : Camera
  imageSize : Point
  frameId : Int
  samplesPerPixel : Nat

/-- Makes the sample of a pixel with a given index (`render_pixel`). -/
abbrev PixelRenderer := FrameContext → Point → Nat → Sample

/-- The index of the first sample that a task asks for (`first` in `render_task`). -/
def firstSample (accumId : Int) (samplesPerPixel : Nat) : UInt32 :=
  .ofNat accumId.toNat * .ofNat (max samplesPerPixel 1)

namespace PixelRenderer

/-- The samples with the indices `first` to `first + count - 1` as one, for a positive count (`render_task`, the loop
over the samples of one pixel). -/
def average (render : Nat → Sample) (first : UInt32) (count : Nat) : Sample :=
  let s := render first.toNat
  if 1 < count then
    let sum := (List.range' 1 (count - 1)).foldl (fun sum i => sum + (render (first + .ofNat i).toNat).color) s.color
    { s with color := sum.divBy (.ofNat count) }
  else s

/-- What a pixel receives when its task is rendered with a given accumulation id. -/
def sample (render : PixelRenderer) (ctx : FrameContext) (accumId : Int) (p : Point) : Sample :=
  average (render ctx p) (firstSample accumId ctx.samplesPerPixel) (max ctx.samplesPerPixel 1)

/-- Renders all pixels of a region (`render_task`). -/
def tile (render : PixelRenderer) (ctx : FrameContext) (region : Region) (accumId : Int) : Tile :=
  ⟨.tabulate region (render.sample ctx accumId), accumId⟩

end PixelRenderer

end AdaptiveFrame
