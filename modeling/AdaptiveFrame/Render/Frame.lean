import AdaptiveFrame.Render.Task

/-!
# Rendering a frame

A frame is opened, its scheduled tasks are rendered one after another, and only when all tiles are
folded in is it closed. A task that is reached after the frame was asked to stop is skipped; the frame
is closed all the same, so what was rendered counts.

`Interruption` says which tasks of one frame are skipped because somebody asks it to stop while it
runs; tasks are named by their position in the frame.
-/

namespace AdaptiveFrame

/-- What a request to stop does to one frame. -/
structure Interruption where
  /-- Whether the task at a position is skipped. -/
  skips : Nat → Bool
  /-- Whether a frame of so many tasks has been asked to stop by its end. -/
  reaches : Nat → Bool
  /-- Only a frame that was asked to stop skips tasks. -/
  reaches_of_skips : ∀ i n, skips i = true → i < n → reaches n = true

namespace Interruption

/-- Nobody asks. -/
def none : Interruption := ⟨fun _ => false, fun _ => false, by simp⟩

/-- The request comes right after the `k`-th task, for a positive `k`. -/
def after (k : Nat) : Interruption :=
  ⟨fun i => k ≤ i, fun n => k ≤ n, by
    intro i n hi hn
    simp only [decide_eq_true_eq] at hi ⊢
    omega⟩

end Interruption

/-- What a frame reports (`FrameStats`). -/
structure FrameStats where
  frameId : Int
  tasks : Nat
  pixels : Nat
  /-- Error of the frame. -/
  variance : Float32
  cancelled : Bool

/-- Whether nothing was left to render (`converged`). -/
def FrameStats.converged (s : FrameStats) : Bool := s.tasks == 0 && !s.cancelled

namespace Frame

variable {β : Type} [FrameBuffer β]

open FrameBuffer

/-- What the tasks of the current frame of a buffer share (`ctx` in `dispatch_frame`). -/
def context (b : β) (camera : Camera) (config : SamplingConfig) : FrameContext :=
  ⟨camera, (desc b).size, frameId b, config.samplesPerPixel⟩

/-- The tasks that the current frame asks for (`collect_tasks`). -/
def tasks (b : β) (config : SamplingConfig) : List RenderTask :=
  (schedule b config.threshold config.samplesPerPixel).map (task b)

/-- The tasks that are not skipped, when they take the positions from `first` on (`is_cancelled` in `render_tasks`). -/
def reached (stop : Interruption) (first : Nat) (tasks : List RenderTask) : List RenderTask :=
  ((tasks.zipIdx first).filter fun (_, i) => !stop.skips i).map Prod.fst

/-- Renders tasks to tiles (`render_tasks`). -/
def tiles (render : PixelRenderer) (ctx : FrameContext) (tasks : List RenderTask) : List Tile :=
  tasks.map fun t => render.tile ctx t.region t.accumId

/-- Number of pixels of a list of tiles. -/
def pixelCount (tiles : List Tile) : Nat := (tiles.map fun t => t.region.area).foldr (· + ·) 0

/-- Folds the tiles of a frame and closes it (`dispatch_frame`, from `accumulate_tiles` on). -/
def close (b : β) (threshold : Float32) (tiles : List Tile) : β :=
  let b := complete (accumulateAll b tiles) .worldRendered
  complete (postProcess (endFrame b threshold)) .frameFinished

/-- What a closed frame reports about the tiles that were rendered. -/
def stats (b : β) (tiles : List Tile) : FrameStats :=
  ⟨frameId b, tiles.length, pixelCount tiles, variance b, (status b).cancelled⟩

/-- Renders one frame (`render_frame` of the parallel loop). -/
def render (stop : Interruption) (render : PixelRenderer) (camera : Camera) (config : SamplingConfig) (b : β) :
    β × FrameStats :=
  let b := beginFrame b
  let scheduled := tasks b config
  let rendered := tiles render (context b camera config) (reached stop 0 scheduled)
  let b := if stop.reaches scheduled.length then cancelFrame b else b
  let b := close b config.threshold rendered
  (b, stats b rendered)

end Frame

end AdaptiveFrame
