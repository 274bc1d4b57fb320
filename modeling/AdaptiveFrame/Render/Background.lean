import AdaptiveFrame.Render.Frame

/-!
# Frames in the background

Frames can be queued on a buffer and run while their owners wait. A running frame holds the buffer until
it is closed, so frames on one buffer run one after another, and each of them in small steps that
requests to stop may fall between. The tasks of a frame are reached in any order; their tiles are folded in
the order of the tasks.

A request consists of two separate notes: one on the frame itself, which a frame that has yet to open
finds after it has opened, and one on the status of the buffer, which opening a frame erases. The
status belongs to the buffer, so all frames on it share it, and nothing on it tells who asked.
-/

namespace AdaptiveFrame

/-- Where a task of a running frame stands. -/
inductive Slot where
  /-- Not reached yet. -/
  | waiting (task : RenderTask)
  /-- Reached after somebody had asked to stop. -/
  | skipped
  | rendered (tile : Tile)

namespace Slot

def isWaiting : Slot → Bool
  | waiting _ => true
  | _ => false

def tile? : Slot → Option Tile
  | rendered tile => some tile
  | _ => none

end Slot

/-- How far a background frame has come. -/
inductive Phase where
  | queued
  /-- The frame is open; its own note was not read yet. -/
  | opened
  /-- Its own note was read, but not passed on to the status yet. -/
  | noted (stop : Bool)
  | rendering (slots : List Slot)
  /-- All tiles are folded. -/
  | folded (tiles : List Tile)
  /-- The frame is closed; the status was not read for the report yet. -/
  | closed (tiles : List Tile)
  | finished (stats : FrameStats)

/-- A background frame. -/
structure Job where
  render : PixelRenderer
  camera : Camera
  config : SamplingConfig
  /-- Whether this frame was asked to stop. -/
  requested : Bool := false
  phase : Phase := .queued

namespace Job

variable {β : Type} [FrameBuffer β]

open FrameBuffer

/-- Whether the frame holds the buffer. -/
def isRunning (j : Job) : Bool :=
  match j.phase with
  | .queued | .finished _ => false
  | _ => true

def isReady (j : Job) : Bool :=
  match j.phase with
  | .finished _ => true
  | _ => false

/-- Reaches a task: renders it unless the status says to stop. -/
def visit (b : β) (j : Job) : Slot → Slot
  | .waiting t =>
    if (status b).cancelled then .skipped
    else .rendered (j.render.tile (Frame.context b j.camera j.config) t.region t.accumId)
  | slot => slot

/-- Reaches the task at a place. -/
def reach (b : β) (place : Nat) (j : Job) : Job :=
  match j.phase with
  | .rendering slots => { j with phase := .rendering (slots.modify place (j.visit b)) }
  | _ => j

/-- The next step of a frame that holds the buffer or may take it. While tasks are waiting it reaches the
first of them. -/
def step (b : β) (j : Job) : β × Job :=
  match j.phase with
  | .queued => (beginFrame b, { j with phase := .opened })
  | .opened => (b, { j with phase := .noted j.requested })
  | .noted stop =>
    let b := if stop then cancelFrame b else b
    (b, { j with phase := .rendering ((Frame.tasks b j.config).map .waiting) })
  | .rendering slots =>
    match slots.findIdx? Slot.isWaiting with
    | some place => (b, j.reach b place)
    | none =>
      let tiles := slots.filterMap Slot.tile?
      (complete (accumulateAll b tiles) .worldRendered, { j with phase := .folded tiles })
  | .folded tiles =>
    (complete (postProcess (endFrame b j.config.threshold)) .frameFinished, { j with phase := .closed tiles })
  | .closed tiles => (b, { j with phase := .finished (Frame.stats b tiles) })
  | .finished _ => (b, j)

/-- Steps until the tasks of the frame are known. -/
def stepsToTasks (j : Job) : Nat :=
  match j.phase with
  | .queued => 3
  | .opened => 2
  | .noted _ => 1
  | _ => 0

/-- Steps from there to the end. -/
def stepsToEnd (j : Job) : Nat :=
  match j.phase with
  | .rendering slots => slots.countP Slot.isWaiting + 3
  | .folded _ => 2
  | .closed _ => 1
  | _ => 0

end Job

/-- A buffer with the frames that were queued on it, in the order of their numbers. -/
structure Background (β : Type) where
  buffer : β
  jobs : List Job

/-- What can happen between two steps of a frame, or be one. -/
inductive BackgroundEvent where
  /-- A request to stop is noted on a frame. -/
  | request (job : Nat)
  /-- A request to stop is noted on the status of the buffer, by the owner of a frame or by somebody else. -/
  | raise (owner : Option Nat)
  /-- A frame takes its next step. -/
  | advance (job : Nat)
  /-- A frame reaches one of its tasks. -/
  | reach (job place : Nat)
  deriving DecidableEq, Repr

namespace Background

variable {β : Type} [FrameBuffer β]

/-- Whether a frame may take a step: the buffer is not held by another one. -/
def mayAdvance (s : Background β) (job : Nat) : Bool :=
  s.jobs.zipIdx.all fun (j, i) => i == job || !j.isRunning

/-- One step of a frame; nothing if it has to wait. -/
def advance (s : Background β) (job : Nat) : Background β :=
  match s.jobs[job]? with
  | some j =>
    if s.mayAdvance job then
      let (buffer, j) := j.step s.buffer
      ⟨buffer, s.jobs.set job j⟩
    else s
  | none => s

def handle (s : Background β) : BackgroundEvent → Background β
  | .request job => { s with jobs := s.jobs.modify job fun j => { j with requested := true } }
  | .raise _ => { s with buffer := FrameBuffer.cancelFrame s.buffer }
  | .advance job => s.advance job
  | .reach job place => { s with jobs := s.jobs.modify job (Job.reach s.buffer place) }

def run (s : Background β) (events : List BackgroundEvent) : Background β := events.foldl handle s

/-- Both notes of a request to stop a frame. -/
def cancel (s : Background β) (job : Nat) : Background β := s.run [.request job, .raise (some job)]

/-- Advances a frame by a number of steps. -/
def advanceBy (s : Background β) (job steps : Nat) : Background β := s.run (List.replicate steps (.advance job))

/-- Advances a frame until its tasks are known. -/
def plan (s : Background β) (job : Nat) : Background β :=
  s.advanceBy job ((s.jobs[job]?).elim 0 Job.stepsToTasks)

/-- Advances a frame to its end. -/
def finish (s : Background β) (job : Nat) : Background β :=
  let s := s.plan job
  s.advanceBy job ((s.jobs[job]?).elim 0 Job.stepsToEnd)

/-- The report of a finished frame. -/
def stats? (s : Background β) (job : Nat) : Option FrameStats :=
  match (s.jobs[job]?).map Job.phase with
  | some (.finished stats) => some stats
  | _ => none

end Background

end AdaptiveFrame
