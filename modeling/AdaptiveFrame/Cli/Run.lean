import AdaptiveFrame.Buffer.Dense
import AdaptiveFrame.Cli.Options
import AdaptiveFrame.Number.Digits
import AdaptiveFrame.Output.Png
import AdaptiveFrame.Output.Snapshot
import AdaptiveFrame.Render.Devices
import AdaptiveFrame.Render.Scene

/-!
# Command line runs

A run renders the sphere scene frame after frame until nothing is left to render or the frames are used
up, and ends with a snapshot of the color. What it prints is a sequence of lines, some of which tell how
long something took; they leave that open, so a run is a pure function. The run is written for any
monad that takes its lines, so that they can be printed as they come.
-/

namespace AdaptiveFrame.Cli

/-- A line of output. -/
inductive Line where
  | text (s : String)
  /-- A line that ends with the rate at which samples were taken. -/
  | progress (s : String) (samples : Nat)
  /-- The line that tells how long the rendering took. -/
  | renderTime
  deriving DecidableEq, Repr

/-- What a run renders into, and the state of its devices. -/
structure Run where
  options : Options
  buffer : DenseBuffer
  group : Option DeviceGroup
  camera : Camera

namespace Run

/-- Prepares the buffer. -/
def openBuffer (o : Options) : Except FrameError (DenseBuffer × List ImageOp) := do
  o.validate
  let ops ← o.resolveOps
  let buffer ← DenseBuffer.create o.desc
  let buffer ← (FrameBuffer.setImageOps buffer ops).commit
  return (buffer, ops)

/-- Prepares the devices, if there are any. -/
def openGroup (o : Options) (ops : List ImageOp) : Except FrameError (Option DeviceGroup) :=
  if o.devices = 0 then .ok none
  else do
    let group ← DeviceGroup.create o.desc o.devices
    let (group, result) := group.setImageOps ops
    result
    return some group

/-- The camera that looks at the scene. -/
def cameraFor (o : Options) : Camera := .forImage ⟨0, 1.4, 4.2⟩ ⟨0, 0.5, 0⟩ 45 o.size

/-- Renders one frame. -/
def frame (r : Run) : Run × FrameStats :=
  let scene : SphereScene := {}
  match r.group with
  | some group =>
    let (group, buffer, stats) := group.render .none scene.render r.camera r.options.sampling r.buffer
    ({ r with group := some group, buffer }, stats)
  | none =>
    let (buffer, stats) := Frame.render .none scene.render r.camera r.options.sampling r.buffer
    ({ r with buffer }, stats)

/-! ## Lines -/

def headline (o : Options) : String :=
  s!"Rendering {o.size.x}x{o.size.y} at {o.sampling.samplesPerPixel} spp/frame, threshold "
    ++ Digits.shortest o.sampling.threshold ++ s!", up to {o.maxFrames} frames"

/-- The line after every eighth frame. -/
def progressLine (r : Run) (frames pixels : Nat) (stats : FrameStats) : Line :=
  .progress
    (s!"  Frame {frames}: {stats.tasks}/{FrameBuffer.taskCount r.buffer} tasks active, error "
      ++ Digits.fixed 4 stats.variance)
    (pixels * r.options.sampling.samplesPerPixel)

def summary (r : Run) : List Line :=
  [.text "", .text "Results:", .renderTime,
    .text ("  Frames:       " ++ toString (r.buffer.life.frameId + 1)),
    .text ("  Final error:  " ++ Digits.fixed 5 r.buffer.life.variance)]

/-- The image to write. -/
def picture (o : Options) (buffer : DenseBuffer) : Except FrameError Snapshot.Image :=
  match Snapshot.take buffer .color with
  | .ok image =>
    if Png.hasExtension o.output then .ok image
    else .error (.exportFailed "the file name has no extension of a known image format")
  | .error e => .error e

/-! ## Rendering -/

section Frames

variable {m : Type → Type} [Monad m] (emit : Line → m Unit)

/-- Renders up to `left` more frames, after `done` frames with a number of pixels. -/
def frames : (left : Nat) → (done pixels : Nat) → Run → m Run
  | 0, _, _, r => pure r
  | left + 1, done, pixels, r => do
    let (r, stats) := r.frame
    let pixels := pixels + stats.pixels
    if stats.converged then
      emit (.text s!"  Converged after {done} frames")
      return r
    if (done + 1) % 8 = 0 then emit (r.progressLine (done + 1) pixels stats)
    frames left (done + 1) pixels r

/-- Opens, renders and shows, with the lines in between. -/
def perform (o : Options) : m (Except FrameError Snapshot.Image) := do
  match openBuffer o with
  | .error e => return .error e
  | .ok (buffer, ops) =>
    emit (.text (headline o))
    match openGroup o ops with
    | .error e => return .error e
    | .ok group =>
      match group with
      | some g => emit (.text s!"Composing {g.devices.length} sparse devices")
      | none => pure ()
      let r ← frames emit o.maxFrames 0 0 ⟨o, buffer, group, cameraFor o⟩
      for line in r.summary do emit line
      return picture o r.buffer

end Frames

end Run

/-! ## Outcomes -/

def usage : String :=
  "usage: pathtracer-fb [--size WxH] [--frames N] [--threshold T] [--spp N] [--devices N] "
    ++ "[--task-size N] [--format rgba8|srgba|rgba32f] [--op NAME]... [--no-ops] [-o PATH]"

/-- What a whole run comes to. -/
structure Outcome where
  code : UInt32
  lines : List Line
  complaints : List String
  /-- The path that is written and the image to write there. -/
  file : Option (String × Snapshot.Image)

/-- Runs a command line. -/
def run (args : List String) : Outcome :=
  match Options.ofArgs args with
  | .error e => ⟨2, [], [e.message, usage], none⟩
  | .ok o =>
    let (result, lines) := (Run.perform (m := StateM (Array Line)) (fun line => modify (·.push line)) o).run #[]
    match result with
    | .ok image => ⟨0, lines.toList, [], some (o.output, image)⟩
    | .error e => ⟨1, lines.toList, [e.message], none⟩

end AdaptiveFrame.Cli
