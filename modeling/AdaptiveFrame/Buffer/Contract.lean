import AdaptiveFrame.Accum.ErrorTracker
import AdaptiveFrame.Buffer.Lifecycle
import AdaptiveFrame.Output.Color

/-!
# The frame buffer contract

What every kind of frame buffer offers: it schedules render tasks, folds tiles, closes frames and lets
its channels be read. The operations that only concern the shared state are derived from it.
-/

namespace AdaptiveFrame

/-- What a renderer has to know to fill one render task. -/
structure RenderTask where
  id : Nat
  /-- Place of the tile that holds the task: its number in the image, or among the owned tiles. -/
  tileIndex : Nat
  /-- Pixels of the task inside the image. -/
  region : Region
  /-- Number of samples the task received so far. -/
  accumId : Int
  deriving DecidableEq, Repr

/-- The values of one channel, row by row. -/
inductive ChannelData where
  /-- Displayed color of the eight-bit formats. -/
  | encoded (cells : Array Rgba8)
  /-- Displayed color in single precision, and the running means. -/
  | color (cells : Array Vec4)
  | depth (cells : Array Float32)
  /-- Normals and albedos. -/
  | vectors (cells : Array Vec3)
  | ids (cells : Array UInt32)

namespace ChannelData

/-- Number of pixels. -/
def size : ChannelData → Nat
  | encoded cells => cells.size
  | color cells => cells.size
  | depth cells => cells.size
  | vectors cells => cells.size
  | ids cells => cells.size

/-- Bytes of one pixel. -/
def bytesPerPixel : ChannelData → Nat
  | encoded _ | depth _ | ids _ => 4
  | color _ => 16
  | vectors _ => 12

/-- Bytes of the whole channel. -/
def byteSize (d : ChannelData) : Nat := d.size * d.bytesPerPixel

end ChannelData

/-- The operations of a frame buffer. -/
class FrameBuffer (β : Type) where
  life : β → Lifecycle
  setLife : β → Lifecycle → β
  /-- Checks the attached operations and puts them to work. -/
  commit : β → Except FrameError β
  beginFrame : β → β
  /-- Extent of the grid of render tasks. -/
  grid : β → Point
  task : β → Nat → RenderTask
  /-- Tasks to render, given the error threshold and the samples per pixel. -/
  schedule : β → Float32 → Nat → List Nat
  taskError : β → Nat → Float32
  taskAccumId : β → Nat → Int
  /-- Folds one tile. Also returns the tile as the buffer leaves it. -/
  accumulate : β → Tile → β × Tile
  /-- Folds a batch of tiles whose regions share no pixel. -/
  accumulateAll : β → List Tile → β
  /-- Closes a frame under an error threshold. -/
  endFrame : β → Float32 → β
  /-- Encodes what the frame operations made. -/
  postProcess : β → β
  clear : β → β
  /-- The values of a channel, if the buffer can be read and keeps it. -/
  channel? : β → Channel → Option ChannelData

namespace FrameBuffer

variable {β : Type} [FrameBuffer β]

def desc (b : β) : BufferDesc := (life b).desc
def frameId (b : β) : Int := (life b).frameId
def variance (b : β) : Float32 := (life b).variance
def status (b : β) : FrameStatus := (life b).status

def setStatus (b : β) (s : FrameStatus) : β := setLife b { life b with status := s }

/-- Asks the running frame to stop. -/
def cancelFrame (b : β) : β := setStatus b (status b).cancel

/-- Completes a stage of the running frame. -/
def complete (b : β) (e : SyncEvent) : β := setStatus b ((status b).complete e)

/-- Attaches operations; they take effect on commit. -/
def setImageOps (b : β) (ops : List ImageOp) : β := setLife b { life b with imageOps := ops }

/-- Number of render tasks. -/
def taskCount (b : β) : Nat := (grid b).area

/-- Opens a view of a channel. The buffer counts the views that are held. -/
def map? (b : β) (c : Channel) : Option (ChannelData × β) :=
  (channel? b c).map fun d => (d, setLife b { life b with mappings := (life b).mappings + 1 })

/-- Gives a view back. -/
def unmap (b : β) : β := setLife b { life b with mappings := (life b).mappings - 1 }

end FrameBuffer

end AdaptiveFrame
