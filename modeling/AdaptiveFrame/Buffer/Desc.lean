import AdaptiveFrame.Buffer.Error

/-!
# Buffer descriptions

Size, color format, channels and task extent of a frame buffer. `validate` names the first thing that
is wrong: the size, then the task extent, then the channels.
-/

namespace AdaptiveFrame

/-- Task extent of buffers that ask for none. -/
def defaultTaskSize : Point := .square 8

/-- What a frame buffer is asked to be. -/
structure BufferDesc where
  size : Point
  format : ColorFormat
  channels : ChannelSet
  taskSize : Point := defaultTaskSize

namespace BufferDesc

def has (d : BufferDesc) (c : Channel) : Bool := d.channels.has c

/-- Whether a color is kept for display. -/
def hasColor (d : BufferDesc) : Bool := d.has .color && d.format != .none

/-- Whether the displayed color is kept in eight bits per lane. -/
def hasEncodedColor (d : BufferDesc) : Bool := d.hasColor && d.format.isEncoded

/-- All pixels of the image. -/
def image (d : BufferDesc) : Region := .ofSize d.size

/-- Number of tasks in a tile along each axis. -/
def tasksPerTile (d : BufferDesc) : Point := .square tileSize / d.taskSize

/-- A task extent has to divide the edge of a tile, which makes it a power of two. -/
def isTaskExtent (n : Nat) : Bool := tileSize % n == 0

def validate (d : BufferDesc) : Except FrameError Unit :=
  if d.size.x == 0 || d.size.y == 0 then .error (.invalidSize d.size)
  else if !isTaskExtent d.taskSize.x || !isTaskExtent d.taskSize.y then .error (.invalidTaskSize d.taskSize)
  else if d.has .variance && !d.has .accum then
    .error (.invalidChannels d.channels d.format .varianceWithoutAccum)
  else if d.has .color && d.format == .none then
    .error (.invalidChannels d.channels d.format .colorWithoutFormat)
  else .ok ()

/-- The description on one line. -/
def describe (d : BufferDesc) : String :=
  "FrameBufferDesc \x7b size: " ++ FrameError.extentText d.size ++ ", color_format: " ++ d.format.name
    ++ ", channels: " ++ d.channels.describe ++ ", render_task_size: " ++ FrameError.extentText d.taskSize ++ " \x7d"

end BufferDesc

end AdaptiveFrame
