import AdaptiveFrame.Buffer.Compose
import AdaptiveFrame.Render.Frame

/-!
# Rendering on several devices

A group of sparse buffers shares the tiles of one image. In every frame each device renders the tasks
of its own tiles, the results are composed into a dense buffer, and the errors that the dense buffer
refined go back to the devices, so all of them schedule by the same errors. Pixel operations run on
the devices, frame operations on the composed image.
-/

namespace AdaptiveFrame

/-- The devices that share an image, in the order in which tiles are dealt (`MultiDeviceLoadBalancer`). -/
structure DeviceGroup where
  devices : List SparseBuffer

namespace DeviceGroup

open FrameBuffer

/-! ## Setting up -/

/-- The tiles of device `k` of `n`: every `n`-th one (`assignments` in `new`). -/
def share (tileCount n k : Nat) : List Nat := (List.range tileCount).filter fun id => id % n == k

/-- Deals the tiles of an image to `n` devices in turn, to one if `n` is zero (`new`). -/
def create (d : BufferDesc) (n : Nat) : Except FrameError DeviceGroup := do
  let n := max n 1
  let devices ← (List.range n).mapM fun k => SparseBuffer.create d (share (Tiling.tileCount d.size).area n k)
  return ⟨devices⟩

/-- Attaches operations to devices and commits each in turn, up to the first that refuses (`set_image_ops`, the loop
over the devices). -/
def attach (ops : List ImageOp) : List SparseBuffer → List SparseBuffer × Except FrameError Unit
  | [] => ([], .ok ())
  | d :: ds =>
    let d := setImageOps d ops
    match d.commit with
    | .ok d =>
      let (ds, result) := attach ops ds
      (d :: ds, result)
    | .error e => (d :: ds, .error e)

/-- Attaches the pixel operations of a list to all devices (`set_image_ops`). -/
def setImageOps (g : DeviceGroup) (ops : List ImageOp) : DeviceGroup × Except FrameError Unit :=
  let (devices, result) := attach (ops.filter ImageOp.isPixel) g.devices
  (⟨devices⟩, result)

/-- Clears all devices (`clear`). -/
def clear (g : DeviceGroup) : DeviceGroup := ⟨g.devices.map SparseBuffer.clear⟩

/-! ## Frames -/

/-- A device after its part of a frame. -/
structure Part where
  device : SparseBuffer
  /-- Number of tasks that were scheduled. -/
  scheduled : Nat
  tiles : List Tile

/-- Renders the part of one device, whose tasks take the positions from `first` on (`render_frame`, what each device
does). -/
def renderPart (stop : Interruption) (render : PixelRenderer) (ctx : FrameContext) (config : SamplingConfig)
    (first : Nat) (d : SparseBuffer) : Part :=
  let d := d.beginFrame
  let scheduled := Frame.tasks d config
  let rendered := Frame.tiles render ctx (Frame.reached stop first scheduled)
  ⟨postProcess (endFrame (d.accumulateAll rendered) config.threshold), scheduled.length, rendered⟩

/-- Renders the parts of all devices, one after another. -/
def renderParts (stop : Interruption) (render : PixelRenderer) (ctx : FrameContext) (config : SamplingConfig) :
    (first : Nat) → List SparseBuffer → List Part
  | _, [] => []
  | first, d :: ds =>
    let part := renderPart stop render ctx config first d
    part :: renderParts stop render ctx config (first + part.scheduled) ds

/-- Composes a device into the image (`write_sparse`). One with tasks of another extent is left out. -/
def compose (b : DenseBuffer) (d : SparseBuffer) : DenseBuffer :=
  match b.writeSparse d with
  | .ok b => b
  | .error _ => b

/-- Gives a task of a device the error and the sample count that the image has for it (`push_back_errors`). -/
def pushBack (b : DenseBuffer) (d : SparseBuffer) (localId : Nat) : SparseBuffer :=
  match b.taskIdAt? (d.taskGridPos localId) with
  | some id => (d.setTaskError localId (taskError b id)).setTaskAccumId localId (b.taskAccumId id)
  | none => d

/-- Renders one frame on all devices into a dense buffer (`render_frame` of the balancer). -/
def render (stop : Interruption) (render : PixelRenderer) (camera : Camera) (config : SamplingConfig)
    (g : DeviceGroup) (b : DenseBuffer) : DeviceGroup × DenseBuffer × FrameStats :=
  let b := beginFrame b
  let parts := renderParts stop render (Frame.context b camera config) config 0 g.devices
  let rendered := parts.flatMap Part.tiles
  let b := if stop.reaches ((parts.map Part.scheduled).foldr (· + ·) 0) then cancelFrame b else b
  let b := complete ((parts.map Part.device).foldl compose b) .worldRendered
  let b := postProcess (endFrame b config.threshold)
  let devices := parts.map fun p => p.device.taskOrder.foldl (pushBack b) p.device
  let b := complete b .frameFinished
  (⟨devices⟩, b, Frame.stats b rendered)

/-- The devices on one line. -/
def describe (g : DeviceGroup) : String :=
  "MultiDeviceLoadBalancer \x7b devices: [" ++ ", ".intercalate (g.devices.map SparseBuffer.describe) ++ "] \x7d"

end DeviceGroup

end AdaptiveFrame
