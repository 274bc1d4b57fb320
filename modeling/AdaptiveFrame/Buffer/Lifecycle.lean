import AdaptiveFrame.Buffer.Status
import AdaptiveFrame.Filter.Pipeline

/-!
# The life of a frame buffer

Dense and sparse buffers share their description, the number and error of the current frame, its
status, and the image operations: those attached, and the pipeline of the last commit that succeeded.
-/

namespace AdaptiveFrame

/-- The part of a frame buffer that does not depend on how it keeps its pixels. -/
structure Lifecycle where
  desc : BufferDesc
  /-- Number of the current frame, -1 before the first. -/
  frameId : Int
  /-- Error of the last frame that ended, infinite before any. -/
  variance : Float32
  status : FrameStatus
  /-- Attached operations; they take effect on commit. -/
  imageOps : List ImageOp
  /-- Operations of the last successful commit. -/
  pipeline : Pipeline
  /-- Number of views of the buffer that are held at the moment. -/
  mappings : Nat

namespace Lifecycle

/-- The state of a new buffer, if its description is valid. -/
def create (desc : BufferDesc) : Except FrameError Lifecycle := do
  desc.validate
  return ⟨desc, -1, Binary32.posInf, .fresh desc.size.area, [], .empty, 0⟩

/-- Rebuilds the pipeline from the attached operations. An error leaves the old one in place. -/
def commit (c : Lifecycle) (allowFrameOps : Bool) : Except FrameError Lifecycle := do
  let pipeline ← Pipeline.build c.imageOps c.desc allowFrameOps
  return { c with pipeline }

def beginFrame (c : Lifecycle) : Lifecycle := { c with frameId := c.frameId + 1, status := c.status.opened }

def clear (c : Lifecycle) : Lifecycle := { c with frameId := -1, variance := Binary32.posInf }

def addRendered (c : Lifecycle) (pixels : Nat) : Lifecycle := { c with status := c.status.addRendered pixels }

end Lifecycle

/-- Frames that have to pass before adaptive stopping may drop tasks. -/
def minAdaptiveFrames (samplesPerPixel : Nat) : Nat := max (16 / max samplesPerPixel 1) 2

/-- Whether tasks may be dropped: the threshold is positive and enough frames have passed. -/
def adaptiveAllowed (frameId : Int) (threshold : Float32) (samplesPerPixel : Nat) : Bool :=
  0 < threshold && (minAdaptiveFrames samplesPerPixel : Int) ≤ frameId

end AdaptiveFrame
