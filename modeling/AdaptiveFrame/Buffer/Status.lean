import AdaptiveFrame.Number.Binary32

/-!
# Frame status

What can be observed of the running frame: how much of it is rendered, which stage is complete, and
whether it was asked to stop. Pixels are counted in 64-bit words; a count that outgrows its word wraps
around.
-/

namespace AdaptiveFrame

/-- Stages of a frame, in the order in which they complete. -/
inductive SyncEvent where
  | noneFinished
  /-- Every dispatched task is in the buffer. -/
  | worldRendered
  | frameFinished
  deriving DecidableEq, Repr, Inhabited

def SyncEvent.name : SyncEvent → String
  | noneFinished => "NoneFinished" | worldRendered => "WorldRendered" | frameFinished => "FrameFinished"

/-- What can be observed of a frame. -/
structure FrameStatus where
  cancelled : Bool
  rendered : UInt64
  total : UInt64
  completed : SyncEvent
  deriving DecidableEq, Repr

namespace FrameStatus

/-- Status of an image of `total` pixels before any frame. -/
def fresh (total : Nat) : FrameStatus := ⟨false, 0, .ofNat total, .noneFinished⟩

/-- Opens a frame: nothing rendered, no stage complete, no request to stop. -/
def opened (s : FrameStatus) : FrameStatus := ⟨false, 0, s.total, .noneFinished⟩

/-- Asks the running frame to stop. -/
def cancel (s : FrameStatus) : FrameStatus := { s with cancelled := true }

def addRendered (s : FrameStatus) (pixels : Nat) : FrameStatus := { s with rendered := s.rendered + .ofNat pixels }

/-- Completes a stage. A finished frame counts as rendered in full. -/
def complete (s : FrameStatus) (e : SyncEvent) : FrameStatus :=
  { s with completed := e, rendered := if e = .frameFinished then s.total else s.rendered }

/-- Share of the image that is rendered. -/
def progress (s : FrameStatus) : Float32 :=
  if s.total = 0 then 0 else .ofNat (min s.rendered s.total).toNat / .ofNat s.total.toNat

end FrameStatus

end AdaptiveFrame
