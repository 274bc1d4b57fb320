import AdaptiveFrame.Buffer.Dense
import AdaptiveFrame.Buffer.Sparse

/-!
# Composing sparse buffers into a dense one

The shown samples of owned tiles are copied into the image as they are, past blending and pixel
operations, and the errors and sample counts of their tasks go to the tasks of the image that lie at
the same positions.
-/

namespace AdaptiveFrame.DenseBuffer

/-- Copies the part of a tile inside the image. Its pixels count as rendered. -/
def writeTile (b : DenseBuffer) (t : Tile) : DenseBuffer :=
  match b with
  | ⟨life, pixels, display, output, tracker, accumIds⟩ =>
    let part := t.region.intersect life.desc.image
    let pixels := pixels.modifyOn t.region fun p px => { px with shown := t.sampleAt p }
    let display := encodeTile life.desc.format t display
    ⟨life.addRendered part.area, pixels, display, output, tracker, accumIds⟩

def writeTiles (b : DenseBuffer) (tiles : List Tile) : DenseBuffer := tiles.foldl writeTile b

/-- Takes over the error and the sample count of one task. Errors pass only between buffers that both track them. -/
def takeTask (s : SparseBuffer) (b : DenseBuffer) (localId : Nat) : DenseBuffer :=
  let pos := s.taskGridPos localId
  match b.taskIdAt? pos with
  | some id =>
    { b with
      tracker := if s.desc.has .variance && b.tracker.isEnabled then b.tracker.update pos (s.taskError localId) else b.tracker
      accumIds := b.accumIds.setIfInBounds id (s.taskAccumId localId) }
  | none => b

/-- Takes over the tiles of a sparse buffer with the state of their tasks. -/
def writeSparse (b : DenseBuffer) (s : SparseBuffer) : Except FrameError DenseBuffer :=
  if b.desc.taskSize = s.desc.taskSize then
    .ok (s.taskOrder.foldl (takeTask s) (b.writeTiles (s.tiles.toList.map OwnedTile.shown)))
  else .error (.mismatchedTaskSize b.desc.taskSize s.desc.taskSize)

end AdaptiveFrame.DenseBuffer
