import AdaptiveFrame.Layout.Dense

/-!
# Uses of buffers

What users do to a buffer, one operation after another. An operation that is refused leaves the buffer as it was.
Buffers and their layouts are used alike; of a layout a use has no result once an access fails.
-/

namespace AdaptiveFrame

/-- An operation on a sparse buffer. -/
inductive SparseOp where
  | setTiles (ids : List Nat)
  | setImageOps (ops : List ImageOp)
  | commit
  | beginFrame
  | schedule (threshold : Float32) (samplesPerPixel : Nat)
  | accumulate (t : Tile)
  | accumulateAll (tiles : List Tile)
  | setTaskError (taskId : Nat) (error : Float32)
  | setTaskAccumId (taskId : Nat) (accumId : Int)
  | endFrame
  | postProcess
  | clear

/-- An operation on a dense buffer. The sparse buffer that is written is made from its description and used first. -/
inductive DenseOp where
  | setImageOps (ops : List ImageOp)
  | commit
  | beginFrame
  | schedule (threshold : Float32) (samplesPerPixel : Nat)
  | accumulate (t : Tile)
  | accumulateAll (tiles : List Tile)
  | writeTiles (tiles : List Tile)
  | writeSparse (desc : BufferDesc) (ids : List Nat) (ops : List SparseOp)
  | endFrame (threshold : Float32)
  | postProcess
  | clear

/-! ## Sparse buffers -/

namespace SparseBuffer

def perform (s : SparseBuffer) : SparseOp → SparseBuffer
  | .setTiles ids => s.setTiles ids
  | .setImageOps ops => FrameBuffer.setImageOps s ops
  | .commit => s.commit.toOption.getD s
  | .beginFrame => s.beginFrame
  | .schedule _ _ => s
  | .accumulate t => (s.accumulate t).1
  | .accumulateAll tiles => s.accumulateAll tiles
  | .setTaskError i e => s.setTaskError i e
  | .setTaskAccumId i n => s.setTaskAccumId i n
  | .endFrame => s.endFrame
  | .postProcess => FrameBuffer.postProcess s
  | .clear => s.clear

def performAll (s : SparseBuffer) (ops : List SparseOp) : SparseBuffer := ops.foldl perform s

end SparseBuffer

namespace SparseLayout

def perform? (l : SparseLayout) : SparseOp → Option SparseLayout
  | .setTiles ids => l.setTiles? ids
  | .setImageOps ops => some { l with life := { l.life with imageOps := ops } }
  | .commit => some (l.commit.toOption.getD l)
  | .beginFrame => some l.beginFrame
  | .schedule threshold n => (l.schedule? threshold n).map fun _ => l
  | .accumulate t => (l.accumulate? t).map Prod.fst
  | .accumulateAll tiles => l.accumulateAll? tiles
  | .setTaskError i e => l.setTaskError? i e
  | .setTaskAccumId i n => some (l.setTaskAccumId i n)
  | .endFrame => some l.endFrame
  | .postProcess => some l
  | .clear => l.clear?

def performAll? (l : SparseLayout) (ops : List SparseOp) : Option SparseLayout := ops.foldlM perform? l

end SparseLayout

/-! ## Dense buffers -/

namespace DenseBuffer

/-- Writes a sparse buffer that was used before. -/
def writeUsed (b : DenseBuffer) (d : BufferDesc) (ids : List Nat) (ops : List SparseOp) : DenseBuffer :=
  match SparseBuffer.create d ids with
  | .ok s => (b.writeSparse (s.performAll ops)).toOption.getD b
  | .error _ => b

def perform (b : DenseBuffer) : DenseOp → DenseBuffer
  | .setImageOps ops => FrameBuffer.setImageOps b ops
  | .commit => b.commit.toOption.getD b
  | .beginFrame => b.beginFrame
  | .schedule _ _ => b
  | .accumulate t => (b.accumulate t).1
  | .accumulateAll tiles => b.accumulateAll tiles
  | .writeTiles tiles => b.writeTiles tiles
  | .writeSparse d ids ops => b.writeUsed d ids ops
  | .endFrame threshold => b.endFrame threshold
  | .postProcess => b.postProcess
  | .clear => b.clear

def performAll (b : DenseBuffer) (ops : List DenseOp) : DenseBuffer := ops.foldl perform b

end DenseBuffer

namespace DenseLayout

/-- Writes a sparse buffer that was used before. -/
def writeUsed? (l : DenseLayout) (d : BufferDesc) (ids : List Nat) (ops : List SparseOp) : Option DenseLayout :=
  match SparseLayout.create? d ids with
  | .ok made => do
    let s ← (← made).performAll? ops
    match l.writeSparse? s with
    | .ok written => written
    | .error _ => return l
  | .error _ => some l

def perform? (l : DenseLayout) : DenseOp → Option DenseLayout
  | .setImageOps ops => some { l with life := { l.life with imageOps := ops } }
  | .commit => some (l.commit.toOption.getD l)
  | .beginFrame => some l.beginFrame
  | .schedule threshold n => (l.schedule? threshold n).map fun _ => l
  | .accumulate t => (l.accumulate? t).map Prod.fst
  | .accumulateAll tiles => l.accumulateAll? tiles
  | .writeTiles tiles => l.writeTiles? tiles
  | .writeSparse d ids ops => l.writeUsed? d ids ops
  | .endFrame threshold => l.endFrame? threshold
  | .postProcess => l.postProcess?
  | .clear => some l.clear

def performAll? (l : DenseLayout) (ops : List DenseOp) : Option DenseLayout := ops.foldlM perform? l

end DenseLayout

end AdaptiveFrame
