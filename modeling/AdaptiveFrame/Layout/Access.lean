import AdaptiveFrame.Accum.ErrorTracker
import AdaptiveFrame.Accum.Sample

/-!
# Accesses that can fail

What a program does to plain arrays and counts can go wrong: an index or a slice beyond the end, a difference
below zero, a division by zero. Here such a step has no result. Everything else about a buffer's layout in memory
is built from these steps, so a run that has a result made none of these mistakes.

A `Cut` says which stretch of an array belongs to a part of the image, given the size of the array; the entries of
the stretch are numbered from its start. A `View` also says which number a position has there.
-/

namespace AdaptiveFrame

namespace Count

/-- The difference of two counts. -/
def sub? (m n : Nat) : Option Nat := if n ≤ m then some (m - n) else none

def div? (m n : Nat) : Option Nat := if n = 0 then none else some (m / n)

def mod? (m n : Nat) : Option Nat := if n = 0 then none else some (m % n)

end Count

namespace Point

def sub? (p q : Point) : Option Point := do return ⟨← Count.sub? p.x q.x, ← Count.sub? p.y q.y⟩

def div? (p q : Point) : Option Point := do return ⟨← Count.div? p.x q.x, ← Count.div? p.y q.y⟩

/-- Number of blocks needed to cover an extent. -/
def ceilDiv? (extent block : Point) : Option Point := do (← (extent + block).sub? (.square 1)).div? block

/-- The position with a row-major number. -/
def ofRowMajor? (width i : Nat) : Option Point := do return ⟨← Count.mod? i width, ← Count.div? i width⟩

end Point

/-- Place of a position in the row-major order of a region. -/
def Region.index? (r : Region) (p : Point) : Option Nat := do return (← p.sub? r.lower).rowMajor r.width

namespace Tiling

/-- Whether a region stays inside the tile cell of its lower corner. -/
def fitsCell? (r : Region) : Option Bool :=
  if r.isEmpty then some true else do return cellOf r.lower == cellOf (← r.upper.sub? (.square 1))

/-- Blocks that share a pixel with the region. -/
def tasksOver? (task : Point) (r : Region) : Option Region := do
  return ⟨← r.lower.div? task, ← r.upper.ceilDiv? task⟩

/-- Pixels of a tile. -/
def tileRegion? (image : Point) (tileId : Nat) : Option Region := do
  let lower := (← Point.ofRowMajor? (tileCount image).x tileId) * .square tileSize
  return ⟨lower, min (lower + .square tileSize) image⟩

end Tiling

/-! ## Parts of arrays -/

/-- A stretch of an array. -/
structure Span where
  first : Nat
  count : Nat
  deriving DecidableEq, Repr

namespace Span

/-- All of an array. -/
def whole (size : Nat) : Span := ⟨0, size⟩

/-- The entries from `low` on and before `high`. -/
def slice? (s : Span) (low high : Nat) : Option Span :=
  if low ≤ high ∧ high ≤ s.count then some ⟨s.first + low, high - low⟩ else none

/-- Place in the array of an entry. -/
def place? (s : Span) (i : Nat) : Option Nat := if i < s.count then some (s.first + i) else none

/-- Pieces of one length, the last one cut off at the end. -/
def chunks? (s : Span) (length : Nat) : Option (List Span) := do
  let count ← Count.div? (s.count + length - 1) length
  return (List.range count).map fun i => ⟨s.first + i * length, min length (s.count - i * length)⟩

variable {α : Type}

def read? (s : Span) (xs : Array α) (i : Nat) : Option α := do xs[← s.place? i]?

def write? (s : Span) (xs : Array α) (i : Nat) (a : α) : Option (Array α) := do
  let place ← s.place? i
  if place < xs.size then some (xs.setIfInBounds place a) else none

end Span

/-- Which stretch is meant, by the size of the array. -/
abbrev Cut := Nat → Option Span

namespace Cut

/-- The whole array. -/
def whole : Cut := fun size => some (.whole size)

/-- The piece with a number, when arrays are cut into pieces of one length. It may lie beyond the end. -/
def piece (number length : Nat) : Cut := fun size =>
  if size = 0 then some (.whole 0)
  else
    let first := min (number * length) size
    (Span.whole size).slice? first (min (first + length) size)

/-- The piece with a number out of the list of all pieces; of an empty array there are as many as asked for. -/
def chunk (count number length : Nat) : Cut := fun size => do
  let pieces ← if size = 0 then some (List.replicate count (Span.whole 0)) else (Span.whole size).chunks? length
  pieces[number]?

end Cut

/-! ## Pixels in arrays -/

/-- How positions are found in arrays that hold one value for each position of a region. -/
structure View where
  cut : Cut
  /-- Number of a position in the stretch. -/
  index? : Point → Option Nat

namespace View

variable {α : Type}

/-- The positions of a region that has arrays of its own. -/
def ofRegion (r : Region) : View := ⟨.whole, r.index?⟩

/-- Rows of one width, from a first row on. -/
def rows (cut : Cut) (width firstRow : Nat) : View :=
  ⟨cut, fun p => do return (← Count.sub? p.y firstRow) * width + p.x⟩

/-- Place of a position in an array of some size. -/
def place? (v : View) (size : Nat) (p : Point) : Option Nat := do (← v.cut size).place? (← v.index? p)

def read? (v : View) (xs : Array α) (p : Point) : Option α := do xs[← v.place? xs.size p]?

def write? (v : View) (xs : Array α) (p : Point) (a : α) : Option (Array α) := do
  let place ← v.place? xs.size p
  if place < xs.size then some (xs.setIfInBounds place a) else none

def modify? (v : View) (xs : Array α) (p : Point) (f : α → α) : Option (Array α) := do
  v.write? xs p (f (← v.read? xs p))

/-- Changes a value, unless the array is not kept at all. -/
def modifyKept? (v : View) (xs : Array α) (p : Point) (f : α → α) : Option (Array α) :=
  if xs.isEmpty then some xs else v.modify? xs p f

/-- Reads a value; if the array is not kept at all, a given one. -/
def readKept? (v : View) (xs : Array α) (p : Point) (a : α) : Option α := if xs.isEmpty then some a else v.read? xs p

end View

/-! ## Tiles -/

namespace Tile

def sample? (t : Tile) (p : Point) : Option Sample := (View.ofRegion t.region).read? t.cells p

/-- Replaces the sample at a position. -/
def write? (t : Tile) (p : Point) (s : Sample) : Option Tile := do
  let place ← (View.ofRegion t.region).place? t.cells.size p
  if place < t.cells.size then some ⟨t.toRaster.modify p fun _ => s, t.accumId⟩ else none

/-- Recomputes every sample from its position. -/
def mapPoints? (t : Tile) (f : Point → Sample → Option Sample) : Option Tile := do
  let samples ← t.toRaster.toList.mapM fun (p, s) => f p s
  return ⟨← Raster.ofCells? t.region samples.toArray, t.accumId⟩

end Tile

/-! ## Errors -/

namespace ErrorTracker

/-- Replaces the error of a task. -/
def write? (t : ErrorTracker) (v : View) (task : Point) (error : Float32) : Option ErrorTracker := do
  let place ← v.place? t.errors.size task
  if place < t.errors.size then some (t.update ⟨place, 0⟩ error) else none

/-- Replaces the error of the task at a grid position, if errors are tracked. -/
def update? (t : ErrorTracker) (task : Point) (error : Float32) : Option ErrorTracker :=
  if t.isEnabled then t.write? (.rows .whole t.grid.x 0) task error else some t

/-- The errors of one row of a box. -/
def row? (errors : Array Float32) (grid : Point) (r : Region) (y : Nat) : Option Span := do
  (← (Span.whole errors.size).slice? (y * grid.x) errors.size).slice? r.lower.x r.upper.x

/-- Sum and maximum of the errors of a box. -/
def boxErrors? (errors : Array Float32) (grid : Point) (r : Region) : Option (Float32 × Float32) :=
  (List.range' r.lower.y r.height).foldlM (fun acc y => do
    let row ← row? errors grid r y
    (List.range row.count).foldlM (fun (sum, largest) i => do
      let e ← row.read? errors i
      return (sum + e, Binary32.maxNum largest e)) acc) (0, 0)

/-- Raises the errors of a box to at least `floor`. -/
def raise? (errors : Array Float32) (grid : Point) (r : Region) (floor : Float32) : Option (Array Float32) :=
  (List.range' r.lower.y r.height).foldlM (fun errors y => do
    let row ← row? errors grid r y
    (List.range row.count).foldlM (fun errors i => do
      row.write? errors i (Binary32.maxNum (← row.read? errors i) floor)) errors) errors

def refineBox? (grid : Point) (threshold : Float32) (errors : Array Float32) (r : Region) :
    Option (Array Float32 × List Region) := do
  let (sum, largest) ← boxErrors? errors grid r
  let errors ← if threshold < largest then raise? errors grid r (Binary32.nextUp threshold) else some errors
  return (errors, shrink threshold r sum largest)

def refineBoxes? (grid : Point) (threshold : Float32) :
    Array Float32 → List Region → Option (Array Float32 × List Region)
  | errors, [] => some (errors, [])
  | errors, r :: rs => do
    let (errors, left) ← refineBox? grid threshold errors r
    let (errors, rest) ← refineBoxes? grid threshold errors rs
    return (errors, left ++ rest)

/-- One refinement pass. -/
def refine? (t : ErrorTracker) (threshold : Float32) : Option (ErrorTracker × Float32) :=
  if t.isEnabled then do
    let (errors, regions) ← refineBoxes? t.grid threshold t.errors t.regions
    if h : errors.size = t.grid.area then
      return (⟨t.grid, errors, regions, h⟩, frameError t.errors threshold)
    else none
  else some (t, Binary32.posInf)

end ErrorTracker

end AdaptiveFrame
