import AdaptiveFrame.Grid.Region

/-!
# Rasters

A raster holds one value for every position of a region, in row-major order. Tiles, dense images and
the tiles of a sparse buffer are rasters over different regions, so one set of operations serves them
all. `get?` is the view through which an operation is described: `modifyOn` changes exactly the
positions of its region, `mapPoints` all of them.
-/

namespace AdaptiveFrame

/-- One value for every position of `region`, row by row. -/
structure Raster (α : Type) where
  region : Region
  cells : Array α
  size_eq : cells.size = region.area

namespace Raster

variable {α β : Type}

/-- The same value everywhere. -/
def fill (region : Region) (a : α) : Raster α := ⟨region, Array.replicate region.area a, by simp⟩

/-- The values of a function on the positions of a region. -/
def tabulate (region : Region) (f : Point → α) : Raster α :=
  ⟨region, (region.points.map f).toArray, by simp⟩

/-- Reads an array as a raster, if it has one value for every position. -/
def ofCells? (region : Region) (cells : Array α) : Option (Raster α) :=
  if h : cells.size = region.area then some ⟨region, cells, h⟩ else none

/-- Reads the first values of an array as a raster, if there is one for every position. -/
def ofFirst? (region : Region) (cells : Array α) : Option (Raster α) := ofCells? region (cells.take region.area)

/-- Whether a position has a value. Positions beyond a row run on into the next; before the first column
or row there are none. -/
def covers (g : Raster α) (p : Point) : Bool :=
  g.region.lower.x ≤ p.x && g.region.lower.y ≤ p.y && g.region.index p < g.cells.size

/-- The value at a position of the region. -/
def get? (g : Raster α) (p : Point) : Option α :=
  if g.region.contains p then g.cells[g.region.index p]? else none

/-- The value at a position, a default where there is none. -/
@[inline] def getD (g : Raster α) (p : Point) (dflt : α) : α := (g.cells[g.region.index p]?).getD dflt

/-- Changes the value at one position of the region. -/
def modify (g : Raster α) (p : Point) (f : α → α) : Raster α :=
  ⟨g.region, g.cells.modify (g.region.index p) f, by simp [g.size_eq]⟩

private theorem size_foldl_modify (index : Point → Nat) (f : Point → α → α) (ps : List Point) (cells : Array α) :
    (ps.foldl (fun cs p => cs.modify (index p) (f p)) cells).size = cells.size := by
  induction ps generalizing cells with
  | nil => rfl
  | cons p ps ih => simp [ih]

/-- Changes the values at the positions that `region` shares with the raster. -/
def modifyOn (g : Raster α) (region : Region) (f : Point → α → α) : Raster α :=
  match g with
  | ⟨own, cells, size_eq⟩ =>
    ⟨own, (region.intersect own).points.foldl (fun cs p => cs.modify (own.index p) (f p)) cells,
      by rw [size_foldl_modify, size_eq]⟩

def map (g : Raster α) (f : α → β) : Raster β := ⟨g.region, g.cells.map f, by simp [g.size_eq]⟩

/-- Recomputes every value from its position and its old value. -/
def mapPoints (g : Raster α) (f : Point → α → β) : Raster β :=
  ⟨g.region, g.cells.mapIdx fun i a => f (g.region.pointAt i) a, by simp [g.size_eq]⟩

/-- The values with their positions, row-major. -/
def toList (g : Raster α) : List (Point × α) := g.region.points.zip g.cells.toList

end Raster

end AdaptiveFrame
