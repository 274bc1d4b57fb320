import AdaptiveFrame.Grid.Region

/-!
# Tiles and tasks as parts of an image

An image is covered by square tiles of `tileSize` pixels, numbered row by row; those at the right and
lower border are cut off at the image. A tile is divided further into render tasks, blocks of a
power-of-two extent that form a grid of their own.

Counts are natural numbers here. Where a buffer keeps them in words of 32 bits, the words stand for these counts as
long as none wraps, and the definitions named after words say what comes out if one does.
-/

namespace AdaptiveFrame

/-- Edge length of a tile in pixels. -/
def tileSize : Nat := 64

namespace Tiling

/-- Number of tiles that cover an image, along each axis (`num_tiles`). -/
def tileCount (image : Point) : Point := image.ceilDiv (.square tileSize)

/-- Pixels of a tile, cut off at the far border of the image (`tile_region`). -/
def tileRegion (image : Point) (tileId : Nat) : Region :=
  let lower := .ofRowMajor (tileCount image).x tileId * .square tileSize
  ⟨lower, min (lower + .square tileSize) image⟩

/-- The tile cell that contains a pixel (`tile_pos` of a tile that starts there). -/
def cellOf (p : Point) : Point := p / .square tileSize

/-- Whether a region stays inside the tile cell of its lower corner (`fits_cell`). -/
def fitsCell (r : Region) : Bool := r.isEmpty || cellOf r.lower == cellOf (r.upper - .square 1)

/-- Blocks of extent `task` that share a pixel with the region, as a box on the grid of those blocks
(`tasks_in_region`). -/
def tasksOver (task : Point) (r : Region) : Region := ⟨r.lower / task, r.upper.ceilDiv task⟩

/-- Pixels of the block at a position of the grid of blocks. -/
def blockRegion (task pos : Point) : Region := ⟨pos * task, pos * task + task⟩

/-! ## Words -/

/-- Number of blocks that cover an extent, along one axis (`div_round_up`). The sum wraps for the longest extents. -/
def ceilDivWord (extent block : Nat) : UInt32 := (.ofNat extent + .ofNat block - 1) / .ofNat block

def columnsWord (image : Point) : UInt32 := ceilDivWord image.x tileSize

def rowsWord (image : Point) : UInt32 := ceilDivWord image.y tileSize

/-- Number of tiles of an image (`total` in `set_tiles`). -/
def tileTotalWord (image : Point) : UInt32 := columnsWord image * rowsWord image

end Tiling

end AdaptiveFrame
