import AdaptiveFrame.Number.Binary32
import AdaptiveFrame.Grid.Raster
import AdaptiveFrame.Grid.Tiling
import AdaptiveFrame.Number.Vec

/-!
# Samples and tiles

A sample is everything a renderer produces for one pixel; a tile is a raster of samples together with
the number of samples its pixels had received before. Tiles are made by renderers, folded into frame
buffers and discarded.
-/

namespace AdaptiveFrame

/-- Stands in an identifier channel where nothing was hit. -/
def noId : UInt32 := 0xffffffff

/-- Which surface a sample lies on. -/
structure Ids where
  primitiveId : UInt32
  objectId : UInt32
  instanceId : UInt32
  deriving DecidableEq, Repr, Inhabited

/-- The identifiers of a miss. -/
def Ids.none : Ids := ⟨noId, noId, noId⟩

/-- Everything a renderer produces for one pixel. A miss has infinite depth. -/
structure Sample where
  color : Vec4
  depth : Float32
  normal : Vec3
  albedo : Vec3
  ids : Ids
  deriving Repr

namespace Sample

/-- Black, transparent, and nothing hit. -/
def blank : Sample := ⟨.zero, Binary32.posInf, .zero, .zero, .none⟩

instance : Inhabited Sample := ⟨blank⟩

/-- A miss of a given color. -/
def ofColor (color : Vec4) : Sample := { blank with color }

end Sample

/-- The samples of one block of pixels. `accumId` counts the samples the block received before. -/
structure Tile extends Raster Sample where
  accumId : Int

namespace Tile

/-- A tile of blank samples. -/
def blank (region : Region) (accumId : Int) : Tile := ⟨.fill region .blank, accumId⟩

/-- The sample at a position of the tile. -/
@[inline] def sampleAt (t : Tile) (p : Point) : Sample := t.toRaster.getD p .blank

/-- Recomputes every sample from its position. -/
def mapPoints (t : Tile) (f : Point → Sample → Sample) : Tile := ⟨t.toRaster.mapPoints f, t.accumId⟩

/-- Recomputes every color. -/
def mapColor (t : Tile) (f : Vec4 → Vec4) : Tile :=
  ⟨t.toRaster.map fun s => { s with color := f s.color }, t.accumId⟩

/-- Cell of the tile grid that holds the lower corner. -/
def cell (t : Tile) : Point := Tiling.cellOf t.region.lower

/-- First pixel of that cell. -/
def cellOrigin (t : Tile) : Point := t.cell * .square tileSize

/-- Whether the tile stays inside that cell. -/
def fitsCell (t : Tile) : Bool := Tiling.fitsCell t.region

end Tile

end AdaptiveFrame
