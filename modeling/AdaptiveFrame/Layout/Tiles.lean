import AdaptiveFrame.Layout.Access

/-!
# Tiles in memory

In memory a tile is a region next to an array, and nothing but the operations sees to it that the array has one sample
for every position. Loops go through positions and samples side by side and end with the shorter of the two, while single
samples are found by their index. Tiles and their arrays are used alike; an array has no result once an access fails.
-/

namespace AdaptiveFrame

/-- What is done to a tile. -/
inductive TileOp where
  | reset (region : Region) (accumId : Int)
  | setAccumId (accumId : Int)
  /-- Changes the sample at one position. -/
  | change (p : Point) (f : Sample → Sample)
  /-- Changes the samples one after another, each beside its position. -/
  | visit (f : Point → Sample → Sample)
  /-- Rewrites the samples where they are, with all the old ones and the number of each at hand. -/
  | rewrite (f : Array Sample → Nat → Sample)
  | fill (s : Sample)

/-- A region, and samples that need not be as many as its positions. -/
structure LooseTile where
  region : Region
  samples : Array Sample
  accumId : Int

namespace LooseTile

/-- Cuts an array off at a length, or fills it up to it. -/
def resize {α : Type} (xs : Array α) (length : Nat) (a : α) : Array α :=
  xs.take length ++ Array.replicate (length - xs.size) a

/-- A tile of blank samples. -/
def new (region : Region) (accumId : Int) : LooseTile := ⟨region, Array.replicate region.area .blank, accumId⟩

/-- Turns the tile to another region. The array is emptied and filled up again. -/
def reset (t : LooseTile) (region : Region) (accumId : Int) : LooseTile :=
  ⟨region, resize (t.samples.take 0) region.area .blank, accumId⟩

/-- Number of the sample of a position. It has none before the first column or row. -/
def index? (t : LooseTile) (p : Point) : Option Nat := t.region.index? p

/-- The sample of a position. -/
def sample? (t : LooseTile) (p : Point) : Option Sample := do t.samples[← t.index? p]?

/-- Changes the sample of a position. -/
def change? (t : LooseTile) (p : Point) (f : Sample → Sample) : Option LooseTile := do
  let i ← t.index? p
  if i < t.samples.size then some { t with samples := t.samples.modify i f } else none

/-- Positions and samples side by side. -/
def entries (t : LooseTile) : List (Point × Sample) := t.region.points.zip t.samples.toList

/-- Changes the samples that have a position beside them. -/
def visit (t : LooseTile) (f : Point → Sample → Sample) : LooseTile :=
  let positions := t.region.points.toArray
  { t with samples := t.samples.mapIdx fun i s =>
      match positions[i]? with
      | some p => f p s
      | none => s }

def perform? (t : LooseTile) : TileOp → Option LooseTile
  | .reset region accumId => some (t.reset region accumId)
  | .setAccumId accumId => some { t with accumId }
  | .change p f => t.change? p f
  | .visit f => some (t.visit f)
  | .rewrite f => some { t with samples := t.samples.mapIdx fun i _ => f t.samples i }
  | .fill s => some { t with samples := t.samples.map fun _ => s }

def performAll? (t : LooseTile) (ops : List TileOp) : Option LooseTile := ops.foldlM perform? t

end LooseTile

namespace Tile

/-- How a tile lies in memory. -/
def loose (t : Tile) : LooseTile := ⟨t.region, t.cells, t.accumId⟩

def perform? (t : Tile) : TileOp → Option Tile
  | .reset region accumId => some (.blank region accumId)
  | .setAccumId accumId => some ⟨t.toRaster, accumId⟩
  | .change p f => if t.covers p then some ⟨t.toRaster.modify p f, t.accumId⟩ else none
  | .visit f => some (t.mapPoints f)
  | .rewrite f => some ⟨⟨t.region, t.cells.mapIdx fun i _ => f t.cells i, by simp [t.size_eq]⟩, t.accumId⟩
  | .fill s => some ⟨.fill t.region s, t.accumId⟩

def performAll? (t : Tile) (ops : List TileOp) : Option Tile := ops.foldlM perform? t

end Tile

end AdaptiveFrame
