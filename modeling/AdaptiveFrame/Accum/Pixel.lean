import AdaptiveFrame.Accum.Blend
import AdaptiveFrame.Buffer.Desc

/-!
# Folding tiles into stored pixels

A stored pixel holds the two running means and the sample that the buffer shows for it. `Pixel.fold`
says what one sample does to one pixel, `Pixel.reflect` what the sample looks like afterwards: a tile
leaves the buffer holding the means instead of the values it brought.

`foldTile` and `reflectTile` do this for the part of a tile that lies in a store, which may be a whole
image or a single tile of it; positions outside that part stay as they are, in the store and in the tile.
-/

namespace AdaptiveFrame

/-- What a frame buffer holds for one pixel. -/
structure Pixel where
  /-- Mean of all samples. -/
  accum : Vec4
  /-- Mean of the samples with an odd id. -/
  oddMean : Vec4
  /-- What the buffer shows: the color after pixel operations, and the guide channels. -/
  shown : Sample
  deriving Inhabited

/-- A pixel that received no sample yet. -/
def Pixel.blank : Pixel := ⟨.zero, .zero, .blank⟩

/-- Which channels of a sample are blended, and which the tile takes back. -/
structure FoldRule where
  /-- Whether colors accumulate over frames. -/
  accumulates : Bool
  /-- Whether the odd samples are averaged apart. -/
  estimates : Bool
  blendsDepth : Bool
  blendsNormal : Bool
  blendsAlbedo : Bool
  /-- Whether the tile takes back the identifiers that are stored. -/
  returnsIds : Bool
  deriving DecidableEq, Repr

namespace FoldRule

/-- A dense buffer blends the guide channels that it was asked for (`BandMut::accumulate`). -/
def dense (d : BufferDesc) : FoldRule :=
  ⟨d.has .accum, d.has .variance, d.has .depth, d.has .normal, d.has .albedo, false⟩

/-- A sparse buffer stores whole samples and blends all guide channels (`accumulate_owned`). -/
def sparse (d : BufferDesc) : FoldRule := ⟨d.has .accum, d.has .variance, true, true, true, true⟩

/-- Weight of the sample with id `k` (`weight` in both). Without accumulation every sample replaces its predecessor. -/
def weight (rule : FoldRule) (k : Int) : Float32 := if rule.accumulates then Blend.weight k else 1

/-- Whether the sample with id `k` changes the second mean and with it the error of its task (`update_variance`). -/
def updatesError (rule : FoldRule) (k : Int) : Bool := rule.estimates && Blend.isOdd k

/-- Whether the identifiers of the sample with id `k` are stored (`write_ids`). -/
def storesIds (rule : FoldRule) (k : Int) : Bool := !rule.accumulates || Blend.isFirst k

end FoldRule

namespace Pixel

/-- Folds the sample with id `k` into a pixel (the loop over `iter_mut` in `BandMut::accumulate` and
`accumulate_owned`, what it stores). The shown color is left to `setColor`. -/
def fold (rule : FoldRule) (k : Int) (s : Sample) (px : Pixel) : Pixel :=
  let w := rule.weight k
  { accum := if rule.accumulates then Blend.lerp4 px.accum s.color w else px.accum
    oddMean := if rule.updatesError k then Blend.lerp4 px.oddMean s.color (Blend.oddWeight k) else px.oddMean
    shown :=
      { color := px.shown.color
        depth := if rule.blendsDepth then Blend.depth px.shown.depth s.depth w else px.shown.depth
        normal := if rule.blendsNormal then Blend.lerp3 px.shown.normal s.normal w else px.shown.normal
        albedo := if rule.blendsAlbedo then Blend.lerp3 px.shown.albedo s.albedo w else px.shown.albedo
        ids := if rule.storesIds k then s.ids else px.shown.ids } }

/-- The sample after it was folded into a pixel: blended channels come back as they are stored (the same loop, what
it writes to the tile). -/
def reflect (rule : FoldRule) (px : Pixel) (s : Sample) : Sample :=
  { color := if rule.accumulates then px.accum else s.color
    depth := if rule.blendsDepth then px.shown.depth else s.depth
    normal := if rule.blendsNormal then px.shown.normal else s.normal
    albedo := if rule.blendsAlbedo then px.shown.albedo else s.albedo
    ids := if rule.returnsIds then px.shown.ids else s.ids }

def setColor (c : Vec4) (px : Pixel) : Pixel := { px with shown := { px.shown with color := c } }

end Pixel

/-- Stored pixels of a region. -/
abbrev Store := Raster Pixel

namespace Store

/-- Folds a tile into the store. -/
def foldTile (rule : FoldRule) (store : Store) (t : Tile) : Store :=
  store.modifyOn t.region fun p px => px.fold rule t.accumId (t.sampleAt p)

/-- A tile after the store folded it. -/
def reflectTile (rule : FoldRule) (store : Store) (t : Tile) : Tile :=
  let part := t.region.intersect store.region
  t.mapPoints fun p s => if part.contains p then (store.getD p .blank).reflect rule s else s

/-- Shows the colors of a tile. -/
def showColors (store : Store) (t : Tile) : Store :=
  store.modifyOn t.region fun p px => px.setColor (t.sampleAt p).color

/-- Mean error over the pixels that a region shares with the store (the sum of `pixel_error` over a task in both). -/
def meanError (store : Store) (r : Region) : Float32 :=
  let part := r.intersect store.region
  let sum := part.points.foldl (fun sum p =>
    let px := store.getD p .blank
    sum + Blend.pixelError px.accum px.oddMean) (0 : Float32)
  sum / .ofNat (max part.area 1)

end Store

end AdaptiveFrame
