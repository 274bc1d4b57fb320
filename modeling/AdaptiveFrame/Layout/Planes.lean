import AdaptiveFrame.Accum.Pixel
import AdaptiveFrame.Layout.Access
import AdaptiveFrame.Output.Color

/-!
# Channels as arrays

In memory every channel is an array of its own, and one that the buffer was not asked for is empty. Folding a
sample changes the entries of one pixel in all arrays that are kept.
-/

namespace AdaptiveFrame

/-- The two running means. -/
structure Means where
  accum : Array Vec4
  oddMean : Array Vec4

namespace Means

/-- Folds the color of one pixel of the sample with id `k` and weight `w`. -/
def fold? (m : Means) (v : View) (k : Int) (w : Float32) (p : Point) (color : Vec4) : Option Means :=
  if m.accum.isEmpty then some m
  else do
    let accum ← v.modify? m.accum p fun mean => Blend.lerp4 mean color w
    let oddMean ←
      if !m.oddMean.isEmpty && Blend.isOdd k then
        v.modify? m.oddMean p fun mean => Blend.lerp4 mean color (Blend.oddWeight k)
      else some m.oddMean
    return ⟨accum, oddMean⟩

/-- Folds the colors of a part of a tile. -/
def foldTile? (m : Means) (v : View) (w : Float32) (part : Region) (t : Tile) : Option Means :=
  part.points.foldlM (fun m p => do m.fold? v t.accumId w p (← t.sample? p).color) m

/-- Mean error over some pixels. -/
def error? (m : Means) (v : View) (part : Region) : Option Float32 := do
  let sum ← part.points.foldlM (fun sum p => do
    return sum + Blend.pixelError (← v.read? m.accum p) (← v.read? m.oddMean p)) 0
  return sum / .ofNat (max part.area 1)

end Means

/-- The guide channels and the identifiers. -/
structure Guides where
  depth : Array Float32
  normal : Array Vec3
  albedo : Array Vec3
  primitiveId : Array UInt32
  objectId : Array UInt32
  instanceId : Array UInt32

namespace Guides

/-- Stores the identifiers of one pixel. -/
def storeIds? (g : Guides) (v : View) (p : Point) (ids : Ids) : Option Guides := do
  return { g with
    primitiveId := ← v.modifyKept? g.primitiveId p fun _ => ids.primitiveId
    objectId := ← v.modifyKept? g.objectId p fun _ => ids.objectId
    instanceId := ← v.modifyKept? g.instanceId p fun _ => ids.instanceId }

/-- Blends the guide values of one pixel, and stores the identifiers if they are wanted. -/
def fold? (g : Guides) (v : View) (w : Float32) (storesIds : Bool) (p : Point) (s : Sample) : Option Guides := do
  let g := { g with
    depth := ← v.modifyKept? g.depth p fun z => Blend.depth z s.depth w
    normal := ← v.modifyKept? g.normal p fun n => Blend.lerp3 n s.normal w
    albedo := ← v.modifyKept? g.albedo p fun a => Blend.lerp3 a s.albedo w }
  if storesIds then g.storeIds? v p s.ids else some g

/-- Folds a part of a tile. -/
def foldTile? (g : Guides) (v : View) (w : Float32) (storesIds : Bool) (part : Region) (t : Tile) : Option Guides :=
  part.points.foldlM (fun g p => do g.fold? v w storesIds p (← t.sample? p)) g

/-- Replaces the values of one pixel. -/
def overwrite? (g : Guides) (v : View) (p : Point) (s : Sample) : Option Guides := do
  let g := { g with
    depth := ← v.modifyKept? g.depth p fun _ => s.depth
    normal := ← v.modifyKept? g.normal p fun _ => s.normal
    albedo := ← v.modifyKept? g.albedo p fun _ => s.albedo }
  g.storeIds? v p s.ids

/-- Replaces the values of a part of a tile. -/
def overwriteTile? (g : Guides) (v : View) (part : Region) (t : Tile) : Option Guides :=
  part.points.foldlM (fun g p => do g.overwrite? v p (← t.sample? p)) g

end Guides

/-! ## Displayed color -/

/-- Encodes the colors of one stretch over another, as far as both go. -/
def encodeSpan? (format : ColorFormat) (color : Array Vec4) (source target : Span) (shown : Array Rgba8) :
    Option (Array Rgba8) :=
  match Color.encoding? format with
  | some encode =>
    (List.range (min source.count target.count)).foldlM (fun shown i => do
      target.write? shown i (encode (← source.read? color i))) shown
  | none => some shown

/-- Encodes the rows of a part of the image. -/
def encodeRows? (format : ColorFormat) (v : View) (part : Region) (color : Array Vec4) (shown : Array Rgba8) :
    Option (Array Rgba8) :=
  if shown.isEmpty then some shown
  else
    (List.range' part.lower.y part.height).foldlM (fun shown y => do
      let first ← v.index? ⟨part.lower.x, y⟩
      let last ← v.index? ⟨part.upper.x, y⟩
      let source ← (← v.cut color.size).slice? first last
      let target ← (← v.cut shown.size).slice? first last
      encodeSpan? format color source target shown) shown

end AdaptiveFrame
