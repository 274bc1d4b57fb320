import AdaptiveFrame.Filter.LooseFrame
import AdaptiveFrame.Layout.Access

/-!
# Frame operations on arrays

Blurring and denoising read the neighbors of a pixel by their numbers in the image, and write one row of pixels
after another. The other operations go from one color to the next.
-/

namespace AdaptiveFrame

/-- Recomputes pixels, one row after another. -/
def recomputeRows? {α : Type} (width : Nat) (pixel? : Point → Option α) (cells : Array α) : Option (Array α) := do
  let rows ← (Span.whole cells.size).chunks? width
  (List.range rows.length).foldlM (fun cells y => do
    let row ← rows[y]?
    (List.range row.count).foldlM (fun cells x => do row.write? cells x (← pixel? ⟨x, y⟩)) cells) cells

namespace FrameImage

/-- The mean over the pixels next to a position. Before the first column and row there are none. -/
def boxMean? (size : Point) (color : Array Vec4) (p : Point) : Option Vec4 := do
  let first : Point := p - .square 1
  let last := min (p + .square 1) (← size.sub? (.square 1))
  let sum ← (Region.mk first (last + .square 1)).points.foldlM (fun sum q => do
    return sum + (← color[q.rowMajor size.x]?)) .zero
  let extent ← last.sub? first
  return sum.divBy (.ofNat (extent + .square 1).area)

end FrameImage

namespace Denoiser

/-- The factor a guide contributes to the weight of one pixel at another, given by their numbers. -/
def guideFactor? (guide : Option (Array Vec3)) (sigma : Float32) (center place : Nat) (w : Float32) : Option Float32 :=
  match guide with
  | some g => do return w * bell ((← g[place]?) - (← g[center]?)).lengthSq sigma
  | none => some w

/-- The offsets of a loop from minus the reach to the reach. -/
def offsets (reach : Int) : List Int := (List.range (2 * reach + 1).toNat).map fun (k : Nat) => k - reach

/-- The coordinate at an offset from another one, if it is less than an extent. -/
def shifted? (extent i : Nat) (offset : Int) : Option Nat :=
  if i + offset < 0 ∨ extent ≤ i + offset then none else some (i + offset).toNat

/-- The positions of an image that are visited, row by row. -/
def visited (d : Denoiser) (size p : Point) : List Point :=
  ((offsets d.reach).filterMap (shifted? size.y p.y)).flatMap fun y =>
    ((offsets d.reach).filterMap (shifted? size.x p.x)).map fun x => ⟨x, y⟩

/-- The weighted mean over the window of a pixel. -/
def pixel? (d : Denoiser) (size : Point) (color : Array Vec3) (albedo normal : Option (Array Vec3)) (p : Point) :
    Option Vec3 := do
  let center := p.rowMajor size.x
  let own ← color[center]?
  let (sum, total) ← (d.visited size p).foldlM (fun (sum, total) q => do
    let place := q.rowMajor size.x
    let c ← color[place]?
    let w := bell (.ofNat (pixelDistSq p q)) d.sigmaSpatial * bell (c - own).lengthSq d.sigmaColor
    let w ← guideFactor? albedo d.sigmaAlbedo center place w
    let w ← guideFactor? normal d.sigmaNormal center place w
    return (sum + c.scale w, total + w)) (Vec3.zero, (0 : Float32))
  return if 0 < total then sum.divBy total else own

end Denoiser

namespace LooseFrame

/-- Denoises all pixels of the image. -/
def smooth? (f : LooseFrame) : Option (Array Vec3) :=
  recomputeRows? (max f.size.x 1) (({} : Denoiser).pixel? f.size (f.color.map Vec4.xyz) f.albedo f.normal)
    (Array.replicate f.size.area .zero)

/-- The new colors. -/
def process? (f : LooseFrame) : FrameOp → Option (Array Vec4)
  | .markRed => some (f.color.map FrameImage.fullRed)
  | .blur => recomputeRows? f.size.x (FrameImage.boxMean? f.size f.color) f.color
  | .depth => some f.showDepth
  | .denoise => f.smooth?.map (withXyz f.color)

/-- Runs operations in order. -/
def processAll? (f : LooseFrame) (ops : List FrameOp) : Option LooseFrame :=
  ops.foldlM (fun f op => do return { f with color := ← f.process? op }) f

end LooseFrame

end AdaptiveFrame
