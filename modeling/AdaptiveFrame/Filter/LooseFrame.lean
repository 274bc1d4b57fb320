import AdaptiveFrame.Filter.Pipeline

/-!
# Loose frames

Frame operations also serve callers whose arrays do not fit the extent they state: the last pixels may
be missing, or values may be left at the end. Marking and showing depth go from color to color and take
what is there. The filters read whole windows of the image and so need a value for every pixel. Of the
colors after the image, denoising keeps all, while blurring goes on below the last row.

`recolor?` has no result where an operation needs a value that is missing.
-/

namespace AdaptiveFrame

/-- An extent, and arrays that need not have one value for every pixel of it. -/
structure LooseFrame where
  size : Point
  color : Array Vec4
  depth : Option (Array Float32)
  normal : Option (Array Vec3)
  albedo : Option (Array Vec3)

namespace LooseFrame

/-- The pixels that the extent asks for. -/
def image (f : LooseFrame) : Region := .ofSize f.size

/-- Replaces the first three lanes of as many colors as there are values. -/
def withXyz (color : Array Vec4) (values : Array Vec3) : Array Vec4 :=
  color.mapIdx fun i c =>
    match values[i]? with
    | some v => c.withXyz v
    | none => c

/-- The blurred color at a position in or below the image. The first row below averages the last row of the
image, the second averages nothing, which gives no number, and all others are black. -/
def blurred (image : Raster Vec4) (p : Point) : Vec4 :=
  if p.y ≤ image.region.height + 1 then FrameImage.boxMean image p else .zero

/-- Blurs all colors. Without any, only the width matters. -/
def blur? (f : LooseFrame) : Option (Array Vec4) :=
  if f.size.x = 0 || (f.size.y = 0 && !f.color.isEmpty) then none
  else if f.color.isEmpty then some #[]
  else (Raster.ofFirst? f.image f.color).map fun image => f.color.mapIdx fun i _ => blurred image (f.image.pointAt i)

/-- Shows as many depths as there are colors; all of them set the scale. -/
def showDepth (f : LooseFrame) : Array Vec4 :=
  match f.depth with
  | some d =>
    let scale := FrameImage.depthScale d
    withXyz f.color (d.map fun z => .splat (FrameImage.scaledDepth scale z))
  | none => f.color

/-- Denoises the colors of the image. -/
def denoise? (f : LooseFrame) : Option (Array Vec4) :=
  (({} : Denoiser).run? f.image (f.color.map Vec4.xyz) f.albedo f.normal).map fun smooth => withXyz f.color smooth.cells

/-- The new colors, none if a value is missing. -/
def recolor? (f : LooseFrame) : FrameOp → Option (Array Vec4)
  | .markRed => some (f.color.map FrameImage.fullRed)
  | .blur => f.blur?
  | .depth => some f.showDepth
  | .denoise => f.denoise?

/-- Runs operations in order. Each sees the colors its predecessor left. -/
def run? (f : LooseFrame) (ops : List FrameOp) : Option LooseFrame :=
  ops.foldlM (fun f op => (f.recolor? op).map fun color => { f with color }) f

end LooseFrame

end AdaptiveFrame
