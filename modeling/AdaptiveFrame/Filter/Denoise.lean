import AdaptiveFrame.Filter.FrameImage

/-!
# Cross-bilateral denoising

An edge-aware blur. Neighbors count by distance, by difference of color and, where the image has
them, by difference of albedo and normal, each through a bell curve of its own width.
-/

namespace AdaptiveFrame

/-- The window and the widths of the bell curves. -/
structure Denoiser where
  radius : Nat := 3
  sigmaSpatial : Float32 := 2
  sigmaColor : Float32 := 0.5
  sigmaAlbedo : Float32 := 0.1
  sigmaNormal : Float32 := 0.2

namespace Denoiser

/-- The bell curve of width `sigma` at a squared distance. -/
@[inline] def bell (distSq sigma : Float32) : Float32 := (-distSq / (2 * sigma * sigma)).exp

/-- Square of the distance of two pixels. -/
def pixelDistSq (p q : Point) : Nat :=
  let dx := (q.x - p.x) + (p.x - q.x)
  let dy := (q.y - p.y) + (p.y - q.y)
  dx * dx + dy * dy

/-- The factor a guide contributes to the weight of `q` at `p`, none if there is no guide. -/
@[inline] def guideFactor (guide : Option (Raster Vec3)) (sigma : Float32) (p q : Point) (w : Float32) : Float32 :=
  match guide with
  | some g => w * bell (g.getD q .zero - g.getD p .zero).lengthSq sigma
  | none => w

/-- Weight of the pixel `q` in the denoised color of `p`. -/
def weight (d : Denoiser) (color : Raster Vec3) (albedo normal : Option (Raster Vec3)) (p q : Point) : Float32 :=
  let w := bell (.ofNat (pixelDistSq p q)) d.sigmaSpatial
    * bell (color.getD q .zero - color.getD p .zero).lengthSq d.sigmaColor
  guideFactor normal d.sigmaNormal p q (guideFactor albedo d.sigmaAlbedo p q w)

/-- How far the window reaches, as a signed word of 64 bits. A radius that does not fit into one wraps around. -/
def reach (d : Denoiser) : Int :=
  if d.radius < 0x8000000000000000 then d.radius else d.radius - 0x10000000000000000

/-- The pixels of an image that count at one of them, none if the reach is below zero. -/
def neighbors (d : Denoiser) (image : Region) (p : Point) : List Point :=
  if d.reach < 0 then [] else (FrameImage.window image d.reach.toNat p).points

/-- The weighted mean over the window of a pixel, its own color if all weights vanish. -/
def pixel (d : Denoiser) (color : Raster Vec3) (albedo normal : Option (Raster Vec3)) (p : Point) (own : Vec3) : Vec3 :=
  let (sum, total) := (d.neighbors color.region p).foldl (fun (sum, total) q =>
    let w := d.weight color albedo normal p q
    (sum + (color.getD q .zero).scale w, total + w)) (Vec3.zero, (0 : Float32))
  if 0 < total then sum.divBy total else own

/-- Denoises all pixels, each from the image as it was given. -/
def run (d : Denoiser) (color : Raster Vec3) (albedo normal : Option (Raster Vec3)) : Raster Vec3 :=
  color.mapPoints (d.pixel color albedo normal)

/-- Denoises the image at the start of an array. Color and guides need a value for every pixel; what follows
is left out. -/
def run? (d : Denoiser) (image : Region) (color : Array Vec3) (albedo normal : Option (Array Vec3)) :
    Option (Raster Vec3) := do
  let color ← Raster.ofFirst? image color
  let albedo ← albedo.mapM (Raster.ofFirst? image)
  let normal ← normal.mapM (Raster.ofFirst? image)
  return d.run color albedo normal

end Denoiser

end AdaptiveFrame
