import AdaptiveFrame.Accum.Sample

/-!
# Frame images

The whole image as frame operations see it: the color, which they replace, and those guide channels
that the buffer keeps. `window` lists the pixels of the image that lie within a distance of one of
them along both axes; filters sum over it in row-major order, so an image border cuts it off and a
row never runs into the next.
-/

namespace AdaptiveFrame

/-- A complete image with its guide channels. -/
structure FrameImage where
  color : Raster Vec4
  depth : Option (Raster Float32)
  normal : Option (Raster Vec3)
  albedo : Option (Raster Vec3)

namespace FrameImage

/-- The pixels of `image` within `radius` of `p` along both axes. -/
def window (image : Region) (radius : Nat) (p : Point) : Region :=
  image.intersect ⟨p - .square radius, p + .square (radius + 1)⟩

/-- A color with its red lane at full intensity. -/
def fullRed (c : Vec4) : Vec4 := { c with x := 1 }

/-- Forces the red lane to full intensity. -/
def markRed (color : Raster Vec4) : Raster Vec4 := color.map fullRed

/-- The mean over the pixels of the image next to a position. -/
def boxMean (color : Raster Vec4) (p : Point) : Vec4 :=
  let w := window color.region 1 p
  (w.points.foldl (fun sum q => sum + color.getD q .zero) .zero).divBy (.ofNat w.area)

/-- Replaces every color by the mean over the pixels next to it. -/
def boxBlur (color : Raster Vec4) : Raster Vec4 := color.mapPoints fun p _ => boxMean color p

/-- Scale from depths to the unit interval: the nearest depth and the factor, zero if all depths are equal. -/
def depthScale (depths : Array Float32) : Float32 × Float32 :=
  let (nearest, farthest) := Binary32.finiteRange depths
  let range := farthest - nearest
  (nearest, if 0 < range then 1 / range else 0)

/-- A depth on the scale; misses are one. -/
def scaledDepth (scale : Float32 × Float32) (d : Float32) : Float32 :=
  if d.isFinite then (d - scale.1) * scale.2 else 1

/-- Shows depth as gray, with misses in white; alpha stays. -/
def showDepth (color : Raster Vec4) (depth : Raster Float32) : Raster Vec4 :=
  let scale := depthScale depth.cells
  color.mapPoints fun p c => c.withXyz (.splat (scaledDepth scale (depth.getD p Binary32.posInf)))

end FrameImage

end AdaptiveFrame
