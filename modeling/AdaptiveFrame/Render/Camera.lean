import AdaptiveFrame.Grid.Region
import AdaptiveFrame.Number.Vec

/-!
# Pinhole cameras

A camera turns image coordinates into rays. It keeps the inverse of its projection, which has to be
renewed whenever one of the other fields changes; `lookingAt` and `turned` do so.
-/

namespace AdaptiveFrame

/-- A half line; distances along it are in lengths of its direction. -/
structure Ray where
  origin : Vec3
  direction : Vec3
  deriving Repr

/-- The point at a distance along the ray. -/
@[inline] def Ray.at (r : Ray) (t : Float32) : Vec3 := r.origin + r.direction.scale t

/-- A camera with an upright image plane. -/
structure Camera where
  position : Vec3
  /-- Angle around the vertical axis, zero towards negative z. -/
  yaw : Float32
  /-- Angle above the horizon. -/
  pitch : Float32
  /-- Vertical field of view in degrees. -/
  fov : Float32
  /-- Width of the image relative to its height. -/
  aspect : Float32
  /-- From clip space back to the world. -/
  unprojection : Mat4
  deriving Repr

namespace Camera

def radiansPerDegree : Float32 := .ofBits 0x3c8efa35

/-- Distances of the planes that bound the view. -/
def nearPlane : Float32 := 0.1
def farPlane : Float32 := 1000

/-- The perspective projection of a vertical field of view in radians. -/
def perspective (fov aspect : Float32) : Mat4 :=
  let half := 0.5 * fov
  let h := half.cos / half.sin
  let r := farPlane / (nearPlane - farPlane)
  ⟨⟨h / aspect, 0, 0, 0⟩, ⟨0, h, 0, 0⟩, ⟨0, 0, r, -1⟩, ⟨0, 0, r * nearPlane, 0⟩⟩

/-- The view from a position towards a target, upright. -/
def view (eye target : Vec3) : Mat4 :=
  let f := (target - eye).normalize
  let s := (f.cross .unitY).normalize
  let u := s.cross f
  ⟨⟨s.x, u.x, -f.x, 0⟩, ⟨s.y, u.y, -f.y, 0⟩, ⟨s.z, u.z, -f.z, 0⟩, ⟨-(eye.dot s), -(eye.dot u), eye.dot f, 1⟩⟩

/-- The direction of view. -/
def forward (c : Camera) : Vec3 := ⟨c.yaw.sin * c.pitch.cos, c.pitch.sin, -c.yaw.cos * c.pitch.cos⟩

/-- Renews the inverse of the projection. -/
def refresh (c : Camera) : Camera :=
  let projection := perspective (c.fov * radiansPerDegree) c.aspect
  { c with unprojection := (projection.compose (view c.position (c.position + c.forward))).inverse }

/-- The camera at a position that looks at a target. -/
def lookingAt (position target : Vec3) (fov aspect : Float32) : Camera :=
  let d := (target - position).normalize
  refresh ⟨position, d.x.atan2 (-d.z), d.y.asin, fov, aspect, ⟨.zero, .zero, .zero, .zero⟩⟩

/-- The camera whose aspect is that of an image. -/
def forImage (position target : Vec3) (fov : Float32) (image : Point) : Camera :=
  lookingAt position target fov (.ofNat image.x / .ofNat (max image.y 1))

/-- The camera where callers name none. -/
def standard : Camera := lookingAt ⟨0, 1, 4⟩ ⟨0, 0.5, 0⟩ 45 1

/-- The camera turned to other angles. -/
def turned (c : Camera) (yaw pitch : Float32) : Camera := refresh { c with yaw, pitch }

/-- The ray through image coordinates between zero and one, from the upper left corner. -/
def ray (c : Camera) (uv : Vec2) : Ray :=
  let x := 2 * uv.x - 1
  let y := 1 - 2 * uv.y
  let onPlane (depth : Float32) : Vec3 :=
    let p := c.unprojection.apply ⟨x, y, depth, 1⟩
    p.xyz.divBy p.w
  ⟨c.position, (onPlane 1 - onPlane (-1)).normalize⟩

/-- The ray through a pixel, at a place inside it. -/
def pixelRay (c : Camera) (image pixel : Point) (jitter : Vec2) : Ray :=
  c.ray ⟨(.ofNat pixel.x + jitter.x) / .ofNat image.x, (.ofNat pixel.y + jitter.y) / .ofNat image.y⟩

end Camera

end AdaptiveFrame
