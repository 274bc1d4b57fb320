import AdaptiveFrame.Number.Binary32
import AdaptiveFrame.Number.Vec

/-!
# Sampling directions

Maps from the unit square to directions and to points of a disk, and frames of reference to place
them in.
-/

namespace AdaptiveFrame

namespace Sampling

def pi : Float32 := .ofBits 0x40490fdb

/-- The point of the unit disk with squared radius `u1`, at the turn `u2`. -/
def disk (u1 u2 : Float32) : Vec2 :=
  let r := u1.sqrt
  let theta := 2 * pi * u2
  ⟨r * theta.cos, r * theta.sin⟩

/-- A direction of the upper hemisphere, as likely as it is upright. -/
def hemisphere (u1 u2 : Float32) : Vec3 :=
  let d := disk u1 u2
  ⟨d.x, d.y, (Binary32.maxNum (1 - u1) 0).sqrt⟩

end Sampling

/-- Three perpendicular directions. -/
structure Basis where
  tangent : Vec3
  bitangent : Vec3
  normal : Vec3
  deriving Repr

namespace Basis

/-- A basis around a normal. -/
def around (n : Vec3) : Basis :=
  let up := if n.y.abs < 0.999 then Vec3.unitY else Vec3.unitX
  let t := (up.cross n).normalize
  ⟨t, n.cross t, n⟩

/-- The direction with given coordinates in the basis. -/
def toWorld (b : Basis) (v : Vec3) : Vec3 := b.tangent.scale v.x + b.bitangent.scale v.y + b.normal.scale v.z

end Basis

end AdaptiveFrame
