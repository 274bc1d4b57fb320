/-!
# Vectors and matrices

Small vectors of single-precision numbers. Every operation works lane by lane and rounds after each
step; sums of lanes run from the first lane to the last.
-/

namespace AdaptiveFrame

structure Vec2 where
  x : Float32
  y : Float32
  deriving Repr, Inhabited

structure Vec3 where
  x : Float32
  y : Float32
  z : Float32
  deriving Repr, Inhabited

structure Vec4 where
  x : Float32
  y : Float32
  z : Float32
  w : Float32
  deriving Repr, Inhabited

/-! ## Three lanes -/

namespace Vec3

@[inline] def splat (a : Float32) : Vec3 := ⟨a, a, a⟩

def zero : Vec3 := splat 0
def one : Vec3 := splat 1
def unitX : Vec3 := ⟨1, 0, 0⟩
def unitY : Vec3 := ⟨0, 1, 0⟩

@[inline] def map (f : Float32 → Float32) (v : Vec3) : Vec3 := ⟨f v.x, f v.y, f v.z⟩
@[inline] def zip (f : Float32 → Float32 → Float32) (v w : Vec3) : Vec3 := ⟨f v.x w.x, f v.y w.y, f v.z w.z⟩

@[inline] instance : Add Vec3 := ⟨zip (· + ·)⟩
@[inline] instance : Sub Vec3 := ⟨zip (· - ·)⟩
@[inline] instance : Mul Vec3 := ⟨zip (· * ·)⟩
@[inline] instance : Div Vec3 := ⟨zip (· / ·)⟩

/-- Multiplies every lane by a number. -/
@[inline] def scale (v : Vec3) (a : Float32) : Vec3 := v.map (· * a)

/-- Divides every lane by a number. -/
@[inline] def divBy (v : Vec3) (a : Float32) : Vec3 := v.map (· / a)

/-- Lanes no smaller than those of `lo`; a NaN lane becomes that of `lo`. -/
@[inline] def atLeast (v lo : Vec3) : Vec3 := v.zip (fun a b => if b < a then a else b) lo

/-- Lanes no larger than those of `hi`; a NaN lane becomes that of `hi`. -/
@[inline] def atMost (v hi : Vec3) : Vec3 := v.zip (fun a b => if a < b then a else b) hi

@[inline] def clamp (v lo hi : Vec3) : Vec3 := (v.atLeast lo).atMost hi

@[inline] def dot (v w : Vec3) : Float32 := v.x * w.x + v.y * w.y + v.z * w.z
@[inline] def lengthSq (v : Vec3) : Float32 := v.dot v
@[inline] def length (v : Vec3) : Float32 := v.lengthSq.sqrt
@[inline] def normalize (v : Vec3) : Vec3 := v.scale (1 / v.length)

@[inline] def cross (v w : Vec3) : Vec3 :=
  ⟨v.y * w.z - w.y * v.z, v.z * w.x - w.z * v.x, v.x * w.y - w.x * v.y⟩

/-- The point a share `s` of the way from `v` to `w`. -/
@[inline] def mix (v w : Vec3) (s : Float32) : Vec3 := v.scale (1 - s) + w.scale s

/-- Appends a fourth lane. -/
@[inline] def extend (v : Vec3) (w : Float32) : Vec4 := ⟨v.x, v.y, v.z, w⟩

end Vec3

/-! ## Four lanes -/

namespace Vec4

@[inline] def splat (a : Float32) : Vec4 := ⟨a, a, a, a⟩

def zero : Vec4 := splat 0

@[inline] def map (f : Float32 → Float32) (v : Vec4) : Vec4 := ⟨f v.x, f v.y, f v.z, f v.w⟩
@[inline] def zip (f : Float32 → Float32 → Float32) (v w : Vec4) : Vec4 :=
  ⟨f v.x w.x, f v.y w.y, f v.z w.z, f v.w w.w⟩

@[inline] instance : Add Vec4 := ⟨zip (· + ·)⟩
@[inline] instance : Sub Vec4 := ⟨zip (· - ·)⟩

@[inline] def scale (v : Vec4) (a : Float32) : Vec4 := v.map (· * a)
@[inline] def divBy (v : Vec4) (a : Float32) : Vec4 := v.map (· / a)

/-- The first three lanes. -/
@[inline] def xyz (v : Vec4) : Vec3 := ⟨v.x, v.y, v.z⟩

/-- Replaces the first three lanes. -/
@[inline] def withXyz (v : Vec4) (u : Vec3) : Vec4 := u.extend v.w

end Vec4

/-! ## Matrices -/

/-- A linear map of three lanes, by the images of the axes. -/
structure Mat3 where
  xAxis : Vec3
  yAxis : Vec3
  zAxis : Vec3
  deriving Repr

def Mat3.apply (m : Mat3) (v : Vec3) : Vec3 := m.xAxis.scale v.x + m.yAxis.scale v.y + m.zAxis.scale v.z

/-- A linear map of four lanes, by its columns. -/
structure Mat4 where
  xAxis : Vec4
  yAxis : Vec4
  zAxis : Vec4
  wAxis : Vec4
  deriving Repr, Inhabited

namespace Mat4

def apply (m : Mat4) (v : Vec4) : Vec4 :=
  m.xAxis.scale v.x + m.yAxis.scale v.y + m.zAxis.scale v.z + m.wAxis.scale v.w

/-- Composition: the right factor acts first. -/
def compose (m n : Mat4) : Mat4 := ⟨m.apply n.xAxis, m.apply n.yAxis, m.apply n.zAxis, m.apply n.wAxis⟩

/-- The inverse by cofactors. -/
def inverse (m : Mat4) : Mat4 :=
  let ⟨⟨m00, m01, m02, m03⟩, ⟨m10, m11, m12, m13⟩, ⟨m20, m21, m22, m23⟩, ⟨m30, m31, m32, m33⟩⟩ := m
  let c00 := m22 * m33 - m32 * m23
  let c02 := m12 * m33 - m32 * m13
  let c03 := m12 * m23 - m22 * m13
  let c04 := m21 * m33 - m31 * m23
  let c06 := m11 * m33 - m31 * m13
  let c07 := m11 * m23 - m21 * m13
  let c08 := m21 * m32 - m31 * m22
  let c10 := m11 * m32 - m31 * m12
  let c11 := m11 * m22 - m21 * m12
  let c12 := m20 * m33 - m30 * m23
  let c14 := m10 * m33 - m30 * m13
  let c15 := m10 * m23 - m20 * m13
  let c16 := m20 * m32 - m30 * m22
  let c18 := m10 * m32 - m30 * m12
  let c19 := m10 * m22 - m20 * m12
  let c20 := m20 * m31 - m30 * m21
  let c22 := m10 * m31 - m30 * m11
  let c23 := m10 * m21 - m20 * m11
  let k0 : Vec4 := ⟨m11 * c00 - m12 * c04 + m13 * c08, -(m01 * c00 - m02 * c04 + m03 * c08),
    m01 * c02 - m02 * c06 + m03 * c10, -(m01 * c03 - m02 * c07 + m03 * c11)⟩
  let k1 : Vec4 := ⟨-(m10 * c00 - m12 * c12 + m13 * c16), m00 * c00 - m02 * c12 + m03 * c16,
    -(m00 * c02 - m02 * c14 + m03 * c18), m00 * c03 - m02 * c15 + m03 * c19⟩
  let k2 : Vec4 := ⟨m10 * c04 - m11 * c12 + m13 * c20, -(m00 * c04 - m01 * c12 + m03 * c20),
    m00 * c06 - m01 * c14 + m03 * c22, -(m00 * c07 - m01 * c15 + m03 * c23)⟩
  let k3 : Vec4 := ⟨-(m10 * c08 - m11 * c16 + m12 * c20), m00 * c08 - m01 * c16 + m02 * c20,
    -(m00 * c10 - m01 * c18 + m02 * c22), m00 * c11 - m01 * c19 + m02 * c23⟩
  let det := m00 * k0.x + m01 * k1.x + m02 * k2.x + m03 * k3.x
  let scale := 1 / det
  ⟨k0.scale scale, k1.scale scale, k2.scale scale, k3.scale scale⟩

end Mat4

end AdaptiveFrame
