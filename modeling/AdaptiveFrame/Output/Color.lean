import AdaptiveFrame.Number.Binary32
import AdaptiveFrame.Buffer.Channel
import AdaptiveFrame.Number.Vec

/-!
# Eight-bit colors

Colors are computed in linear light and single precision. For display they are clamped to the unit
interval and rounded to eight bits per lane, after the gamma curve for the color lanes of the
gamma-encoded format. A NaN lane encodes as zero.
-/

namespace AdaptiveFrame

/-- A color of eight bits per lane. -/
structure Rgba8 where
  r : UInt8
  g : UInt8
  b : UInt8
  a : UInt8
  deriving DecidableEq, Repr, Inhabited

namespace Color

/-- The gamma curve: a straight piece near zero, a power of 1/2.4 above it. -/
def linearToSrgb (c : Float32) : Float32 :=
  if c ≤ 0.0031308 then 12.92 * c else 1.055 * c.pow (1.0 / 2.4) - 0.055

/-- A lane rounded to eight bits. -/
def quantize (c : Float32) : UInt8 := (Binary32.clamp c 0 1 * 255 + 0.5).toUInt8

/-- Linear color and alpha. -/
def encodeRgba8 (c : Vec4) : Rgba8 := ⟨quantize c.x, quantize c.y, quantize c.z, quantize c.w⟩

/-- Gamma-encoded color, linear alpha. -/
def encodeSrgba (c : Vec4) : Rgba8 :=
  let gamma (lane : Float32) : UInt8 := quantize (linearToSrgb (Binary32.clamp lane 0 1))
  ⟨gamma c.x, gamma c.y, gamma c.z, quantize c.w⟩

/-- The encoding of a format; formats without an eight-bit form have none. -/
def encoding? : ColorFormat → Option (Vec4 → Rgba8)
  | .rgba8 => some encodeRgba8
  | .srgba => some encodeSrgba
  | .rgba32f | .none => none

/-- Encodes a run of colors over a run of eight-bit ones. Formats without an encoding change nothing. -/
def encodeOver (format : ColorFormat) (colors : List Vec4) (old : List Rgba8) : List Rgba8 :=
  match encoding? format with
  | some encode => colors.zipWith (fun c _ => encode c) old
  | none => old

end Color

end AdaptiveFrame
