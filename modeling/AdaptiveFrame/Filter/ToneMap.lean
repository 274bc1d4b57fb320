import AdaptiveFrame.Number.Binary32
import AdaptiveFrame.Number.Vec

/-!
# Tone curves

Maps from linear color of any brightness towards the displayable range. The curves work on color
alone; alpha is none of their business.
-/

namespace AdaptiveFrame

/-- The known curves. -/
inductive ToneMap where
  | none | aces | reinhard | agx
  deriving DecidableEq, Repr, Inhabited

namespace ToneMap

/-- Looks a curve up by the name users give. -/
def ofName? : String → Option ToneMap
  | "none" => some none
  | "aces" => some aces
  | "reinhard" => some reinhard
  | "agx" => some agx
  | _ => Option.none

/-- The curve's name in listings. -/
def label : ToneMap → String
  | none => "None" | aces => "Aces" | reinhard => "Reinhard" | agx => "Agx"

/-! ## Filmic curve -/

private def acesInput (c : Vec3) : Vec3 :=
  ⟨c.x * 0.59719 + c.y * 0.35458 + c.z * 0.04823,
   c.x * 0.07600 + c.y * 0.90834 + c.z * 0.01566,
   c.x * 0.02840 + c.y * 0.13383 + c.z * 0.83777⟩

private def acesOutput (c : Vec3) : Vec3 :=
  ⟨c.x * 1.60475 + c.y * -0.53108 + c.z * -0.07367,
   c.x * -0.10208 + c.y * 1.10813 + c.z * -0.00605,
   c.x * -0.00327 + c.y * -0.07276 + c.z * 1.07602⟩

/-- A rational curve between two color spaces, clamped to the unit cube. -/
def filmic (color : Vec3) : Vec3 :=
  let c := acesInput color
  let a := c * (c + .splat 0.0245786) - .splat 0.000090537
  let b := c * (c.scale 0.983729 + .splat 0.432951) + .splat 0.238081
  (acesOutput (a / b)).clamp .zero .one

/-! ## Logarithmic curve with fitted contrast -/

private def agxInput : Mat3 :=
  ⟨⟨0.842479062253094, 0.0784335999999992, 0.0792237451477643⟩,
   ⟨0.0423282422610123, 0.878468636469772, 0.0791661274605434⟩,
   ⟨0.0423756549057051, 0.0784336, 0.879142973793104⟩⟩

private def agxOutput : Mat3 :=
  ⟨⟨1.19687900512017, -0.0980208811401368, -0.0990297440797205⟩,
   ⟨-0.0528968517574562, 1.15190312990417, -0.0989611768448433⟩,
   ⟨-0.0529716355144438, -0.0980434501171241, 1.15107367264116⟩⟩

/-- Ends of the range of exposures that are kept. -/
private def minExposure : Float32 := -12.47393
private def maxExposure : Float32 := 4.026069

/-- A polynomial fit of the contrast curve. -/
private def contrast (x : Vec3) : Vec3 :=
  let x2 := x * x
  let x4 := x2 * x2
  (x4 * x2).scale 15.5 - (x4 * x).scale 40.14 + x4.scale 31.96 - (x2 * x).scale 6.868 + x2.scale 0.4298
    + x.scale 0.1191 - .splat 0.00232

/-- Exposure in powers of two, contrast, and a power of 2.2 back to linear light. -/
def logarithmic (color : Vec3) : Vec3 :=
  let exposure (lane : Float32) : Float32 :=
    Binary32.clamp (Binary32.maxNum lane 1e-10).log2 minExposure maxExposure
  let e := (agxInput.apply color).map exposure
  let c := contrast ((e - .splat minExposure).divBy (maxExposure - minExposure))
  (agxOutput.apply c).map fun lane => (Binary32.maxNum lane 0).pow 2.2

/-! ## Application -/

def apply : ToneMap → Vec3 → Vec3
  | none, c => c
  | aces, c => filmic c
  | reinhard, c => c / (c + .one)
  | agx, c => logarithmic c

/-- The curve after scaling the color. -/
def applyExposed (m : ToneMap) (c : Vec3) (exposure : Float32) : Vec3 := m.apply (c.scale exposure)

end ToneMap

end AdaptiveFrame
