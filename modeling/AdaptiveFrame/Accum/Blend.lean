import AdaptiveFrame.Accum.Sample
import AdaptiveFrame.Number.Scalar

/-!
# Running means

The sample with accumulation id `k` is the one that `k` others precede. Giving it the weight
`1 / (k + 1)` keeps a running mean of all samples, and the sample with id 0 replaces whatever was
stored. A second mean takes every other sample, those with an odd id, so the difference of the two
estimates the error of the first.

The weights and the blending of one number are stated over any scalar type; vectors blend lane by
lane.
-/

namespace AdaptiveFrame.Blend

section Scalar

variable {α : Type} [Scalar α]

/-- Weight of the sample with id `k` in the mean of all samples (`blend_weight`). Negative ids count as the first. -/
@[inline] def weight (k : Int) : α := Scalar.ofNat 1 / Scalar.ofNat (k.toNat + 1)

/-- Weight of the sample with the odd id `k` in the mean of the odd samples (`variance_weight`). -/
@[inline] def oddWeight (k : Int) : α := Scalar.ofNat 1 / Scalar.ofNat ((max k.toNat 1 + 1) / 2)

/-- Moves a mean towards a sample by its weight; full weight replaces the mean (`lerp3` and `lerp4`, one lane). -/
@[inline] def lerp (mean sample w : α) : α :=
  if Scalar.atLeast w (Scalar.ofNat 1) then sample else mean + (sample - mean) * w

/-- Blends depths over hits only (`blend_depth`). A miss is infinitely deep: it keeps a stored hit, and the first hit
replaces a stored miss. -/
@[inline] def depth (mean sample w : α) : α :=
  if Scalar.atLeast w (Scalar.ofNat 1) || !Scalar.isFinite mean then sample
  else if !Scalar.isFinite sample then mean
  else mean + (sample - mean) * w

end Scalar

/-- Whether the sample with id `k` enters the mean of the odd samples. -/
def isOdd (k : Int) : Bool := k % 2 == 1

/-- Whether the sample with id `k` is a first one, whose identifiers are kept. -/
def isFirst (k : Int) : Bool := k ≤ 0

def lerp3 (mean sample : Vec3) (w : Float32) : Vec3 :=
  ⟨lerp mean.x sample.x w, lerp mean.y sample.y w, lerp mean.z sample.z w⟩

def lerp4 (mean sample : Vec4) (w : Float32) : Vec4 :=
  ⟨lerp mean.x sample.x w, lerp mean.y sample.y w, lerp mean.z sample.z w, lerp mean.w sample.w w⟩

/-- Difference of the mean of all samples and the mean of the odd ones, relative to the brightness of the pixel
(`pixel_error`). -/
def pixelError (mean oddMean : Vec4) : Float32 :=
  let brightness := mean.x + mean.y + mean.z + (1 - mean.w)
  if 0 < brightness then
    ((mean.x - oddMean.x).abs + (mean.y - oddMean.y).abs + (mean.z - oddMean.z).abs) / brightness.sqrt
  else 0

end AdaptiveFrame.Blend
