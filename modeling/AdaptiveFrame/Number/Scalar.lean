/-!
# Scalars

What running means need of a number: the four operations, whole numbers, a test against a bound and
a test for finiteness. Images use single precision; the same formulas can be read over any other
number system that has these operations.
-/

namespace AdaptiveFrame

/-- Numbers that running means can be taken over. -/
class Scalar (α : Type) extends Add α, Sub α, Mul α, Div α where
  ofNat : Nat → α
  /-- Whether the first number is at least the second. -/
  atLeast : α → α → Bool
  isFinite : α → Bool

@[inline] instance : Scalar Float32 where
  ofNat n := .ofNat n
  atLeast a b := b ≤ a
  isFinite a := a.isFinite

end AdaptiveFrame
