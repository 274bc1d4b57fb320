/-!
# Order on single-precision numbers

Comparisons with a NaN are false, so a running maximum or minimum has to say what it does with one.
`maxNum` and `minNum` leave a NaN out; `clamp` lets it through. `nextUp` is the least number above
another.
-/

namespace AdaptiveFrame.Binary32

def posInf : Float32 := .ofBits 0x7f800000
def negInf : Float32 := .ofBits 0xff800000

/-- The larger number, or the other one if one is NaN. Of two equal numbers, such as the two zeros, it is the second. -/
def maxNum (a b : Float32) : Float32 := if a.isNaN || a ≤ b then b else a

/-- The smaller number, or the other one if one is NaN. Of two equal numbers it is the second. -/
def minNum (a b : Float32) : Float32 := if a.isNaN || b ≤ a then b else a

/-- The nearest number of the interval; a NaN stays. -/
def clamp (a lo hi : Float32) : Float32 := if a < lo then lo else if hi < a then hi else a

/-- The least number above `a`; infinity and NaN are their own successors. -/
def nextUp (a : Float32) : Float32 :=
  let bits := a.toBits
  if a.isNaN || bits == 0x7f800000 then a
  else if bits &&& 0x7fffffff == 0 then .ofBits 1
  else if bits < 0x80000000 then .ofBits (bits + 1)
  else .ofBits (bits - 1)

/-- The least and the greatest finite number of a sequence, the infinities in reverse if there is none. -/
def finiteRange (values : Array Float32) : Float32 × Float32 :=
  values.foldl (fun (lo, hi) a => if a.isFinite then (minNum lo a, maxNum hi a) else (lo, hi)) (posInf, negInf)

end AdaptiveFrame.Binary32
