import AdaptiveFrame.Number.Binary32

/-!
# Writing numbers in digits

Single-precision numbers are written without powers of ten, either with the fewest digits that read back
as the same number, or with a fixed number of places.

A number is `m * 2^q` with natural `m`. All that is nearer to it than to its neighbors reads back as it,
and so do the two halfway points if `m` is even. The shortest text is a point of the coarsest decimal
grid that has a point in this interval.
-/

namespace AdaptiveFrame

/-- The mantissa and the power of two of a finite number, sign aside. -/
def Binary32.decode (x : Float32) : Nat × Int :=
  let e := (x.toBits >>> 23 &&& 0xff).toNat
  let m := (x.toBits &&& 0x7fffff).toNat
  if e = 0 then (m, -149) else (m + 0x800000, (e : Int) - 150)

namespace Digits

/-- `x * 2^q` in units of `10^j`, as a quotient. -/
def inUnits (x : Nat) (q j : Int) : Nat × Nat :=
  (x * Nat.pow 2 q.toNat * Nat.pow 10 (-j).toNat, Nat.pow 2 (-q).toNat * Nat.pow 10 j.toNat)

/-- The multiple of `10^j` next to `m * 2^q` that reads back as it, the nearer one of two, the larger one
if both are equally near. -/
def gridPoint? (m : Nat) (q j : Int) : Option Nat :=
  let (value, unit) := inUnits (4 * m) (q - 2) j
  let (low, _) := inUnits (4 * m - if m = 0x800000 && -149 < q then 1 else 2) (q - 2) j
  let (high, _) := inUnits (4 * m + 2) (q - 2) j
  let inside (n : Nat) : Bool :=
    if m % 2 = 0 then low ≤ n * unit && n * unit ≤ high else low < n * unit && n * unit < high
  let n := value / unit
  match inside n, inside (n + 1) with
  | true, true => some (if value - n * unit < (n + 1) * unit - value then n else n + 1)
  | true, false => some n
  | false, true => some (n + 1)
  | false, false => none

/-- Powers of ten that the last digit of a shortest text can have, from the coarsest grid to the finest. -/
def gridExponents : List Int := (List.range 100).map fun (i : Nat) => (40 : Int) - i

/-- The digits of the shortest text as a number, and the power of ten of the last one. -/
def shortestOf (m : Nat) (q : Int) : Nat × Int :=
  if m = 0 then (0, 0) else (gridExponents.findSome? fun j => (gridPoint? m q j).map fun n => (n, j)).getD (0, 0)

/-- The quotient rounded to the nearest whole number, a half to the even one. -/
def roundHalfEven (n d : Nat) : Nat :=
  let quot := n / d
  let twice := 2 * (n % d)
  if d < twice || (twice = d && quot % 2 = 1) then quot + 1 else quot

/-- Writes `n * 10^j` with a point before the last `-j` digits, if `j` is negative. -/
def positional (n : Nat) (j : Int) : String :=
  let digits := n.repr.toList
  let places := (-j).toNat
  let padded := List.replicate (places + 1 - digits.length) '0' ++ digits ++ List.replicate j.toNat '0'
  let point := padded.length - places
  if places = 0 then .ofList padded else .ofList (padded.take point ++ '.' :: padded.drop point)

/-- Adds the sign, and the names of what has no digits. -/
def signed (x : Float32) (size : String) : String :=
  if x.isNaN then "NaN"
  else (if x.toBits < 0x80000000 then "" else "-") ++ if x.isFinite then size else "inf"

/-- The shortest text that reads back as the number. -/
def shortest (x : Float32) : String :=
  let (m, q) := Binary32.decode x
  let (n, j) := shortestOf m q
  signed x (positional n j)

/-- The text with a fixed number of places. -/
def fixed (places : Nat) (x : Float32) : String :=
  let (m, q) := Binary32.decode x
  let (n, d) := inUnits m q (-places)
  signed x (positional (roundHalfEven n d) (-places))

end Digits

end AdaptiveFrame
