import AdaptiveFrame.Number.Binary32

/-!
# Reading numerals

Numerals as users type them, in ASCII digits. Whole numbers may have a plus sign and have to stay below
a limit. Single-precision numbers may have a sign, a point and a power of ten; they are rounded once,
from the exact value to the nearest number. Infinity and NaN are written out, in any case of letters.
-/

namespace AdaptiveFrame.Numeral

/-- The number that a run of digits denotes. -/
def digitsValue (cs : List Char) : Nat := cs.foldl (fun n c => 10 * n + (c.toNat - '0'.toNat)) 0

/-- Reads a run of at least one digit. -/
def digits? (cs : List Char) : Option Nat :=
  if cs.isEmpty || !cs.all Char.isDigit then none else some (digitsValue cs)

/-- Reads a whole number below a limit. -/
def nat? (limit : Nat) (s : String) : Option Nat :=
  let n := match s.toList with
    | '+' :: cs => digits? cs
    | cs => digits? cs
  n.filter (· < limit)

/-- Separates a sign: whether it is a minus, and the rest. -/
def sign : List Char → Bool × List Char
  | '+' :: cs => (false, cs)
  | '-' :: cs => (true, cs)
  | cs => (false, cs)

/-- Reads the power of ten that may follow the digits of a number. -/
def exponent? : List Char → Option Int
  | [] => some 0
  | c :: cs =>
    if c = 'e' || c = 'E' then
      let (minus, cs) := sign cs
      (digits? cs).map fun n => if minus then -n else n
    else none

/-- Reads digits with a point and a power of ten: the digits as a whole number, and the power of ten that
it is to be multiplied by. -/
def scientific? (cs : List Char) : Option (Nat × Int) :=
  let whole := cs.takeWhile Char.isDigit
  let (fraction, rest) := match cs.dropWhile Char.isDigit with
    | '.' :: cs => (cs.takeWhile Char.isDigit, cs.dropWhile Char.isDigit)
    | cs => ([], cs)
  if whole.isEmpty && fraction.isEmpty then none
  else (exponent? rest).map fun e => (digitsValue (whole ++ fraction), e - fraction.length)

/-- The number nearest to `m * 10^e`. Values of more than forty digits are infinite, and those that start
after sixty zeros vanish, so the power of ten is not formed then. -/
def nearest (m : Nat) (e : Int) : Float32 :=
  let places := (Nat.repr m).length + e
  if m = 0 || places < -60 then 0
  else if 40 < places then Binary32.posInf
  else .ofScientific m (e < 0) e.natAbs

/-- Reads a single-precision number. -/
def binary32? (s : String) : Option Float32 :=
  let (minus, cs) := sign s.toList
  let size :=
    match String.ofList (cs.map Char.toLower) with
    | "inf" | "infinity" => some Binary32.posInf
    | "nan" => some (0 / 0)
    | _ => (scientific? cs).map fun (m, e) => nearest m e
  size.map fun x => if minus then -x else x

end AdaptiveFrame.Numeral
