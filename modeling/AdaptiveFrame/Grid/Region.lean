/-!
# Points and regions

Positions, extents and half-open boxes `[lower, upper)` on a grid of natural numbers. Boxes describe
pixel rectangles as well as blocks of render tasks. A box may be inverted; it then has no points.

`points` lists the contained positions row by row and is the order in which every raster of the
library keeps its values: `index` is the position of a point in that list, `pointAt` its inverse.
-/

namespace AdaptiveFrame

/-- A position on a grid, or the extent of one. -/
structure Point where
  x : Nat
  y : Nat
  deriving DecidableEq, Repr, Inhabited

namespace Point

def zero : Point := ⟨0, 0⟩

/-- The extent with the same length along both axes. -/
def square (n : Nat) : Point := ⟨n, n⟩

/-- Number of cells of a grid of this extent. -/
def area (p : Point) : Nat := p.x * p.y

/-- Combines two points axis by axis. -/
@[inline] def zip (f : Nat → Nat → Nat) (p q : Point) : Point := ⟨f p.x q.x, f p.y q.y⟩

instance : Add Point := ⟨zip (· + ·)⟩
instance : Sub Point := ⟨zip (· - ·)⟩
instance : Mul Point := ⟨zip (· * ·)⟩
instance : Div Point := ⟨zip (· / ·)⟩
instance : Min Point := ⟨zip min⟩
instance : Max Point := ⟨zip max⟩

@[simp] theorem add_x (p q : Point) : (p + q).x = p.x + q.x := rfl
@[simp] theorem add_y (p q : Point) : (p + q).y = p.y + q.y := rfl
@[simp] theorem sub_x (p q : Point) : (p - q).x = p.x - q.x := rfl
@[simp] theorem sub_y (p q : Point) : (p - q).y = p.y - q.y := rfl
@[simp] theorem mul_x (p q : Point) : (p * q).x = p.x * q.x := rfl
@[simp] theorem mul_y (p q : Point) : (p * q).y = p.y * q.y := rfl
@[simp] theorem div_x (p q : Point) : (p / q).x = p.x / q.x := rfl
@[simp] theorem div_y (p q : Point) : (p / q).y = p.y / q.y := rfl
@[simp] theorem min_x (p q : Point) : (min p q).x = min p.x q.x := rfl
@[simp] theorem min_y (p q : Point) : (min p q).y = min p.y q.y := rfl
@[simp] theorem max_x (p q : Point) : (max p q).x = max p.x q.x := rfl
@[simp] theorem max_y (p q : Point) : (max p q).y = max p.y q.y := rfl

/-- Number of blocks of extent `block` needed to cover an extent, axis by axis. -/
def ceilDiv (extent block : Point) : Point := (extent + block - square 1) / block

/-- Row-major number of a position in a grid `width` cells wide. Positions beyond a row run on into the next. -/
def rowMajor (width : Nat) (p : Point) : Nat := p.y * width + p.x

/-- The position with a row-major number in a grid `width` cells wide. -/
def ofRowMajor (width i : Nat) : Point := ⟨i % width, i / width⟩

end Point

/-- The half-open box `[lower, upper)`. -/
structure Region where
  lower : Point
  upper : Point
  deriving DecidableEq, Repr, Inhabited

namespace Region

/-- The box of the given extent at the origin. -/
def ofSize (size : Point) : Region := ⟨.zero, size⟩

/-- Extent along each axis, zero where the box is inverted. -/
def size (r : Region) : Point := r.upper - r.lower

def width (r : Region) : Nat := r.size.x
def height (r : Region) : Nat := r.size.y

/-- Number of contained positions. -/
def area (r : Region) : Nat := r.size.area

def isEmpty (r : Region) : Bool := r.area == 0

def contains (r : Region) (p : Point) : Bool :=
  r.lower.x ≤ p.x && r.lower.y ≤ p.y && p.x < r.upper.x && p.y < r.upper.y

/-- Whether the corners of `s` lie within the corners of `r`. -/
def containsRegion (r s : Region) : Bool :=
  r.lower.x ≤ s.lower.x && r.lower.y ≤ s.lower.y && s.upper.x ≤ r.upper.x && s.upper.y ≤ r.upper.y

/-- The common part, possibly empty but never inverted. -/
def intersect (r s : Region) : Region :=
  let lower := max r.lower s.lower
  ⟨lower, max (min r.upper s.upper) lower⟩

def overlaps (r s : Region) : Bool := !(r.intersect s).isEmpty

/-- Halves the box along its longer axis, the horizontal one when both are equal. -/
def split (r : Region) : Region × Region :=
  if r.height ≤ r.width then
    let mid := r.lower.x + r.width / 2
    (⟨r.lower, ⟨mid, r.upper.y⟩⟩, ⟨⟨mid, r.lower.y⟩, r.upper⟩)
  else
    let mid := r.lower.y + r.height / 2
    (⟨r.lower, ⟨r.upper.x, mid⟩⟩, ⟨⟨r.lower.x, mid⟩, r.upper⟩)

/-- The box moved towards the origin by `origin`. -/
def relativeTo (r : Region) (origin : Point) : Region := ⟨r.lower - origin, r.upper - origin⟩

/-- The contained positions in row-major order. -/
def points (r : Region) : List Point :=
  (List.range' r.lower.y r.height).flatMap fun y => (List.range' r.lower.x r.width).map fun x => ⟨x, y⟩

/-- Place of a contained position in `points`. -/
def index (r : Region) (p : Point) : Nat := (p - r.lower).rowMajor r.width

/-- The position at place `i` of `points`. -/
def pointAt (r : Region) (i : Nat) : Point := r.lower + .ofRowMajor r.width i

@[simp] theorem length_points (r : Region) : r.points.length = r.area := by
  simp [points, area, Point.area, width, height, List.length_flatMap, List.map_const', Nat.mul_comm]

end Region

end AdaptiveFrame
