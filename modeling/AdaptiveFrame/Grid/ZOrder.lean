/-!
# Z-order

The Z-order code of a grid position interleaves the bits of its coordinates, the horizontal one in
the even places. Sorting by the code keeps the cells of every aligned power-of-two block together.
Only the low sixteen bits of a coordinate take part, so the code fits 32 bits.
-/

namespace AdaptiveFrame.ZOrder

/-- Interleaves the low `bits` bits of two numbers, the first in the even places. -/
def interleave : (bits : Nat) → (x y : Nat) → Nat
  | 0, _, _ => 0
  | bits + 1, x, y => x % 2 + 2 * (y % 2) + 4 * interleave bits (x / 2) (y / 2)

/-- The Z-order code of a position. -/
def code (x y : Nat) : Nat := interleave 16 x y

/-- Sorts by the Z-order code of a position attached to every entry; entries of one code keep their order. -/
def sortBy {α : Type} (position : α → Nat × Nat) (entries : List α) : List α :=
  ((entries.map fun a => (code (position a).1 (position a).2, a)).mergeSort fun a b => a.1 ≤ b.1).map Prod.snd

end AdaptiveFrame.ZOrder
