import AdaptiveFrame.Grid.Region
import Mathlib.Data.List.Nodup
import Mathlib.Data.Set.Function

/-!
# The points of a region

`points` lists every contained position once and in row-major order, `index` and `pointAt` are inverse to
each other on it, and `split` cuts a box in two without losing or doubling a point. Comparing the corners of
two boxes tells whether one holds all points of the other, unless the other has none.
-/

namespace AdaptiveFrame

namespace Point

@[ext] theorem ext {p q : Point} (hx : p.x = q.x) (hy : p.y = q.y) : p = q := by
  cases p; cases q; simp_all

/-- Earlier in row-major order: in a row above, or to the left in the same row. -/
def Before (p q : Point) : Prop := p.y < q.y ∨ p.y = q.y ∧ p.x < q.x

@[simp] theorem square_x (n : Nat) : (square n).x = n := rfl
@[simp] theorem square_y (n : Nat) : (square n).y = n := rfl
@[simp] theorem zero_x : zero.x = 0 := rfl
@[simp] theorem zero_y : zero.y = 0 := rfl
@[simp] theorem ofRowMajor_x (w i : Nat) : (ofRowMajor w i).x = i % w := rfl
@[simp] theorem ofRowMajor_y (w i : Nat) : (ofRowMajor w i).y = i / w := rfl

theorem rowMajor_ofRowMajor (w i : Nat) : (ofRowMajor w i).rowMajor w = i := by
  simp only [rowMajor, ofRowMajor_x, ofRowMajor_y]
  rw [Nat.mul_comm]
  exact Nat.div_add_mod i w

theorem ofRowMajor_rowMajor {w : Nat} {p : Point} (h : p.x < w) : ofRowMajor w (p.rowMajor w) = p := by
  have hw : 0 < w := by omega
  ext
  · simp [rowMajor, Nat.mul_add_mod_self_right, Nat.mod_eq_of_lt h]
  · simp only [rowMajor, ofRowMajor_y]
    rw [Nat.mul_comm, Nat.mul_add_div hw, Nat.div_eq_of_lt h, Nat.add_zero]

theorem rowMajor_inj {w : Nat} {p q : Point} (hp : p.x < w) (hq : q.x < w)
    (h : p.rowMajor w = q.rowMajor w) : p = q := by
  rw [← ofRowMajor_rowMajor hp, ← ofRowMajor_rowMajor hq, h]

theorem rowMajor_lt {g p : Point} (hx : p.x < g.x) (hy : p.y < g.y) : p.rowMajor g.x < g.area := by
  have h : (p.y + 1) * g.x ≤ g.y * g.x := Nat.mul_le_mul_right _ hy
  have h' : (p.y + 1) * g.x = p.y * g.x + g.x := Nat.succ_mul _ _
  simp only [rowMajor, area, Nat.mul_comm g.x]
  omega

theorem ofRowMajor_lt {g : Point} {i : Nat} (h : i < g.area) :
    (ofRowMajor g.x i).x < g.x ∧ (ofRowMajor g.x i).y < g.y := by
  have hx : 0 < g.x := by
    rcases Nat.eq_zero_or_pos g.x with h0 | h0
    · simp [area, h0] at h
    · exact h0
  refine ⟨Nat.mod_lt _ hx, ?_⟩
  rw [ofRowMajor_y, Nat.div_lt_iff_lt_mul hx, Nat.mul_comm]
  exact h

end Point

namespace Region

variable {r s t : Region} {p q : Point}

/-! ## Membership -/

theorem contains_iff :
    r.contains p = true ↔ r.lower.x ≤ p.x ∧ r.lower.y ≤ p.y ∧ p.x < r.upper.x ∧ p.y < r.upper.y := by
  simp [contains, and_assoc]

theorem contains_ofSize {g : Point} : (ofSize g).contains p = true ↔ p.x < g.x ∧ p.y < g.y := by
  simp [contains_iff, ofSize]

theorem contains_intersect : (r.intersect s).contains p = (r.contains p && s.contains p) := by
  rw [Bool.eq_iff_iff, Bool.and_eq_true]
  simp only [contains_iff, intersect, Point.max_x, Point.max_y, Point.min_x, Point.min_y]
  omega

@[simp] theorem contains_intersect_iff :
    (r.intersect s).contains p = true ↔ r.contains p = true ∧ s.contains p = true := by
  rw [contains_intersect, Bool.and_eq_true]

theorem width_eq : r.width = r.upper.x - r.lower.x := rfl
theorem height_eq : r.height = r.upper.y - r.lower.y := rfl
theorem area_eq : r.area = r.width * r.height := rfl

theorem area_pos_iff : 0 < r.area ↔ r.lower.x < r.upper.x ∧ r.lower.y < r.upper.y := by
  simp only [area_eq, Nat.pos_iff_ne_zero, ne_eq, Nat.mul_eq_zero, width_eq, height_eq]
  omega

theorem isEmpty_eq_false : r.isEmpty = false ↔ 0 < r.area := by
  simp [isEmpty, Nat.pos_iff_ne_zero]

theorem area_pos_of_contains (h : r.contains p = true) : 0 < r.area := by
  have := contains_iff.1 h
  exact area_pos_iff.2 (by omega)

theorem intersect_self (h : 0 < r.area) : r.intersect r = r := by
  obtain ⟨lower, upper⟩ := r
  have hlt : lower.x < upper.x ∧ lower.y < upper.y := area_pos_iff.1 h
  simp only [intersect, Region.mk.injEq, Point.ext_iff, Point.max_x, Point.max_y, Point.min_x, Point.min_y]
  omega

theorem containsRegion_iff : r.containsRegion s = true ↔
    r.lower.x ≤ s.lower.x ∧ r.lower.y ≤ s.lower.y ∧ s.upper.x ≤ r.upper.x ∧ s.upper.y ≤ r.upper.y := by
  simp [containsRegion, and_assoc]

theorem contains_of_containsRegion (h : r.containsRegion s = true) (hp : s.contains p = true) :
    r.contains p = true := by
  have := containsRegion_iff.1 h
  have := contains_iff.1 hp
  exact contains_iff.2 (by omega)

/-- A box with points holds them at its lower corner and just before its upper one. -/
theorem contains_corners (h : 0 < r.area) :
    r.contains r.lower = true ∧ r.contains (r.upper - .square 1) = true := by
  obtain ⟨hx, hy⟩ := area_pos_iff.1 h
  constructor <;> simp only [contains_iff, Point.sub_x, Point.sub_y, Point.square_x, Point.square_y] <;> omega

/-- Corners tell whether all points of a box lie in another one. -/
theorem containsRegion_iff_forall (h : 0 < s.area) :
    r.containsRegion s = true ↔ ∀ p, s.contains p = true → r.contains p = true := by
  constructor
  · intro hsub p hp
    exact contains_of_containsRegion hsub hp
  · intro hall
    obtain ⟨hfirst, hlast⟩ := contains_corners h
    have hlower := contains_iff.1 (hall _ hfirst)
    have hupper := contains_iff.1 (hall _ hlast)
    simp only [Point.sub_x, Point.sub_y, Point.square_x, Point.square_y] at hupper
    exact containsRegion_iff.2 (by omega)

theorem containsRegion_refl : r.containsRegion r = true := containsRegion_iff.2 (by omega)

theorem containsRegion_trans (h₁ : r.containsRegion s = true) (h₂ : s.containsRegion t = true) :
    r.containsRegion t = true := by
  have := containsRegion_iff.1 h₁
  have := containsRegion_iff.1 h₂
  exact containsRegion_iff.2 (by omega)

theorem overlaps_iff_area_pos : r.overlaps s = true ↔ 0 < (r.intersect s).area := by
  simp only [overlaps, Bool.not_eq_true', isEmpty_eq_false]

theorem overlaps_iff : r.overlaps s = true ↔ ∃ p, r.contains p = true ∧ s.contains p = true := by
  rw [overlaps_iff_area_pos]
  constructor
  · intro h
    refine ⟨(r.intersect s).lower, ?_⟩
    rw [← contains_intersect_iff, contains_iff]
    have := area_pos_iff.1 h
    omega
  · rintro ⟨p, hr, hs⟩
    exact area_pos_of_contains (contains_intersect_iff.2 ⟨hr, hs⟩)

/-- Boxes that share no position do not overlap, and the other way round. -/
theorem overlaps_eq_false_iff : r.overlaps s = false ↔ ∀ p, r.contains p = true → s.contains p = false := by
  rw [← Bool.not_eq_true, overlaps_iff]
  simp

theorem overlaps_comm (r s : Region) : r.overlaps s = s.overlaps r := by
  rw [Bool.eq_iff_iff, overlaps_iff, overlaps_iff]
  simp only [and_comm]

/-! ## The list of points -/

/-- Rows of one width, one after another, are numbered through. -/
theorem rows_eq_map_range (x y w : Nat) : ∀ h : Nat,
    ((List.range' y h).flatMap fun j => (List.range' x w).map fun i => (⟨i, j⟩ : Point)) =
      (List.range (h * w)).map fun i => ⟨x + i % w, y + i / w⟩
  | 0 => by simp
  | h + 1 => by
    rw [List.range'_1_concat, List.flatMap_append, rows_eq_map_range x y w h, Nat.succ_mul,
      List.range_add, List.map_append]
    simp only [List.flatMap_cons, List.flatMap_nil, List.append_nil, List.map_map, List.append_cancel_left_eq]
    rw [List.range'_eq_map_range, List.map_map]
    refine List.map_congr_left ?_
    intro i hi
    have hi : i < w := List.mem_range.1 hi
    have hw : 0 < w := by omega
    simp only [Function.comp_apply, Point.mk.injEq]
    rw [Nat.mul_comm h w, Nat.mul_add_mod, Nat.mod_eq_of_lt hi, Nat.mul_add_div hw, Nat.div_eq_of_lt hi,
      Nat.add_zero]
    exact ⟨rfl, rfl⟩

theorem points_eq_map_range (r : Region) : r.points = (List.range r.area).map r.pointAt := by
  rw [points, rows_eq_map_range, area_eq, Nat.mul_comm r.height]
  rfl

theorem contains_pointAt {i : Nat} (h : i < r.area) : r.contains (r.pointAt i) = true := by
  have hp := Point.ofRowMajor_lt (g := r.size) h
  have hx : (Point.ofRowMajor r.width i).x < r.upper.x - r.lower.x := hp.1
  have hy : (Point.ofRowMajor r.width i).y < r.upper.y - r.lower.y := hp.2
  rw [contains_iff]
  simp only [pointAt, Point.add_x, Point.add_y]
  omega

theorem index_pointAt (r : Region) (i : Nat) : r.index (r.pointAt i) = i := by
  have h : r.pointAt i - r.lower = Point.ofRowMajor r.width i := by
    ext <;> simp [pointAt]
  rw [index, h, Point.rowMajor_ofRowMajor]

theorem pointAt_index (h : r.contains p = true) : r.pointAt (r.index p) = p := by
  have := contains_iff.1 h
  have hx : (p - r.lower).x < r.width := by simp only [Point.sub_x, width_eq]; omega
  rw [pointAt, index, Point.ofRowMajor_rowMajor hx]
  ext
  · simp only [Point.add_x, Point.sub_x]; omega
  · simp only [Point.add_y, Point.sub_y]; omega

theorem index_lt (h : r.contains p = true) : r.index p < r.area := by
  have := contains_iff.1 h
  refine Point.rowMajor_lt (g := r.size) ?_ ?_
  · simp only [size, Point.sub_x]; omega
  · simp only [size, Point.sub_y]; omega

theorem index_inj (hp : r.contains p = true) (hq : r.contains q = true) (h : r.index p = r.index q) : p = q := by
  rw [← pointAt_index hp, ← pointAt_index hq, h]

@[simp] theorem mem_points : p ∈ r.points ↔ r.contains p = true := by
  rw [points_eq_map_range, List.mem_map]
  constructor
  · rintro ⟨i, hi, rfl⟩
    exact contains_pointAt (List.mem_range.1 hi)
  · intro h
    exact ⟨r.index p, List.mem_range.2 (index_lt h), pointAt_index h⟩

/-- The points come row by row, and from left to right in each row. -/
theorem pairwise_points (r : Region) : r.points.Pairwise Point.Before := by
  have hcolumns : (List.range' r.lower.x r.width).Pairwise (· < ·) := List.pairwise_lt_range'
  have hrows : (List.range' r.lower.y r.height).Pairwise (· < ·) := List.pairwise_lt_range'
  refine List.pairwise_flatMap.2 ⟨fun y _ => ?_, hrows.imp ?_⟩
  · rw [List.pairwise_map]
    exact hcolumns.imp fun hx => .inr ⟨rfl, hx⟩
  · intro y y' hy p hp q hq
    obtain ⟨x, -, rfl⟩ := List.mem_map.1 hp
    obtain ⟨x', -, rfl⟩ := List.mem_map.1 hq
    exact .inl hy

theorem getElem?_points {i : Nat} (h : i < r.area) : r.points[i]? = some (r.pointAt i) := by
  rw [points_eq_map_range, List.getElem?_map, List.getElem?_range h, Option.map_some]

theorem getElem?_points_index (h : r.contains p = true) : r.points[r.index p]? = some p := by
  rw [getElem?_points (index_lt h), pointAt_index h]

theorem nodup_points (r : Region) : r.points.Nodup := by
  rw [points_eq_map_range]
  refine List.Nodup.map_on (fun i _ j _ h => ?_) List.nodup_range
  rw [← index_pointAt r i, ← index_pointAt r j, h]

/-- A contained position is listed at its index. -/
theorem idxOf_points (h : r.contains p = true) : r.points.idxOf p = r.index p := by
  obtain ⟨hi, hp⟩ := List.getElem?_eq_some_iff.1 (getElem?_points_index h)
  rw [← hp, r.nodup_points.idxOf_getElem, hp]

/-- The index numbers the contained positions through. -/
theorem bijOn_index (r : Region) : Set.BijOn r.index {p | r.contains p = true} {i | i < r.area} := by
  refine ⟨fun p hp => index_lt hp, fun p hp q hq h => index_inj hp hq h, fun i hi => ?_⟩
  exact ⟨r.pointAt i, contains_pointAt hi, r.index_pointAt i⟩

/-! ## Halving -/

/-- Each position of a box lies in one of its halves, and they hold no other. -/
theorem contains_split : r.contains p = true ↔ r.split.1.contains p = true ∨ r.split.2.contains p = true := by
  simp only [split]
  split <;> simp only [contains_iff, width_eq, height_eq] at * <;> omega

theorem split_disjoint (h : r.split.1.contains p = true) : r.split.2.contains p = false := by
  rw [Bool.eq_false_iff]
  intro h'
  revert h h'
  simp only [split]
  split <;> simp only [contains_iff] <;> omega

theorem containsRegion_split (h : 0 < r.area) :
    r.containsRegion r.split.1 = true ∧ r.containsRegion r.split.2 = true := by
  have := area_pos_iff.1 h
  simp only [split]
  split <;> simp only [containsRegion_iff, width_eq, height_eq] <;> omega

/-- The halves share out the area. -/
theorem area_split (r : Region) : r.split.1.area + r.split.2.area = r.area := by
  simp only [split]
  split
  · simp only [area_eq, width_eq, height_eq]
    rw [← Nat.add_mul]
    congr 1
    omega
  · simp only [area_eq, width_eq, height_eq]
    rw [← Nat.mul_add]
    congr 1
    omega

/-- A box of more than one position has two non-empty halves. -/
theorem area_split_pos (h : 1 < r.area) : 0 < r.split.1.area ∧ 0 < r.split.2.area := by
  have hpos := area_pos_iff.1 (Nat.lt_trans (by decide) h)
  have hw : 2 ≤ r.width ∨ r.width = 1 := by rw [width_eq]; omega
  have hh : 2 ≤ r.height ∨ r.height = 1 := by rw [height_eq]; omega
  have hlong : ¬ (r.width = 1 ∧ r.height = 1) := by
    rintro ⟨h₁, h₂⟩
    rw [area_eq, h₁, h₂] at h
    omega
  simp only [split]
  split <;> simp only [area_pos_iff, width_eq, height_eq] at * <;> omega

/-! ## Bounds -/

/-- No corner lies beyond `n` along either axis. -/
structure Within (r : Region) (n : Nat) : Prop where
  lower_x : r.lower.x ≤ n
  lower_y : r.lower.y ≤ n
  upper_x : r.upper.x ≤ n
  upper_y : r.upper.y ≤ n

variable {n : Nat}

theorem Within.intersect (hr : r.Within n) (hs : s.Within n) : (r.intersect s).Within n := by
  obtain ⟨hlx, hly, hux, huy⟩ := hr
  obtain ⟨hlx', hly', -, -⟩ := hs
  constructor <;> simp only [Region.intersect, Point.max_x, Point.max_y, Point.min_x, Point.min_y] <;> omega

theorem Within.split (h : r.Within n) : r.split.1.Within n ∧ r.split.2.Within n := by
  obtain ⟨hlx, hly, hux, huy⟩ := h
  simp only [Region.split]
  split <;> constructor <;> constructor <;> simp only [width_eq, height_eq] <;> omega

theorem Within.area_le (h : r.Within n) : r.area ≤ n * n :=
  Nat.mul_le_mul (Nat.le_trans (Nat.sub_le _ _) h.upper_x) (Nat.le_trans (Nat.sub_le _ _) h.upper_y)

end Region

end AdaptiveFrame
