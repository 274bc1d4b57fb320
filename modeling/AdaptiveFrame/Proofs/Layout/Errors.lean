import AdaptiveFrame.Proofs.Accum.Raising
import AdaptiveFrame.Proofs.Layout.Access

/-!
# Errors in memory

The boxes of a tracker stay inside its grid, so the rows of a box are slices of the errors, and one refinement
pass finds all of them.
-/

namespace AdaptiveFrame.ErrorTracker

variable {t : ErrorTracker} {v : View} {part r : Region} {pos grid : Point} {errors : Array Float32} {y : Nat}

/-! ## One task -/

/-- A view of the tasks finds them where the tracker keeps their errors. -/
theorem write?_eq (h : v.Finds (.ofSize t.grid) part) (hpos : part.contains pos = true) (e : Float32) :
    t.write? v pos e = some (t.update pos e) := by
  have hplace : v.place? t.errors.size pos = some (pos.rowMajor t.grid.x) := by
    rw [t.size_eq]
    exact (h pos hpos).2
  have hin := Region.contains_ofSize.1 (h pos hpos).1
  have hlt : pos.rowMajor t.grid.x < t.errors.size := by
    rw [t.size_eq]
    exact Point.rowMajor_lt hin.1 hin.2
  have hfirst : (⟨pos.rowMajor t.grid.x, 0⟩ : Point).rowMajor t.grid.x = pos.rowMajor t.grid.x := by
    rw [Point.rowMajor, Nat.zero_mul, Nat.zero_add]
  rw [write?, hplace]
  show (if pos.rowMajor t.grid.x < t.errors.size then _ else _) = _
  rw [if_pos hlt]
  obtain ⟨grid, errors, regions, size_eq⟩ := t
  exact congrArg some (by simp only [update, hfirst])

theorem update_of_disabled (h : t.isEnabled = false) (pos : Point) (e : Float32) : t.update pos e = t := by
  obtain ⟨grid, errors, regions, size_eq⟩ := t
  have hempty : errors = #[] := by simpa [isEnabled] using h
  subst hempty
  rfl

/-- A task of the grid can be given an error, whether errors are tracked or not. -/
theorem update?_eq (h : t.isEnabled = true → pos.x < t.grid.x ∧ pos.y < t.grid.y) (e : Float32) :
    t.update? pos e = some (t.update pos e) := by
  unfold update?
  cases he : t.isEnabled with
  | true => exact write?_eq (View.finds_whole t.grid) (Region.contains_ofSize.2 (h he)) e
  | false => exact congrArg some (update_of_disabled he pos e).symm

/-! ## Boxes -/

/-- The errors of a row of a box are a slice of all errors. -/
theorem row?_eq (hsize : errors.size = grid.area) (hr : (Region.ofSize grid).containsRegion r = true)
    (hpos : 0 < r.area) (hy : y < r.upper.y) :
    row? errors grid r y = some ⟨y * grid.x + r.lower.x, r.width⟩ := by
  obtain ⟨-, -, hux, huy⟩ := Region.containsRegion_iff.1 hr
  have hux : r.upper.x ≤ grid.x := hux
  have huy : r.upper.y ≤ grid.y := huy
  obtain ⟨hx, -⟩ := Region.area_pos_iff.1 hpos
  have hrows : (y + 1) * grid.x ≤ grid.y * grid.x := Nat.mul_le_mul_right _ (by omega)
  rw [Nat.succ_mul, Nat.mul_comm grid.y] at hrows
  rw [row?, hsize, Point.area]
  show ((if y * grid.x ≤ grid.x * grid.y ∧ grid.x * grid.y ≤ grid.x * grid.y then _ else none : Option Span)).bind _ = _
  rw [if_pos (by omega)]
  show (if r.lower.x ≤ r.upper.x ∧ r.upper.x ≤ grid.x * grid.y - y * grid.x then _ else _) = _
  rw [if_pos (by omega)]
  show some (⟨0 + y * grid.x + r.lower.x, r.width⟩ : Span) = _
  rw [Nat.zero_add]

theorem lt_of_row {i : Nat} (hr : (Region.ofSize grid).containsRegion r = true) (hpos : 0 < r.area)
    (hy : y < r.upper.y) (hi : i < r.width) : y * grid.x + r.lower.x + i < grid.area := by
  obtain ⟨-, -, hux, huy⟩ := Region.containsRegion_iff.1 hr
  have hux : r.upper.x ≤ grid.x := hux
  have huy : r.upper.y ≤ grid.y := huy
  obtain ⟨hx, -⟩ := Region.area_pos_iff.1 hpos
  have hi : i < r.upper.x - r.lower.x := hi
  have hlt : (⟨r.lower.x + i, y⟩ : Point).rowMajor grid.x < grid.area :=
    Point.rowMajor_lt (by show r.lower.x + i < grid.x; omega) (by show y < grid.y; omega)
  rwa [Point.rowMajor, ← Nat.add_assoc] at hlt

theorem lt_upper_of_mem (h : y ∈ List.range' r.lower.y r.height) : y < r.upper.y := by
  have h := List.mem_range'_1.1 h
  have hheight : r.height = r.upper.y - r.lower.y := rfl
  omega

/-- Places of the errors of a box, row by row. -/
theorem foldl_taskIds {σ : Type} (f : σ → Nat → σ) (s : σ) (grid : Point) (r : Region) :
    (taskIds grid r).foldl f s = (List.range' r.lower.y r.height).foldl (fun s y =>
      (List.range r.width).foldl (fun s i => f s (y * grid.x + r.lower.x + i)) s) s := by
  rw [taskIds, Region.points, List.foldl_map, List.foldl_flatMap]
  simp only [List.range'_eq_map_range (s := r.lower.x), List.map_map, List.foldl_map, Function.comp_apply,
    Point.rowMajor, Nat.add_assoc]

section Box

variable (hr : (Region.ofSize grid).containsRegion r = true) (hpos : 0 < r.area)

include hr hpos

theorem boxErrors?_eq (hsize : errors.size = grid.area) :
    boxErrors? errors grid r = some (boxErrors errors (taskIds grid r)) := by
  rw [boxErrors, foldl_taskIds]
  refine foldlM_eq_some (R := id) (I := fun _ => True) trivial fun acc y hy _ => ⟨?_, trivial⟩
  have hy := lt_upper_of_mem hy
  show (row? errors grid r y).bind _ = _
  rw [row?_eq hsize hr hpos hy]
  refine foldlM_eq_some (R := id) (I := fun _ => True) trivial fun acc i hi _ => ⟨?_, trivial⟩
  have hi : i < r.width := List.mem_range.1 hi
  have hlt : y * grid.x + r.lower.x + i < errors.size := hsize ▸ lt_of_row hr hpos hy hi
  obtain ⟨sum, largest⟩ := acc
  show ((⟨y * grid.x + r.lower.x, r.width⟩ : Span).read? errors i).bind _ = _
  rw [Span.read?_eq hi hlt, Array.getElem?_eq_getElem hlt]
  rfl

theorem raise?_eq (hsize : errors.size = grid.area) (floor : Float32) :
    raise? errors grid r floor = some (raise errors (taskIds grid r) floor) := by
  have hmodify : ∀ (es : Array Float32) (i : Nat), es.size = grid.area →
      (es.modify i (Binary32.maxNum · floor)).size = grid.area := fun es i hes => by rw [Array.size_modify, hes]
  rw [raise, foldl_taskIds]
  refine foldlM_eq_some (R := id) (I := fun es : Array Float32 => es.size = grid.area) hsize fun es y hy hes => ?_
  have hy := lt_upper_of_mem hy
  refine ⟨?_, Writes.inv_foldl (I := fun es : Array Float32 => es.size = grid.area) hes fun es i _ => hmodify es _⟩
  show (row? es grid r y).bind _ = _
  rw [row?_eq hes hr hpos hy]
  refine foldlM_eq_some (R := id) (I := fun es : Array Float32 => es.size = grid.area) hes fun es i hi hes => ?_
  have hi : i < r.width := List.mem_range.1 hi
  have hlt : y * grid.x + r.lower.x + i < es.size := hes ▸ lt_of_row hr hpos hy hi
  refine ⟨?_, hmodify es _ hes⟩
  show ((⟨y * grid.x + r.lower.x, r.width⟩ : Span).read? es i).bind _ = _
  rw [Span.read?_eq hi hlt]
  show (⟨y * grid.x + r.lower.x, r.width⟩ : Span).write? es i _ = _
  rw [Span.write?_eq hi hlt]
  exact congrArg some (setIfInBounds_eq_modify hlt (Binary32.maxNum · floor))

theorem refineBox?_eq (hsize : errors.size = grid.area) (threshold : Float32) :
    refineBox? grid threshold errors r = some (refineBox grid threshold errors r) := by
  unfold refineBox? refineBox
  rw [boxErrors?_eq hr hpos hsize]
  dsimp only [Option.bind_eq_bind, Option.bind_some]
  split
  · rw [raise?_eq hr hpos hsize]
    rfl
  · rfl

end Box

/-! ## One pass -/

theorem refineBoxes?_eq {rs : List Region} (hsize : errors.size = grid.area)
    (hr : ∀ r ∈ rs, (Region.ofSize grid).containsRegion r = true) (hpos : ∀ r ∈ rs, 0 < r.area) (threshold : Float32) :
    refineBoxes? grid threshold errors rs = some (refineBoxes grid threshold errors rs) := by
  induction rs generalizing errors with
  | nil => rfl
  | cons r rs ih =>
    have hbox := refineBox?_eq (hr r (by simp)) (hpos r (by simp)) hsize threshold
    have hnext : (refineBox grid threshold errors r).1.size = grid.area := (size_refineBox ..).trans hsize
    have hrest := ih hnext (fun s hs => hr s (by simp [hs])) fun s hs => hpos s (by simp [hs])
    unfold refineBoxes? refineBoxes
    rw [hbox]
    dsimp only [Option.bind_eq_bind, Option.bind_some]
    rw [hrest]
    rfl

/-- A pass over boxes that are laid out finds all errors. -/
theorem refine?_eq (h : LaidOut t.grid t.regions) (threshold : Float32) :
    t.refine? threshold = some (t.refine threshold) := by
  unfold refine? refine
  split
  · rw [refineBoxes?_eq t.size_eq h.inside h.pos]
    dsimp only [Option.bind_eq_bind, Option.bind_some]
    rw [dif_pos ((size_refineBoxes ..).trans t.size_eq)]
    rfl
  · rfl

end AdaptiveFrame.ErrorTracker
