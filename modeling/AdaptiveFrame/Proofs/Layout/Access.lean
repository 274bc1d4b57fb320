import AdaptiveFrame.Layout.Access
import AdaptiveFrame.Proofs.Accum.Boxes
import AdaptiveFrame.Proofs.Buffer.Tasks
import AdaptiveFrame.Proofs.Grid.RasterCells

/-!
# Accesses that succeed

Within their bounds the accesses that can fail do what the operations on rasters do. A loop whose steps succeed
succeeds (`foldlM_eq_some`). A view finds positions (`View.Finds`) if it places them where a raster has them.
-/

namespace AdaptiveFrame

/-! ## Loops -/

section Loops

variable {σ τ ι α β : Type}

/-- A loop succeeds if each step does on what the loop keeps of the state, and ends where the plain loop ends. -/
theorem foldlM_eq_some {R : σ → τ} {I : σ → Prop} {step? : τ → ι → Option τ} {step : σ → ι → σ} {xs : List ι}
    {s : σ} (hs : I s) (h : ∀ s, ∀ x ∈ xs, I s → step? (R s) x = some (R (step s x)) ∧ I (step s x)) :
    xs.foldlM step? (R s) = some (R (xs.foldl step s)) := by
  induction xs generalizing s with
  | nil => rfl
  | cons x xs ih =>
    obtain ⟨hstep, hnext⟩ := h s x (by simp) hs
    rw [List.foldlM_cons, hstep, List.foldl_cons]
    exact ih hnext fun s y hy => h s y (by simp [hy])

theorem mapM_eq_some {f? : α → Option β} {f : α → β} {xs : List α} (h : ∀ x ∈ xs, f? x = some (f x)) :
    xs.mapM f? = some (xs.map f) := by
  induction xs with
  | nil => rfl
  | cons x xs ih =>
    rw [List.mapM_cons, h x (by simp), ih fun y hy => h y (by simp [hy])]
    rfl

theorem exists_mapM {f? : α → Option β} {xs : List α} (h : ∀ x ∈ xs, ∃ y, f? x = some y) :
    ∃ ys, xs.mapM f? = some ys := by
  induction xs with
  | nil => exact ⟨[], rfl⟩
  | cons x xs ih =>
    obtain ⟨y, hy⟩ := h x (by simp)
    obtain ⟨ys, hys⟩ := ih fun z hz => h z (by simp [hz])
    exact ⟨y :: ys, by rw [List.mapM_cons, hy, hys]; rfl⟩

private theorem filterAuxM_eq_some {f? : α → Option Bool} {f : α → Bool} {xs acc : List α}
    (h : ∀ x ∈ xs, f? x = some (f x)) : xs.filterAuxM f? acc = some ((xs.filter f).reverse ++ acc) := by
  induction xs generalizing acc with
  | nil => rfl
  | cons x xs ih =>
    have ih' : ∀ acc, xs.filterAuxM f? acc = some ((xs.filter f).reverse ++ acc) := fun acc => ih fun y hy => h y (by simp [hy])
    rw [List.filterAuxM, h x (by simp), Option.bind_eq_bind, Option.bind_some, ih', List.filter_cons]
    cases f x <;> simp

theorem filterM_eq_some {f? : α → Option Bool} {f : α → Bool} {xs : List α} (h : ∀ x ∈ xs, f? x = some (f x)) :
    xs.filterM f? = some (xs.filter f) := by
  rw [List.filterM, filterAuxM_eq_some h, List.append_nil]
  exact congrArg some (List.reverse_reverse _)

end Loops

/-! ## Numbers -/

theorem Count.sub?_eq {m n : Nat} (h : n ≤ m) : sub? m n = some (m - n) := if_pos h

theorem Count.div?_eq {n : Nat} (m : Nat) (h : 0 < n) : div? m n = some (m / n) := if_neg (by omega)

theorem Count.mod?_eq {n : Nat} (m : Nat) (h : 0 < n) : mod? m n = some (m % n) := if_neg (by omega)

namespace Point

variable {p q : Point}

theorem sub?_eq (hx : q.x ≤ p.x) (hy : q.y ≤ p.y) : p.sub? q = some (p - q) := by
  rw [sub?, Count.sub?_eq hx, Count.sub?_eq hy]
  rfl

theorem div?_eq (p : Point) (hx : 0 < q.x) (hy : 0 < q.y) : p.div? q = some (p / q) := by
  rw [div?, Count.div?_eq _ hx, Count.div?_eq _ hy]
  rfl

theorem ceilDiv?_eq (p : Point) (hx : 0 < q.x) (hy : 0 < q.y) : p.ceilDiv? q = some (p.ceilDiv q) := by
  rw [ceilDiv?, sub?_eq (by simp only [square_x, add_x]; omega) (by simp only [square_y, add_y]; omega)]
  exact div?_eq _ hx hy

theorem ofRowMajor?_eq {w : Nat} (i : Nat) (h : 0 < w) : ofRowMajor? w i = some (ofRowMajor w i) := by
  rw [ofRowMajor?, Count.mod?_eq _ h, Count.div?_eq _ h]
  rfl

end Point

theorem Region.index?_eq {r : Region} {p : Point} (hp : r.contains p = true) : r.index? p = some (r.index p) := by
  have hp := Region.contains_iff.1 hp
  rw [index?, Point.sub?_eq hp.1 hp.2.1]
  rfl

namespace Tiling

theorem fitsCell?_eq (r : Region) : fitsCell? r = some (fitsCell r) := by
  unfold fitsCell? fitsCell
  rcases he : r.isEmpty with _ | _
  · have hpos := Region.area_pos_iff.1 (Region.isEmpty_eq_false.1 he)
    rw [Point.sub?_eq (by simp only [Point.square_x]; omega) (by simp only [Point.square_y]; omega)]
    rfl
  · rfl

theorem tasksOver?_eq {task : Point} (r : Region) (hx : 0 < task.x) (hy : 0 < task.y) :
    tasksOver? task r = some (tasksOver task r) := by
  rw [tasksOver?, Point.div?_eq _ hx hy, Point.ceilDiv?_eq _ hx hy]
  rfl

theorem tileRegion?_eq {image : Point} (id : Nat) (h : 0 < (tileCount image).x) :
    tileRegion? image id = some (tileRegion image id) := by
  rw [tileRegion?, Point.ofRowMajor?_eq _ h]
  rfl

end Tiling

/-! ## Stretches -/

section Stretches

variable {α : Type} {xs : Array α} {s : Span} {i : Nat}

theorem setIfInBounds_eq_modify (h : i < xs.size) (f : α → α) : xs.setIfInBounds i (f xs[i]) = xs.modify i f := by
  refine Array.ext_getElem? fun j => ?_
  rw [Array.getElem?_setIfInBounds, Array.getElem?_modify]
  by_cases hj : i = j
  · subst hj
    rw [if_pos rfl, if_pos rfl, if_pos h, Array.getElem?_eq_getElem h, Option.map_some]
  · rw [if_neg hj, if_neg hj]

theorem Span.read?_eq (hi : i < s.count) (h : s.first + i < xs.size) : s.read? xs i = some xs[s.first + i] := by
  rw [Span.read?, Span.place?, if_pos hi]
  exact Array.getElem?_eq_getElem h

theorem Span.write?_eq (hi : i < s.count) (h : s.first + i < xs.size) (a : α) :
    s.write? xs i a = some (xs.setIfInBounds (s.first + i) a) := by
  rw [Span.write?, Span.place?, if_pos hi]
  exact if_pos h

/-- An array that is taken as a whole is written at its own indices. -/
theorem Span.write?_whole (h : i < xs.size) (a : α) :
    (Span.whole xs.size).write? xs i a = some (xs.setIfInBounds i a) := by
  rw [Span.write?_eq h (by rw [Span.whole, Nat.zero_add]; exact h), Span.whole, Nat.zero_add]

/-- The stretch begins with a row of a grid, and reaches over the rows of `part`. -/
def Cut.Reaches (cut : Cut) (g : Point) (first : Nat) (part : Region) : Prop :=
  ∃ count, cut g.area = some ⟨first * g.x, count⟩ ∧ ∀ p, part.contains p = true →
    p.x < g.x ∧ first ≤ p.y ∧ p.y < g.y ∧ (p.y + 1 - first) * g.x ≤ count

theorem Cut.reaches_whole (g : Point) : Cut.whole.Reaches g 0 (.ofSize g) := by
  refine ⟨g.area, by rw [Nat.zero_mul]; rfl, fun p hp => ?_⟩
  obtain ⟨hx, hy⟩ := Region.contains_ofSize.1 hp
  refine ⟨hx, Nat.zero_le _, hy, ?_⟩
  rw [Point.area, Nat.mul_comm g.x]
  exact Nat.mul_le_mul_right _ hy

theorem Cut.Reaches.mono {cut : Cut} {g : Point} {first : Nat} {part part' : Region} (h : cut.Reaches g first part)
    (hsub : ∀ p, part'.contains p = true → part.contains p = true) : cut.Reaches g first part' := by
  obtain ⟨count, hcut, hpart⟩ := h
  exact ⟨count, hcut, fun p hp => hpart p (hsub p hp)⟩

end Stretches

/-! ## Positions in arrays -/

namespace Raster

variable {α β : Type} {g : Raster α} {r : Region} {p : Point}

theorem cells_modify (g : Raster α) (p : Point) (f : α → α) :
    (g.modify p f).cells = g.cells.modify (g.region.index p) f := rfl

theorem cells_foldl_modify (f : Point → α → α) (ps : List Point) (g : Raster α) :
    (ps.foldl (fun g p => g.modify p (f p)) g).cells =
      ps.foldl (fun cells p => cells.modify (g.region.index p) (f p)) g.cells := by
  induction ps generalizing g with
  | nil => rfl
  | cons p ps ih => exact ih (g.modify p (f p))

theorem region_foldl_modify (f : Point → α → α) (ps : List Point) (g : Raster α) :
    (ps.foldl (fun g p => g.modify p (f p)) g).region = g.region :=
  Writes.inv_foldl (I := fun h : Raster α => h.region = g.region) rfl fun _ _ _ h => h

/-- A region is changed point by point. -/
theorem modifyOn_eq_foldl (g : Raster α) (r : Region) (f : Point → α → α) :
    g.modifyOn r f = (r.intersect g.region).points.foldl (fun g p => g.modify p (f p)) g :=
  ext_cells (region_foldl_modify f _ g).symm (cells_foldl_modify f _ g).symm

/-- What is read off changed values was changed alike. -/
theorem map_modify {read : α → β} {f : α → α} {f' : β → β} (h : ∀ a, read (f a) = f' (read a)) (g : Raster α)
    (p : Point) : (g.modify p f).map read = (g.map read).modify p f' := by
  refine ext_cells rfl (Array.ext_getElem? fun i => ?_)
  simp only [map, modify, Array.getElem?_map, Array.getElem?_modify]
  by_cases hi : g.region.index p = i
  · rw [if_pos hi, if_pos hi, Option.map_map, Option.map_map]
    exact congrArg (fun k => Option.map k g.cells[i]?) (funext h)
  · rw [if_neg hi, if_neg hi]

theorem eq_tabulate (g : Raster α) (d : α) : g = .tabulate g.region fun p => g.getD p d :=
  ext_getD d rfl fun _ hp => (getD_tabulate hp (fun p => g.getD p d) d).symm

theorem toList_eq (g : Raster α) (d : α) : g.toList = g.region.points.map fun p => (p, g.getD p d) := by
  have hcells : g.cells.toList = g.region.points.map fun p => g.getD p d := by
    conv_lhs => rw [g.eq_tabulate d]
    rfl
  rw [toList, hcells, List.map_prod_left_eq_zip]

theorem ofCells?_cells (g : Raster α) : ofCells? g.region g.cells = some g := dif_pos g.size_eq

end Raster

namespace View

variable {α : Type} {v : View} {own part : Region} {p : Point} {g : Raster α}

/-- The view finds the positions of `part` in arrays over `own`. -/
def Finds (v : View) (own part : Region) : Prop :=
  ∀ p, part.contains p = true → own.contains p = true ∧ v.place? own.area p = some (own.index p)

theorem Finds.place? (h : v.Finds g.region part) (hp : part.contains p = true) :
    v.place? g.cells.size p = some (g.region.index p) := by
  rw [g.size_eq]
  exact (h p hp).2

theorem Finds.read? (h : v.Finds g.region part) (hp : part.contains p = true) (d : α) :
    v.read? g.cells p = some (g.getD p d) := by
  rw [View.read?, h.place? hp]
  exact Raster.getElem?_eq_getD (h p hp).1 d

theorem Finds.modify? (h : v.Finds g.region part) (hp : part.contains p = true) (f : α → α) :
    v.modify? g.cells p f = some (g.modify p f).cells := by
  have hlt := Raster.index_lt_size (h p hp).1
  have hread : v.read? g.cells p = some g.cells[g.region.index p] := by
    rw [View.read?, h.place? hp]
    exact Array.getElem?_eq_getElem hlt
  rw [View.modify?, hread]
  show v.write? g.cells p (f g.cells[g.region.index p]) = _
  rw [View.write?, h.place? hp]
  show (if g.region.index p < g.cells.size then _ else _) = _
  rw [if_pos hlt, setIfInBounds_eq_modify hlt]
  rfl

theorem Finds.write? (h : v.Finds g.region part) (hp : part.contains p = true) (a : α) :
    v.write? g.cells p a = some (g.modify p fun _ => a).cells := by
  have hlt := Raster.index_lt_size (h p hp).1
  rw [← h.modify? hp, View.modify?, h.read? hp a]
  rfl

theorem Finds.write?_array {grid : Point} {xs : Array α} (h : v.Finds (.ofSize grid) part) (hsize : xs.size = grid.area)
    (hp : part.contains p = true) (a : α) : v.write? xs p a = some (xs.setIfInBounds (p.rowMajor grid.x) a) := by
  have hplace : v.place? xs.size p = some (p.rowMajor grid.x) := by
    rw [hsize]
    exact (h p hp).2
  obtain ⟨hx, hy⟩ := Region.contains_ofSize.1 (h p hp).1
  rw [View.write?, hplace]
  exact if_pos (hsize ▸ Point.rowMajor_lt hx hy)

/-- The arrays of a region are found from its own first position. -/
theorem finds_ofRegion (h : ∀ p, part.contains p = true → own.contains p = true) :
    (ofRegion own).Finds own part := by
  intro p hp
  have hp := h p hp
  refine ⟨hp, ?_⟩
  have hlt : own.index p < own.area := Region.index_lt hp
  show (Region.index? own p).bind (Span.whole own.area).place? = _
  rw [Region.index?_eq hp]
  show (if own.index p < own.area then _ else _) = _
  rw [if_pos hlt]
  exact congrArg some (Nat.zero_add _)

/-- Rows are found in a stretch that reaches over them. -/
theorem finds_rows {cut : Cut} {g : Point} {first : Nat} (h : cut.Reaches g first part) :
    (rows cut g.x first).Finds (.ofSize g) part := by
  intro p hp
  obtain ⟨count, hcut, hpart⟩ := h
  obtain ⟨hx, hfirst, hy, hcount⟩ := hpart p hp
  refine ⟨Region.contains_ofSize.2 ⟨hx, hy⟩, ?_⟩
  obtain ⟨j, hj⟩ := Nat.exists_eq_add_of_le hfirst
  have hrow : p.y + 1 - first = j + 1 := by omega
  rw [hrow, Nat.succ_mul] at hcount
  have hlt : (p.y - first) * g.x + p.x < count := by
    rw [hj, Nat.add_sub_cancel_left]
    omega
  have hplace : first * g.x + ((p.y - first) * g.x + p.x) = p.rowMajor g.x := by
    rw [Point.rowMajor, hj, Nat.add_sub_cancel_left, Nat.add_mul, Nat.add_assoc]
  have hindex : (rows cut g.x first).index? p = some ((p.y - first) * g.x + p.x) := by
    show (Count.sub? p.y first).bind _ = _
    rw [Count.sub?_eq hfirst]
    rfl
  show (cut g.area).bind (fun s => ((rows cut g.x first).index? p).bind s.place?) = _
  rw [hcut, hindex]
  show (if _ < count then _ else _) = _
  rw [if_pos hlt, hplace]
  rfl

theorem finds_whole (g : Point) : (rows .whole g.x 0).Finds (.ofSize g) (.ofSize g) := finds_rows (Cut.reaches_whole g)

end View

/-! ## Tiles -/

namespace Tile

variable {t : Tile} {p : Point}

theorem finds_self (t : Tile) : (View.ofRegion t.region).Finds t.region t.region := View.finds_ofRegion fun _ hp => hp

theorem sample?_eq (hp : t.region.contains p = true) : t.sample? p = some (t.sampleAt p) := t.finds_self.read? hp _

theorem write?_eq (hp : t.region.contains p = true) (s : Sample) :
    t.write? p s = some ⟨t.toRaster.modify p fun _ => s, t.accumId⟩ := by
  rw [write?, t.finds_self.place? hp]
  exact if_pos (Raster.index_lt_size hp)

/-- Samples are recomputed if each can be. -/
theorem mapPoints?_eq {f? : Point → Sample → Option Sample} {f : Point → Sample → Sample}
    (h : ∀ p, t.region.contains p = true → f? p (t.sampleAt p) = some (f p (t.sampleAt p))) :
    t.mapPoints? f? = some (t.mapPoints f) := by
  have hsamples : t.toRaster.toList.mapM (fun entry => f? entry.1 entry.2) =
      some (t.region.points.map fun p => f p (t.sampleAt p)) := by
    rw [t.toRaster.toList_eq .blank, List.mapM_map]
    exact mapM_eq_some fun p hp => h p (Region.mem_points.1 hp)
  have hmap : t.toRaster.mapPoints f = .tabulate t.region fun p => f p (t.sampleAt p) := by
    refine Raster.ext_getD .blank rfl fun p hp => ?_
    have hp : t.region.contains p = true := hp
    rw [Raster.getD_mapPoints (g := t.toRaster) hp f .blank, Raster.getD_tabulate hp]
    rfl
  have hcells : Raster.ofCells? t.region (t.region.points.map fun p => f p (t.sampleAt p)).toArray =
      some (.tabulate t.region fun p => f p (t.sampleAt p)) :=
    Raster.ofCells?_cells (.tabulate t.region fun p => f p (t.sampleAt p))
  unfold mapPoints?
  refine (congrArg (Option.bind · _) hsamples).trans ?_
  rw [Option.bind_some, hcells, mapPoints, hmap]
  rfl

end Tile

end AdaptiveFrame
