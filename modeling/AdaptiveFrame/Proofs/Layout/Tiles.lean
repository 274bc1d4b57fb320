import AdaptiveFrame.Layout.Tiles
import AdaptiveFrame.Proofs.Layout.Access

/-!
# Tiles keep to the order of their positions

Whatever is done to the array of a tile, it is still the array of a tile (`performAll?_loose`): it has one sample for
every position of the region, in the order in which the region lists its positions. So an index finds the sample that a
loop over positions and samples meets beside the position, and the other way round (`inOrder_loose`).
-/

namespace AdaptiveFrame

theorem Region.index?_eq_ite (r : Region) (p : Point) :
    r.index? p = if r.lower.x ≤ p.x ∧ r.lower.y ≤ p.y then some (r.index p) else none := by
  by_cases hx : r.lower.x ≤ p.x
  · by_cases hy : r.lower.y ≤ p.y
    · rw [if_pos ⟨hx, hy⟩, Region.index?, Point.sub?_eq hx hy]
      rfl
    · simp [Region.index?, Point.sub?, Count.sub?, hx, hy]
  · simp [Region.index?, Point.sub?, Count.sub?, hx]

namespace LooseTile

/-! ## One step -/

theorem resize_empty {α : Type} (n : Nat) (a : α) : resize #[] n a = Array.replicate n a := by
  simp [resize]

/-- Turning a tile to another region leaves nothing of it. -/
theorem reset_eq_new (t : LooseTile) (region : Region) (accumId : Int) : t.reset region accumId = new region accumId := by
  simp [reset, new, resize_empty]

theorem new_eq_blank (region : Region) (accumId : Int) : new region accumId = (Tile.blank region accumId).loose := rfl

variable {t : Tile}

theorem visit_loose (t : Tile) (f : Point → Sample → Sample) : t.loose.visit f = (t.mapPoints f).loose := by
  have hcells : (t.loose.visit f).samples = (t.mapPoints f).cells := by
    refine Array.ext (by simp [visit, Tile.loose, Tile.mapPoints, Raster.mapPoints]) fun i hi _ => ?_
    have hi : i < t.region.area := by simpa [visit, Tile.loose, t.size_eq] using hi
    simp [visit, Tile.loose, Tile.mapPoints, Raster.mapPoints, Region.getElem?_points hi]
  exact congrArg (LooseTile.mk t.region · t.accumId) hcells

theorem change?_loose (t : Tile) (p : Point) (f : Sample → Sample) :
    t.loose.change? p f = (t.perform? (.change p f)).map Tile.loose := by
  have hindex : t.loose.index? p = t.region.index? p := rfl
  rw [change?, hindex, Region.index?_eq_ite]
  simp only [Tile.perform?, Raster.covers]
  -- Before the first column or row there is no number; beyond the last row there is one, but no sample.
  by_cases hlower : t.region.lower.x ≤ p.x ∧ t.region.lower.y ≤ p.y
  · by_cases hi : t.region.index p < t.cells.size
    · simp [hlower, hi, Tile.loose, Raster.modify]
    · simp [hlower, hi, Tile.loose]
  · rw [if_neg hlower]
    simp only [Bool.and_eq_true, decide_eq_true_eq, hlower, false_and, if_false]
    rfl

/-- What is done to the array of a tile is done to the tile. -/
theorem perform?_loose (t : Tile) (op : TileOp) : t.loose.perform? op = (t.perform? op).map Tile.loose := by
  cases op with
  | reset region accumId =>
    rw [perform?, reset_eq_new]
    rfl
  | setAccumId accumId => rfl
  | change p f => exact change?_loose t p f
  | visit f => exact congrArg some (visit_loose t f)
  | rewrite f => rfl
  | fill s =>
    have hcells : t.cells.map (fun _ => s) = Array.replicate t.region.area s := by
      rw [Array.map_const', t.size_eq]
    exact congrArg (fun cells => some (LooseTile.mk t.region cells t.accumId)) hcells

theorem performAll?_loose (t : Tile) (ops : List TileOp) :
    t.loose.performAll? ops = (t.performAll? ops).map Tile.loose := by
  induction ops generalizing t with
  | nil => rfl
  | cons op ops ih =>
    rw [performAll?, Tile.performAll?, List.foldlM_cons, List.foldlM_cons, perform?_loose]
    cases t.perform? op with
    | none => rfl
    | some next => exact ih next

/-! ## Positions and samples -/

/-- The samples stand in the order of the positions. -/
structure InOrder (t : LooseTile) : Prop where
  size_eq : t.samples.size = t.region.area
  /-- The number of a position is its place among the positions of the region. -/
  index?_eq : ∀ p, t.region.contains p = true → t.index? p = some (t.region.points.idxOf p)
  /-- Each sample has the number of one position. -/
  bijOn_index? : Set.BijOn t.index? {p | t.region.contains p = true} (some '' {i | i < t.samples.size})
  /-- Side by side come all positions, each with its own sample. -/
  entries_eq : t.entries.map (fun (p, s) => (p, some s)) = t.region.points.map fun p => (p, t.sample? p)
  /-- A loop over all samples changes the sample of each position. -/
  sample?_visit : ∀ f p, t.region.contains p = true → (t.visit f).sample? p = (t.sample? p).map (f p)

theorem sample?_loose {p : Point} (hp : t.region.contains p = true) : t.loose.sample? p = some (t.sampleAt p) := by
  have hindex : t.loose.index? p = some (t.region.index p) := Region.index?_eq hp
  rw [sample?, hindex]
  exact Raster.getElem?_eq_getD hp .blank

theorem inOrder_loose (t : Tile) : t.loose.InOrder where
  size_eq := t.size_eq
  index?_eq := by
    intro p hp
    have hindex : t.loose.index? p = some (t.region.index p) := Region.index?_eq hp
    rw [hindex]
    exact congrArg some (Region.idxOf_points hp).symm
  bijOn_index? := by
    have hsome : Set.BijOn (some ∘ t.region.index) {p | t.region.contains p = true} (some '' {i | i < t.cells.size}) := by
      rw [t.size_eq]
      exact (Option.some_injective _).injOn.bijOn_image.comp t.region.bijOn_index
    exact hsome.congr fun p hp => (Region.index?_eq hp).symm
  entries_eq := by
    have hentries : t.loose.entries = t.region.points.map fun p => (p, t.sampleAt p) := t.toRaster.toList_eq .blank
    rw [hentries, List.map_map]
    refine List.map_congr_left fun p hp => ?_
    rw [sample?_loose (Region.mem_points.1 hp)]
    rfl
  sample?_visit := by
    intro f p hp
    have hp : t.region.contains p = true := hp
    have hvisit : (t.mapPoints f).sampleAt p = f p (t.sampleAt p) := Raster.getD_mapPoints hp f .blank .blank
    rw [visit_loose, sample?_loose (t := t.mapPoints f) hp, sample?_loose hp, hvisit]
    rfl

/-- A tile that was made for a region, turned to others and changed in between is in order. -/
theorem inOrder_of_performAll? {region : Region} {accumId : Int} {ops : List TileOp} {t : LooseTile}
    (h : (new region accumId).performAll? ops = some t) : t.InOrder := by
  rw [new_eq_blank, performAll?_loose] at h
  obtain ⟨made, -, rfl⟩ := Option.map_eq_some_iff.1 h
  exact inOrder_loose made

end LooseTile

/-! ## Regions and tiles -/

/-- A region lists just the positions that it contains, each once and row by row. Common parts, halves and parts of
regions are told by the positions in them, and no corner leaves the bounds of those it comes from. Every tile keeps
its samples in the order of the list. -/
theorem positions_listed_and_stored :
    (∀ r : Region, (∀ p, p ∈ r.points ↔ r.contains p = true) ∧ r.points.Nodup ∧
      r.points.Pairwise Point.Before ∧ r.points.length = r.area) ∧
    (∀ (r s : Region) (p : Point),
      (r.intersect s).contains p = true ↔ r.contains p = true ∧ s.contains p = true) ∧
    (∀ r : Region, (∀ p, r.split.1.contains p = true → r.split.2.contains p = false) ∧
      (∀ p, r.contains p = true ↔ r.split.1.contains p = true ∨ r.split.2.contains p = true) ∧
      (2 ≤ r.area → r.split.1.isEmpty = false ∧ r.split.2.isEmpty = false)) ∧
    (∀ r s : Region, s.isEmpty = false →
      (r.containsRegion s = true ↔ ∀ p, s.contains p = true → r.contains p = true)) ∧
    (∀ (r : Region) (n : Nat), r.Within n → r.area ≤ n * n ∧ r.split.1.Within n ∧ r.split.2.Within n ∧
      ∀ s : Region, s.Within n → (r.intersect s).Within n) ∧
    ∀ (region : Region) (accumId : Int) (ops : List TileOp) (t : LooseTile),
      (LooseTile.new region accumId).performAll? ops = some t → t.InOrder := by
  refine ⟨fun r => ?_, fun r s p => Region.contains_intersect_iff, fun r => ⟨?_, ?_, ?_⟩, ?_, ?_, ?_⟩
  · exact ⟨fun p => Region.mem_points, r.nodup_points, r.pairwise_points, r.length_points⟩
  · intro p hp
    exact Region.split_disjoint hp
  · intro p
    exact Region.contains_split
  · intro harea
    obtain ⟨hfirst, hsecond⟩ := Region.area_split_pos harea
    exact ⟨Region.isEmpty_eq_false.2 hfirst, Region.isEmpty_eq_false.2 hsecond⟩
  · intro r s hs
    exact Region.containsRegion_iff_forall (Region.isEmpty_eq_false.1 hs)
  · intro r n hr
    obtain ⟨hfirst, hsecond⟩ := hr.split
    exact ⟨hr.area_le, hfirst, hsecond, fun s hs => hr.intersect hs⟩
  · intro region accumId ops t h
    exact LooseTile.inOrder_of_performAll? h

/-- Five by three pixels are halved, a column holds its own lower end, and a tile is turned from the former to a task. -/
theorem positions_listed_and_stored_task :
    (Region.split ⟨⟨0, 0⟩, ⟨5, 3⟩⟩).1.isEmpty = false ∧ Region.isEmpty ⟨⟨1, 4⟩, ⟨2, 6⟩⟩ = false ∧
      (∀ p, Region.contains ⟨⟨1, 4⟩, ⟨2, 6⟩⟩ p = true → Region.contains ⟨⟨1, 1⟩, ⟨2, 6⟩⟩ p = true) ∧
      Region.Within ⟨⟨0, 0⟩, ⟨5, 3⟩⟩ 5 ∧ (Region.split ⟨⟨0, 0⟩, ⟨5, 3⟩⟩).2.Within 5 ∧
      ∃ t, (LooseTile.new ⟨⟨0, 0⟩, ⟨5, 3⟩⟩ 0).performAll?
          [.reset ⟨⟨64, 8⟩, ⟨72, 16⟩⟩ 3, .change ⟨65, 9⟩ fun s => { s with depth := 2 }] = some t ∧
        t.index? ⟨65, 9⟩ = some 9 ∧ t.InOrder := by
  obtain ⟨-, -, hsplit, hinside, hbounds, htile⟩ := positions_listed_and_stored
  have hcolumn : Region.isEmpty ⟨⟨1, 4⟩, ⟨2, 6⟩⟩ = false := by decide
  have hwithin : Region.Within ⟨⟨0, 0⟩, ⟨5, 3⟩⟩ 5 := by constructor <;> decide
  obtain ⟨t, ht, hindex⟩ : ∃ t, (LooseTile.new ⟨⟨0, 0⟩, ⟨5, 3⟩⟩ 0).performAll?
      [.reset ⟨⟨64, 8⟩, ⟨72, 16⟩⟩ 3, .change ⟨65, 9⟩ fun s => { s with depth := 2 }] = some t ∧
        t.index? ⟨65, 9⟩ = some 9 := ⟨_, rfl, by decide⟩
  refine ⟨((hsplit _).2.2 (by decide)).1, hcolumn, (hinside _ _ hcolumn).1 (by decide), hwithin,
    (hbounds _ _ hwithin).2.2.1, t, ht, hindex, htile _ _ _ _ ht⟩

end AdaptiveFrame
