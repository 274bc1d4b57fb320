import AdaptiveFrame.Grid.Raster
import AdaptiveFrame.Proofs.Grid.Points
import AdaptiveFrame.Proofs.Grid.Writes

/-!
# Rasters cell by cell

What every raster operation does to the value at one position of its region. Two rasters over one region
that agree at all its positions are equal.
-/

namespace AdaptiveFrame.Raster

variable {α β : Type} {g h : Raster α} {p : Point}

@[simp] theorem region_fill (r : Region) (a : α) : (fill r a).region = r := rfl
@[simp] theorem region_tabulate (r : Region) (f : Point → α) : (tabulate r f).region = r := rfl
@[simp] theorem region_mapPoints (g : Raster α) (f : Point → α → β) : (g.mapPoints f).region = g.region := rfl
@[simp] theorem region_modifyOn (g : Raster α) (r : Region) (f : Point → α → α) :
    (g.modifyOn r f).region = g.region := rfl

theorem index_lt_size (hp : g.region.contains p = true) : g.region.index p < g.cells.size := by
  rw [g.size_eq]
  exact Region.index_lt hp

/-- Inside the region the default is never used. -/
theorem getElem?_eq_getD (hp : g.region.contains p = true) (d : α) :
    g.cells[g.region.index p]? = some (g.getD p d) := by
  rw [getD, Array.getElem?_eq_getElem (index_lt_size hp), Option.getD_some]

theorem getElem?_of_region {r : Region} (hr : g.region = r) (hp : r.contains p = true) (d : α) :
    g.cells[r.index p]? = some (g.getD p d) := by
  subst hr
  exact getElem?_eq_getD hp d

theorem getD_eq_of_getElem? {d a : α} (h : g.cells[g.region.index p]? = some a) : g.getD p d = a := by
  rw [getD, h, Option.getD_some]

@[ext] theorem ext_cells (hr : g.region = h.region) (hc : g.cells = h.cells) : g = h := by
  cases g; cases h; simp_all

theorem ext_getD (d : α) (hr : g.region = h.region)
    (hv : ∀ p, g.region.contains p = true → g.getD p d = h.getD p d) : g = h := by
  refine ext_cells hr (Array.ext (by rw [g.size_eq, h.size_eq, hr]) fun i hi hi' => ?_)
  have hc : g.region.contains (g.region.pointAt i) = true := Region.contains_pointAt (g.size_eq ▸ hi)
  have hg := getElem?_eq_getD hc d
  have hh := getElem?_eq_getD (hr ▸ hc : h.region.contains (g.region.pointAt i) = true) d
  rw [← hv _ hc, ← hg, ← hr, Region.index_pointAt, Array.getElem?_eq_getElem hi,
    Array.getElem?_eq_getElem hi', Option.some.injEq] at hh
  exact hh.symm

theorem getD_fill {r : Region} (hp : r.contains p = true) (a d : α) : (fill r a).getD p d = a := by
  refine getD_eq_of_getElem? ?_
  simp only [fill]
  rw [Array.getElem?_replicate, if_pos (Region.index_lt hp)]

theorem getD_tabulate {r : Region} (hp : r.contains p = true) (f : Point → α) (d : α) :
    (tabulate r f).getD p d = f p := by
  refine getD_eq_of_getElem? ?_
  simp only [tabulate, List.getElem?_toArray]
  rw [List.getElem?_map, Region.getElem?_points_index hp, Option.map_some]

theorem getD_map (hp : g.region.contains p = true) (f : α → β) (d : α) (e : β) :
    (g.map f).getD p e = f (g.getD p d) := by
  refine getD_eq_of_getElem? ?_
  simp only [map]
  rw [Array.getElem?_map, getElem?_eq_getD hp d, Option.map_some]

theorem getD_mapPoints (hp : g.region.contains p = true) (f : Point → α → β) (d : α) (e : β) :
    (g.mapPoints f).getD p e = f p (g.getD p d) := by
  refine getD_eq_of_getElem? ?_
  simp only [mapPoints]
  rw [Array.getElem?_mapIdx, getElem?_eq_getD hp d, Option.map_some, Region.pointAt_index hp]

/-- `modifyOn` changes exactly the positions of its region, each once. -/
theorem getD_modifyOn (hp : g.region.contains p = true) (r : Region) (f : Point → α → α) (d : α) :
    (g.modifyOn r f).getD p d = if r.contains p = true then f p (g.getD p d) else g.getD p d := by
  let step := fun (cs : Array α) (q : Point) => cs.modify (g.region.index q) (f q)
  let read := fun (cs : Array α) => (cs[g.region.index p]?).getD d
  have hread : (g.modifyOn r f).getD p d = read ((r.intersect g.region).points.foldl step g.cells) := rfl
  -- Other positions of the region have another place in the array.
  have hmiss : ∀ cs, ∀ q ∈ (r.intersect g.region).points, q ≠ p → cs.size = g.cells.size →
      read (step cs q) = read cs := by
    intro cs q hq hne _
    have hq := Region.contains_intersect_iff.1 (Region.mem_points.1 hq)
    have hi : g.region.index q ≠ g.region.index p := fun hi => hne (Region.index_inj hq.2 hp hi)
    simp only [read, step]
    rw [Array.getElem?_modify, if_neg hi]
  have hhit : ∀ cs : Array α, cs.size = g.cells.size → read (step cs p) = f p (read cs) := by
    intro cs hcs
    simp only [read, step]
    rw [Array.getElem?_modify, if_pos rfl, Array.getElem?_eq_getElem (hcs ▸ index_lt_size hp)]
    simp
  have hinv : ∀ cs, ∀ q ∈ (r.intersect g.region).points, cs.size = g.cells.size →
      (step cs q).size = g.cells.size := by
    intro cs q _ hcs
    simpa only [step, Array.size_modify] using hcs
  rw [hread]
  by_cases hr : r.contains p = true
  · rw [if_pos hr]
    exact Writes.read_foldl_of_hit read (I := fun cs : Array α => cs.size = g.cells.size) rfl hinv
      (Region.nodup_points _) (Region.mem_points.2 (Region.contains_intersect_iff.2 ⟨hr, hp⟩)) hmiss hhit
  · rw [if_neg hr]
    refine Writes.read_foldl_of_miss read (I := fun cs : Array α => cs.size = g.cells.size) rfl hinv ?_
    intro cs q hq hcs
    refine hmiss cs q hq ?_ hcs
    rintro rfl
    exact hr (Region.contains_intersect_iff.1 (Region.mem_points.1 hq)).1

end AdaptiveFrame.Raster
