import AdaptiveFrame.Layout.Filters
import AdaptiveFrame.Proofs.Buffer.Intact
import AdaptiveFrame.Proofs.Layout.Access

/-!
# Frame operations in memory

An image has an entry for every number that a frame operation computes: the rows that are written share out its
positions, and the neighbors that are read lie in it. So on the arrays of an image (`FrameImage.loose`) an operation
makes what it makes of the image.
-/

namespace AdaptiveFrame

variable {α : Type} {size : Point} {p : Point}

/-! ## Rows of an image -/

/-- The rows of an image are pieces of its arrays. -/
theorem Span.chunks?_image (size : Point) (h : 0 < size.x) : (Span.whole size.area).chunks? size.x =
    some ((List.range size.y).map fun y => ⟨y * size.x, size.x⟩) := by
  have hcount : (size.area + size.x - 1) / size.x = size.y := by
    rw [Point.area, Nat.add_sub_assoc h, Nat.mul_add_div h, Nat.div_eq_of_lt (by omega), Nat.add_zero]
  unfold chunks?
  show (Count.div? (size.area + size.x - 1) size.x).bind _ = _
  rw [Count.div?_eq _ h, hcount]
  refine congrArg some (List.map_congr_left fun y hy => ?_)
  have hrow : (y + 1) * size.x ≤ size.y * size.x := Nat.mul_le_mul_right _ (List.mem_range.1 hy)
  rw [Nat.succ_mul, Nat.mul_comm size.y] at hrow
  have hlength : min size.x (size.area - y * size.x) = size.x := Nat.min_eq_left (by rw [Point.area]; omega)
  show (⟨0 + y * size.x, min size.x (size.area - y * size.x)⟩ : Span) = _
  rw [hlength, Nat.zero_add]

/-- The positions of an image, row by row. -/
theorem foldl_image {σ : Type} (f : σ → Point → σ) (s : σ) : (Region.ofSize size).points.foldl f s =
    (List.range size.y).foldl (fun s y => (List.range size.x).foldl (fun s x => f s ⟨x, y⟩) s) s := by
  rw [Region.points, List.foldl_flatMap, List.range_eq_range', List.range_eq_range']
  simp only [List.foldl_map]
  rfl

/-- Pixels that can be recomputed one by one are recomputed in all rows. -/
theorem recomputeRows?_eq {pixel? : Point → Option α} {f : Point → α} {g : Raster α} (d : α) (hx : 0 < size.x)
    (hy : 0 < size.y) (hg : g.region = .ofSize size)
    (hpixel : ∀ p, (Region.ofSize size).contains p = true → pixel? p = some (f p)) :
    recomputeRows? size.x pixel? g.cells = some (Raster.tabulate (.ofSize size) f).cells := by
  have hall : Raster.tabulate (.ofSize size) f =
      (Region.ofSize size).points.foldl (fun g p => g.modify p fun _ => f p) g := by
    have hmodify := Raster.modifyOn_eq_foldl g (.ofSize size) fun p _ => f p
    rw [hg, Region.intersect_self (Region.area_pos_iff.2 ⟨hx, hy⟩)] at hmodify
    rw [← hmodify]
    refine Raster.ext_getD d hg.symm fun p hp => ?_
    have hp : (Region.ofSize size).contains p = true := hp
    rw [Raster.getD_tabulate hp, Raster.getD_modifyOn (hg ▸ hp), if_pos hp]
  have hchunks := Span.chunks?_image size hx
  have hsize : g.cells.size = size.area := g.size_eq.trans (congrArg Region.area hg)
  rw [← hsize] at hchunks
  rw [hall, foldl_image, recomputeRows?, hchunks, Option.bind_eq_bind, Option.bind_some, List.length_map,
    List.length_range]
  refine foldlM_eq_some (R := Raster.cells) (I := fun g : Raster α => g.region = .ofSize size) hg fun g y hy hg => ?_
  have hy := List.mem_range.1 hy
  refine ⟨?_, Writes.inv_foldl (I := fun g : Raster α => g.region = .ofSize size) hg fun _ _ _ hg => hg⟩
  rw [List.getElem?_map, List.getElem?_range hy, Option.map_some, Option.bind_eq_bind, Option.bind_some]
  refine foldlM_eq_some (R := Raster.cells) (I := fun g : Raster α => g.region = .ofSize size) hg fun g x hx hg => ⟨?_, hg⟩
  have hx := List.mem_range.1 hx
  have hp : (Region.ofSize size).contains ⟨x, y⟩ = true := Region.contains_ofSize.2 ⟨hx, hy⟩
  have hlt : y * size.x + x < g.cells.size := by
    rw [g.size_eq, hg]
    exact Region.index_lt hp
  rw [hpixel _ hp, Option.bind_eq_bind, Option.bind_some, Span.write?_eq hx hlt, Raster.cells_modify, hg]
  exact congrArg some (setIfInBounds_eq_modify hlt fun _ => f ⟨x, y⟩)

/-! ## Blurring -/

/-- The pixels next to a pixel of the image, as their first and last are computed. -/
theorem FrameImage.window_next (hp : (Region.ofSize size).contains p = true) :
    (⟨p - .square 1, min (p + .square 1) (size - .square 1) + .square 1⟩ : Region) =
      window (.ofSize size) 1 p := by
  obtain ⟨hx, hy⟩ := Region.contains_ofSize.1 hp
  simp only [window, Region.intersect, Region.ofSize, Region.mk.injEq, Point.ext_iff, Point.max_x, Point.max_y,
    Point.min_x, Point.min_y, Point.add_x, Point.add_y, Point.sub_x, Point.sub_y, Point.square_x, Point.square_y,
    Point.zero_x, Point.zero_y]
  omega

theorem FrameImage.contains_of_window {image : Region} {radius : Nat} {q : Point}
    (hq : q ∈ (window image radius p).points) : image.contains q = true :=
  (Region.contains_intersect_iff.1 (Region.mem_points.1 hq)).1

/-- A neighbor is read by its number in the image. -/
theorem read_image {g : Raster α} (hg : g.region = .ofSize size) (hp : (Region.ofSize size).contains p = true) (d : α) :
    g.cells[p.rowMajor size.x]? = some (g.getD p d) := Raster.getElem?_of_region hg hp d

theorem FrameImage.boxMean?_eq {color : Raster Vec4} (hc : color.region = .ofSize size)
    (hp : (Region.ofSize size).contains p = true) : boxMean? size color.cells p = some (boxMean color p) := by
  obtain ⟨hx, hy⟩ := Region.contains_ofSize.1 hp
  have hlast : size.sub? (.square 1) = some (size - .square 1) :=
    Point.sub?_eq (by rw [Point.square_x]; omega) (by rw [Point.square_y]; omega)
  have hextent : (min (p + .square 1) (size - .square 1)).sub? (p - .square 1) =
      some (min (p + .square 1) (size - .square 1) - (p - .square 1)) := by
    refine Point.sub?_eq ?_ ?_
    · simp only [Point.sub_x, Point.min_x, Point.add_x, Point.square_x]
      omega
    · simp only [Point.sub_y, Point.min_y, Point.add_y, Point.square_y]
      omega
  have harea : (min (p + .square 1) (size - .square 1) - (p - .square 1) + .square 1).area =
      (window (.ofSize size) 1 p).area := by
    rw [← window_next hp, Region.area_eq, Region.width_eq, Region.height_eq, Point.area]
    simp only [Point.sub_x, Point.sub_y, Point.min_x, Point.min_y, Point.add_x, Point.add_y, Point.square_x,
      Point.square_y]
    congr 1 <;> omega
  have hsum : (window (.ofSize size) 1 p).points.foldlM (fun (sum : Vec4) q => do
      return sum + (← color.cells[q.rowMajor size.x]?)) .zero =
      some ((window (.ofSize size) 1 p).points.foldl (fun sum q => sum + color.getD q .zero) .zero) := by
    refine foldlM_eq_some (R := id) (I := fun _ => True) trivial fun sum q hq _ => ⟨?_, trivial⟩
    rw [read_image hc (contains_of_window hq) .zero]
    rfl
  unfold boxMean? boxMean
  simp only [hlast, hextent, harea, window_next hp, hc, Option.bind_eq_bind, Option.bind_some]
  exact congrArg (Option.bind · _) hsum

/-! ## Denoising -/

namespace Denoiser

/-- A guide has a value for every position of an image. -/
def Guides (size : Point) (guide : Option (Raster Vec3)) : Prop := ∀ g, guide = some g → g.region = .ofSize size

theorem guideFactor?_eq {guide : Option (Raster Vec3)} (hg : Guides size guide) {q : Point}
    (hp : (Region.ofSize size).contains p = true) (hq : (Region.ofSize size).contains q = true) (sigma w : Float32) :
    guideFactor? (guide.map Raster.cells) sigma (p.rowMajor size.x) (q.rowMajor size.x) w =
      some (guideFactor guide sigma p q w) := by
  cases guide with
  | none => rfl
  | some g =>
    have hg := hg g rfl
    show (g.cells[q.rowMajor size.x]?).bind (fun a => (g.cells[p.rowMajor size.x]?).bind _) = _
    rw [read_image hg hq .zero, read_image hg hp .zero]
    rfl

/-- The coordinates at the offsets of a loop follow one another, from the border of the image or of the window on. -/
theorem filterMap_shifted (reach extent i n : Nat) :
    ((List.range n).map fun (k : Nat) => (k : Int) - reach).filterMap (shifted? extent i) =
      List.range' (i - reach) (min extent (i + n - reach) - (i - reach)) := by
  induction n with
  | zero =>
    have hnone : min extent (i + 0 - reach) - (i - reach) = 0 := by omega
    rw [hnone]
    rfl
  | succ n ih =>
    rw [List.range_succ, List.map_append, List.filterMap_append, ih, List.map_singleton]
    by_cases hin : (i : Int) + (n - reach) < 0 ∨ extent ≤ (i : Int) + (n - reach)
    · have hsame : min extent (i + (n + 1) - reach) - (i - reach) = min extent (i + n - reach) - (i - reach) := by omega
      rw [hsame, List.filterMap_cons_none (show shifted? extent i (n - reach) = none from if_pos hin)]
      exact List.append_nil _
    · have hnext : min extent (i + (n + 1) - reach) - (i - reach) = min extent (i + n - reach) - (i - reach) + 1 := by
        omega
      have hvalue : ((i : Int) + (n - reach)).toNat = i - reach + (min extent (i + n - reach) - (i - reach)) := by omega
      rw [hnext, List.range'_1_concat, ← hvalue,
        List.filterMap_cons_some (show shifted? extent i (n - reach) = some _ from if_neg hin)]
      rfl

theorem filterMap_offsets {reach : Int} (h : 0 ≤ reach) (extent i : Nat) :
    (offsets reach).filterMap (shifted? extent i) =
      List.range' (i - reach.toNat) (min extent (i + (reach.toNat + 1)) - (i - reach.toNat)) := by
  obtain ⟨r, rfl⟩ := Int.eq_ofNat_of_zero_le h
  have hcount : (2 * (r : Int) + 1).toNat = 2 * r + 1 := by omega
  have hlast : i + (2 * r + 1) - r = i + (r + 1) := by omega
  unfold offsets
  rw [hcount, filterMap_shifted, hlast]
  rfl

/-- The positions that are visited are those of the window. -/
theorem visited_eq (d : Denoiser) (size p : Point) : d.visited size p = d.neighbors (.ofSize size) p := by
  unfold visited neighbors
  by_cases h : d.reach < 0
  · have hnone : (2 * d.reach + 1).toNat = 0 := by omega
    rw [if_pos h, offsets, hnone]
    rfl
  · obtain ⟨r, hr⟩ : ∃ r, d.reach.toNat = r := ⟨_, rfl⟩
    have hlower : (FrameImage.window (.ofSize size) r p).lower = p - .square r := by
      simp [FrameImage.window, Region.intersect, Region.ofSize, Point.ext_iff, Point.zero]
    have hsize : (FrameImage.window (.ofSize size) r p).size = min size (p + .square (r + 1)) - (p - .square r) := by
      simp only [FrameImage.window, Region.intersect, Region.ofSize, Region.size, Point.ext_iff, Point.max_x,
        Point.max_y, Point.min_x, Point.min_y, Point.add_x, Point.add_y, Point.sub_x, Point.sub_y, Point.square_x,
        Point.square_y, Point.zero_x, Point.zero_y]
      omega
    rw [if_neg h, filterMap_offsets (by omega), filterMap_offsets (by omega), hr, Region.points, Region.width,
      Region.height, hlower, hsize]
    rfl

theorem contains_of_neighbors {d : Denoiser} {image : Region} {q : Point} (hq : q ∈ d.neighbors image p) :
    image.contains q = true := by
  unfold neighbors at hq
  split at hq
  · cases hq
  · exact FrameImage.contains_of_window hq

theorem pixel?_eq (d : Denoiser) {color : Raster Vec3} {albedo normal : Option (Raster Vec3)}
    (hc : color.region = .ofSize size) (ha : Guides size albedo) (hn : Guides size normal)
    (hp : (Region.ofSize size).contains p = true) :
    d.pixel? size color.cells (albedo.map Raster.cells) (normal.map Raster.cells) p =
      some (d.pixel color albedo normal p (color.getD p .zero)) := by
  have hsum : (d.neighbors (.ofSize size) p).foldlM (fun acc q => do
      let c ← color.cells[q.rowMajor size.x]?
      let w := bell (.ofNat (pixelDistSq p q)) d.sigmaSpatial * bell (c - color.getD p .zero).lengthSq d.sigmaColor
      let w ← guideFactor? (albedo.map Raster.cells) d.sigmaAlbedo (p.rowMajor size.x) (q.rowMajor size.x) w
      let w ← guideFactor? (normal.map Raster.cells) d.sigmaNormal (p.rowMajor size.x) (q.rowMajor size.x) w
      return (acc.1 + c.scale w, acc.2 + w)) (Vec3.zero, (0 : Float32)) =
      some ((d.neighbors (.ofSize size) p).foldl (fun acc q =>
        (acc.1 + (color.getD q .zero).scale (d.weight color albedo normal p q), acc.2 + d.weight color albedo normal p q))
        (Vec3.zero, (0 : Float32))) := by
    refine foldlM_eq_some (R := id) (I := fun _ => True) trivial ?_
    rintro ⟨sum, total⟩ q hq -
    refine ⟨?_, trivial⟩
    have hq := contains_of_neighbors hq
    simp only [read_image hc hq .zero, guideFactor?_eq ha hp hq, guideFactor?_eq hn hp hq, Option.bind_eq_bind,
      Option.bind_some]
    rfl
  unfold pixel? pixel
  rw [hc, visited_eq]
  simp only [read_image hc hp .zero, Option.bind_eq_bind, Option.bind_some]
  exact congrArg (Option.bind · _) hsum

end Denoiser

/-! ## One operation and many -/

/-- Values for all positions of an image are put in color by color. -/
theorem LooseFrame.withXyz_cells (color : Raster Vec4) (values : Raster Vec3) (h : values.region = color.region)
    (d : Vec3) : withXyz color.cells values.cells = (color.mapPoints fun p c => c.withXyz (values.getD p d)).cells := by
  refine Array.ext_getElem? fun i => ?_
  rw [withXyz, Raster.mapPoints, Array.getElem?_mapIdx, Array.getElem?_mapIdx]
  cases hi : color.cells[i]? with
  | none => rfl
  | some c =>
    have hlt : i < values.cells.size := by
      rw [values.size_eq, h, ← color.size_eq]
      exact (Array.getElem?_eq_some_iff.1 hi).1
    have hvalue : values.getD (color.region.pointAt i) d = values.cells[i] := by
      rw [← h, Raster.getD, Region.index_pointAt, Array.getElem?_eq_getElem hlt, Option.getD_some]
    rw [Option.map_some, Option.map_some, Array.getElem?_eq_getElem hlt, hvalue]

namespace FrameImage

/-- The arrays of an image. -/
def loose (size : Point) (im : FrameImage) : LooseFrame :=
  ⟨size, im.color.cells, im.depth.map Raster.cells, im.normal.map Raster.cells, im.albedo.map Raster.cells⟩

/-- The color and the guides have a value for every position of an image. -/
structure Covers (size : Point) (im : FrameImage) : Prop where
  color : im.color.region = .ofSize size
  depth : ∀ g, im.depth = some g → g.region = .ofSize size
  normal : Denoiser.Guides size im.normal
  albedo : Denoiser.Guides size im.albedo

variable {im : FrameImage}

theorem smooth?_eq (h : im.Covers size) (hx : 0 < size.x) (hy : 0 < size.y) : (im.loose size).smooth? =
    some (({} : Denoiser).run (im.color.map Vec4.xyz) im.albedo im.normal).cells := by
  have hc : (im.color.map Vec4.xyz).region = .ofSize size := h.color
  have hrun : ({} : Denoiser).run (im.color.map Vec4.xyz) im.albedo im.normal = .tabulate (.ofSize size) fun p =>
      ({} : Denoiser).pixel (im.color.map Vec4.xyz) im.albedo im.normal p ((im.color.map Vec4.xyz).getD p .zero) := by
    refine Raster.ext_getD .zero hc fun p hp => ?_
    have hp : (im.color.map Vec4.xyz).region.contains p = true := hp
    rw [Denoiser.run, Raster.getD_mapPoints hp _ .zero, Raster.getD_tabulate (hc ▸ hp)]
  have hrows := recomputeRows?_eq (g := .fill (.ofSize size) .zero) .zero hx hy rfl fun p hp =>
    Denoiser.pixel?_eq {} hc h.albedo h.normal hp
  have hwidth : max size.x 1 = size.x := Nat.max_eq_left hx
  rw [hrun, LooseFrame.smooth?]
  dsimp only [loose]
  rw [hwidth]
  exact hrows

theorem process?_eq (h : im.Covers size) (hx : 0 < size.x) (hy : 0 < size.y) (op : FrameOp) :
    (im.loose size).process? op = some (op.apply im).cells := by
  cases op with
  | markRed => rfl
  | blur =>
    have hblur : boxBlur im.color = .tabulate (.ofSize size) (boxMean im.color) := by
      refine Raster.ext_getD .zero h.color fun p hp => ?_
      have hp : im.color.region.contains p = true := hp
      rw [boxBlur, Raster.getD_mapPoints hp _ .zero, Raster.getD_tabulate (h.color ▸ hp)]
    show recomputeRows? size.x (boxMean? size im.color.cells) im.color.cells = some (boxBlur im.color).cells
    rw [hblur]
    exact recomputeRows?_eq .zero hx hy h.color fun p hp => boxMean?_eq h.color hp
  | depth =>
    obtain ⟨color, depth, normal, albedo⟩ := im
    cases depth with
    | none => rfl
    | some depth =>
      have hdepth : depth.region = color.region := (h.depth depth rfl).trans h.color.symm
      have hshow := LooseFrame.withXyz_cells color
        (depth.map fun z => .splat (scaledDepth (depthScale depth.cells) z)) hdepth .zero
      refine congrArg some (hshow.trans (congrArg Raster.cells ?_))
      refine Raster.ext_getD .zero rfl fun p hp => ?_
      have hp : color.region.contains p = true := hp
      have hp' : depth.region.contains p = true := hdepth ▸ hp
      show Raster.getD (color.mapPoints _) p _ = Raster.getD (color.mapPoints _) p _
      rw [Raster.getD_mapPoints hp _ Vec4.zero, Raster.getD_mapPoints hp _ Vec4.zero,
        Raster.getD_map hp' _ Binary32.posInf]
  | denoise =>
    show (im.loose size).smooth?.map _ = _
    rw [smooth?_eq h hx hy]
    exact congrArg some (LooseFrame.withXyz_cells _ _ rfl .zero)

theorem Covers.recolored (h : im.Covers size) (op : FrameOp) : Covers size { im with color := op.apply im } :=
  ⟨(op.region_apply im).trans h.color, h.depth, h.normal, h.albedo⟩

/-- Operations in order make of the arrays of an image what they make of the image. -/
theorem processAll?_eq (h : im.Covers size) (hx : 0 < size.x) (hy : 0 < size.y) (pl : Pipeline) :
    ((im.loose size).processAll? pl.frameOps).map LooseFrame.color = some (pl.finish im).cells := by
  have hrun : (im.loose size).processAll? pl.frameOps =
      some (loose size (pl.frameOps.foldl (fun im op => { im with color := op.apply im }) im)) := by
    refine foldlM_eq_some (R := loose size) (I := Covers size) h fun im op _ h => ⟨?_, h.recolored op⟩
    rw [process?_eq h hx hy op]
    rfl
  rw [hrun]
  rfl

end FrameImage

end AdaptiveFrame
