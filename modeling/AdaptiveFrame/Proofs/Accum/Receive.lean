import AdaptiveFrame.Accum.Pixel
import AdaptiveFrame.Filter.Pipeline
import AdaptiveFrame.Proofs.Grid.RasterCells

/-!
# Receiving a tile

Folding a tile, handing it through the pixel operations and showing its colors happens pixel by pixel:
`Pixel.receive` is what one sample does to one pixel. A `Patch` is all that a buffer holds for one task. A
tile of that task changes its patch alone, whichever store the pixels are kept in.
-/

namespace AdaptiveFrame

variable {rule : FoldRule} {pl : Pipeline} {s : Store} {t : Tile} {r : Region} {p : Point}

/-! ## Pixel operations -/

namespace Pipeline

/-- What the pixel operations make of one color. -/
def tone (pl : Pipeline) (c : Vec4) : Vec4 := pl.pixelOps.foldl (fun c op => op.recolor c) c

theorem sampleAt_apply (op : PixelOp) (hp : t.region.contains p = true) :
    (op.apply t).sampleAt p = { t.sampleAt p with color := op.recolor (t.sampleAt p).color } :=
  Raster.getD_map (g := t.toRaster) hp _ _ _

theorem sampleAt_foldl_apply (ops : List PixelOp) (hp : t.region.contains p = true) :
    (ops.foldl (fun t op => op.apply t) t).sampleAt p =
      { t.sampleAt p with color := ops.foldl (fun c op => op.recolor c) (t.sampleAt p).color } := by
  induction ops generalizing t with
  | nil => rfl
  | cons op ops ih =>
    have hrest := ih (t := op.apply t) hp
    rw [List.foldl_cons, hrest, sampleAt_apply op hp, List.foldl_cons]

theorem sampleAt_recolor (hp : t.region.contains p = true) :
    (pl.recolor t).sampleAt p = { t.sampleAt p with color := pl.tone (t.sampleAt p).color } :=
  sampleAt_foldl_apply pl.pixelOps hp

theorem region_recolor (pl : Pipeline) (t : Tile) : (pl.recolor t).region = t.region := by
  unfold recolor
  induction pl.pixelOps generalizing t with
  | nil => rfl
  | cons op ops ih => exact ih (op.apply t)

end Pipeline

/-! ## Pixels -/

/-- A pixel after a sample was folded into it and its new color, after the pixel operations, is shown. -/
def Pixel.receive (rule : FoldRule) (pl : Pipeline) (k : Int) (s : Sample) (px : Pixel) : Pixel :=
  (px.fold rule k s).setColor (pl.tone ((px.fold rule k s).reflect rule s).color)

/-- A fold over numbered entries, grown at its end. -/
theorem foldl_zipIdx_concat {α σ : Type} (step : σ → α × Nat → σ) (xs : List α) (a : α) (s : σ) :
    (xs ++ [a]).zipIdx.foldl step s = step (xs.zipIdx.foldl step s) (a, xs.length) := by
  rw [List.zipIdx_append, List.foldl_append, List.zipIdx_singleton, Nat.zero_add, List.foldl_cons, List.foldl_nil]

namespace Pixel

/-- A pixel that receives samples one after another, the first of them with the id 0. -/
def receiveAll (rule : FoldRule) (pl : Pipeline) (samples : List Sample) (px : Pixel) : Pixel :=
  samples.zipIdx.foldl (fun px e => px.receive rule pl e.2 e.1) px

theorem receiveAll_concat (samples : List Sample) (s : Sample) (px : Pixel) :
    px.receiveAll rule pl (samples ++ [s]) = (px.receiveAll rule pl samples).receive rule pl samples.length s :=
  foldl_zipIdx_concat ..

/-- The next one of numbered samples. -/
theorem receiveAll_range_succ (S : Nat → Sample) (n : Nat) (px : Pixel) :
    px.receiveAll rule pl ((List.range (n + 1)).map S) =
      (px.receiveAll rule pl ((List.range n).map S)).receive rule pl n (S n) := by
  rw [List.range_succ, List.map_append, List.map_singleton, receiveAll_concat, List.length_map, List.length_range]

end Pixel

namespace Store

/-- The store after a tile was folded into it and its new colors are shown. -/
def receive (rule : FoldRule) (pl : Pipeline) (s : Store) (t : Tile) : Store :=
  (s.foldTile rule t).showColors (pl.recolor ((s.foldTile rule t).reflectTile rule t))

@[simp] theorem region_foldTile : (foldTile rule s t).region = s.region := rfl
@[simp] theorem region_receive : (s.receive rule pl t).region = s.region := rfl

theorem getD_foldTile (hp : s.region.contains p = true) :
    (s.foldTile rule t).getD p .blank =
      if t.region.contains p = true then (s.getD p .blank).fold rule t.accumId (t.sampleAt p)
      else s.getD p .blank := Raster.getD_modifyOn hp t.region _ _

/-- The color that a recolored tile carries for a pixel of the store. -/
theorem color_recolor (hp : s.region.contains p = true) (ht : t.region.contains p = true) :
    ((pl.recolor (s.reflectTile rule t)).sampleAt p).color =
      pl.tone ((s.getD p .blank).reflect rule (t.sampleAt p)).color := by
  have hpart : (t.region.intersect s.region).contains p = true := Region.contains_intersect_iff.2 ⟨ht, hp⟩
  have hreflect : (s.reflectTile rule t).sampleAt p = (s.getD p .blank).reflect rule (t.sampleAt p) := by
    refine (Raster.getD_mapPoints (g := t.toRaster) ht _ Sample.blank _).trans ?_
    rw [if_pos hpart]
    rfl
  rw [Pipeline.sampleAt_recolor (t := s.reflectTile rule t) ht, hreflect]

theorem getD_receive (hp : s.region.contains p = true) :
    (s.receive rule pl t).getD p .blank =
      if t.region.contains p = true then (s.getD p .blank).receive rule pl t.accumId (t.sampleAt p)
      else s.getD p .blank := by
  have hshow := Raster.getD_modifyOn (g := s.foldTile rule t) (p := p) hp
    (pl.recolor ((s.foldTile rule t).reflectTile rule t)).region
    (fun p px => px.setColor ((pl.recolor ((s.foldTile rule t).reflectTile rule t)).sampleAt p).color) Pixel.blank
  refine hshow.trans ?_
  rw [Pipeline.region_recolor, getD_foldTile hp]
  by_cases ht : t.region.contains p = true
  · have hregion : ((s.foldTile rule t).reflectTile rule t).region.contains p = true := ht
    rw [if_pos hregion, if_pos ht, if_pos ht, color_recolor (s := s.foldTile rule t) hp ht, getD_foldTile hp,
      if_pos ht]
    rfl
  · have hregion : ¬ ((s.foldTile rule t).reflectTile rule t).region.contains p = true := ht
    rw [if_neg hregion, if_neg ht, if_neg ht]

/-- A tile that shares no pixel with the store leaves it as it is. -/
theorem receive_of_disjoint (h : t.region.overlaps s.region = false) : s.receive rule pl t = s := by
  rw [Region.overlaps_comm] at h
  refine Raster.ext_getD .blank rfl ?_
  intro p hp
  have hp : s.region.contains p = true := hp
  rw [getD_receive hp, if_neg (by simp [Region.overlaps_eq_false_iff.1 h p hp])]

/-- Tiles that share no pixel can be received in either order. -/
theorem receive_comm {t' : Tile} (h : t.region.overlaps t'.region = false) (s : Store) :
    (s.receive rule pl t).receive rule pl t' = (s.receive rule pl t').receive rule pl t := by
  refine Raster.ext_getD .blank (by simp only [region_receive]) ?_
  intro p hp
  rw [region_receive, region_receive] at hp
  have hp₁ : (s.receive rule pl t).region.contains p = true := hp
  have hp₂ : (s.receive rule pl t').region.contains p = true := hp
  rw [getD_receive hp₁, getD_receive hp₂, getD_receive hp, getD_receive hp]
  by_cases ht : t.region.contains p = true
  · have ht' := Region.overlaps_eq_false_iff.1 h p ht
    simp [ht, ht']
  · simp [ht]

/-- The color that the tile is left with is the one that is shown. -/
theorem color_left (hp : s.region.contains p = true) (ht : t.region.contains p = true) :
    ((pl.recolor ((s.foldTile rule t).reflectTile rule t)).sampleAt p).color =
      ((s.receive rule pl t).getD p .blank).shown.color := by
  rw [color_recolor (s := s.foldTile rule t) hp ht, getD_receive hp, if_pos ht, getD_foldTile hp, if_pos ht]
  rfl

/-- The mean error only reads the means of the pixels it is taken over. -/
theorem meanError_congr {s' : Store} {r' : Region} (hpart : r.intersect s.region = r'.intersect s'.region)
    (h : ∀ p, (r.intersect s.region).contains p = true → (s.getD p .blank).accum = (s'.getD p .blank).accum ∧
      (s.getD p .blank).oddMean = (s'.getD p .blank).oddMean) : s.meanError r = s'.meanError r' := by
  unfold meanError
  rw [← hpart]
  dsimp only
  congr 1
  refine List.foldl_ext _ _ _ ?_
  intro sum p hp
  obtain ⟨hm, ho⟩ := h p (Region.mem_points.1 hp)
  simp only [hm, ho]

/-- Showing colors leaves the means alone. -/
theorem meanError_receive (r : Region) :
    (s.receive rule pl t).meanError r = (s.foldTile rule t).meanError r := by
  refine meanError_congr rfl ?_
  intro p hp
  have hp : s.region.contains p = true := (Region.contains_intersect_iff.1 hp).2
  rw [getD_receive hp, getD_foldTile hp]
  by_cases ht : t.region.contains p = true
  · rw [if_pos ht, if_pos ht]
    exact ⟨rfl, rfl⟩
  · rw [if_neg ht, if_neg ht]
    exact ⟨rfl, rfl⟩

end Store

/-! ## Patches -/

/-- The part of a raster over another region. -/
def Raster.restrict {α : Type} (g : Raster α) (r : Region) (d : α) : Raster α := .tabulate r fun p => g.getD p d

@[simp] theorem Raster.region_restrict {α : Type} (g : Raster α) (r : Region) (d : α) : (g.restrict r d).region = r :=
  rfl

/-- A part of the store receives its part of the tile. -/
theorem Store.restrict_receive (hr : ∀ p, r.contains p = true → s.region.contains p = true) :
    (s.receive rule pl t).restrict r .blank = receive rule pl (s.restrict r .blank) t := by
  refine Raster.ext_getD .blank rfl ?_
  intro p hp
  have hp : r.contains p = true := hp
  have hin : (s.restrict r Pixel.blank).region.contains p = true := hp
  rw [Raster.restrict, Raster.getD_tabulate hp, getD_receive (hr p hp), getD_receive hin, Raster.restrict,
    Raster.getD_tabulate hp]

/-- What a buffer holds for one task. -/
@[ext]
structure Patch where
  pixels : Store
  error : Float32
  /-- Samples received so far. -/
  accumId : Int

namespace Patch

/-- A patch after its task was rendered. -/
def receive (rule : FoldRule) (pl : Pipeline) (t : Tile) (x : Patch) : Patch where
  pixels := x.pixels.receive rule pl t
  error := if rule.updatesError t.accumId then (x.pixels.receive rule pl t).meanError x.pixels.region else x.error
  accumId := t.accumId + 1

end Patch

/-- Tiles that share no pixel and bring the same number of samples can be received in either order. -/
theorem Patch.receive_comm {t' : Tile} (h : t.region.overlaps t'.region = false) (hcount : t.accumId = t'.accumId)
    (x : Patch) : (x.receive rule pl t).receive rule pl t' = (x.receive rule pl t').receive rule pl t := by
  have hpixels : ((x.receive rule pl t).receive rule pl t').pixels = ((x.receive rule pl t').receive rule pl t).pixels :=
    Store.receive_comm h x.pixels
  refine Patch.ext hpixels ?_ ?_
  · show (if rule.updatesError t'.accumId then ((x.receive rule pl t).receive rule pl t').pixels.meanError x.pixels.region
        else (x.receive rule pl t).error) =
      if rule.updatesError t.accumId then ((x.receive rule pl t').receive rule pl t).pixels.meanError x.pixels.region
        else (x.receive rule pl t').error
    rw [hpixels]
    by_cases hu : rule.updatesError t.accumId = true
    · rw [if_pos hu, if_pos (hcount ▸ hu)]
    · have hu' : ¬ rule.updatesError t'.accumId = true := hcount ▸ hu
      rw [if_neg hu, if_neg hu']
      simp only [Patch.receive, if_neg hu, if_neg hu']
  · show t'.accumId + 1 = t.accumId + 1
    rw [hcount]

end AdaptiveFrame
