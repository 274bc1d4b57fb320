import AdaptiveFrame.Proofs.Accum.Receive

/-!
# What a buffer shows of its pixels

A dense buffer blends the guide channels that it was asked for, a sparse one blends all of them. The
difference is never seen: pixels that agree in their means and in what is shown of them (`Pixel.visible`)
still do after the same sample.
-/

namespace AdaptiveFrame

variable {d : BufferDesc} {pl pl' : Pipeline} {t : Tile} {p : Point}

/-- A sample without the guide channels that nobody asked for. -/
def Sample.visible (d : BufferDesc) (s : Sample) : Sample :=
  { s with
    depth := if d.has .depth then s.depth else Sample.blank.depth
    normal := if d.has .normal then s.normal else Sample.blank.normal
    albedo := if d.has .albedo then s.albedo else Sample.blank.albedo }

/-- Samples that look the same agree in all that was asked for. -/
theorem Sample.eq_of_visible {s s' : Sample} (h : s.visible d = s'.visible d) : s.color = s'.color ∧ s.ids = s'.ids ∧
    (d.has .depth = true → s.depth = s'.depth) ∧ (d.has .normal = true → s.normal = s'.normal) ∧
    (d.has .albedo = true → s.albedo = s'.albedo) := by
  obtain ⟨color, depth, normal, albedo, ids⟩ := s
  obtain ⟨color', depth', normal', albedo', ids'⟩ := s'
  simp only [visible, Sample.mk.injEq] at h
  obtain ⟨hcolor, hdepth, hnormal, halbedo, hids⟩ := h
  refine ⟨hcolor, hids, ?_, ?_, ?_⟩
  · intro hd
    rwa [if_pos hd, if_pos hd] at hdepth
  · intro hn
    rwa [if_pos hn, if_pos hn] at hnormal
  · intro ha
    rwa [if_pos ha, if_pos ha] at halbedo

/-- Samples that agree in all that was asked for look the same. -/
theorem Sample.visible_ext {s s' : Sample} (hcolor : s.color = s'.color) (hids : s.ids = s'.ids)
    (hdepth : d.has .depth = true → s.depth = s'.depth) (hnormal : d.has .normal = true → s.normal = s'.normal)
    (halbedo : d.has .albedo = true → s.albedo = s'.albedo) : s.visible d = s'.visible d := by
  obtain ⟨color, depth, normal, albedo, ids⟩ := s
  obtain ⟨color', depth', normal', albedo', ids'⟩ := s'
  simp only [visible, Sample.mk.injEq]
  refine ⟨hcolor, ?_, ?_, ?_, hids⟩
  · split
    · exact hdepth ‹_›
    · rfl
  · split
    · exact hnormal ‹_›
    · rfl
  · split
    · exact halbedo ‹_›
    · rfl

namespace Pixel

def visible (d : BufferDesc) (px : Pixel) : Pixel := { px with shown := px.shown.visible d }

variable {px qx : Pixel}

theorem means_visible (h : px.visible d = qx.visible d) : px.accum = qx.accum ∧ px.oddMean = qx.oddMean := by
  have hm : (px.visible d).accum = (qx.visible d).accum ∧ (px.visible d).oddMean = (qx.visible d).oddMean := by
    rw [h]
    exact ⟨rfl, rfl⟩
  exact hm

theorem shown_visible (h : px.visible d = qx.visible d) : px.shown.visible d = qx.shown.visible d := by
  have hs : (px.visible d).shown = (qx.visible d).shown := by rw [h]
  exact hs

theorem visible_receive (hpl : pl.pixelOps = pl'.pixelOps) (h : px.visible d = qx.visible d) (k : Int) (s : Sample) :
    (px.receive (.dense d) pl k s).visible d = (qx.receive (.sparse d) pl' k s).visible d := by
  obtain ⟨mean, oddMean, ⟨color, depth, normal, albedo, ids⟩⟩ := px
  obtain ⟨mean', oddMean', ⟨color', depth', normal', albedo', ids'⟩⟩ := qx
  simp only [visible, Sample.visible, Pixel.mk.injEq, Sample.mk.injEq] at h
  obtain ⟨rfl, rfl, rfl, hdepth, hnormal, halbedo, rfl⟩ := h
  have htone : pl.tone = pl'.tone := by
    funext c
    unfold Pipeline.tone
    rw [hpl]
  simp only [receive, visible, Sample.visible, setColor, Pixel.mk.injEq, Sample.mk.injEq]
  refine ⟨rfl, rfl, ?_, ?_, ?_, ?_, rfl⟩
  · rw [htone]
    rfl
  · cases hd : d.has .depth with
    | true =>
      rw [hd] at hdepth
      simp only [if_true] at hdepth
      simp only [fold, FoldRule.dense, FoldRule.sparse, hd, hdepth, if_true]
      rfl
    | false => rfl
  · cases hn : d.has .normal with
    | true =>
      rw [hn] at hnormal
      simp only [if_true] at hnormal
      simp only [fold, FoldRule.dense, FoldRule.sparse, hn, hnormal, if_true]
      rfl
    | false => rfl
  · cases ha : d.has .albedo with
    | true =>
      rw [ha] at halbedo
      simp only [if_true] at halbedo
      simp only [fold, FoldRule.dense, FoldRule.sparse, ha, halbedo, if_true]
      rfl
    | false => rfl

end Pixel

namespace Patch

def visible (d : BufferDesc) (x : Patch) : Patch := { x with pixels := x.pixels.map (Pixel.visible d) }

variable {x y : Patch}

theorem region_visible (h : x.visible d = y.visible d) : x.pixels.region = y.pixels.region := by
  have hr : (x.visible d).pixels.region = (y.visible d).pixels.region := by rw [h]
  exact hr

theorem error_visible (h : x.visible d = y.visible d) : x.error = y.error := by
  have he : (x.visible d).error = (y.visible d).error := by rw [h]
  exact he

theorem accumId_visible (h : x.visible d = y.visible d) : x.accumId = y.accumId := by
  have ha : (x.visible d).accumId = (y.visible d).accumId := by rw [h]
  exact ha

theorem pixel_visible (h : x.visible d = y.visible d) (hp : x.pixels.region.contains p = true) :
    (x.pixels.getD p .blank).visible d = (y.pixels.getD p .blank).visible d := by
  have hp' : y.pixels.region.contains p = true := region_visible h ▸ hp
  have hget := congrArg (fun z : Patch => z.pixels.getD p (Pixel.visible d .blank)) h
  dsimp only [visible] at hget
  rw [Raster.getD_map hp _ .blank, Raster.getD_map hp' _ .blank] at hget
  exact hget

theorem visible_ext (hr : x.pixels.region = y.pixels.region)
    (hp : ∀ p, x.pixels.region.contains p = true →
      (x.pixels.getD p .blank).visible d = (y.pixels.getD p .blank).visible d)
    (he : x.error = y.error) (ha : x.accumId = y.accumId) : x.visible d = y.visible d := by
  refine Patch.ext (Raster.ext_getD .blank hr fun p hin => ?_) he ha
  have hin : x.pixels.region.contains p = true := hin
  have hin' : y.pixels.region.contains p = true := hr ▸ hin
  dsimp only [visible]
  rw [Raster.getD_map hin _ .blank, Raster.getD_map hin' _ .blank]
  exact hp p hin

/-- Patches keep looking the same when both get a new error and count. -/
theorem visible_of_pixels {x' y' : Patch} (h : x.visible d = y.visible d) (hx : x'.pixels = x.pixels)
    (hy : y'.pixels = y.pixels) (he : x'.error = y'.error) (ha : x'.accumId = y'.accumId) :
    x'.visible d = y'.visible d := by
  have hpixels : (x.visible d).pixels = (y.visible d).pixels := by rw [h]
  refine Patch.ext ?_ he ha
  show x'.pixels.map _ = y'.pixels.map _
  rw [hx, hy]
  exact hpixels

/-- Patches that look the same still do after the same tile. -/
theorem visible_receive (hpl : pl.pixelOps = pl'.pixelOps) (h : x.visible d = y.visible d) (t : Tile) :
    (x.receive (.dense d) pl t).visible d = (y.receive (.sparse d) pl' t).visible d := by
  have hr := region_visible h
  have hpixel : ∀ p, x.pixels.region.contains p = true →
      ((x.pixels.receive (.dense d) pl t).getD p .blank).visible d =
        ((y.pixels.receive (.sparse d) pl' t).getD p .blank).visible d := by
    intro p hp
    rw [Store.getD_receive hp, Store.getD_receive (hr ▸ hp)]
    by_cases ht : t.region.contains p = true
    · rw [if_pos ht, if_pos ht]
      exact Pixel.visible_receive hpl (pixel_visible h hp) _ _
    · rw [if_neg ht, if_neg ht]
      exact pixel_visible h hp
  refine visible_ext hr hpixel ?_ rfl
  show (if (FoldRule.dense d).updatesError t.accumId then _ else _) =
    if (FoldRule.sparse d).updatesError t.accumId then _ else _
  have hmean : (x.pixels.receive (.dense d) pl t).meanError x.pixels.region =
      (y.pixels.receive (.sparse d) pl' t).meanError y.pixels.region := by
    refine Store.meanError_congr ?_ fun p hp => ?_
    · show x.pixels.region.intersect x.pixels.region = y.pixels.region.intersect y.pixels.region
      rw [hr]
    · have hv := hpixel p (Region.contains_intersect_iff.1 hp).2
      exact Pixel.means_visible hv
  rw [hmean, error_visible h]
  rfl

end Patch

end AdaptiveFrame
