import AdaptiveFrame.Proofs.Buffer.DenseFold

/-!
# What is on display

Where eight bits per lane are displayed, a pixel is on display (`Displays`) if they encode the color that is
shown for it. Folding a tile puts its pixels on display and leaves the others there, so a frame that renders
every task displays the whole image.
-/

namespace AdaptiveFrame.DenseBuffer

variable {b c : DenseBuffer} {t : Tile} {i : Nat} {p : Point} {ids : List Nat} {tile : Nat → Tile}

/-- The pixel is displayed in the color that is shown for it. -/
def Displays (b : DenseBuffer) (p : Point) : Prop := ∀ encode g, Color.encoding? b.desc.format = some encode →
  b.display = some g → g.getD p default = encode (b.pixels.getD p .blank).shown.color

/-- The pixel is displayed in the encoding of a color. -/
def DisplaysAs (b : DenseBuffer) (p : Point) (color : Vec4) : Prop := ∀ encode g,
  Color.encoding? b.desc.format = some encode → b.display = some g → g.getD p default = encode color

theorem displays_iff : b.Displays p ↔ b.DisplaysAs p (b.pixels.getD p .blank).shown.color := Iff.rfl

theorem getD_encodeTile {format : ColorFormat} {encode : Vec4 → Rgba8} {display : Option (Raster Rgba8)}
    {g : Raster Rgba8} {r : Region} (he : Color.encoding? format = some encode)
    (hr : ∀ g, display = some g → g.region = r) (hp : r.contains p = true) (hg : encodeTile format t display = some g) :
    ∃ g₀, display = some g₀ ∧ g.getD p default =
      if t.region.contains p = true then encode (t.sampleAt p).color else g₀.getD p default := by
  unfold encodeTile at hg
  rw [he] at hg
  cases display with
  | none => cases hg
  | some g₀ =>
    cases hg
    have hregion : g₀.region.contains p = true := by rw [hr g₀ rfl]; exact hp
    exact ⟨g₀, rfl, Raster.getD_modifyOn hregion t.region _ _⟩

theorem contains_eq_false_of_outside (h : t.region.overlaps b.desc.image = false)
    (hp : b.desc.image.contains p = true) : t.region.contains p = false := by
  rw [Region.overlaps_comm] at h
  exact Region.overlaps_eq_false_iff.1 h p hp

/-- Folding a tile displays its pixels in their new color. -/
theorem getD_display_absorb {encode : Vec4 → Rgba8} {g : Raster Rgba8} (h : b.Intact)
    (hp : b.desc.image.contains p = true) (he : Color.encoding? b.desc.format = some encode)
    (hg : (b.absorb t).1.display = some g) :
    ∃ g₀, b.display = some g₀ ∧ g.getD p default =
      if t.region.contains p = true then encode ((b.absorb t).1.pixels.getD p .blank).shown.color
      else g₀.getD p default := by
  rcases ho : t.region.overlaps b.desc.image with _ | _
  · have hout := contains_eq_false_of_outside ho hp
    rw [absorb_of_outside ho] at hg
    exact ⟨g, hg, by simp [hout]⟩
  · have hin : b.pixels.region.contains p = true := by rw [h.pixels]; exact hp
    rw [pixels_absorb h]
    rw [absorb_eq ho] at hg
    obtain ⟨g₀, hg₀, hget⟩ := getD_encodeTile he h.display hp hg
    have hleft : (b.life.pipeline.recolor
        ((b.pixels.foldTile (.dense b.desc) t).reflectTile (.dense b.desc) t)).region = t.region :=
      Pipeline.region_recolor ..
    refine ⟨g₀, hg₀, ?_⟩
    rw [hget, hleft]
    by_cases hcontains : t.region.contains p = true
    · rw [if_pos hcontains, if_pos hcontains, Store.color_left hin hcontains]
    · rw [if_neg hcontains, if_neg hcontains]

/-- Folding a tile puts its pixels on display, and leaves the others there. -/
theorem displays_absorb (h : b.Intact) (hp : b.desc.image.contains p = true)
    (hold : t.region.contains p = true ∨ b.Displays p) : (b.absorb t).1.Displays p := by
  intro encode g he hg
  have hdesc : (b.absorb t).1.desc = b.desc := congrArg Lifecycle.desc (h.absorb t).2
  rw [hdesc] at he
  obtain ⟨g₀, hg₀, hget⟩ := getD_display_absorb h hp he hg
  rw [hget]
  by_cases hcontains : t.region.contains p = true
  · rw [if_pos hcontains]
  · have hin : b.pixels.region.contains p = true := by rw [h.pixels]; exact hp
    rw [if_neg hcontains, pixels_absorb h, Store.getD_receive hin, if_neg hcontains]
    exact hold.resolve_left hcontains encode g₀ he hg₀

/-- Folding a batch leaves the pixels of other tasks as they are displayed. -/
theorem DisplaysAs.accumulateAll {color : Vec4} (h : b.Intact) (hids : ∀ i ∈ ids, i < (gridOf b.desc).area)
    (htile : ∀ i ∈ ids, (tile i).region = taskRegionOf b.desc i) (hp : b.desc.image.contains p = true)
    (hother : taskAt b.desc p ∉ ids) (hold : b.DisplaysAs p color) :
    (b.accumulateAll (ids.map tile)).DisplaysAs p color := by
  obtain ⟨order, n, hperm, heq⟩ := accumulateAll_eq h.valid hids htile
  rw [heq]
  let I : DenseBuffer → Prop := fun c => c.Intact ∧ c.life = b.life ∧ c.DisplaysAs p color
  refine (Writes.inv_foldl (I := I) ⟨h, rfl, hold⟩ ?_).2.2
  rintro c i hi ⟨hc, hl, hold⟩
  have hi := hperm.mem_iff.1 hi
  have hd : c.desc = b.desc := congrArg Lifecycle.desc hl
  have hlife := (hc.absorb (tile i)).2
  refine ⟨(hc.absorb _).1, hlife.trans hl, fun encode g he hg => ?_⟩
  have hout : ¬ (tile i).region.contains p = true := by
    rw [htile i hi]
    intro hin
    exact hother ((contains_taskRegionOf_iff h.valid hp).1 hin ▸ hi)
  have he : Color.encoding? c.desc.format = some encode := by rw [← he, desc, desc, hlife]
  obtain ⟨g₀, hg₀, hget⟩ := getD_display_absorb hc (hd ▸ hp) he hg
  rw [hget, if_neg hout]
  exact hold encode g₀ he hg₀

/-- Folding a batch puts the pixels of its tasks on display. -/
theorem displays_accumulateAll (h : b.Intact) (hids : ∀ i ∈ ids, i < (gridOf b.desc).area)
    (htile : ∀ i ∈ ids, (tile i).region = taskRegionOf b.desc i) (hp : b.desc.image.contains p = true)
    (hold : taskAt b.desc p ∈ ids ∨ b.Displays p) : (b.accumulateAll (ids.map tile)).Displays p := by
  obtain ⟨order, n, hperm, heq⟩ := accumulateAll_eq h.valid hids htile
  let I : DenseBuffer → Prop := fun c => c.Intact ∧ c.life = b.life
  have hinv : ∀ c, ∀ i ∈ order, I c → I (c.absorb (tile i)).1 := by
    rintro c i - ⟨hc, hl⟩
    exact ⟨(hc.absorb _).1, (hc.absorb _).2.trans hl⟩
  have hstep : ∀ c, ∀ i ∈ order, I c → (taskAt b.desc p = i ∨ c.Displays p) → (c.absorb (tile i)).1.Displays p := by
    rintro c i hi ⟨hc, hl⟩ hor
    have hi := hperm.mem_iff.1 hi
    have hd : c.desc = b.desc := congrArg Lifecycle.desc hl
    refine displays_absorb hc (hd ▸ hp) (hor.imp_left fun htask => ?_)
    rw [htile i hi]
    exact (contains_taskRegionOf_iff h.valid hp).2 htask
  have hfold : (order.foldl (fun b i => (b.absorb (tile i)).1) b).Displays p := by
    rcases hold with hmem | hold
    · exact Writes.holds_foldl_of_hit (I := I) (P := fun c => c.Displays p) ⟨h, rfl⟩ hinv
        (fun c i hi hc hP => hstep c i hi hc (.inr hP))
        ⟨_, hperm.mem_iff.2 hmem, fun c hc => hstep c _ (hperm.mem_iff.2 hmem) hc (.inl rfl)⟩
    · refine (Writes.inv_foldl (I := fun c => I c ∧ c.Displays p) ⟨⟨h, rfl⟩, hold⟩ ?_).2
      exact fun c i hi hc => ⟨hinv c i hi hc.1, hstep c i hi hc.1 (.inr hc.2)⟩
  rw [heq]
  exact hfold

end AdaptiveFrame.DenseBuffer
