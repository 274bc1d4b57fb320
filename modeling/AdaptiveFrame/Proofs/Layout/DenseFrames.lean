import AdaptiveFrame.Proofs.Filter.Collecting
import AdaptiveFrame.Proofs.Layout.DenseFolding
import AdaptiveFrame.Proofs.Layout.Filters
import AdaptiveFrame.Proofs.Layout.SparseTasks
import AdaptiveFrame.Proofs.Render.DenseFrame

/-!
# Dense frames in memory

Every operation on the layout of a dense buffer but taking over a sparse one: it succeeds, and leaves the layout of
what the operation leaves of the buffer. A channel of the layout is the channel of the buffer.
-/

namespace AdaptiveFrame

namespace DenseBuffer

variable {d : BufferDesc} {b : DenseBuffer}

/-! ## New buffers -/

theorem gridOf_pos (hd : d.Valid) : 0 < (gridOf d).x := by
  rw [gridOf, Point.ceilDiv_x, lt_ceilDiv_iff hd.task_x_pos, Nat.zero_mul]
  exact hd.size_x

theorem order?_eq (hd : d.Valid) : DenseLayout.order? d (gridOf d) = some (taskOrderOf d) := by
  have hkeyed : (List.range (gridOf d).area).mapM (fun id => do
      return (id, (← Point.ofRowMajor? (gridOf d).x id) * d.taskSize)) =
      some ((List.range (gridOf d).area).map fun id => (id, (taskRegionOf d id).lower)) := by
    refine mapM_eq_some fun id _ => ?_
    rw [Point.ofRowMajor?_eq id (gridOf_pos hd)]
    rfl
  unfold DenseLayout.order?
  rw [hkeyed]
  exact congrArg some (ZOrder.sortBy_map (fun _ => rfl) _ _)

/-- A new layout is the layout of a new buffer, and a description that is refused for one is refused for the other. -/
theorem create?_eq (d : BufferDesc) : DenseLayout.create? d = (create d).map fun b => some b.layout := by
  unfold DenseLayout.create? create
  cases hlife : Lifecycle.create d with
  | error e => rfl
  | ok life =>
    obtain ⟨hd, rfl⟩ := Lifecycle.desc_of_create hlife
    have hgrid : life.desc.size.ceilDiv? life.desc.taskSize = some (gridOf life.desc) :=
      Point.ceilDiv?_eq _ hd.task_x_pos hd.task_y_pos
    have horder := order?_eq hd
    have hdisplay : Raster.cellsOf (if life.desc.hasEncodedColor then some (.fill life.desc.image ⟨0, 0, 0, 0⟩) else none) =
        if life.desc.hasEncodedColor then Array.replicate life.desc.size.area (⟨0, 0, 0, 0⟩ : Rgba8) else #[] := by
      split <;> rfl
    show Except.ok _ = Except.ok (some (layout _))
    unfold layout
    simp only [hgrid, horder, hdisplay, Means.ofStore, Guides.ofStore, Raster.plane_fill, desc, Option.bind_eq_bind,
      Option.bind_some]
    rfl

/-! ## Tasks -/

theorem schedule?_eq (b : DenseBuffer) (threshold : Float32) (samplesPerPixel : Nat) :
    b.layout.schedule? threshold samplesPerPixel = some (b.schedule threshold samplesPerPixel) := scheduled?_eq ..

/-! ## Writing tiles -/

theorem finds_image (d : BufferDesc) : (DenseLayout.imageView d).Finds d.image d.image := View.finds_whole d.size

/-- A tile beside the image changes nothing. -/
theorem writeTile_of_outside (h : b.Intact) {t : Tile} (hempty : (t.region.intersect b.desc.image).isEmpty = true) :
    b.writeTile t = b := by
  obtain ⟨life, pixels, display, output, tracker, accumIds⟩ := b
  have hpixels : pixels.region = life.desc.image := h.pixels
  have harea : (t.region.intersect life.desc.image).area = 0 := beq_iff_eq.1 hempty
  have hnone : ∀ {α : Type} {g : Raster α} (f : Point → α → α), g.region = life.desc.image →
      g.modifyOn t.region f = g := by
    intro α g f hg
    rw [Raster.modifyOn_eq_foldl, hg, List.eq_nil_of_length_eq_zero ((Region.length_points _).trans harea)]
    rfl
  have hdisplay : encodeTile life.desc.format t display = display := by
    unfold encodeTile
    split
    · rename_i shown _
      exact congrArg some (hnone _ (h.display shown rfl))
    · rfl
  simp only [writeTile, hnone _ hpixels, hdisplay, harea, life.addRendered_zero]

theorem copyColors?_eq {v : View} {part : Region} {g : Store} {t : Tile} (keep : Bool) (hf : v.Finds g.region part)
    (hpart : part = t.region.intersect g.region) :
    DenseLayout.copyColors? v part t (g.plane keep (·.shown.color)) = some ((g.copyTile t).plane keep (·.shown.color)) := by
  rw [Store.copyTile, Raster.modifyOn_eq_foldl, ← hpart]
  refine foldlM_eq_some (R := fun h : Store => h.plane keep (·.shown.color)) (I := fun h : Store => h.region = g.region)
    rfl fun h p hp hh => ⟨?_, hh⟩
  have hp := Region.mem_points.1 hp
  have ht : t.region.contains p = true := (Region.contains_intersect_iff.1 (hpart ▸ hp)).1
  rw [Tile.sample?_eq ht]
  exact Raster.modifyKept?_plane (g := h) (by rwa [hh]) hp fun _ _ => rfl

theorem writeTile?_eq (h : b.Intact) (t : Tile) : b.layout.writeTile? t = some (b.writeTile t).layout := by
  cases hempty : (t.region.intersect b.desc.image).isEmpty with
  | true =>
    rw [writeTile_of_outside h hempty, DenseLayout.writeTile?]
    exact if_pos hempty
  | false =>
    obtain ⟨life, pixels, display, output, tracker, accumIds⟩ := b
    have hg : pixels.region = life.desc.image := h.pixels
    have hempty : (t.region.intersect life.desc.image).isEmpty = false := hempty
    have hpos := Region.isEmpty_eq_false.1 hempty
    have hpart : t.region.intersect life.desc.image = t.region.intersect pixels.region := by rw [hg]
    have hin : ∀ p, (t.region.intersect life.desc.image).contains p = true → life.desc.image.contains p = true :=
      fun p hp => (Region.contains_intersect_iff.1 hp).2
    have hfind : (DenseLayout.imageView life.desc).Finds pixels.region (t.region.intersect life.desc.image) := by
      rw [hg]
      exact fun p hp => finds_image life.desc p (hin p hp)
    have ht : ∀ p ∈ (t.region.intersect life.desc.image).points, t.region.contains p = true :=
      fun p hp => (Region.contains_intersect_iff.1 (Region.mem_points.1 hp)).1
    have hcolor := copyColors?_eq life.desc.hasColor hfind hpart
    have hguides := Guides.overwriteTile?_eq (d := life.desc) hfind hpart
    have hshow : ∀ p, (t.region.intersect life.desc.image).contains p = true →
        ((pixels.copyTile t).getD p .blank).shown.color = (t.sampleAt p).color := by
      intro p hp
      obtain ⟨ht, himage⟩ := Region.contains_intersect_iff.1 hp
      rw [Store.copyTile, Raster.getD_modifyOn (hg ▸ himage), if_pos ht]
    have hcopied : (pixels.copyTile t).region = life.desc.image := hg
    have hencode := encodeRows?_eq_encodeTile life.desc.format ((Cut.reaches_whole life.desc.size).mono hin)
      hcopied rfl hpos h.display (hasColor_of_display h) hshow
    have hwrite : writeTile ⟨life, pixels, display, output, tracker, accumIds⟩ t =
        ⟨life.addRendered (t.region.intersect life.desc.image).area, pixels.copyTile t,
          encodeTile life.desc.format t display, output, tracker, accumIds⟩ := rfl
    have hmeans : Means.ofStore (life.addRendered (t.region.intersect life.desc.image).area).desc (pixels.copyTile t) =
        Means.ofStore life.desc pixels := Means.ofStore_copyTile life.desc pixels t
    rw [hwrite]
    simp only [DenseLayout.writeTile?, layout, DenseLayout.desc, desc, hempty, Bool.false_eq_true, if_false,
      hcolor, hguides, hmeans, Option.bind_eq_bind, Option.bind_some]
    exact congrArg (Option.bind · _) hencode

theorem writeTiles?_eq (h : b.Intact) (tiles : List Tile) : b.layout.writeTiles? tiles = some (b.writeTiles tiles).layout :=
  foldlM_eq_some (R := layout) (I := Intact) h fun _ t _ hc => ⟨writeTile?_eq hc t, hc.writeTile t⟩

/-! ## Frames -/

/-- Frame operations are accepted only where there is a color to work on. -/
theorem hasColor_of_collect {i : Nat} {seen : Bool} {ops : List ImageOp} {pl : Pipeline}
    (h : Pipeline.collect d true i seen ops = .ok pl) (hf : pl.hasFrameOps = true) : d.hasColor = true := by
  induction ops generalizing i seen pl with
  | nil =>
    cases h
    cases hf
  | cons op ops ih =>
    cases op with
    | pixel p =>
      obtain ⟨-, -, rest, hrest, rfl⟩ := Pipeline.collect_pixel h
      exact ih hrest hf
    | frame f =>
      unfold Pipeline.collect at h
      cases hm : (ImageOp.frame f).missing? d with
      | some c =>
        simp only [hm] at h
        cases h
      | none =>
        -- Every operation reads the color.
        have hreads : Channel.color ∈ (ImageOp.frame f).requires := by cases f <;> simp [ImageOp.requires]
        simpa [ImageOp.serves] using List.find?_eq_none.1 hm _ hreads

theorem isEmpty_color (h : b.Intact) : b.layout.color.isEmpty = !b.desc.hasColor :=
  Raster.isEmpty_plane (h.valid.raster_pos h.pixels) ..

/-- The output has a value for every pixel, or there is none. -/
theorem size_output (h : b.Intact) :
    b.layout.output.size = if b.output.isSome then b.desc.size.area else 0 := by
  show (Raster.cellsOf b.output).size = _
  cases ho : b.output with
  | none => rfl
  | some output => exact Raster.size_image (h.output output ho)

theorem layout_commit (h : b.Intact) : b.layout.commit = b.commit.map layout := by
  unfold DenseLayout.commit commit
  show (b.life.commit true >>= _) = _
  unfold Lifecycle.commit Pipeline.build
  cases hb : Pipeline.collect b.life.desc true 0 false b.life.imageOps with
  | error e => rfl
  | ok pl =>
    have houtput : (if pl.hasFrameOps then
        (if b.layout.output.size != b.layout.color.size then b.layout.color else b.layout.output) else #[]) =
        Raster.cellsOf (if pl.hasFrameOps then some (b.output.getD b.color) else none) := by
      cases hf : pl.hasFrameOps with
      | false => rfl
      | true =>
        have hkept : b.desc.hasColor = true := hasColor_of_collect hb hf
        have hcolor : b.layout.color = b.color.cells := if_pos hkept
        have hsize : b.color.cells.size = b.desc.size.area := Raster.size_image h.pixels
        have hpos := h.valid.area_pos
        rw [if_pos rfl, if_pos rfl, size_output h, hcolor, hsize]
        cases ho : b.output with
        | none => exact if_pos (bne_iff_ne.2 (Nat.ne_of_lt hpos))
        | some output =>
          rw [Option.isSome_some, if_pos rfl, bne_self_eq_false]
          exact congrArg Raster.cellsOf ho
    exact congrArg (fun output => Except.ok { b.layout with life := { b.life with pipeline := pl }, output }) houtput

theorem layout_beginFrame (b : DenseBuffer) : b.layout.beginFrame = b.beginFrame.layout := rfl

theorem layout_clear (b : DenseBuffer) : b.layout.clear = b.clear.layout := rfl

/-- The arrays that frame operations work on are those of the image. -/
theorem looseFrame_eq (h : b.Intact) (hcolor : b.desc.hasColor = true) :
    b.layout.looseFrame = b.frameImage.loose b.desc.size := by
  have hpos := h.valid.raster_pos h.pixels
  have hlent : ∀ {α : Type} (keep : Bool) (read : Sample → α),
      (if (b.pixels.plane keep fun px => read px.shown).isEmpty then none
        else some (b.pixels.plane keep fun px => read px.shown)) =
      (if keep then some (b.pixels.map fun px => read px.shown) else none).map Raster.cells := by
    intro α keep read
    rw [Raster.isEmpty_plane hpos]
    cases keep <;> rfl
  have hkept : b.pixels.plane b.desc.hasColor (·.shown.color) = b.color.cells := if_pos hcolor
  unfold DenseLayout.looseFrame FrameImage.loose frameImage
  simp only [layout, Guides.ofStore, hlent, hkept]
  rfl

theorem covers_frameImage (h : b.Intact) : b.frameImage.Covers b.desc.size := by
  have hguide : ∀ {α : Type} {c : Channel} {read : Sample → α} (g : Raster α),
      (if b.desc.has c then some (b.pixels.map fun px => read px.shown) else none) = some g →
        g.region = .ofSize b.desc.size := by
    intro α c read g hg
    obtain ⟨-, heq⟩ := Option.ite_none_right_eq_some.1 hg
    cases heq
    exact h.pixels
  exact ⟨h.pixels, hguide, hguide, hguide⟩

theorem finish?_eq (h : b.Intact) : b.layout.finish? = some (Raster.cellsOf b.finalOutput) := by
  unfold DenseLayout.finish? finalOutput
  rw [isEmpty_color h, Bool.not_not]
  show (if b.life.pipeline.hasFrameOps && b.desc.hasColor then _ else _) = _
  split
  · rename_i hf
    rw [looseFrame_eq h (Bool.and_eq_true_iff.1 hf).2]
    exact FrameImage.processAll?_eq (covers_frameImage h) h.valid.size_x h.valid.size_y b.life.pipeline
  · rfl

theorem endFrame?_eq (h : b.Intact) (threshold : Float32) :
    b.layout.endFrame? threshold = some (b.endFrame threshold).layout := by
  have hrefine : b.layout.tracker.refine? threshold = some (b.tracker.refine threshold) :=
    ErrorTracker.refine?_eq h.boxes threshold
  unfold DenseLayout.endFrame?
  rw [endFrame_eq, finish?_eq h, hrefine]
  unfold finalVariance
  show (if b.tracker.isEnabled then _ else _) = _
  cases he : b.tracker.isEnabled with
  | true => rfl
  | false =>
    have htracker : (b.tracker.refine threshold).1 = b.tracker := by
      rw [ErrorTracker.refine, he]
      rfl
    rw [htracker]
    rfl

/-- Painting all pixels of an image encodes the color as a whole. -/
theorem paint_image {size : Point} {format : ColorFormat} {color : Raster Vec4} {shown : Raster Rgba8}
    (hx : 0 < size.x) (hy : 0 < size.y) (hc : color.region = .ofSize size) (hs : shown.region = .ofSize size) :
    some (paint format color (Region.ofSize size).points shown) =
      withOutput (Color.encoding? format) (some color) (some shown) := by
  unfold paint withOutput
  cases Color.encoding? format with
  | none => rfl
  | some encode =>
    have hmodify := Raster.modifyOn_eq_foldl shown (.ofSize size) fun p _ => encode (color.getD p .zero)
    rw [hs, Region.intersect_self (Region.area_pos_iff.2 ⟨hx, hy⟩)] at hmodify
    refine congrArg some (hmodify.symm.trans (Raster.ext_getD (encode .zero) (hs.trans hc.symm) fun p hp => ?_))
    have hp : shown.region.contains p = true := hp
    have hp' : (Region.ofSize size).contains p = true := hs ▸ hp
    rw [Raster.getD_modifyOn hp, if_pos hp', Raster.getD_map (hc ▸ hp') _ .zero]

/-- Two arrays of an image are cut into the same rows, and those are encoded one after another. -/
theorem encodeImage?_eq {size : Point} (format : ColorFormat) {color : Raster Vec4} {shown : Raster Rgba8}
    (hc : color.region = .ofSize size) (hs : shown.region = .ofSize size) :
    (((List.range size.y).map fun y => (⟨y * size.x, size.x⟩ : Span)).zip
        ((List.range size.y).map fun y => ⟨y * size.x, size.x⟩)).foldlM (fun shown (target, source) =>
      encodeSpan? format color.cells source target shown) shown.cells =
      some (paint format color (Region.ofSize size).points shown).cells := by
  have hpoints : (Region.ofSize size).points =
      (List.range size.y).flatMap fun y => (List.range' 0 size.x).map fun x => ⟨x, y⟩ := by
    rw [List.range_eq_range']
    rfl
  rw [List.zip_map', List.foldlM_map, hpoints, ← foldl_paint]
  exact foldlM_eq_some (R := Raster.cells) (I := fun s : Raster Rgba8 => s.region = .ofSize size) hs
    fun s y hy hs => ⟨encodeSpan?_eq hc hs (Nat.zero_add _).le (List.mem_range.1 hy), (region_paint _).trans hs⟩

/-- Without frame operations, without a display or without an output there is nothing to encode. -/
theorem postProcess?_of_idle (hidle : b.life.pipeline.hasFrameOps = false ∨ b.display = none ∨ b.output = none) :
    b.layout.postProcess? = some b.postProcess.layout := by
  have hsame : b.finalDisplay b.output = b.display := by
    unfold finalDisplay withOutput
    rcases hidle with hf | hd | ho
    · rw [hf]
      rfl
    · rw [hd]
      cases Color.encoding? b.desc.format <;> exact ite_self _
    · rw [ho]
      cases Color.encoding? b.desc.format <;> cases b.display <;> exact ite_self _
  have hnothing : (!b.layout.life.pipeline.hasFrameOps || b.layout.display.isEmpty || b.layout.output.isEmpty) = true := by
    rcases hidle with hf | hd | ho
    · have hf : b.layout.life.pipeline.hasFrameOps = false := hf
      rw [hf]
      rfl
    · have hd : b.layout.display = #[] := congrArg Raster.cellsOf hd
      rw [hd, Array.isEmpty_empty, Bool.or_true, Bool.true_or]
    · have ho : b.layout.output = #[] := congrArg Raster.cellsOf ho
      rw [ho, Array.isEmpty_empty, Bool.or_true]
  rw [DenseLayout.postProcess?, if_pos hnothing, postProcess_eq, hsame]

theorem postProcess?_eq (h : b.Intact) : b.layout.postProcess? = some b.postProcess.layout := by
  cases hf : b.life.pipeline.hasFrameOps with
  | false => exact postProcess?_of_idle (.inl hf)
  | true =>
    cases hdisplay : b.display with
    | none => exact postProcess?_of_idle (.inr (.inl hdisplay))
    | some shown =>
      cases houtput : b.output with
      | none => exact postProcess?_of_idle (.inr (.inr houtput))
      | some output =>
        have hs : shown.region = .ofSize b.desc.size := h.display shown hdisplay
        have ho : output.region = .ofSize b.desc.size := h.output output houtput
        have hpos := h.valid.area_pos
        have hsize : shown.cells.size = b.desc.size.area := Raster.size_image hs
        have hsize' : output.cells.size = b.desc.size.area := Raster.size_image ho
        have hempty : shown.cells.isEmpty = false := decide_eq_false (by omega)
        have hempty' : output.cells.isEmpty = false := decide_eq_false (by omega)
        have hchunks := Span.chunks?_image b.desc.size h.valid.size_x
        have hfinal : b.finalDisplay b.output =
            some (paint b.desc.format output (Region.ofSize b.desc.size).points shown) := by
          rw [paint_image h.valid.size_x h.valid.size_y ho hs, finalDisplay, hf, hdisplay, houtput]
          rfl
        have hrows := encodeImage?_eq b.desc.format ho hs
        have hlayout : b.layout.display = shown.cells := congrArg Raster.cellsOf hdisplay
        have hlayout' : b.layout.output = output.cells := congrArg Raster.cellsOf houtput
        have hf : b.layout.life.pipeline.hasFrameOps = true := hf
        have hdesc : b.layout.desc = b.desc := rfl
        rw [postProcess_eq, hfinal]
        simp only [DenseLayout.postProcess?, hlayout, hlayout', hf, hdesc, hempty, hempty', hsize, hsize', hchunks,
          Option.bind_eq_bind, Option.bind_some, Bool.not_true, Bool.or_self, Bool.false_eq_true, if_false]
        refine (congrArg (Option.bind · _) hrows).trans ?_
        rw [Option.bind_some, ← hlayout']
        rfl

/-! ## Reading channels -/

/-- The color that is shown comes from the array of the output, or from that of the color. -/
theorem shownColor_eq (h : b.Intact) (hcolor : b.desc.hasColor = true) :
    b.layout.shownColor = b.shownColor.cells := by
  have hkept : b.layout.color = b.color.cells := if_pos hcolor
  have hpos := h.valid.area_pos
  unfold DenseLayout.shownColor shownColor
  show (if b.life.pipeline.hasFrameOps && !b.layout.output.isEmpty then _ else _) = _
  cases b.life.pipeline.hasFrameOps with
  | false => exact hkept
  | true =>
    cases ho : b.output with
    | none =>
      have hnone : b.layout.output = #[] := congrArg Raster.cellsOf ho
      rw [hnone]
      exact hkept
    | some output =>
      have hsome : b.layout.output = output.cells := congrArg Raster.cellsOf ho
      have hsize : output.cells.size = b.desc.size.area := Raster.size_image (h.output output ho)
      have hempty : output.cells.isEmpty = false := decide_eq_false (by omega)
      rw [hsome, hempty]
      rfl

/-- A channel of the layout is a channel of the buffer. -/
theorem channel?_eq (h : b.Intact) (c : Channel) : b.layout.channel? c = b.channel? c := by
  have hpos := h.valid.raster_pos h.pixels
  have hkept : ∀ {α : Type} (keep : Bool) (read : Pixel → α) (data : Array α → ChannelData),
      (if (b.pixels.plane keep read).isEmpty then none else some (data (b.pixels.plane keep read))) =
        if keep then some (data (b.pixels.cells.map read)) else none := by
    intro α keep read data
    rw [Raster.isEmpty_plane hpos]
    cases keep <;> rfl
  cases c with
  | color =>
    have hasked : b.layout.desc.format = b.desc.format := rfl
    have hlayout : b.layout.display = Raster.cellsOf b.display := rfl
    unfold DenseLayout.channel? channel?
    dsimp only
    rw [isEmpty_color h, hasked, hlayout]
    cases hcolor : b.desc.hasColor with
    | false => rfl
    | true =>
      have hdisplay := h.encoded
      rw [BufferDesc.hasEncodedColor, hcolor, Bool.true_and] at hdisplay
      rw [shownColor_eq h hcolor]
      cases hformat : b.desc.format with
      | none => simp [BufferDesc.hasColor, hformat] at hcolor
      | rgba8 | srgba =>
        rw [hformat] at hdisplay
        obtain ⟨shown, hshown⟩ := Option.isSome_iff_exists.1 hdisplay
        rw [hshown]
        rfl
      | rgba32f =>
        rw [hformat] at hdisplay
        rw [Option.not_isSome_iff_eq_none.1 (Bool.eq_false_iff.1 hdisplay)]
        rfl
  | depth => exact hkept _ _ .depth
  | accum => exact hkept _ _ .color
  | variance => exact hkept _ _ .color
  | normal => exact hkept _ _ .vectors
  | albedo => exact hkept _ _ .vectors
  | primitiveId => exact hkept _ _ .ids
  | objectId => exact hkept _ _ .ids
  | instanceId => exact hkept _ _ .ids

/-- A channel can be read if the buffer was asked for it, and then has a value for every pixel. -/
theorem size_channel? (h : b.Intact) (hformat : b.desc.has .color = true → b.desc.hasColor = true) (c : Channel) :
    (b.channel? c).map ChannelData.size = if b.desc.has c then some b.desc.size.area else none := by
  have hkept : ∀ {α : Type} (read : Pixel → α) (data : Array α → ChannelData), (∀ xs, (data xs).size = xs.size) →
      (if b.desc.has c then some (data (b.pixels.cells.map read)) else none).map ChannelData.size =
        if b.desc.has c then some b.desc.size.area else none := by
    intro α read data hdata
    cases b.desc.has c with
    | false => rfl
    | true => exact congrArg some ((hdata _).trans (Raster.size_image (g := b.pixels.map read) h.pixels))
  cases c with
  | color =>
    show (if b.desc.hasColor then _ else none : Option ChannelData).map _ = _
    cases hhas : b.desc.has .color with
    | false =>
      have hcolor : b.desc.hasColor = false := by rw [BufferDesc.hasColor, hhas, Bool.false_and]
      rw [hcolor]
      rfl
    | true =>
      rw [hformat hhas]
      refine congrArg some ?_
      cases hd : b.display with
      | some shown => exact Raster.size_image (h.display shown hd)
      | none =>
        have hshown : b.shownColor.region = b.desc.image := by
          unfold shownColor
          split
          · cases ho : b.output with
            | none => exact h.pixels
            | some output => exact h.output output ho
          · exact h.pixels
        exact Raster.size_image hshown
  | depth => exact hkept _ .depth fun _ => rfl
  | accum => exact hkept _ .color fun _ => rfl
  | variance => exact hkept _ .color fun _ => rfl
  | normal => exact hkept _ .vectors fun _ => rfl
  | albedo => exact hkept _ .vectors fun _ => rfl
  | primitiveId => exact hkept _ .ids fun _ => rfl
  | objectId => exact hkept _ .ids fun _ => rfl
  | instanceId => exact hkept _ .ids fun _ => rfl

end DenseBuffer

end AdaptiveFrame
