import AdaptiveFrame.Proofs.Accum.Paired
import AdaptiveFrame.Proofs.Accum.Visible
import AdaptiveFrame.Proofs.Buffer.Displaying
import AdaptiveFrame.Proofs.Render.DenseFrame

/-!
# Buffers that look alike

Two buffers show the same picture if they agree in all that is shown of their pixels; the frame operations then
make the same of both, and every channel but those of the means reads the same (`SamePicture`). They are alike
if they agree in all but the running means, which only one of them may keep itself (`Alike`). Closing a frame
reads no mean, so it leaves alike what was alike when the tiles were in.
-/

namespace AdaptiveFrame

/-- What is shown of two pixels agrees on every channel that was asked for. -/
theorem Pixel.sameOn_of_visible {d : BufferDesc} {px qx : Pixel} {ch : Channel} (hhas : d.has ch = true)
    (ha : ch ≠ .accum) (hv : ch ≠ .variance) (h : px.shown.visible d = qx.shown.visible d) : px.SameOn ch qx := by
  obtain ⟨hcolor, hids, hdepth, hnormal, halbedo⟩ := Sample.eq_of_visible h
  cases ch with
  | accum => exact absurd rfl ha
  | variance => exact absurd rfl hv
  | color => exact hcolor
  | depth => exact hdepth hhas
  | normal => exact hnormal hhas
  | albedo => exact halbedo hhas
  | primitiveId | objectId | instanceId => exact hids

namespace DenseBuffer

variable {b c : DenseBuffer}

/-- What is read off pixels that agree is the same. -/
theorem channel?_eq_of_sameOn (hb : b.Intact) (hc : c.Intact) (hd : c.desc = b.desc) {ch : Channel}
    (hch : ch ≠ .color) (h : b.desc.has ch = true → ∀ p, b.desc.image.contains p = true →
      (b.pixels.getD p .blank).SameOn ch (c.pixels.getD p .blank)) : c.channel? ch = b.channel? ch := by
  have hregion : c.pixels.region = b.pixels.region := by rw [hc.pixels, hb.pixels, hd]
  have hcells : ∀ {α : Type} (read : Pixel → α), (∀ p, b.desc.image.contains p = true →
      read (b.pixels.getD p .blank) = read (c.pixels.getD p .blank)) →
      c.pixels.cells.map read = b.pixels.cells.map read := by
    intro α read hread
    refine congrArg Raster.cells (Raster.ext_getD (g := c.pixels.map read) (h := b.pixels.map read)
      (read .blank) hregion fun p hp => ?_)
    have hp : c.pixels.region.contains p = true := hp
    have hp' : b.pixels.region.contains p = true := hregion ▸ hp
    rw [Raster.getD_map hp _ Pixel.blank, Raster.getD_map hp' _ Pixel.blank]
    exact (hread p (hb.pixels ▸ hp')).symm
  have hkept : ∀ {α : Type} (make : Array α → ChannelData) (read : Pixel → α), (b.desc.has ch = true →
      ∀ p, b.desc.image.contains p = true → read (b.pixels.getD p .blank) = read (c.pixels.getD p .blank)) →
      (if c.desc.has ch then some (make (c.pixels.cells.map read)) else none) =
        if b.desc.has ch then some (make (b.pixels.cells.map read)) else none := by
    intro α make read hread
    rw [hd]
    by_cases hhas : b.desc.has ch = true
    · rw [if_pos hhas, if_pos hhas, hcells read (hread hhas)]
    · rw [if_neg hhas, if_neg hhas]
  cases ch with
  | color => exact absurd rfl hch
  | accum => exact hkept .color Pixel.accum h
  | variance => exact hkept .color Pixel.oddMean h
  | depth => exact hkept .depth (fun px => px.shown.depth) h
  | normal => exact hkept .vectors (fun px => px.shown.normal) h
  | albedo => exact hkept .vectors (fun px => px.shown.albedo) h
  | primitiveId =>
    exact hkept .ids (fun px => px.shown.ids.primitiveId) fun hh p hp => congrArg Ids.primitiveId (h hh p hp)
  | objectId => exact hkept .ids (fun px => px.shown.ids.objectId) fun hh p hp => congrArg Ids.objectId (h hh p hp)
  | instanceId =>
    exact hkept .ids (fun px => px.shown.ids.instanceId) fun hh p hp => congrArg Ids.instanceId (h hh p hp)

/-! ## The same picture -/

/-- Two images of one description that look the same and are finished in the same way. -/
structure SamePicture (b c : DenseBuffer) : Prop where
  left : b.Intact
  right : c.Intact
  desc : c.desc = b.desc
  pipeline : c.life.pipeline = b.life.pipeline
  shown : ∀ p, b.desc.image.contains p = true →
    (c.pixels.getD p .blank).shown.visible b.desc = (b.pixels.getD p .blank).shown.visible b.desc

theorem Intact.display_eq_none (h : b.Intact) (he : b.desc.hasEncodedColor = false) : b.display = none := by
  rw [← Option.isNone_iff_eq_none, ← Option.not_isSome, h.encoded, he]
  rfl

theorem Intact.exists_display (h : b.Intact) (he : b.desc.hasEncodedColor = true) : ∃ g, b.display = some g := by
  rw [← Option.isSome_iff_exists, h.encoded, he]

theorem exists_encoding {d : BufferDesc} (he : d.hasEncodedColor = true) :
    d.hasColor = true ∧ ∃ encode, Color.encoding? d.format = some encode := by
  obtain ⟨hcolor, hformat⟩ := Bool.and_eq_true_iff.1 he
  refine ⟨hcolor, ?_⟩
  cases hf : d.format with
  | rgba8 => exact ⟨_, rfl⟩
  | srgba => exact ⟨_, rfl⟩
  | none =>
    rw [hf] at hformat
    cases hformat
  | rgba32f =>
    rw [hf] at hformat
    cases hformat

theorem withOutput_none (encode : Option (Vec4 → Rgba8)) (output : Option (Raster Vec4)) :
    withOutput encode output none = none := by
  cases encode <;> rfl

namespace SamePicture

/-- Whatever is read off the samples that are shown is the same. -/
theorem map_shown (h : SamePicture b c) {α : Type} (read : Sample → α)
    (hread : ∀ s s' : Sample, s.visible b.desc = s'.visible b.desc → read s = read s') :
    (c.pixels.map fun px => read px.shown) = b.pixels.map fun px => read px.shown := by
  have hregion : c.pixels.region = b.pixels.region := by rw [h.right.pixels, h.left.pixels, h.desc]
  refine Raster.ext_getD (read Sample.blank) hregion ?_
  intro p hp
  have hp : c.pixels.region.contains p = true := hp
  have hp' : b.pixels.region.contains p = true := hregion ▸ hp
  rw [Raster.getD_map hp _ Pixel.blank, Raster.getD_map hp' _ Pixel.blank]
  exact hread _ _ (h.shown p (by rw [← h.left.pixels]; exact hp'))

theorem color (h : SamePicture b c) : c.color = b.color :=
  h.map_shown Sample.color fun _ _ hv => (Sample.eq_of_visible hv).1

theorem frameImage (h : SamePicture b c) : c.frameImage = b.frameImage := by
  have hguide : ∀ {α : Type} (ch : Channel) (read : Sample → α), (b.desc.has ch = true → ∀ s s' : Sample,
      s.visible b.desc = s'.visible b.desc → read s = read s') →
      (if c.desc.has ch then some (c.pixels.map fun px => read px.shown) else none) =
        if b.desc.has ch then some (b.pixels.map fun px => read px.shown) else none := by
    intro α ch read hread
    rw [h.desc]
    by_cases hch : b.desc.has ch = true
    · rw [if_pos hch, if_pos hch, h.map_shown read (hread hch)]
    · rw [if_neg hch, if_neg hch]
  unfold DenseBuffer.frameImage
  dsimp only
  rw [h.color, hguide .depth Sample.depth fun hch _ _ hv => (Sample.eq_of_visible hv).2.2.1 hch,
    hguide .normal Sample.normal fun hch _ _ hv => (Sample.eq_of_visible hv).2.2.2.1 hch,
    hguide .albedo Sample.albedo fun hch _ _ hv => (Sample.eq_of_visible hv).2.2.2.2 hch]

/-- The frame operations make the same of both. -/
theorem finalOutput (h : SamePicture b c)
    (houtput : (b.life.pipeline.hasFrameOps && b.desc.hasColor) = false → c.output = b.output) :
    c.finalOutput = b.finalOutput := by
  unfold DenseBuffer.finalOutput
  rw [h.pipeline, h.desc, h.frameImage]
  cases hf : b.life.pipeline.hasFrameOps && b.desc.hasColor with
  | false => exact houtput hf
  | true => rfl

/-- Where frame operations decide what is displayed, closing the frame makes the displays equal. -/
theorem finalDisplay (h : SamePicture b c) (hd : b.life.pipeline.hasFrameOps = false → c.display = b.display) :
    c.finalDisplay c.finalOutput = b.finalDisplay b.finalOutput := by
  unfold DenseBuffer.finalDisplay
  rw [h.pipeline, h.desc]
  cases hf : b.life.pipeline.hasFrameOps with
  | false => exact hd hf
  | true =>
    rw [if_pos rfl, if_pos rfl]
    cases he : b.desc.hasEncodedColor with
    | false =>
      rw [h.left.display_eq_none he, h.right.display_eq_none (by rw [h.desc]; exact he), withOutput_none,
        withOutput_none]
    | true =>
      obtain ⟨hcolor, encode, hencode⟩ := exists_encoding he
      obtain ⟨g, hg⟩ := h.left.exists_display he
      obtain ⟨g', hg'⟩ := h.right.exists_display (by rw [h.desc]; exact he)
      have houtput : b.finalOutput = some (b.life.pipeline.finish b.frameImage) := by
        unfold DenseBuffer.finalOutput
        rw [hf, hcolor]
        rfl
      rw [h.finalOutput (by rw [hf, hcolor]; exact fun hne => absurd hne (by decide)), hencode, hg, hg', houtput]
      rfl

/-- Where both sides display what they show, the displays are equal. -/
theorem display_eq (h : SamePicture b c) (hb : ∀ p, b.desc.image.contains p = true → b.Displays p)
    (hc : ∀ p, b.desc.image.contains p = true → c.Displays p) : c.display = b.display := by
  cases he : b.desc.hasEncodedColor with
  | false => rw [h.left.display_eq_none he, h.right.display_eq_none (by rw [h.desc]; exact he)]
  | true =>
    obtain ⟨-, encode, hencode⟩ := exists_encoding he
    obtain ⟨g, hg⟩ := h.left.exists_display he
    obtain ⟨g', hg'⟩ := h.right.exists_display (by rw [h.desc]; exact he)
    have hregion : g'.region = g.region := by rw [h.right.display g' hg', h.left.display g hg, h.desc]
    have hcells : g' = g := Raster.ext_getD default hregion fun p hp => by
      rw [h.right.display g' hg', h.desc] at hp
      rw [hb p hp encode g hencode hg, hc p hp encode g' (by rw [h.desc]; exact hencode) hg',
        (Sample.eq_of_visible (h.shown p hp)).1]
    rw [hg, hg', hcells]

/-- Every channel but those of the running means reads the same. -/
theorem channel? (h : SamePicture b c) (hdisplay : c.display = b.display)
    (houtput : (b.life.pipeline.hasFrameOps && b.desc.hasColor) = true → c.output = b.output) {ch : Channel}
    (ha : ch ≠ .accum) (hv : ch ≠ .variance) : c.channel? ch = b.channel? ch := by
  by_cases hch : ch = .color
  · subst hch
    unfold DenseBuffer.channel?
    dsimp only
    rw [h.desc, hdisplay]
    by_cases hcolor : b.desc.hasColor = true
    · have hshown : c.shownColor = b.shownColor := by
        unfold shownColor
        rw [h.pipeline, h.color]
        cases hf : b.life.pipeline.hasFrameOps with
        | false => rfl
        | true => rw [houtput (by rw [hf, hcolor]; rfl)]
      rw [hshown]
    · rw [if_neg hcolor, if_neg hcolor]
  · exact channel?_eq_of_sameOn h.left h.right h.desc hch fun hhas p hp =>
      Pixel.sameOn_of_visible hhas ha hv (h.shown p hp).symm

/-- After a frame the picture decides every channel but those of the running means. -/
theorem channel?_of_finished (h : SamePicture b c) (hb : b.Finished) (hc : c.Finished)
    (hdisplays : b.life.pipeline.hasFrameOps = false → ∀ p, b.desc.image.contains p = true →
      b.Displays p ∧ c.Displays p) {ch : Channel} (ha : ch ≠ .accum) (hv : ch ≠ .variance) :
    c.channel? ch = b.channel? ch := by
  have houtput : (b.life.pipeline.hasFrameOps && b.desc.hasColor) = true → c.output = b.output := by
    intro hf
    rw [← hc.output, ← hb.output]
    exact h.finalOutput fun hne => absurd (hf.symm.trans hne) (by decide)
  have hdisplay : c.display = b.display := by
    cases hf : b.life.pipeline.hasFrameOps with
    | false => exact h.display_eq (fun p hp => (hdisplays hf p hp).1) fun p hp => (hdisplays hf p hp).2
    | true =>
      have hfinal := h.finalDisplay fun hne => absurd (hf.symm.trans hne) (by decide)
      rwa [hc.output, hc.display, hb.output, hb.display] at hfinal
  exact h.channel? hdisplay houtput ha hv

end SamePicture

/-! ## All but the means -/

/-- What has to agree when the tiles of a frame are in. -/
structure SameImage (b c : DenseBuffer) : Prop where
  left : b.Intact
  right : c.Intact
  life : ∃ status, c.life = { b.life with status }
  tracker : c.tracker = b.tracker
  accumIds : c.accumIds = b.accumIds
  shown : ∀ p, b.desc.image.contains p = true →
    (c.pixels.getD p .blank).shown.visible b.desc = (b.pixels.getD p .blank).shown.visible b.desc
  output : c.output = b.output

/-- What agrees between two frames. -/
structure Alike (b c : DenseBuffer) : Prop extends SameImage b c where
  display : c.display = b.display

namespace SameImage

theorem desc (h : SameImage b c) : c.desc = b.desc := by
  obtain ⟨status, hl⟩ := h.life
  rw [DenseBuffer.desc, hl]
  rfl

theorem pipeline (h : SameImage b c) : c.life.pipeline = b.life.pipeline := by
  obtain ⟨status, hl⟩ := h.life
  rw [hl]

theorem picture (h : SameImage b c) : SamePicture b c := ⟨h.left, h.right, h.desc, h.pipeline, h.shown⟩

/-- Closing a frame on both sides leaves the buffers alike. -/
theorem close (h : SameImage b c) (hd : b.life.pipeline.hasFrameOps = false → c.display = b.display)
    (threshold : Float32) :
    let closed : DenseBuffer → DenseBuffer := fun x =>
      FrameBuffer.complete ((FrameBuffer.complete x .worldRendered).endFrame threshold).postProcess .frameFinished
    Alike (closed b) (closed c) := by
  intro closed
  have hintact : ∀ x : DenseBuffer, x.Intact → (closed x).Intact := fun x hx => by
    have hworld : Intact (FrameBuffer.complete x .worldRendered) := hx.setLife rfl
    exact (hworld.endFrame threshold).postProcess.setLife rfl
  have hclosed : ∀ x, closed x = _ := fun x => close_eq x threshold
  obtain ⟨status, hl⟩ := h.life
  refine ⟨⟨hintact b h.left, hintact c h.right, ?_, ?_, ?_, ?_, ?_⟩, ?_⟩
  · rw [hclosed, hclosed]
    have hvariance : c.finalVariance threshold = b.finalVariance threshold := by
      unfold finalVariance
      rw [h.tracker, hl]
    refine ⟨(c.life.status.complete .worldRendered).complete .frameFinished, ?_⟩
    dsimp only
    rw [hvariance, hl]
  · rw [hclosed, hclosed]
    exact congrArg (fun t : ErrorTracker => (t.refine threshold).1) h.tracker
  · rw [hclosed, hclosed]
    exact h.accumIds
  · rw [hclosed, hclosed]
    exact h.shown
  · rw [hclosed, hclosed]
    exact h.picture.finalOutput fun _ => h.output
  · rw [hclosed, hclosed]
    exact h.picture.finalDisplay hd

end SameImage

/-- Every channel but those of the running means reads the same. -/
theorem Alike.channel? (h : Alike b c) {ch : Channel} (ha : ch ≠ .accum) (hv : ch ≠ .variance) :
    c.channel? ch = b.channel? ch :=
  h.toSameImage.picture.channel? h.display (fun _ => h.output) ha hv

end DenseBuffer

end AdaptiveFrame
