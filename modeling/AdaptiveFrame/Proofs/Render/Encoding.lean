import AdaptiveFrame.Proofs.Render.ComposedTiles
import AdaptiveFrame.Proofs.Render.ImageOps

/-!
# What an encoded image is made from

An image in eight bits per lane is encoded in two places: tiles as they are folded, and all of the image once
frame operations have worked on it. Nothing encodes it when frame operations are taken away, so wherever later
frames render nothing it keeps what these made last. `Ink` is what the image was made from, told along the run
of its twin in single precision, and `encoded_image_made_from` compares the two after every frame.
-/

namespace AdaptiveFrame

open FrameBuffer

/-! ## What is done to an image -/

namespace Frame

/-- Operations are attached and put to work, frames are rendered, and the image is cleared. -/
inductive Use where
  | attach (ops : List ImageOp)
  | commit
  | event (e : Event)

variable {β : Type} [FrameBuffer β] (render : PixelRenderer)

/-- A buffer after a use. Operations that are refused leave it as it is. -/
def use (b : β) : Use → β
  | .attach ops => setImageOps b ops
  | .commit => (FrameBuffer.commit b).toOption.getD b
  | .event e => handle render b e

/-- A buffer after a course of uses. -/
def useAll (uses : List Use) (b : β) : β := uses.foldl (use render) b

end Frame

open AdaptiveFrame.Frame

/-- What an encoded image was last made from: for every pixel a color, and whether frame operations made it. -/
structure Ink where
  color : Raster Vec4
  retouched : Point → Prop

namespace Ink

open DenseBuffer

variable (render : PixelRenderer)

/-- The zeros of a new image. -/
def blank (image : Region) : Ink := ⟨.fill image .zero, fun _ => False⟩

/-- A frame renews every pixel while frame operations are at work, and otherwise those of the tasks it renders. -/
def afterFrame (ink : Ink) (b : DenseBuffer) (shot : Shot) : Ink :=
  let finishes : Prop := b.life.pipeline.hasFrameOps = true
  let renders (p : Point) : Prop := taskAt b.desc p ∈ renderedIds shot b
  let shown := (after render b shot).shownColor
  { color := ink.color.mapPoints fun p old => if finishes ∨ renders p then shown.getD p .zero else old
    retouched := fun p => finishes ∨ ¬ renders p ∧ ink.retouched p }

/-- Only frames renew what is on display. -/
def afterUse (ink : Ink) (b : DenseBuffer) : Use → Ink
  | .event (.frame shot) => ink.afterFrame render b shot
  | .event .clear | .attach _ | .commit => ink

/-- The ink at the end of a course that starts with a buffer. -/
def along : List Use → DenseBuffer → Ink → Ink
  | [], _, ink => ink
  | u :: uses, b, ink => along uses (use render b u) (ink.afterUse render b u)

theorem along_append (uses uses' : List Use) (b : DenseBuffer) (ink : Ink) :
    along render (uses ++ uses') b ink = along render uses' (useAll render uses b) (along render uses b ink) := by
  induction uses generalizing b ink with
  | nil => rfl
  | cons u uses ih => exact ih ..

theorem getD_afterFrame {ink : Ink} {b : DenseBuffer} {p : Point} (shot : Shot)
    (hp : ink.color.region.contains p = true) : (ink.afterFrame render b shot).color.getD p .zero =
      if b.life.pipeline.hasFrameOps = true ∨ taskAt b.desc p ∈ renderedIds shot b then
        (after render b shot).shownColor.getD p .zero
      else ink.color.getD p .zero := Raster.getD_mapPoints hp ..

end Ink

namespace DenseBuffer

variable {b e f : DenseBuffer} {p : Point} {ink : Ink} (render : PixelRenderer)

/-! ## One frame -/

theorem getD_color (h : b.Intact) (hp : b.desc.image.contains p = true) :
    b.color.getD p .zero = (b.pixels.getD p .blank).shown.color :=
  Raster.getD_map (by rw [h.pixels]; exact hp) _ _ _

/-- Without frame operations the color of the pixels is what is shown. -/
theorem getD_shownColor (h : b.Intact) (hf : b.life.pipeline.hasFrameOps = false)
    (hp : b.desc.image.contains p = true) : b.shownColor.getD p .zero = (b.pixels.getD p .blank).shown.color := by
  rw [shownColor, if_neg (Bool.not_eq_true _ ▸ hf), getD_color h hp]

/-- With frame operations at work, a frame displays their output. -/
theorem displaysAs_output (shot : Shot) (h : b.Intact) (hcolor : b.desc.hasColor = true)
    (hf : b.life.pipeline.hasFrameOps = true) (hp : b.desc.image.contains p = true) :
    (after render b shot).DisplaysAs p ((after render b shot).shownColor.getD p .zero) := by
  intro encode g he hg
  have hfinished := after_finished render b shot
  have hpipeline : (after render b shot).life.pipeline.hasFrameOps = true := by
    rw [after_pipeline render shot h]
    exact hf
  have hd := after_desc render shot h
  obtain ⟨output, houtput⟩ : ∃ output, (after render b shot).output = some output := by
    rw [← hfinished.output, finalOutput, hpipeline, hd, hcolor]
    exact ⟨_, rfl⟩
  have hregion := (after_intact render shot h).output output houtput
  have hdisplay := hfinished.display
  rw [finalDisplay, hpipeline, if_pos rfl, he, houtput, hg] at hdisplay
  cases hdisplay
  rw [shownColor, hpipeline, if_pos rfl, houtput]
  exact Raster.getD_map (by rw [hregion, hd]; exact hp) _ _ _

/-- Putting operations to work changes neither what is stored nor what is on display. -/
theorem use_commit (b : DenseBuffer) : (use render b .commit).desc = b.desc ∧
    (use render b .commit).display = b.display ∧ (use render b .commit).pixels = b.pixels := by
  show (b.commit.toOption.getD b).desc = _ ∧ (b.commit.toOption.getD b).display = _ ∧
    (b.commit.toOption.getD b).pixels = _
  cases hc : b.commit with
  | error _ => exact ⟨rfl, rfl, rfl⟩
  | ok b' =>
    obtain ⟨pipeline, -, rfl⟩ := eq_of_commit hc
    exact ⟨rfl, rfl, rfl⟩

theorem use_intact (u : Use) (h : b.Intact) : (use render b u).Intact ∧ (use render b u).desc = b.desc := by
  cases u with
  | attach ops => exact ⟨h.setLife rfl, rfl⟩
  | commit =>
    refine ⟨?_, (use_commit render b).1⟩
    show (b.commit.toOption.getD b).Intact
    cases hc : b.commit with
    | error _ => exact h
    | ok b' => exact h.commit hc
  | event ev =>
    cases ev with
    | frame shot => exact ⟨after_intact render shot h, after_desc render shot h⟩
    | clear => exact ⟨h.clear, rfl⟩

theorem useAll_intact (uses : List Use) (h : b.Intact) :
    (useAll render uses b).Intact ∧ (useAll render uses b).desc = b.desc := by
  refine Writes.inv_foldl (I := fun c : DenseBuffer => c.Intact ∧ c.desc = b.desc) ⟨h, rfl⟩ ?_
  rintro c u - ⟨hc, hd⟩
  exact ⟨(use_intact render u hc).1, (use_intact render u hc).2.trans hd⟩

/-! ## Twins -/

/-- Two images of other formats that hold the same pixels and have the same operations, attached and at work. -/
structure Twins (e f : DenseBuffer) : Prop where
  pair : Paired (fun _ px qx => px = qx) f e
  imageOps : e.life.imageOps = f.life.imageOps
  pipeline : e.life.pipeline = f.life.pipeline
  left : e.desc.hasColor = true
  right : f.desc.hasColor = true

namespace Twins

/-- Operations find the same channels on both. -/
theorem build_eq (h : Twins e f) (ops : List ImageOp) :
    Pipeline.build ops e.desc true = Pipeline.build ops f.desc true := by
  refine Pipeline.collect_congr (funext fun ch => ?_) ops
  have hhas := h.pair.geometry.2.2.1 ch
  cases ch with
  | color => exact h.left.trans h.right.symm
  | depth | accum | variance | normal | albedo | primitiveId | objectId | instanceId => exact hhas

theorem after (shot : Shot) (h : Twins e f) : Twins (Frame.after render e shot) (Frame.after render f shot) := by
  obtain ⟨_, _, he⟩ := after_life render shot h.pair.right
  obtain ⟨_, _, hf⟩ := after_life render shot h.pair.left
  refine ⟨h.pair.after render shot, ?_, ?_, ?_, ?_⟩
  · rw [he, hf]
    exact h.imageOps
  · rw [he, hf]
    exact h.pipeline
  · rw [after_desc render shot h.pair.right]
    exact h.left
  · rw [after_desc render shot h.pair.left]
    exact h.right

/-- Both are accepted, or neither is. -/
theorem commit (h : Twins e f) : Twins (use render e .commit) (use render f .commit) := by
  have huse : ∀ b : DenseBuffer, use render b .commit = b.commit.toOption.getD b := fun _ => rfl
  rw [huse, huse]
  cases hbuild : Pipeline.build f.life.imageOps f.desc true with
  | error x =>
    have hrefused : ∀ b : DenseBuffer, Pipeline.build b.life.imageOps b.desc true = .error x →
        b.commit.toOption.getD b = b := by
      intro b hb
      cases hc : b.commit with
      | error _ => rfl
      | ok b' =>
        obtain ⟨pipeline, hok, -⟩ := eq_of_commit hc
        cases hb.symm.trans hok
    rw [hrefused f hbuild, hrefused e (by rw [h.imageOps, h.build_eq, hbuild])]
    exact h
  | ok pipeline =>
    have hf := commit_of_build hbuild
    have he := commit_of_build (b := e) (by rw [h.imageOps, h.build_eq, hbuild])
    have hif := h.pair.left.commit hf
    have hie := h.pair.right.commit he
    obtain ⟨-, -, hdesc, hframe, hvariance, hregions, hpatches, -⟩ := h.pair
    rw [he, hf]
    exact ⟨⟨hif, hie, hdesc, hframe, hvariance, hregions, hpatches, .eq rfl⟩, h.imageOps, rfl, h.left, h.right⟩

theorem use (u : Use) (h : Twins e f) : Twins (Frame.use render e u) (Frame.use render f u) := by
  cases u with
  | attach ops =>
    obtain ⟨hf, he, hdesc, hframe, hvariance, hregions, hpatches, hkept⟩ := h.pair
    exact ⟨⟨hf.setLife rfl, he.setLife rfl, hdesc, hframe, hvariance, hregions, hpatches, hkept⟩, rfl, h.pipeline,
      h.left, h.right⟩
  | commit => exact h.commit render
  | event ev =>
    cases ev with
    | frame shot => exact h.after render shot
    | clear => exact ⟨h.pair.clear, h.imageOps, h.pipeline, h.left, h.right⟩

/-- After a frame the same is shown of both. -/
theorem shownColor_eq (shot : Shot) (h : Twins e f) :
    (Frame.after render e shot).shownColor = (Frame.after render f shot).shownColor := by
  rw [shownColor_after render shot h.pair.right h.left, shownColor_after render shot h.pair.left h.right, h.pipeline,
    (h.after render shot).pair.frameImage_eq]

/-- The same pixels are rendered of both. -/
theorem rendered_iff (shot : Shot) (h : Twins e f) (p : Point) :
    taskAt e.desc p ∈ renderedIds shot e ↔ taskAt f.desc p ∈ renderedIds shot f := by
  obtain ⟨format, hd⟩ := h.pair.desc
  rw [h.pair.renderedIds_eq, hd]
  exact Iff.rfl

end Twins

/-! ## Along a run -/

/-- The encoded image is made from the ink, which is the color of the pixels where no frame operation made it. -/
structure Inked (ink : Ink) (e f : DenseBuffer) : Prop where
  twins : Twins e f
  region : ink.color.region = f.desc.image
  displays : ∀ p, f.desc.image.contains p = true → e.DisplaysAs p (ink.color.getD p .zero)
  plain : ∀ p, f.desc.image.contains p = true → ¬ ink.retouched p →
    ink.color.getD p .zero = (f.pixels.getD p .blank).shown.color

namespace Inked

variable (shot : Shot) (h : Inked ink e f) (hp : f.desc.image.contains p = true)

include h hp

theorem displays_afterFrame :
    (after render e shot).DisplaysAs p ((ink.afterFrame render f shot).color.getD p .zero) := by
  have he := h.twins.pair.right
  have hpe : e.desc.image.contains p = true := h.twins.pair.geometry.2.1 ▸ hp
  rw [Ink.getD_afterFrame render shot (h.region ▸ hp)]
  split
  · rename_i hrenewed
    rw [← h.twins.pipeline, ← h.twins.rendered_iff shot p] at hrenewed
    rw [← h.twins.shownColor_eq render shot]
    cases hf : e.life.pipeline.hasFrameOps with
    | true => exact displaysAs_output render shot he h.twins.left hf hpe
    | false =>
      have hmem := hrenewed.resolve_left fun htrue => Bool.false_ne_true (hf.symm.trans htrue)
      have hdisplays := displays_after render shot he hf (displays_folded render shot he hpe (.inl hmem))
      rw [getD_shownColor (after_intact render shot he) (by rw [after_pipeline render shot he]; exact hf)
        (by rw [after_desc render shot he]; exact hpe)]
      exact hdisplays
  · rename_i hkept
    rw [← h.twins.pipeline, ← h.twins.rendered_iff shot p] at hkept
    obtain ⟨hf, hother⟩ := not_or.1 hkept
    exact DisplaysAs.after render shot he (Bool.not_eq_true _ ▸ hf)
      (DisplaysAs.folded render shot he hpe hother (h.displays p hp))

theorem plain_afterFrame (hplain : ¬ (ink.afterFrame render f shot).retouched p) :
    (ink.afterFrame render f shot).color.getD p .zero =
      ((after render f shot).pixels.getD p .blank).shown.color := by
  have hf := h.twins.pair.left
  obtain ⟨hfinishes, hkept⟩ := not_or.1 hplain
  have hfinishes : f.life.pipeline.hasFrameOps = false := Bool.not_eq_true _ ▸ hfinishes
  rw [Ink.getD_afterFrame render shot (h.region ▸ hp)]
  by_cases hrenders : taskAt f.desc p ∈ renderedIds shot f
  · rw [if_pos (.inr hrenders)]
    exact getD_shownColor (after_intact render shot hf) (by rw [after_pipeline render shot hf]; exact hfinishes)
      (by rw [after_desc render shot hf]; exact hp)
  · rw [if_neg (by simp [hfinishes, hrenders]), after_pixel render shot hf hp, if_neg hrenders]
    exact h.plain p hp fun hretouched => hkept ⟨hrenders, hretouched⟩

omit hp in
theorem afterFrame : Inked (ink.afterFrame render f shot) (after render e shot) (after render f shot) := by
  have hd := after_desc render shot h.twins.pair.left
  refine ⟨h.twins.after render shot, h.region.trans (congrArg BufferDesc.image hd.symm), fun p hp => ?_, fun p hp => ?_⟩
  · exact h.displays_afterFrame render shot (hd ▸ hp)
  · exact h.plain_afterFrame render shot (hd ▸ hp)

omit hp in
theorem afterUse (u : Use) : Inked (ink.afterUse render f u) (use render e u) (use render f u) := by
  have htwins := h.twins.use render u
  cases u with
  | attach ops => exact ⟨htwins, h.region, h.displays, h.plain⟩
  | commit =>
    obtain ⟨hde, hdisplay, -⟩ := use_commit render e
    obtain ⟨hdf, -, hpixels⟩ := use_commit render f
    refine ⟨htwins, hdf ▸ h.region, ?_, ?_⟩
    · unfold DisplaysAs
      rw [hde, hdisplay, hdf]
      exact h.displays
    · rw [hdf, hpixels]
      exact h.plain
  | event ev =>
    cases ev with
    | frame shot => exact h.afterFrame render shot
    | clear => exact ⟨htwins, h.region, h.displays, h.plain⟩

omit hp in
/-- Whatever is done to both, the encoded image is made from the ink. -/
theorem along (uses : List Use) : Inked (Ink.along render uses f ink) (useAll render uses e) (useAll render uses f) := by
  induction uses generalizing ink e f with
  | nil => exact h
  | cons u uses ih => exact ih (h.afterUse render u)

end Inked

/-- New images are made from zeros. -/
theorem inked_new {d : BufferDesc} {format : ColorFormat} (hcolor : d.has .color = true)
    (hformat : format.isEncoded = true) (he : create { d with format } = .ok e)
    (hf : create { d with format := .rgba32f } = .ok f) : Inked (.blank d.image) e f := by
  have hie := Intact.of_create he
  have hif := Intact.of_create hf
  have hplain : (setImageOps e []).commit = .ok e := by
    obtain ⟨-, rfl⟩ := eq_of_create he
    rfl
  have hdisplays : ∀ p, e.desc.image.contains p = true → e.Displays p := fun p hp => displays_of_commit he hplain hp
  obtain ⟨-, rfl⟩ := eq_of_create he
  obtain ⟨-, rfl⟩ := eq_of_create hf
  have hblank : ∀ p, d.image.contains p = true → (Raster.fill d.image Vec4.zero).getD p .zero =
      ((Raster.fill d.image Pixel.blank).getD p .blank).shown.color := by
    intro p hp
    rw [Raster.getD_fill hp, Raster.getD_fill hp]
    rfl
  refine ⟨⟨.of_pixels hif hie ⟨format, rfl⟩ rfl rfl rfl rfl (fun _ _ => rfl) (.eq rfl), rfl, rfl, ?_, ?_⟩, rfl,
    fun p hp => ?_, fun p hp _ => hblank p hp⟩
  · show (d.has .color && format != .none) = true
    rw [hcolor]
    cases format <;> first | rfl | cases hformat
  · show (d.has .color && ColorFormat.rgba32f != .none) = true
    rw [hcolor]
    rfl
  · have hdisplayed := hdisplays p hp
    rw [displays_iff] at hdisplayed
    exact hblank p hp ▸ hdisplayed

/-- What is displayed is what the color channel reads. -/
theorem Inked.channel?_color {encode : Vec4 → Rgba8} (h : Inked ink e f)
    (hencode : Color.encoding? e.desc.format = some encode) :
    e.channel? .color = some (.encoded (ink.color.map encode).cells) := by
  have he := h.twins.pair.right
  have hencoded : e.desc.hasEncodedColor = true := by
    rw [BufferDesc.hasEncodedColor, h.twins.left]
    cases hformat : e.desc.format <;> rw [hformat] at hencode <;> first | rfl | cases hencode
  obtain ⟨g, hg⟩ := he.exists_display hencoded
  have hgregion : g.region = f.desc.image := (he.display g hg).trans h.twins.pair.geometry.2.1
  have hmade : g = ink.color.map encode := by
    refine Raster.ext_getD default (hgregion.trans h.region.symm) fun p hp => ?_
    rw [hgregion] at hp
    rw [h.displays p hp encode g hencode hg]
    exact (Raster.getD_map (by rw [h.region]; exact hp) _ _ _).symm
  rw [channel?_color_of_encoded h.twins.left hg, hmade]

/-- After a frame the images read the encoding of the ink and what is shown, the same color where no frame operation
made it before this frame. -/
theorem Inked.reads_after {encode : Vec4 → Rgba8} (h : Inked ink e f) (shot : Shot)
    (hencode : Color.encoding? e.desc.format = some encode) (hcolor : f.desc.has .color = true)
    (hformat : f.desc.format = .rgba32f) :
    let ink := ink.afterFrame render f shot
    let f' := after render f shot
    (map? (after render e shot) .color).map Prod.fst = some (.encoded (ink.color.map encode).cells) ∧
      (map? f' .color).map Prod.fst = some (.color f'.shownColor.cells) ∧
      ∀ p, f.desc.image.contains p = true → f'.life.pipeline.hasFrameOps = true ∨ ¬ ink.retouched p →
        ink.color.getD p .zero = f'.shownColor.getD p .zero := by
  intro ink' f'
  have he := h.twins.pair.right
  have hf := h.twins.pair.left
  have hpipeline := after_pipeline render shot hf
  refine ⟨?_, ?_, fun p hp hor => ?_⟩
  · rw [map?_fst]
    exact (h.afterFrame render shot).channel?_color (by rw [after_desc render shot he]; exact hencode)
  · rw [map?_fst, channel?_color_after render shot hf hcolor hformat, shownColor_after render shot hf h.twins.right]
  · cases hfinishes : f.life.pipeline.hasFrameOps with
    | true => rw [Ink.getD_afterFrame render shot (h.region ▸ hp), if_pos (.inl hfinishes)]
    | false =>
      have hplain := hor.resolve_left fun htrue => by
        rw [hpipeline, hfinishes] at htrue
        cases htrue
      rw [h.plain_afterFrame render shot hp hplain]
      exact (getD_shownColor (after_intact render shot hf) (by rw [hpipeline]; exact hfinishes)
        (by rw [after_desc render shot hf]; exact hp)).symm

/-- **What an encoded image is made from.** An image in eight bits per lane and its twin in single precision go
through the same course: operations are attached and put to work, maybe refused, frames are rendered, whatever
tasks they drop or skip, and the images are cleared. After every frame the one reads the encoding of its ink, and
the other what it shows. These are the same colors if frame operations are at work. If none are, they are the same
at the pixels that frame operations never made, or that frames have rendered since. -/
theorem encoded_image_made_from (render : PixelRenderer) {d : BufferDesc} {format : ColorFormat}
    {encode : Vec4 → Rgba8} {e₀ f₀ : DenseBuffer} (hcolor : d.has .color = true)
    (hencode : Color.encoding? format = some encode) (he : create { d with format } = .ok e₀)
    (hf : create { d with format := .rgba32f } = .ok f₀) (uses : List Use) (shot : Shot) :
    let course := uses ++ [.event (.frame shot)]
    let e := useAll render course e₀
    let f := useAll render course f₀
    let ink := Ink.along render course f₀ (.blank d.image)
    (map? e .color).map Prod.fst = some (.encoded (ink.color.map encode).cells) ∧
      (map? f .color).map Prod.fst = some (.color f.shownColor.cells) ∧
      ∀ p, d.image.contains p = true → f.life.pipeline.hasFrameOps = true ∨ ¬ ink.retouched p →
        ink.color.getD p .zero = f.shownColor.getD p .zero := by
  intro course e f ink
  have hformat : format.isEncoded = true := by cases format <;> first | rfl | cases hencode
  have hbefore := (inked_new hcolor hformat he hf).along render uses
  have hde : (useAll render uses e₀).desc = { d with format } := by
    rw [(useAll_intact render uses (Intact.of_create he)).2]
    obtain ⟨-, rfl⟩ := eq_of_create he
    rfl
  have hdf : (useAll render uses f₀).desc = { d with format := .rgba32f } := by
    rw [(useAll_intact render uses (Intact.of_create hf)).2]
    obtain ⟨-, rfl⟩ := eq_of_create hf
    rfl
  have hee : e = after render (useAll render uses e₀) shot := List.foldl_append ..
  have hff : f = after render (useAll render uses f₀) shot := List.foldl_append ..
  have hink : ink = (Ink.along render uses f₀ (.blank d.image)).afterFrame render (useAll render uses f₀) shot :=
    Ink.along_append ..
  have hlast := hbefore.reads_after render shot (by rw [hde]; exact hencode) (by rw [hdf]; exact hcolor) (by rw [hdf])
  rw [hdf] at hlast
  rw [hee, hff, hink]
  exact hlast

/-- A pair of pixels is marked red. Then the mark is taken away, and the next frame renders the pixels, so they are
displayed as they are shown. -/
theorem encoded_image_made_from_pair :
    let d : BufferDesc := ⟨⟨2, 1⟩, .none, .ofList [.color, .accum], defaultTaskSize⟩
    let render : PixelRenderer := fun _ p i => .ofColor (.splat (.ofNat (p.x + i)))
    let shot : Shot := ⟨.none, .standard, ⟨0.5, 16⟩⟩
    let uses : List Use := [.attach [.pixel (.tint ⟨0, 0, 0.2⟩), .frame .markRed], .commit, .event (.frame shot),
      .event .clear, .attach [.pixel (.tint ⟨0, 0, 0.2⟩)], .commit]
    let course := uses ++ [.event (.frame shot)]
    ∃ e₀ f₀, d.has .color = true ∧ Color.encoding? .srgba = some Color.encodeSrgba ∧
      create ⟨⟨2, 1⟩, .srgba, .ofList [.color, .accum], defaultTaskSize⟩ = .ok e₀ ∧
      create ⟨⟨2, 1⟩, .rgba32f, .ofList [.color, .accum], defaultTaskSize⟩ = .ok f₀ ∧
      let e := useAll render course e₀
      let f := useAll render course f₀
      let ink := Ink.along render course f₀ (.blank d.image)
      ((map? e .color).map Prod.fst = some (.encoded (ink.color.map Color.encodeSrgba).cells) ∧
        (map? f .color).map Prod.fst = some (.color f.shownColor.cells)) ∧
      ¬ ink.retouched .zero ∧ ink.color.getD .zero .zero = f.shownColor.getD .zero .zero := by
  intro d render shot uses course
  obtain ⟨e₀, f₀, he, hf, hfinishes, hrenders⟩ : ∃ e₀ f₀,
      create ⟨⟨2, 1⟩, .srgba, .ofList [.color, .accum], defaultTaskSize⟩ = .ok e₀ ∧
      create ⟨⟨2, 1⟩, .rgba32f, .ofList [.color, .accum], defaultTaskSize⟩ = .ok f₀ ∧
      (useAll render uses f₀).life.pipeline.hasFrameOps = false ∧
      taskAt (useAll render uses f₀).desc .zero ∈ renderedIds shot (useAll render uses f₀) :=
    ⟨_, _, rfl, rfl, by decide +kernel, by decide +kernel⟩
  obtain ⟨hread, hread', hsame⟩ := encoded_image_made_from render (d := d) rfl rfl he hf uses shot
  have hplain : ¬ (Ink.along render course f₀ (.blank d.image)).retouched .zero := by
    rw [Ink.along_append]
    rintro (htrue | ⟨hother, -⟩)
    · exact Bool.false_ne_true (hfinishes.symm.trans htrue)
    · exact hother hrenders
  exact ⟨e₀, f₀, rfl, rfl, he, hf, ⟨hread, hread'⟩, hplain, hsame .zero rfl (.inr hplain)⟩

/-- A gray image is marked red for two frames. Then the mark is taken away, and the next frame has nothing to
render: the image in single precision is gray again, and the encoded one still red. -/
theorem encoded_image_keeps_mark :
    let render : PixelRenderer := fun _ _ _ => .ofColor ⟨0.25, 0.25, 0.25, 1⟩
    let shot : Shot := ⟨.none, .standard, ⟨0.5, 16⟩⟩
    let course : List Use := [.attach [.frame .markRed], .commit, .event (.frame shot), .event (.frame shot),
      .attach [], .commit, .event (.frame shot)]
    ∃ e₀ f₀ shown colors, create ⟨⟨1, 1⟩, .rgba8, .ofList [.color, .accum, .variance], defaultTaskSize⟩ = .ok e₀ ∧
      create ⟨⟨1, 1⟩, .rgba32f, .ofList [.color, .accum, .variance], defaultTaskSize⟩ = .ok f₀ ∧
      (map? (useAll render course e₀) .color).map Prod.fst = some (.encoded shown) ∧
      (map? (useAll render course f₀) .color).map Prod.fst = some (.color colors) ∧
      shown = #[⟨255, 64, 64, 255⟩] ∧ colors.map Color.encodeRgba8 = #[⟨64, 64, 64, 255⟩] := by
  intro render shot course
  obtain ⟨e₀, f₀, he, hf, hcolore, hcolorf, hshown, hplain, hcolors⟩ : ∃ e₀ f₀,
      create ⟨⟨1, 1⟩, .rgba8, .ofList [.color, .accum, .variance], defaultTaskSize⟩ = .ok e₀ ∧
      create ⟨⟨1, 1⟩, .rgba32f, .ofList [.color, .accum, .variance], defaultTaskSize⟩ = .ok f₀ ∧
      (useAll render course e₀).desc.hasColor = true ∧ (useAll render course f₀).desc.hasColor = true ∧
      (useAll render course e₀).display.map Raster.cells = some #[⟨255, 64, 64, 255⟩] ∧
      (useAll render course f₀).display.map Raster.cells = none ∧
      (useAll render course f₀).shownColor.cells.map Color.encodeRgba8 = #[⟨64, 64, 64, 255⟩] :=
    ⟨_, _, rfl, rfl, by decide +kernel, by decide +kernel, by decide +kernel, by decide +kernel, by decide +kernel⟩
  obtain ⟨g, hg, hcells⟩ := Option.map_eq_some_iff.1 hshown
  refine ⟨e₀, f₀, g.cells, _, he, hf, ?_, ?_, hcells, hcolors⟩
  · rw [map?_fst, channel?_color_of_encoded hcolore hg]
  · rw [map?_fst, channel?_color_of_plain hcolorf (Option.map_eq_none_iff.1 hplain)]

end DenseBuffer

end AdaptiveFrame
