import AdaptiveFrame.Proofs.Filter.Collecting
import AdaptiveFrame.Proofs.Filter.Working
import AdaptiveFrame.Proofs.Render.Alike
import AdaptiveFrame.Proofs.Render.PairedFrames

/-!
# Image operations change nothing but the picture

Pixel operations recolor what is shown of a pixel and frame operations work on a copy of the color. Neither
finds its way into what later frames blend into, so a buffer with operations goes through a course of frames as
one without them does, and what it shows after a frame is made from that frame alone.
-/

namespace AdaptiveFrame

open FrameBuffer

/-- Two images that steer adaptive sampling alike and read the same on the channels that are compared. -/
structure ReadsAlike (compared : Channel → Prop) (b c : DenseBuffer) : Prop where
  frameId : frameId c = frameId b
  variance : variance c = variance b
  regions : c.tracker.regions = b.tracker.regions
  taskError : ∀ id, taskError c id = taskError b id
  taskAccumId : ∀ id, taskAccumId c id = taskAccumId b id
  channel : ∀ ch, compared ch → (map? c ch).map Prod.fst = (map? b ch).map Prod.fst

namespace DenseBuffer

open AdaptiveFrame.Frame

variable {b c : DenseBuffer} {ops : List ImageOp} {pl : Pipeline} {Q : Int → Pixel → Pixel → Prop}

theorem map?_fst (b : DenseBuffer) (ch : Channel) : (map? b ch).map Prod.fst = b.channel? ch := by
  unfold map?
  rw [Option.map_map]
  exact congrFun Option.map_id (b.channel? ch)

theorem Paired.readsAlike {compared : Channel → Prop} (h : Paired Q b c)
    (hch : ∀ ch, compared ch → c.channel? ch = b.channel? ch) : ReadsAlike compared b c := by
  refine ⟨h.frameId, h.variance, h.regions, ?_, ?_, ?_⟩
  · intro id
    exact congrArg (fun t : ErrorTracker => t.get id) h.tracker_eq
  · intro id
    exact congrArg (fun ids : Array Int => (ids[id]?).getD 0) h.accumIds_eq
  · intro ch hcompared
    rw [map?_fst, map?_fst, hch ch hcompared]

/-! ## Attaching operations -/

theorem commit_of_build (h : Pipeline.build b.life.imageOps b.desc true = .ok pl) : b.commit = .ok { b with
    life := { b.life with pipeline := pl }
    output := if pl.hasFrameOps then some (b.output.getD b.color) else none } := by
  have h : Pipeline.build b.life.imageOps b.life.desc true = .ok pl := h
  unfold commit Lifecycle.commit
  rw [h]
  rfl

theorem commit_setImageOps (h : Pipeline.build ops b.desc true = .ok pl) :
    (setImageOps b ops).commit = .ok { b with
      life := { b.life with imageOps := ops, pipeline := pl }
      output := if pl.hasFrameOps then some (b.output.getD b.color) else none } :=
  commit_of_build (b := setImageOps b ops) h

/-- Buffers that differ in their operations and what these have made go on as a pair. -/
theorem paired_of_ops (hb : b.Intact) (hc : c.Intact)
    (h : ∃ imageOps pipeline output, c = { b with life := { b.life with imageOps, pipeline }, output })
    (hrefl : ∀ k px, Q k px px) (hkept : Kept (.dense b.desc) b.life.pipeline c.life.pipeline Q) : Paired Q b c := by
  obtain ⟨imageOps, pipeline, output, rfl⟩ := h
  exact .of_pixels hb hc ⟨b.desc.format, rfl⟩ rfl rfl rfl rfl (fun _ _ => hrefl ..) hkept

/-! ## The color after a frame -/

/-- What is shown after a frame is made from the image of this frame. -/
theorem shownColor_after (render : PixelRenderer) (shot : Shot) (h : b.Intact) (hcolor : b.desc.hasColor = true) :
    (after render b shot).shownColor = b.life.pipeline.finish (after render b shot).frameImage := by
  obtain ⟨-, status, hlife⟩ := folded_intact render shot h
  have hd := desc_folded render shot h
  unfold shownColor
  rw [after_pipeline render shot h]
  cases hf : b.life.pipeline.hasFrameOps with
  | true =>
    have houtput : (after render b shot).output = some (b.life.pipeline.finish (after render b shot).frameImage) := by
      rw [after_fields]
      show finalOutput _ = some (b.life.pipeline.finish (b.folded render shot).frameImage)
      unfold finalOutput
      rw [hd, hlife, hcolor, hf]
      rfl
    rw [houtput]
    rfl
  | false =>
    have hnil : b.life.pipeline.frameOps = [] := by simpa [Pipeline.hasFrameOps] using hf
    rw [Pipeline.finish, hnil]
    rfl

theorem channel?_color_of_encoded {g : Raster Rgba8} (hcolor : b.desc.hasColor = true) (hg : b.display = some g) :
    b.channel? .color = some (.encoded g.cells) := by
  unfold channel?
  dsimp only
  rw [if_pos hcolor, hg]

theorem channel?_color_of_plain (hcolor : b.desc.hasColor = true) (hg : b.display = none) :
    b.channel? .color = some (.color b.shownColor.cells) := by
  unfold channel?
  dsimp only
  rw [if_pos hcolor, hg]

/-- In single precision this is what the color channel reads. -/
theorem channel?_color_after (render : PixelRenderer) (shot : Shot) (h : b.Intact) (hcolor : b.desc.has .color = true)
    (hformat : b.desc.format = .rgba32f) : (after render b shot).channel? .color =
      some (.color (b.life.pipeline.finish (after render b shot).frameImage).cells) := by
  have hhas : b.desc.hasColor = true := by rw [BufferDesc.hasColor, hcolor, hformat]; rfl
  have hd := after_desc render shot h
  have hplain : (after render b shot).desc.hasEncodedColor = false := by
    rw [hd, BufferDesc.hasEncodedColor, hformat]
    exact Bool.and_false _
  rw [channel?_color_of_plain (hd ▸ hhas) ((after_intact render shot h).display_eq_none hplain),
    shownColor_after render shot h hhas]

/-! ## Runs with and without operations -/

/-- A buffer with pixel operations and frame operations goes on as one without them, but for the color of its
pixels, and with the very pixels of one with the pixel operations alone. -/
theorem exists_toned {plain finished : DenseBuffer} {pixelOps : List PixelOp} {frameOps : List FrameOp}
    (hb : plain.Intact)
    (hfinished : (setImageOps plain (pixelOps.map .pixel ++ frameOps.map .frame)).commit = .ok finished) :
    finished.desc = plain.desc ∧ finished.life.pipeline = ⟨pixelOps, frameOps⟩ ∧
      Paired (fun _ => Pixel.SameButColor) plain finished ∧
      ∃ toned, (setImageOps plain (pixelOps.map .pixel)).commit = .ok toned ∧ toned.desc = plain.desc ∧
        toned.life.pipeline = ⟨pixelOps, []⟩ ∧ Paired (fun _ px qx => px = qx) toned finished := by
  have hops : ∀ ops, Intact (setImageOps plain ops) := fun _ => hb.setLife rfl
  have hf := (hops _).commit hfinished
  obtain ⟨pipeline, hbuild, rfl⟩ := eq_of_commit hfinished
  have hbuild : Pipeline.build (pixelOps.map .pixel ++ frameOps.map .frame) plain.desc true = .ok pipeline := hbuild
  obtain rfl := Pipeline.collect_append hbuild
  have hcommit := commit_setImageOps (Pipeline.collect_of_append hbuild)
  refine ⟨rfl, rfl, ?_, _, hcommit, rfl, rfl, ?_⟩
  · exact paired_of_ops hb hf ⟨_, _, _, rfl⟩ (fun _ px ch _ => px.sameOn_refl ch) (.sameButColor ..)
  · exact paired_of_ops ((hops _).commit hcommit) hf ⟨_, _, _, rfl⟩ (fun _ _ => rfl) (.eq rfl)

/-- Images of equal pixels look the same to frame operations. -/
theorem Paired.frameImage_eq (h : Paired (fun _ px qx => px = qx) b c) : c.frameImage = b.frameImage := by
  obtain ⟨-, -, hhas, -⟩ := h.geometry
  unfold frameImage color
  dsimp only
  rw [h.pixels_eq, hhas, hhas, hhas]

/-- **Image operations change nothing but the picture.** A new buffer in single precision commits pixel
operations and frame operations. Whatever frames and clears follow, with whatever tasks skipped, its frames
schedule and report the same as those of a buffer without operations, and afterwards its errors, its sample
counts and all its channels but the color are the same. The color after a frame is what the frame operations
make, in order and whatever the storage of their workers holds from earlier frames, of the color that a buffer
with the pixel operations alone shows after the same course. -/
theorem image_ops_change_only_color {d : BufferDesc} {plain finished : DenseBuffer} (hcolor : d.has .color = true)
    (hformat : d.format = .rgba32f) (pixelOps : List PixelOp) (frameOps : List FrameOp)
    (hplain : create d = .ok plain)
    (hfinished : (setImageOps plain (pixelOps.map .pixel ++ frameOps.map .frame)).commit = .ok finished) :
    ∃ toned, (setImageOps plain (pixelOps.map .pixel)).commit = .ok toned ∧
      ∀ (render : PixelRenderer) (events : List Event),
        reports render events finished = reports render events plain ∧
        ReadsAlike (· ≠ .color) (handleAll render events plain) (handleAll render events finished) ∧
        ∀ (shot : Shot) (workers : List FrameWorker), workers.map FrameWorker.op = frameOps →
          let last : DenseBuffer → DenseBuffer := fun b => after render (handleAll render events b) shot
          (map? (last toned) .color).map Prod.fst = some (.color (last toned).color.cells) ∧
          (map? (last finished) .color).map Prod.fst =
            some (.color (FrameWorker.processAll workers (last toned).frameImage).2.cells) := by
  have hb := Intact.of_create hplain
  have hdesc : plain.desc = d := by
    obtain ⟨-, rfl⟩ := eq_of_create hplain
    rfl
  obtain ⟨hfdesc, hfpipeline, hpair, toned, hcommit, htdesc, htpipeline, hpair'⟩ := exists_toned hb hfinished
  refine ⟨toned, hcommit, fun render events => ?_⟩
  obtain ⟨hreports, hend⟩ := hpair.handleAll render events
  have hend' := (hpair'.handleAll render events).2
  obtain ⟨-, hfdesc', hfpipeline'⟩ := handleAll_intact render events hpair.right
  obtain ⟨-, htdesc', htpipeline'⟩ := handleAll_intact render events hpair'.left
  refine ⟨hreports, hend.readsAlike fun ch hch => ?_, fun shot workers hworkers => ?_⟩
  · have hd : (handleAll render events finished).desc = (handleAll render events plain).desc := by
      rw [(handleAll_intact render events hb).2.1, hfdesc', hfdesc]
    exact channel?_eq_of_sameOn hend.left hend.right hd hch fun _ p hp => hend.pixels hp ch hch
  · have htdesc : (handleAll render events toned).desc = d := by rw [htdesc', htdesc, hdesc]
    have hfdesc : (handleAll render events finished).desc = d := by rw [hfdesc', hfdesc, hdesc]
    intro last
    refine ⟨?_, ?_⟩
    · rw [map?_fst, channel?_color_after render shot hend'.left (by rw [htdesc, hcolor]) (by rw [htdesc, hformat]),
        htpipeline', htpipeline]
      rfl
    · rw [map?_fst, channel?_color_after render shot hend.right (by rw [hfdesc, hcolor]) (by rw [hfdesc, hformat]),
        hfpipeline', hfpipeline, (hend'.after render shot).frameImage_eq,
        (FrameWorker.processAll_eq workers (last toned).frameImage pixelOps).2, hworkers]

/-- A strip that is tinted, blurred and marked. The second of its frames is asked to stop after one task, and the
workers of the last one hold what earlier frames left. -/
theorem image_ops_change_only_color_strip :
    let d : BufferDesc := ⟨⟨17, 1⟩, .rgba32f, .ofList [.color, .accum, .variance], defaultTaskSize⟩
    let pixelOps : List PixelOp := [.tint ⟨0, 0, 0.2⟩]
    let frameOps : List FrameOp := [.blur, .markRed]
    let render : PixelRenderer := fun _ p i => .ofColor (.splat (.ofNat (p.x + i)))
    let shot : Shot := ⟨.none, .standard, ⟨0.5, 8⟩⟩
    let events : List Event := [.frame shot, .frame { shot with stop := .after 1 }, .clear, .frame shot]
    let workers : List FrameWorker := [.blur #[.splat 3, .splat 7], .markRed]
    ∃ plain finished toned, (d.has .color = true ∧ d.format = .rgba32f) ∧ create d = .ok plain ∧
      (setImageOps plain (pixelOps.map .pixel ++ frameOps.map .frame)).commit = .ok finished ∧
      (setImageOps plain (pixelOps.map .pixel)).commit = .ok toned ∧ workers.map FrameWorker.op = frameOps ∧
      (reports render events plain).length = 3 ∧ reports render events finished = reports render events plain ∧
      (map? (after render (handleAll render events finished) shot) .color).map Prod.fst =
        some (.color (FrameWorker.processAll workers
          (frameImage (after render (handleAll render events toned) shot))).2.cells) := by
  intro d pixelOps frameOps render shot events workers
  obtain ⟨plain, hplain⟩ : ∃ plain, create ⟨⟨17, 1⟩, .rgba32f, .ofList [.color, .accum, .variance], defaultTaskSize⟩ =
      .ok plain := ⟨_, rfl⟩
  obtain ⟨finished, hfinished⟩ :
      ∃ finished, (setImageOps plain (pixelOps.map .pixel ++ frameOps.map .frame)).commit = .ok finished := by
    obtain ⟨-, rfl⟩ := eq_of_create hplain
    exact ⟨_, rfl⟩
  obtain ⟨toned, htoned, hruns⟩ := image_ops_change_only_color rfl rfl pixelOps frameOps hplain hfinished
  obtain ⟨hreports, -, hcolor⟩ := hruns render events
  exact ⟨plain, finished, toned, ⟨rfl, rfl⟩, hplain, hfinished, htoned, rfl, rfl, hreports, (hcolor shot workers rfl).2⟩

end DenseBuffer

end AdaptiveFrame
