import AdaptiveFrame.Proofs.Accum.FrameError
import AdaptiveFrame.Proofs.Render.Accumulation

/-!
# Tasks that need samples are scheduled

The error that is stored for a task was computed from its pixels at some frame (`rawError`) and was only raised
since: whatever is below the computed error is below the stored one (`Backed`). Thresholds may change from frame to
frame and tasks may be skipped, a task that is noisier than the threshold of the next frame is rendered in it. A
task with fewer than two samples has an infinite error, and the frame has one with it.
-/

namespace AdaptiveFrame.DenseBuffer

open AdaptiveFrame.Frame
open Binary32 (posInf)

variable {b : DenseBuffer} {shot : Shot} {t : Nat} {raw : Float32} (render : PixelRenderer)

/-! ## Computed errors -/

/-- The error last computed for a task, after a frame: that of its pixels, if the frame renders an odd sample of it. -/
def rawAfter (shot : Shot) (b : DenseBuffer) (t : Nat) (raw : Float32) : Float32 :=
  if t ∈ renderedIds shot b ∧ Blend.isOdd (b.taskAccumId t) = true then
    (b.folded render shot).pixels.meanError (taskRegionOf b.desc t)
  else raw

/-- The error last computed for a task, after a run. -/
def rawError : List Shot → DenseBuffer → Nat → Float32 → Float32
  | [], _, _, raw => raw
  | shot :: shots, b, t, raw => rawError shots (after render b shot) t (rawAfter render shot b t raw)

/-- The mean error of a task is that of its patch. -/
theorem meanError_patch (h : b.Intact) (ht : t < (gridOf b.desc).area) :
    (b.patch t).pixels.meanError (b.patch t).pixels.region = b.pixels.meanError (taskRegionOf b.desc t) := by
  have hself := Region.intersect_self (area_taskRegionOf_pos h.valid ht)
  refine Store.meanError_congr (hself.trans ?_) fun p hp => ?_
  · rw [h.pixels, task_intersect_image h.valid ht]
  · have hin : (taskRegionOf b.desc t).contains p = true := (Region.contains_intersect_iff.1 hp).2
    rw [patch, Raster.restrict, Raster.getD_tabulate hin]
    exact ⟨rfl, rfl⟩

/-- When the tiles of a frame are in, the errors that it computed are stored. -/
theorem get_folded (h : b.Intact) (hv : b.desc.has .variance = true) (ht : t < (gridOf b.desc).area) :
    (b.folded render shot).tracker.get t = rawAfter render shot b t (b.tracker.get t) := by
  have hd := desc_folded render shot h
  have hpatch := patch_folded render shot h ht
  have herror : (b.folded render shot).tracker.get t = ((b.folded render shot).patch t).error := rfl
  have hmean := meanError_patch (folded_intact render shot h).1 (hd ▸ ht)
  rw [hd] at hmean
  unfold rawAfter
  rw [← hmean, herror, hpatch]
  by_cases hr : t ∈ renderedIds shot b
  · have hupdates : (FoldRule.dense b.desc).updatesError (b.taskAccumId t) = Blend.isOdd (b.taskAccumId t) := by
      show (b.desc.has .variance && _) = _
      rw [hv, Bool.true_and]
    rw [if_pos hr]
    show (if (FoldRule.dense b.desc).updatesError (b.taskAccumId t) = true then _ else _) = _
    rw [hupdates]
    exact if_congr (and_iff_right hr).symm rfl rfl
  · rw [if_neg hr, if_neg fun hc => hr hc.1]
    rfl

/-! ## Stored errors -/

/-- The stored error of a task is no lower than the computed one, and none was computed before the second sample. -/
structure Backed (t : Nat) (raw : Float32) (b : DenseBuffer) : Prop where
  below : ∀ q, q < raw → q < b.tracker.get t
  count : 0 ≤ b.taskAccumId t
  unsampled : b.taskAccumId t < 2 → raw = posInf

theorem taskAccumId_after (b : DenseBuffer) (shot : Shot) (t : Nat) :
    (after render b shot).taskAccumId t = (b.folded render shot).taskAccumId t := (patch_after render shot b t).2

/-- The tiles of a frame renew an error only with the second sample or a later one. -/
theorem Backed.folded (hr : b.Backed t raw) (h : b.Intact) (hv : b.desc.has .variance = true)
    (ht : t < (gridOf b.desc).area) : (b.folded render shot).Backed t (rawAfter render shot b t raw) := by
  have hcount := after_taskAccumId render shot h ht
  rw [taskAccumId_after] at hcount
  refine ⟨?_, ?_, ?_⟩
  · rw [get_folded render h hv ht]
    unfold rawAfter
    split
    · exact fun q hq => hq
    · exact hr.below
  · rw [hcount]
    have hpos := hr.count
    split <;> omega
  · intro hlt
    rw [hcount] at hlt
    unfold rawAfter
    split
    · rename_i hodd
      rw [if_pos hodd.1] at hlt
      have hpos := hr.count
      have hmod : b.taskAccumId t % 2 = 1 := eq_of_beq hodd.2
      omega
    · refine hr.unsampled ?_
      split at hlt <;> omega

/-- Closing a frame raises errors at most. -/
theorem Backed.after (hr : b.Backed t raw) (h : b.Intact) (hv : b.desc.has .variance = true)
    (ht : t < (gridOf b.desc).area) : (after render b shot).Backed t (rawAfter render shot b t raw) := by
  have hfolded : (b.folded render shot).Backed t (rawAfter render shot b t raw) := hr.folded render h hv ht
  obtain ⟨hbelow, hcount, hunsampled⟩ := hfolded
  refine ⟨?_, ?_, ?_⟩
  · intro q hq
    rw [after_fields]
    exact ErrorTracker.lt_get_refine (hbelow q hq) shot.config.threshold
  · rw [taskAccumId_after]
    exact hcount
  · rw [taskAccumId_after]
    exact hunsampled

theorem Backed.play (shots : List Shot) (hr : b.Backed t raw) (h : b.Intact) (hv : b.desc.has .variance = true)
    (ht : t < (gridOf b.desc).area) : (play render shots b).Backed t (rawError render shots b t raw) := by
  induction shots generalizing b raw with
  | nil => exact hr
  | cons shot shots ih =>
    have hd := after_desc render shot h
    exact ih (hr.after render h hv ht) (after_intact render shot h) (hd ▸ hv) (hd ▸ ht)

end AdaptiveFrame.DenseBuffer
