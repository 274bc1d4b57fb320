import AdaptiveFrame.Proofs.Render.Convergence
import AdaptiveFrame.Proofs.Render.RawErrors

/-!
# The tasks of a box stay in step

Errors are only renewed at every other sample, so a box whose tasks had received different numbers of samples
would be judged on errors of different ages. In a run of frames that nobody stops this does not happen: between
two frames the next one schedules a box as a whole or not at all (`box_wanted_alike`), so the sample counts of
its tasks go up together, and what is left of a box after it was refined lies in it.
-/

namespace AdaptiveFrame.DenseBuffer

open AdaptiveFrame.Frame

variable {b : DenseBuffer} {config : SamplingConfig} {shot : Shot} {r : Region} {i j : Nat} (render : PixelRenderer)

/-- The tasks of a list have received the same number of samples. -/
def CountAlike (b : DenseBuffer) (ids : List Nat) : Prop := ∀ i ∈ ids, ∀ j ∈ ids, b.taskAccumId i = b.taskAccumId j

/-- A buffer between two frames of a run that nobody stops. A threshold that is not positive leaves no task out,
and does not have to settle the boxes. -/
structure Lockstep (threshold : Float32) (b : DenseBuffer) : Prop where
  intact : b.Intact
  settled : 0 < threshold → b.tracker.Settled threshold
  alike : ∀ r ∈ b.tracker.regions, b.CountAlike (ErrorTracker.taskIds b.tracker.grid r)

theorem Started.lockstep {threshold : Float32} (h : Started b) : Lockstep threshold b := by
  obtain ⟨-, ⟨n, hcounts⟩, -⟩ := h.fresh
  have hzero : ∀ i, b.taskAccumId i = 0 := by
    intro i
    rw [taskAccumId, hcounts]
    exact getD_replicate_zero n i
  exact ⟨h.intact, fun _ => h.steady.settled, fun r _ i _ j _ => (hzero i).trans (hzero j).symm⟩

theorem Lockstep.grid (h : b.Lockstep config.threshold) (hr : r ∈ b.tracker.regions) :
    b.tracker.grid = gridOf b.desc := by
  refine h.intact.grid_of_enabled ?_
  by_contra hoff
  rw [ErrorTracker.regions_eq_nil h.intact.boxes (by simpa using hoff)] at hr
  cases hr

/-- The next frame schedules all tasks of a box or none of them. -/
theorem Lockstep.box_wanted_alike (h : b.Lockstep config.threshold) (hr : r ∈ b.tracker.regions)
    (hi : i ∈ ErrorTracker.taskIds b.tracker.grid r) (hj : j ∈ ErrorTracker.taskIds b.tracker.grid r) :
    b.wanted config i = b.wanted config j := by
  unfold wanted
  cases ha : b.adaptive config with
  | false => rfl
  | true =>
    have h0 : 0 < config.threshold := by
      simp only [adaptive, adaptiveAllowed, Bool.and_eq_true, decide_eq_true_eq] at ha
      exact ha.2.1
    rw [ErrorTracker.get_eq_errorAt, ErrorTracker.get_eq_errorAt]
    rcases h.settled h0 r hr with hhot | hcold
    · rw [decide_eq_true (hhot i hi), decide_eq_true (hhot j hj)]
    · rw [decide_eq_false (hcold i hi), decide_eq_false (hcold j hj)]

/-- A frame that nobody stops counts up the tasks of a box together. -/
theorem Lockstep.alike_after (h : b.Lockstep shot.config.threshold) (hstop : shot.stop = .none)
    (hr : r ∈ b.tracker.regions) : (after render b shot).CountAlike (ErrorTracker.taskIds b.tracker.grid r) := by
  have hcount : ∀ k ∈ ErrorTracker.taskIds b.tracker.grid r, (after render b shot).taskAccumId k =
      if b.wanted shot.config k = true then b.taskAccumId k + 1 else b.taskAccumId k := by
    intro k hk
    have hlt : k < (gridOf b.desc).area := by
      rw [← h.grid hr]
      exact ErrorTracker.taskIds_lt (h.intact.boxes.inside r hr) hk
    rw [after_taskAccumId render shot h.intact hlt, renderedIds_none shot b hstop]
    exact if_congr (mem_nextTasks.trans (and_iff_right hlt)) rfl rfl
  intro i hi j hj
  rw [hcount i hi, hcount j hj, h.box_wanted_alike hr hi hj, h.alike r hr i hi j hj]

theorem Lockstep.after (h : b.Lockstep shot.config.threshold) (hstop : shot.stop = .none) :
    (Frame.after render b shot).Lockstep shot.config.threshold := by
  refine ⟨after_intact render shot h.intact, fun h0 => ?_, fun s hs => ?_⟩
  · exact (Steady.after render ⟨h.intact, h.settled h0⟩ h0).settled
  · -- What is left of the boxes lies in boxes from before the frame.
    obtain ⟨hgrid, hregions, -⟩ := boxes_folded render shot b
    have hshrunk : ErrorTracker.Shrunk b.tracker.regions (Frame.after render b shot).tracker.regions := by
      have hrefined := ErrorTracker.refine_shrunk (b.folded render shot).tracker shot.config.threshold
      rw [hregions] at hrefined
      rw [after_fields]
      exact hrefined
    obtain ⟨-, r, hr, hsub⟩ := hshrunk.sub h.intact.boxes.pos s hs
    rw [after_grid]
    intro i hi j hj
    exact h.alike_after render hstop hr i (ErrorTracker.taskIds_subset hsub hi) j (ErrorTracker.taskIds_subset hsub hj)

/-- **The tasks of a box stay in step.** A new or cleared buffer is rendered into with one threshold and one
number of samples, and nobody stops a frame. After every frame the tasks of a box that is left, named by their
positions on the task grid, have all received the same number of samples. -/
theorem boxes_count_alike (hb : Started b) (render : PixelRenderer) (config : SamplingConfig) (cameras : List Camera) :
    let last := play render (cameras.map fun camera => ⟨.none, camera, config⟩) b
    ∀ r ∈ last.tracker.regions, ∀ p q : Point, r.contains p = true → r.contains q = true →
      last.taskAccumId (p.rowMajor (gridOf b.desc).x) = last.taskAccumId (q.rowMajor (gridOf b.desc).x) := by
  intro last r hr p q hp hq
  have hlast : last.Lockstep config.threshold ∧ last.desc = b.desc := by
    refine Writes.inv_foldl (I := fun c : DenseBuffer => c.Lockstep config.threshold ∧ c.desc = b.desc)
      ⟨hb.lockstep, rfl⟩ ?_
    rintro c shot hshot ⟨hc, hd⟩
    obtain ⟨camera, -, rfl⟩ := List.mem_map.1 hshot
    let shot : Shot := ⟨.none, camera, config⟩
    have hc : c.Lockstep shot.config.threshold := hc
    exact ⟨hc.after render rfl, (after_desc render _ hc.intact).trans hd⟩
  obtain ⟨hlast, hd⟩ := hlast
  rw [← hd, ← hlast.grid hr]
  exact hlast.alike r hr _ (List.mem_map_of_mem (Region.mem_points.2 hp)) _ (List.mem_map_of_mem (Region.mem_points.2 hq))

/-- The first frame renews no error. -/
theorem Started.tracker_after (h : Started b) (hv : b.desc.has .variance = true) :
    (Frame.after render b shot).tracker = (b.tracker.refine shot.config.threshold).1 := by
  have hfolded : (b.folded render shot).tracker = b.tracker := by
    obtain ⟨hgrid, hregions, -⟩ := boxes_folded render shot b
    refine ErrorTracker.ext_get hgrid hregions fun i hi => ?_
    rw [hgrid, h.intact.grid, trackedGrid, if_pos hv] at hi
    rw [get_folded render h.intact hv hi, rawAfter, if_neg]
    rintro ⟨-, hodd⟩
    rw [h.taskAccumId_eq i] at hodd
    cases hodd
  rw [after_fields, hfolded]

/-- Two tasks of one pixel: their box is still whole after the first frame, and both have been rendered. -/
theorem boxes_count_alike_strip :
    let render : PixelRenderer := fun _ p i => .ofColor (.splat (.ofNat (p.x + i)))
    ∃ b, create ⟨⟨2, 1⟩, .rgba8, .ofList [.accum, .variance], ⟨1, 1⟩⟩ = .ok b ∧
      let last := play render ([.standard].map fun camera => ⟨.none, camera, ⟨0.5, 8⟩⟩) b
      last.tracker.regions = [⟨⟨0, 0⟩, ⟨2, 1⟩⟩] ∧ last.taskAccumId 0 = last.taskAccumId 1 ∧ last.taskAccumId 1 = 1 := by
  intro render
  obtain ⟨b, hb, hv, hboxes⟩ : ∃ b, create ⟨⟨2, 1⟩, .rgba8, .ofList [.accum, .variance], ⟨1, 1⟩⟩ = .ok b ∧
      b.desc.has .variance = true ∧ (b.tracker.refine 0.5).1.regions = [⟨⟨0, 0⟩, ⟨2, 1⟩⟩] :=
    ⟨_, rfl, rfl, by decide +kernel⟩
  have hstarted : Started b := .create hb
  have hregions : (after render b ⟨.none, .standard, ⟨0.5, 8⟩⟩).tracker.regions = [⟨⟨0, 0⟩, ⟨2, 1⟩⟩] := by
    rw [hstarted.tracker_after render hv]
    exact hboxes
  have halike := boxes_count_alike hstarted render ⟨0.5, 8⟩ [.standard] ⟨⟨0, 0⟩, ⟨2, 1⟩⟩
    (hregions ▸ List.mem_singleton_self _) ⟨0, 0⟩ ⟨1, 0⟩ (by decide) (by decide)
  refine ⟨b, hb, hregions, ?_, ?_⟩
  · obtain ⟨-, rfl⟩ := eq_of_create hb
    exact halike
  · have hrendered : 1 ∈ b.nextTasks ⟨0.5, 8⟩ := by
      obtain ⟨-, rfl⟩ := eq_of_create hb
      exact mem_nextTasks.2 ⟨by decide, wanted_of_frameId_lt (by decide) 1⟩
    have hcount : (after render b _).taskAccumId 1 = _ :=
      after_taskAccumId render ⟨.none, .standard, ⟨0.5, 8⟩⟩ hstarted.intact (mem_nextTasks.1 hrendered).1
    rw [renderedIds_none _ b rfl, if_pos hrendered, hstarted.taskAccumId_eq] at hcount
    exact hcount

end AdaptiveFrame.DenseBuffer
