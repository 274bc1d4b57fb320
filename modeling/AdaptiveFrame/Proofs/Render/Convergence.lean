import AdaptiveFrame.Proofs.Accum.Raising
import AdaptiveFrame.Proofs.Render.DenseFrame

/-!
# Tasks that are left out stay left out

Refining a box can raise the error of a task that has converged, so that a task left out could come back. It
does not, because between frames every box is above the threshold as a whole or not at all (`Steady`): with a
task that is left out its whole box is left out, so no error of the box is renewed and none is raised. Once
all tasks are left out the frames that follow have nothing to do.
-/

namespace AdaptiveFrame.DenseBuffer

open AdaptiveFrame.Frame

variable {b : DenseBuffer} {config : SamplingConfig} {shot : Shot} {t : Nat} {threshold : Float32}
  (render : PixelRenderer)

/-! ## Leaving tasks out -/

theorem after_grid (b : DenseBuffer) (shot : Shot) : (after render b shot).tracker.grid = b.tracker.grid := by
  rw [after_fields]
  exact (ErrorTracker.grid_refine ..).trans (boxes_folded render shot b).1

/-- A buffer between two frames of a run. -/
structure Steady (threshold : Float32) (b : DenseBuffer) : Prop where
  intact : b.Intact
  settled : b.tracker.Settled threshold

theorem Started.steady (h : Started b) : Steady threshold b := by
  obtain ⟨⟨grid, htracker⟩, -⟩ := h.fresh
  refine ⟨h.intact, ?_⟩
  rw [htracker]
  exact ErrorTracker.settled_fresh threshold grid

theorem Steady.after (h : b.Steady threshold) (h0 : 0 < shot.config.threshold) :
    (after render b shot).Steady shot.config.threshold := by
  refine ⟨after_intact render shot h.intact, ?_⟩
  rw [after_fields]
  exact ErrorTracker.settled_refine (Binary32.le_of_lt h0) (folded_intact render shot h.intact).1.boxes

theorem Steady.play (h0 : 0 < config.threshold) {shots : List Shot} (hshots : ∀ shot ∈ shots, shot.config = config)
    (h : b.Steady config.threshold) : (play render shots b).Steady config.threshold :=
  Writes.inv_foldl (I := Steady config.threshold) h fun c shot hmem hc => by
    rw [← hshots shot hmem] at h0 ⊢
    exact hc.after render h0

end AdaptiveFrame.DenseBuffer
