import AdaptiveFrame.Number.Binary32
import AdaptiveFrame.Grid.Region

/-!
# Adaptive stopping

Every render task carries an error estimate. Boxes over the task grid group tasks that share one
decision: a box that is nearly converged is halved, and dropped once its tasks are converged. Tasks
are rendered again while their error exceeds the threshold, so a converged task that shares a box
with one that is not is raised just above it.
-/

namespace AdaptiveFrame

/-- Errors of the tasks of a grid, row-major, and the boxes that still share a decision. A grid without
tasks tracks nothing. -/
structure ErrorTracker where
  grid : Point
  errors : Array Float32
  regions : List Region
  size_eq : errors.size = grid.area

namespace ErrorTracker

/-- A box whose average error is within this factor of the threshold may shrink. -/
def splitFactor : Float32 := 4

/-- The single box over the grid, none if the grid is empty. -/
def wholeGrid (grid : Point) : List Region := if grid.area == 0 then [] else [.ofSize grid]

/-- A tracker that knows no error yet. -/
def fresh (grid : Point) : ErrorTracker :=
  ⟨grid, Array.replicate grid.area Binary32.posInf, wholeGrid grid, by simp⟩

/-- A tracker of no tasks at all. -/
def disabled : ErrorTracker := fresh .zero

def isEnabled (t : ErrorTracker) : Bool := !t.errors.isEmpty

/-- Forgets all errors and restores the single box. -/
def clear (t : ErrorTracker) : ErrorTracker := fresh t.grid

/-- The error of a task, infinite where none is tracked. -/
def get (t : ErrorTracker) (taskId : Nat) : Float32 := (t.errors[taskId]?).getD Binary32.posInf

/-- Whether a position has an entry; positions beyond a row run on into the next. -/
def covers (t : ErrorTracker) (task : Point) : Bool := task.rowMajor t.grid.x < t.errors.size

/-- Replaces the error of the task at a grid position. -/
def update (t : ErrorTracker) (task : Point) (error : Float32) : ErrorTracker :=
  match t with
  | ⟨grid, errors, regions, size_eq⟩ =>
    ⟨grid, errors.setIfInBounds (task.rowMajor grid.x) error, regions, by simp [size_eq]⟩

/-- Recomputes every error from its task id. -/
def mapErrors (t : ErrorTracker) (f : Nat → Float32 → Float32) : ErrorTracker :=
  { t with errors := t.errors.mapIdx f, size_eq := by simp [t.size_eq] }

/-! ## Refinement -/

/-- Row-major task ids of a box of the grid. -/
def taskIds (grid : Point) (r : Region) : List Nat := r.points.map (·.rowMajor grid.x)

/-- The mean over the errors above the threshold, or the largest error if there is none. -/
def frameError (errors : Array Float32) (threshold : Float32) : Float32 :=
  let (largest, sum, count) := errors.foldl (fun (largest, sum, count) e =>
    (Binary32.maxNum largest e, if threshold < e then sum + e else sum, if threshold < e then count + 1 else count))
    ((0 : Float32), (0 : Float32), 0)
  if count = 0 then largest else sum / .ofNat count

/-- Sum and maximum of the errors of a box. -/
def boxErrors (errors : Array Float32) (ids : List Nat) : Float32 × Float32 :=
  ids.foldl (fun (sum, largest) i =>
    let e := (errors[i]?).getD Binary32.posInf
    (sum + e, Binary32.maxNum largest e)) (0, 0)

/-- Raises the errors of a box to at least `floor`. -/
def raise (errors : Array Float32) (ids : List Nat) (floor : Float32) : Array Float32 :=
  ids.foldl (fun es i => es.modify i (Binary32.maxNum · floor)) errors

/-- What is left of a box: itself while its average is far above the threshold, otherwise its halves, or
nothing once it is converged or too small to halve. -/
def shrink (threshold : Float32) (r : Region) (sum largest : Float32) : List Region :=
  if sum / .ofNat r.area ≤ splitFactor * threshold then
    if r.area ≤ 2 || largest ≤ threshold then [] else [r.split.1, r.split.2]
  else [r]

/-- Refines one box: the errors with its tasks raised if one of them is above the threshold, and what is left of it. -/
def refineBox (grid : Point) (threshold : Float32) (errors : Array Float32) (r : Region) :
    Array Float32 × List Region :=
  let ids := taskIds grid r
  let (sum, largest) := boxErrors errors ids
  let errors := if threshold < largest then raise errors ids (Binary32.nextUp threshold) else errors
  (errors, shrink threshold r sum largest)

/-- Refines boxes one after another; boxes made on the way are not visited again. -/
def refineBoxes (grid : Point) (threshold : Float32) : Array Float32 → List Region → Array Float32 × List Region
  | errors, [] => (errors, [])
  | errors, r :: rs =>
    let (errors, left) := refineBox grid threshold errors r
    let (errors, rest) := refineBoxes grid threshold errors rs
    (errors, left ++ rest)

private theorem size_raise (errors : Array Float32) (ids : List Nat) (floor : Float32) :
    (raise errors ids floor).size = errors.size := by
  unfold raise
  induction ids generalizing errors with
  | nil => rfl
  | cons i ids ih => simp [ih]

theorem size_refineBoxes (grid : Point) (threshold : Float32) (errors : Array Float32) (rs : List Region) :
    (refineBoxes grid threshold errors rs).1.size = errors.size := by
  induction rs generalizing errors with
  | nil => rfl
  | cons r rs ih =>
    simp only [refineBoxes, ih, refineBox]
    split <;> simp [size_raise]

/-- One refinement pass. Also returns the error of the frame, infinite where nothing is tracked. -/
def refine (t : ErrorTracker) (threshold : Float32) : ErrorTracker × Float32 :=
  if t.isEnabled then
    let refined := refineBoxes t.grid threshold t.errors t.regions
    (⟨t.grid, refined.1, refined.2, (size_refineBoxes ..).trans t.size_eq⟩, frameError t.errors threshold)
  else (t, Binary32.posInf)

end ErrorTracker

end AdaptiveFrame
