import AdaptiveFrame.Render.Background
import AdaptiveFrame.Proofs.Buffer.SparseFold
import AdaptiveFrame.Proofs.Render.Convergence

/-!
# Stopping frames in the background

A request to stop is noted twice, and opening the frame erases one of the two notes. Whatever happens
between the two, and whatever the frame does meanwhile, the request is not lost: once both notes are made, every
task that the frame has yet to reach is skipped, and the frame reports that it was stopped (`stopped_for_good`).

`Job.Moves` says what one event can do to one frame and to the buffer. `Job.Stopped` is what holds of a frame
from the second note on, and every move keeps it.
-/

namespace AdaptiveFrame

open FrameBuffer

/-- The laws that every kind of frame buffer keeps to about its shared state, as far as requests to stop go. -/
class LawfulFrameBuffer (β : Type) [FrameBuffer β] : Prop where
  life_setLife (b : β) (l : Lifecycle) : life (setLife b l) = l
  setLife_setLife (b : β) (l l' : Lifecycle) : setLife (setLife b l) l' = setLife b l'
  setLife_life (b : β) : setLife b (life b) = b
  /-- Opening a frame erases a request. -/
  status_beginFrame (b : β) : status (beginFrame b) = (status b).opened
  cancelled_accumulateAll (b : β) (tiles : List Tile) : (status (accumulateAll b tiles)).cancelled = (status b).cancelled
  status_endFrame (b : β) (threshold : Float32) : status (endFrame b threshold) = status b
  status_postProcess (b : β) : status (postProcess b) = status b
  /-- Without tiles there is nothing to fold. -/
  accumulateAll_nil (b : β) : ∃ s, accumulateAll b [] = setStatus b s

namespace DenseBuffer

theorem life_absorb (b : DenseBuffer) (t : Tile) : (b.absorb t).1.life = b.life := by
  rcases ho : t.region.overlaps b.desc.image with _ | _
  · rw [absorb_of_outside ho]
  · rw [absorb_eq ho]

theorem cancelled_accumulateAll (b : DenseBuffer) (tiles : List Tile) :
    (b.accumulateAll tiles).life.status.cancelled = b.life.status.cancelled := by
  have hrows : ((List.range (Tiling.tileCount b.desc.size).y).foldl
      (fun b row => (band tiles row).foldl (fun b t => (b.absorb t).1) b) b).life = b.life :=
    Writes.inv_foldl (I := fun c : DenseBuffer => c.life = b.life) rfl fun c row _ hc =>
      Writes.inv_foldl (I := fun c : DenseBuffer => c.life = b.life) hc fun c t _ hc => (c.life_absorb t).trans hc
  have hcancelled := congrArg (fun l : Lifecycle => l.status.cancelled) hrows
  exact hcancelled

instance : LawfulFrameBuffer DenseBuffer where
  life_setLife _ _ := rfl
  setLife_setLife _ _ _ := rfl
  setLife_life _ := rfl
  status_beginFrame _ := rfl
  cancelled_accumulateAll := cancelled_accumulateAll
  status_endFrame b threshold := by
    change (b.endFrame threshold).life.status = b.life.status
    rw [endFrame_eq]
  status_postProcess b := by
    change b.postProcess.life.status = b.life.status
    rw [postProcess_eq]
  accumulateAll_nil b := ⟨_, accumulateAll_nil b⟩

end DenseBuffer

namespace SparseBuffer

instance : LawfulFrameBuffer SparseBuffer where
  life_setLife _ _ := rfl
  setLife_setLife _ _ _ := rfl
  setLife_life _ := rfl
  status_beginFrame _ := rfl
  cancelled_accumulateAll s tiles := (accumulateAll_frame s tiles).2.2
  status_endFrame s _ := by
    change s.endFrame.life.status = s.life.status
    unfold endFrame
    split <;> rfl
  status_postProcess _ := rfl
  accumulateAll_nil s := ⟨s.life.status, rfl⟩

end SparseBuffer

/-! ## The status of a buffer -/

section Status

variable {β : Type} [FrameBuffer β] [LawfulFrameBuffer β] (b : β)

@[simp] theorem status_setStatus (s : FrameStatus) : status (setStatus b s) = s := by
  rw [status, setStatus, LawfulFrameBuffer.life_setLife]

theorem setStatus_setStatus (s s' : FrameStatus) : setStatus (setStatus b s) s' = setStatus b s' := by
  simp only [setStatus, LawfulFrameBuffer.life_setLife, LawfulFrameBuffer.setLife_setLife]

@[simp] theorem setStatus_status : setStatus b (status b) = b := LawfulFrameBuffer.setLife_life b

@[simp] theorem cancelled_cancelFrame : (status (cancelFrame b)).cancelled = true := by
  rw [cancelFrame, status_setStatus]
  rfl

@[simp] theorem cancelled_complete (e : SyncEvent) : (status (complete b e)).cancelled = (status b).cancelled := by
  rw [complete, status_setStatus]
  rfl

@[simp] theorem cancelled_beginFrame : (status (beginFrame b)).cancelled = false := by
  rw [LawfulFrameBuffer.status_beginFrame]
  rfl

attribute [simp] LawfulFrameBuffer.cancelled_accumulateAll LawfulFrameBuffer.status_endFrame
  LawfulFrameBuffer.status_postProcess

end Status

/-! ## What one event does to a frame -/

namespace Job

variable {β : Type} [FrameBuffer β]

/-- What an event can make of the buffer and of the frame with a number. -/
inductive Moves (number : Nat) : BackgroundEvent → β → Job → β → Job → Prop where
  | requested (b : β) (j : Job) : Moves number (.request number) b j b { j with requested := true }
  | raised (owner : Option Nat) (b : β) (j : Job) : Moves number (.raise owner) b j (cancelFrame b) j
  | stepped (b : β) (j : Job) : Moves number (.advance number) b j (j.step b).1 (j.step b).2
  | reached (place : Nat) (b : β) (j : Job) : Moves number (.reach number place) b j b (j.reach b place)
  /-- The event is about another frame and leaves the buffer alone. -/
  | passed (e : BackgroundEvent) (b : β) (j : Job) : Moves number e b j b j
  /-- Another frame took a step, which it can only while this one does not hold the buffer. -/
  | waited (e : BackgroundEvent) (b b' : β) {j : Job} (h : j.isRunning = false) : Moves number e b j b' j

/-- The tiles that a frame has rendered so far, while it runs. -/
def tiles (j : Job) : List Tile :=
  match j.phase with
  | .rendering slots => slots.filterMap Slot.tile?
  | .folded tiles | .closed tiles => tiles
  | _ => []

theorem isReady_iff {j : Job} : j.isReady = true ↔ ∃ stats, j.phase = .finished stats := by
  unfold isReady
  split
  · rename_i stats h
    exact ⟨fun _ => ⟨stats, h⟩, fun _ => rfl⟩
  · rename_i h
    exact ⟨fun hc => by simp at hc, fun ⟨stats, hs⟩ => absurd hs (h stats)⟩

theorem requested_step (b : β) (j : Job) : (j.step b).2.requested = j.requested := by
  unfold step
  split
  all_goals try rfl
  split
  · unfold reach
    split <;> rfl
  · rfl

end Job

namespace Background

variable {β : Type} [FrameBuffer β] {s : Background β} {job : Nat} {j : Job}

theorem run_append (s : Background β) (es es' : List BackgroundEvent) : s.run (es ++ es') = (s.run es).run es' :=
  List.foldl_append

omit [FrameBuffer β] in
/-- A frame that may take a step is the only one that may hold the buffer. -/
theorem isRunning_of_mayAdvance {other : Nat} (h : s.mayAdvance other = true) (hj : s.jobs[job]? = some j)
    (hne : other ≠ job) : j.isRunning = false := by
  obtain ⟨hlt, rfl⟩ := List.getElem?_eq_some_iff.1 hj
  have hfree := List.all_eq_true.1 h (s.jobs[job], job) (List.mem_zipIdx_iff_getElem?.2 hj)
  simpa [Ne.symm hne] using hfree

theorem handle_moves (hj : s.jobs[job]? = some j) (e : BackgroundEvent) :
    ∃ j', (s.handle e).jobs[job]? = some j' ∧ j.Moves job e s.buffer (s.handle e).buffer j' := by
  cases e with
  | request other =>
    simp only [handle, List.getElem?_modify, hj]
    by_cases ho : other = job
    · subst ho
      exact ⟨_, congrArg some (if_pos rfl), .requested _ _⟩
    · exact ⟨_, congrArg some (if_neg ho), .passed _ _ _⟩
  | raise owner => exact ⟨j, hj, .raised owner _ _⟩
  | advance other =>
    simp only [handle, advance]
    split
    · rename_i k hk
      split
      · rename_i hmay
        dsimp only
        by_cases ho : other = job
        · subst ho
          obtain rfl : k = j := Option.some.inj (hk.symm.trans hj)
          have hlt := (List.getElem?_eq_some_iff.1 hj).1
          exact ⟨_, List.getElem?_set_self hlt, .stepped _ _⟩
        · exact ⟨j, (List.getElem?_set_ne ho).trans hj, .waited _ _ _ (isRunning_of_mayAdvance hmay hj ho)⟩
      · exact ⟨j, hj, .passed _ _ _⟩
    · exact ⟨j, hj, .passed _ _ _⟩
  | reach other place =>
    simp only [handle, List.getElem?_modify, hj]
    by_cases ho : other = job
    · subst ho
      exact ⟨_, congrArg some (if_pos rfl), .reached _ _ _⟩
    · exact ⟨_, congrArg some (if_neg ho), .passed _ _ _⟩

/-- What every move of a frame keeps holds after a run. -/
theorem run_keeps {I : β → Job → Prop} (job : Nat)
    (hmoves : ∀ {e b j b' j'}, j.Moves job e b b' j' → I b j → I b' j')
    (hj : s.jobs[job]? = some j) (hi : I s.buffer j) (events : List BackgroundEvent) :
    ∃ j', (s.run events).jobs[job]? = some j' ∧ I (s.run events).buffer j' := by
  induction events generalizing s j with
  | nil => exact ⟨j, hj, hi⟩
  | cons e es ih =>
    obtain ⟨j', hj', hmove⟩ := handle_moves hj e
    exact ih hj' (hmoves hmove hi)

/-- A report does not change any more. -/
theorem stats?_run {stats : FrameStats} (h : s.stats? job = some stats) (events : List BackgroundEvent) :
    (s.run events).stats? job = some stats := by
  obtain ⟨j, hj, hphase⟩ : ∃ j, s.jobs[job]? = some j ∧ j.phase = .finished stats := by
    unfold stats? at h
    split at h
    · rename_i hf
      obtain ⟨j, hj, hp⟩ := Option.map_eq_some_iff.1 hf
      cases h
      exact ⟨j, hj, hp⟩
    · cases h
  obtain ⟨j', hj', hphase'⟩ := run_keeps (I := fun _ j => j.phase = .finished stats) job
    (fun hmove hp => by
      cases hmove with
      | stepped b j =>
        unfold Job.step
        rw [hp]
        exact hp
      | reached place b j =>
        unfold Job.reach
        rw [hp]
        exact hp
      | _ => exact hp) hj hphase events
  unfold stats?
  rw [hj', Option.map_some, hphase']

end Background

/-! ## A frame that was stopped -/

namespace Job

variable {β : Type} [FrameBuffer β]

/-- What holds of a frame from the time on when a request to stop it was noted for good: until it has passed on its
own note it may rely on that one, from then on on the status. -/
def Heard (b : β) (j : Job) : Prop :=
  match j.phase with
  | .queued => j.requested = true
  | .opened => j.requested = true ∨ (status b).cancelled = true
  | .noted stop => stop = true ∨ (status b).cancelled = true
  | .rendering _ | .folded _ | .closed _ => (status b).cancelled = true
  | .finished stats => stats.cancelled = true

/-- A frame with some tiles rendered that renders no others and will report that it was stopped. -/
structure Stopped (rendered : List Tile) (b : β) (j : Job) : Prop where
  heard : j.Heard b
  tiles : j.isReady = false → j.tiles = rendered
  report : ∀ stats, j.phase = .finished stats →
    stats.tasks = rendered.length ∧ stats.pixels = Frame.pixelCount rendered

theorem filterMap_tile?_waiting (tasks : List RenderTask) : (tasks.map Slot.waiting).filterMap Slot.tile? = [] := by
  rw [List.filterMap_map]
  exact List.filterMap_eq_nil_iff.2 fun _ _ => rfl

theorem tile?_visit {b : β} {j : Job} (hc : (status b).cancelled = true) (slot : Slot) :
    (j.visit b slot).tile? = slot.tile? := by
  cases slot with
  | waiting t => simp only [visit, hc, if_true, Slot.tile?]
  | _ => rfl

theorem filterMap_modify {α γ : Type} {g : α → Option γ} {f : α → α} (h : ∀ a, g (f a) = g a) (l : List α) (i : Nat) :
    (l.modify i f).filterMap g = l.filterMap g := by
  induction l generalizing i with
  | nil => rw [List.modify_nil]
  | cons a l ih =>
    cases i with
    | zero => rw [List.modify_zero_cons, List.filterMap_cons, List.filterMap_cons, h]
    | succ i => rw [List.modify_succ_cons, List.filterMap_cons, List.filterMap_cons, ih]

/-- A stopped frame skips the tasks that it reaches. -/
theorem Stopped.reach {rendered : List Tile} {b : β} {j : Job} (h : j.Stopped rendered b) (place : Nat) :
    (j.reach b place).Stopped rendered b := by
  unfold Job.reach
  split
  · rename_i slots hp
    have hc : (status b).cancelled = true := by simpa only [Heard, hp] using h.heard
    refine ⟨hc, fun _ => ?_, fun _ hf => by cases hf⟩
    have ht : slots.filterMap Slot.tile? = rendered := by
      simpa only [Job.tiles, hp] using h.tiles (by simp only [isReady, hp])
    exact (filterMap_modify (tile?_visit hc) slots place).trans ht
  · exact h

theorem Stopped.step [LawfulFrameBuffer β] {rendered : List Tile} {b : β} {j : Job} (h : j.Stopped rendered b) :
    (j.step b).2.Stopped rendered (j.step b).1 := by
  obtain ⟨render, camera, config, requested, phase⟩ := j
  have hr := h.reach
  obtain ⟨hheard, htiles, hreport⟩ := h
  cases phase with
  | queued => exact ⟨.inl hheard, htiles, fun _ hf => by cases hf⟩
  | opened => exact ⟨hheard, htiles, fun _ hf => by cases hf⟩
  | noted stop =>
    refine ⟨?_, fun _ => (filterMap_tile?_waiting _).trans (htiles rfl), fun _ hf => by cases hf⟩
    change (status (if stop = true then cancelFrame b else b)).cancelled = true
    split
    · exact cancelled_cancelFrame b
    · rename_i hstop
      exact hheard.resolve_left hstop
  | rendering slots =>
    simp only [Job.step]
    split
    · exact hr _
    · refine ⟨?_, fun _ => htiles rfl, fun _ hf => by cases hf⟩
      have hc : (status b).cancelled = true := hheard
      change (status (complete (accumulateAll b _) _)).cancelled = true
      simpa using hc
  | folded tiles =>
    refine ⟨?_, fun _ => htiles rfl, fun _ hf => by cases hf⟩
    have hc : (status b).cancelled = true := hheard
    change (status (complete (postProcess (endFrame b _)) _)).cancelled = true
    simpa using hc
  | closed tiles =>
    obtain rfl : tiles = rendered := htiles rfl
    refine ⟨hheard, fun hc => (by cases hc), fun stats hf => ?_⟩
    cases hf
    exact ⟨rfl, rfl⟩
  | finished stats => exact ⟨hheard, htiles, hreport⟩

theorem Stopped.moves [LawfulFrameBuffer β] {rendered : List Tile} {number : Nat} {e : BackgroundEvent} {b b' : β}
    {j j' : Job} (hmove : j.Moves number e b b' j') (h : j.Stopped rendered b) : j'.Stopped rendered b' := by
  cases hmove with
  | requested =>
    refine ⟨?_, h.tiles, h.report⟩
    have hheard := h.heard
    unfold Heard at hheard ⊢
    cases hp : j.phase <;> simp_all
  | raised owner =>
    refine ⟨?_, h.tiles, h.report⟩
    have hheard := h.heard
    unfold Heard at hheard ⊢
    cases hp : j.phase <;> simp_all
  | stepped => exact h.step
  | reached place => exact h.reach place
  | passed => exact h
  | waited _ _ _ hrun =>
    refine ⟨?_, h.tiles, h.report⟩
    have hheard := h.heard
    unfold Heard at hheard ⊢
    unfold isRunning at hrun
    cases hp : j.phase <;> simp_all

/-- A request to stop reaches a frame that holds the buffer through the status alone. -/
theorem heard_of_raised {b : β} {j : Job} (hrun : j.isRunning = true) (hc : (status b).cancelled = true) :
    j.Heard b := by
  unfold isRunning at hrun
  unfold Heard
  cases hp : j.phase <;> simp_all

/-- Both notes together reach every frame that is not finished. -/
theorem heard_of_notes {b : β} {j : Job} (hr : j.requested = true) (hc : (status b).cancelled = true)
    (hready : j.isReady = false) : j.Heard b := by
  unfold isReady at hready
  unfold Heard
  cases hp : j.phase <;> simp_all

theorem Heard.stopped {b : β} {j : Job} (h : j.Heard b) (hready : j.isReady = false) : j.Stopped j.tiles b := by
  refine ⟨h, fun _ => rfl, fun stats hf => ?_⟩
  rw [isReady_iff.2 ⟨stats, hf⟩] at hready
  cases hready

theorem Stopped.reported {rendered : List Tile} {b : β} {j : Job} {stats : FrameStats} (h : j.Stopped rendered b)
    (hp : j.phase = .finished stats) : stats.cancelled = true ∧ stats.tasks = rendered.length ∧
      stats.pixels = Frame.pixelCount rendered := by
  have hheard := h.heard
  unfold Heard at hheard
  rw [hp] at hheard
  exact ⟨hheard, h.report stats hp⟩

/-- A stopped frame that rendered nothing folds nothing. -/
theorem Stopped.buffer_step [LawfulFrameBuffer β] {b : β} {j : Job} (h : j.Stopped [] b) {slots : List Slot}
    (hp : j.phase = .rendering slots) : ∃ st, (j.step b).1 = setStatus b st := by
  have ht : slots.filterMap Slot.tile? = [] := by
    simpa only [Job.tiles, hp] using h.tiles (by simp only [isReady, hp])
  unfold Job.step
  rw [hp]
  dsimp only
  split
  · exact ⟨status b, (setStatus_status b).symm⟩
  · rw [ht]
    obtain ⟨st, hst⟩ := LawfulFrameBuffer.accumulateAll_nil b
    exact ⟨_, (congrArg (complete · SyncEvent.worldRendered) hst).trans (setStatus_setStatus b st _)⟩

/-! ## A frame comes to its end -/

/-- The buffer and the frame after some steps. -/
def after (n : Nat) (x : β × Job) : β × Job := (fun x : β × Job => x.2.step x.1)^[n] x

theorem countP_modify {α : Type} {p : α → Bool} {f : α → α} (h : ∀ a, p (f a) = false) {l : List α} {i : Nat}
    (hi : l.findIdx? p = some i) : (l.modify i f).countP p + 1 = l.countP p := by
  induction l generalizing i with
  | nil => cases hi
  | cons a l ih =>
    rw [List.findIdx?_cons] at hi
    cases ha : p a with
    | true =>
      rw [ha, if_pos rfl] at hi
      cases hi
      rw [List.modify_zero_cons, List.countP_cons_of_neg (by simp [h a]), List.countP_cons_of_pos ha]
    | false =>
      rw [ha, if_neg (by simp)] at hi
      obtain ⟨k, hk, rfl⟩ := Option.map_eq_some_iff.1 hi
      rw [List.modify_succ_cons, List.countP_cons_of_neg (by simp [ha]), List.countP_cons_of_neg (by simp [ha]), ih hk]

theorem isWaiting_visit (b : β) (j : Job) (slot : Slot) : (j.visit b slot).isWaiting = false := by
  cases slot with
  | waiting t =>
    unfold visit
    dsimp only
    split <;> rfl
  | _ => rfl

theorem stepsToTasks_after (b : β) (j : Job) : (after j.stepsToTasks (b, j)).2.stepsToTasks = 0 := by
  unfold stepsToTasks
  cases hp : j.phase <;> simp [after, step, hp]

theorem isReady_after_rendering {n : Nat} {b : β} {j : Job} {slots : List Slot} (hp : j.phase = .rendering slots)
    (hn : slots.countP Slot.isWaiting = n) : (after (n + 3) (b, j)).2.isReady = true := by
  induction n generalizing b j slots with
  | zero =>
    have hnone : slots.findIdx? Slot.isWaiting = none := by
      rw [List.findIdx?_eq_none_iff]
      intro slot hslot
      simpa using List.countP_eq_zero.1 hn slot hslot
    simp [after, step, hp, hnone, isReady]
  | succ n ih =>
    cases hi : slots.findIdx? Slot.isWaiting with
    | none =>
      rw [List.findIdx?_eq_none_iff] at hi
      have hzero := List.countP_eq_zero.2 fun slot hslot => by simpa using hi slot hslot
      omega
    | some place =>
      have hcount := countP_modify (isWaiting_visit b j) hi
      have hstep : j.step b = (b, { j with phase := .rendering (slots.modify place (j.visit b)) }) := by
        simp only [step, hp, hi, reach]
      have hafter : after (n + 1 + 3) (b, j) = after (n + 3) (j.step b) := Function.iterate_succ_apply ..
      rw [hafter, hstep]
      exact ih rfl (by omega)

theorem isReady_after (b : β) {j : Job} (hj : j.stepsToTasks = 0) : (after j.stepsToEnd (b, j)).2.isReady = true := by
  cases hp : j.phase with
  | rendering slots =>
    rw [stepsToEnd, hp]
    exact isReady_after_rendering hp rfl
  | _ => simp_all [stepsToTasks, stepsToEnd, after, step, isReady]

end Job

namespace Background

variable {β : Type} [FrameBuffer β] {s : Background β} {job : Nat} {j : Job}

theorem advance_of_may (hmay : s.mayAdvance job = true) (hj : s.jobs[job]? = some j) :
    s.advance job = ⟨(j.step s.buffer).1, s.jobs.set job (j.step s.buffer).2⟩ := by
  unfold advance
  rw [hj]
  exact if_pos hmay

omit [FrameBuffer β] in
/-- Whether a frame may take a step is up to the others. -/
theorem mayAdvance_set (hmay : s.mayAdvance job = true) (b : β) (j : Job) :
    (Background.mk b (s.jobs.set job j)).mayAdvance job = true := by
  refine List.all_eq_true.2 fun ⟨k, i⟩ hk => ?_
  have hk := List.mem_zipIdx_iff_getElem?.1 hk
  by_cases hi : i = job
  · simp [hi]
  · rw [List.getElem?_set_ne (Ne.symm hi)] at hk
    simp [isRunning_of_mayAdvance hmay hk (Ne.symm hi)]

theorem advanceBy_eq (hmay : s.mayAdvance job = true) (hj : s.jobs[job]? = some j) (n : Nat) :
    (s.advanceBy job n).mayAdvance job = true ∧
      (s.advanceBy job n).jobs[job]? = some (Job.after n (s.buffer, j)).2 := by
  induction n generalizing s j with
  | zero => exact ⟨hmay, hj⟩
  | succ n ih =>
    have hlt := (List.getElem?_eq_some_iff.1 hj).1
    have hnext : s.advanceBy job (n + 1) = (s.advance job).advanceBy job n := rfl
    rw [hnext, advance_of_may hmay hj]
    exact ih (mayAdvance_set hmay _ _) (List.getElem?_set_self hlt)

/-- A frame that may take a step comes to its end. -/
theorem isSome_stats?_finish (hmay : s.mayAdvance job = true) (hj : s.jobs[job]? = some j) :
    ((s.finish job).stats? job).isSome = true := by
  obtain ⟨hmay', hj'⟩ := advanceBy_eq hmay hj j.stepsToTasks
  have hplan : s.plan job = s.advanceBy job j.stepsToTasks := by
    unfold plan
    rw [hj, Option.elim_some]
  have hready := Job.isReady_after (s.plan job).buffer (Job.stepsToTasks_after s.buffer j)
  rw [← hplan] at hmay' hj'
  obtain ⟨-, hj''⟩ := advanceBy_eq hmay' hj' (Job.after j.stepsToTasks (s.buffer, j)).2.stepsToEnd
  obtain ⟨stats, hstats⟩ := Job.isReady_iff.1 hready
  unfold finish stats?
  dsimp only
  rw [hj', Option.elim_some, hj'', Option.map_some, hstats]
  rfl

omit [FrameBuffer β] in
theorem stats?_eq_some {stats : FrameStats} (hj : s.jobs[job]? = some j) :
    s.stats? job = some stats ↔ j.phase = .finished stats := by
  unfold stats?
  rw [hj, Option.map_some]
  constructor
  · intro h
    split at h
    · rename_i hf
      cases h
      exact Option.some.inj hf
    · cases h
  · intro h
    rw [h]

/-- A frame that was stopped stays so. -/
theorem run_stopped [LawfulFrameBuffer β] {rendered : List Tile} (hj : s.jobs[job]? = some j)
    (h : j.Stopped rendered s.buffer) (events : List BackgroundEvent) :
    ∃ j', (s.run events).jobs[job]? = some j' ∧ j'.Stopped rendered (s.run events).buffer :=
  run_keeps job (fun hmove h => h.moves hmove) hj h events

/-- The state when both notes of a request are made. -/
theorem jobs_requested [LawfulFrameBuffer β] (hjob : job < s.jobs.length) (before between : List BackgroundEvent) :
    let returned := s.run (before ++ .request job :: between ++ [.raise (some job)])
    ∃ j, returned.jobs[job]? = some j ∧ j.requested = true ∧ (status returned.buffer).cancelled = true := by
  intro returned
  have hreturned : returned = (((s.run before).handle (.request job)).run between).handle (.raise (some job)) := by
    show List.foldl .. = _
    rw [List.foldl_append, List.foldl_append]
    rfl
  obtain ⟨j, hj, -⟩ := run_keeps (I := fun _ _ => True) job (fun _ _ => trivial) (List.getElem?_eq_getElem hjob) trivial before
  have hrequested : ((s.run before).handle (.request job)).jobs[job]? = some { j with requested := true } := by
    rw [handle, List.getElem?_modify_eq, hj]
    rfl
  obtain ⟨j', hj', hr⟩ := run_keeps (I := fun _ j => j.requested = true) job
    (fun hmove h => by
      cases hmove with
      | requested => rfl
      | stepped => exact (Job.requested_step _ _).trans h
      | reached =>
        unfold Job.reach
        split <;> exact h
      | _ => exact h) hrequested rfl between
  rw [hreturned]
  exact ⟨j', hj', hr, cancelled_cancelFrame _⟩

/-- **A request to stop is not lost.** Both notes of a request to stop a frame are made, with anything in between. From
then on, whatever happens later, the frame renders no task any more: its tiles stay those that it had, and it folds
them and no others. If its report was still to be made, it says that the frame was stopped, and counts those tiles.
A frame that was still queued renders nothing and, when it comes to folding, changes nothing of the buffer but its
status. The report is made: whenever no other frame holds the buffer, the frame runs to its end. -/
theorem stopped_for_good [LawfulFrameBuffer β] (s : Background β) {job : Nat} (hjob : job < s.jobs.length)
    (before between later : List BackgroundEvent) :
    let returned := s.run (before ++ .request job :: between ++ [.raise (some job)])
    let now := returned.run later
    ∃ j j', returned.jobs[job]? = some j ∧ now.jobs[job]? = some j' ∧
      (j'.isReady = false → j'.tiles = j.tiles) ∧
      (j.isReady = false → ∀ stats, now.stats? job = some stats →
        stats.cancelled = true ∧ stats.tasks = j.tiles.length ∧ stats.pixels = Frame.pixelCount j.tiles) ∧
      (j.phase = .queued → j.tiles = [] ∧
        ∀ slots, j'.phase = .rendering slots → ∃ st, (now.advance job).buffer = setStatus now.buffer st) ∧
      (now.mayAdvance job = true → ((now.finish job).stats? job).isSome = true) := by
  intro returned now
  obtain ⟨j, hj, hrequested, hcancelled⟩ := jobs_requested hjob before between
  cases hready : j.isReady with
  | true =>
    obtain ⟨stats, hstats⟩ := Job.isReady_iff.1 hready
    have hfinal := stats?_run ((stats?_eq_some hj).2 hstats) later
    obtain ⟨j', hj', -⟩ := run_keeps (I := fun _ _ => True) job (fun _ _ => trivial) hj trivial later
    have hready' := Job.isReady_iff.2 ⟨stats, (stats?_eq_some hj').1 hfinal⟩
    refine ⟨j, j', hj, hj', fun h => ?_, fun h => ?_, fun h => ?_, fun hmay => isSome_stats?_finish hmay hj'⟩
    · rw [hready'] at h
      cases h
    · rw [hready] at h
      cases h
    · rw [hstats] at h
      cases h
  | false =>
    have hstopped := (Job.heard_of_notes hrequested hcancelled hready).stopped hready
    obtain ⟨j', hj', hstopped'⟩ := run_stopped hj hstopped later
    refine ⟨j, j', hj, hj', hstopped'.tiles, fun _ stats hs => ?_, fun hqueued => ?_,
      fun hmay => isSome_stats?_finish hmay hj'⟩
    · exact hstopped'.reported ((stats?_eq_some hj').1 hs)
    · have hnil : j.tiles = [] := by
        unfold Job.tiles
        rw [hqueued]
      refine ⟨hnil, fun slots hp => ?_⟩
      rw [hnil] at hstopped'
      cases hmay : now.mayAdvance job with
      | true =>
        rw [advance_of_may hmay hj']
        exact hstopped'.buffer_step hp
      | false =>
        have hidle : now.advance job = now := by
          unfold advance
          rw [hj']
          exact if_neg (by simp [hmay])
        rw [hidle]
        exact ⟨_, (setStatus_status _).symm⟩

/-- The frame opens between the two notes, which erases nothing that counts. -/
theorem stopped_for_good_opened_between :
    let render : PixelRenderer := fun _ p i => .ofColor (.splat (.ofNat (p.x + i)))
    ∃ b, DenseBuffer.create ⟨⟨1, 1⟩, .rgba8, .ofList [.accum, .variance], ⟨1, 1⟩⟩ = .ok b ∧
      let s : Background DenseBuffer := ⟨b, [{ render, camera := .standard, config := ⟨0.5, 8⟩ }]⟩
      let now := (s.run ([] ++ .request 0 :: [.advance 0] ++ [.raise (some 0)])).run (List.replicate 6 (.advance 0))
      (now.stats? 0).map (fun stats => (stats.cancelled, stats.tasks, stats.pixels)) = some (true, 0, 0) := by
  intro render
  refine ⟨_, rfl, ?_⟩
  intro s now
  have hjob : 0 < s.jobs.length := Nat.zero_lt_one
  obtain ⟨j, -, hj, -, -, hreport, -, -⟩ := stopped_for_good s hjob [] [.advance 0] (List.replicate 6 (.advance 0))
  obtain rfl : _ = j := Option.some.inj hj
  have hsome : (now.stats? 0).isSome = true := by decide +kernel
  obtain ⟨stats, hstats⟩ := Option.isSome_iff_exists.1 hsome
  obtain ⟨hcancelled, htasks, hpixels⟩ := hreport rfl stats hstats
  rw [hstats, Option.map_some, hcancelled, htasks, hpixels]
  rfl

end Background

end AdaptiveFrame
