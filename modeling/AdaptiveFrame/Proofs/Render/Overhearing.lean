import AdaptiveFrame.Proofs.Render.Stopping

/-!
# Requests that reach another frame

All frames on a buffer share its status, so a request to stop one of them is heard by the frame that holds the
buffer at that moment, whichever it was meant for (`raise_stops_running`): asking a queued frame to stop also stops
the one that is running. A request that falls while a frame does not hold the buffer leaves that frame alone, unless
it was meant for it: a frame skips a task or reports that it was stopped only if it was asked itself, or if somebody
raised the status while it held the buffer (`stopped_only_if_asked`).
-/

namespace AdaptiveFrame

open FrameBuffer

variable {β : Type} [FrameBuffer β]

/-! ## What a frame can have heard -/

namespace Job

/-- Whether a frame skipped a task or reports that it was stopped. -/
def WasStopped (j : Job) : Prop :=
  (∃ slots, j.phase = .rendering slots ∧ Slot.skipped ∈ slots) ∨
    ∃ stats, j.phase = .finished stats ∧ stats.cancelled = true

/-- Whether a request to stop has come to a frame, in any form. -/
def Touched (b : β) (j : Job) : Prop :=
  j.requested = true ∨ j.phase = .noted true ∨ (j.isRunning = true ∧ (status b).cancelled = true) ∨ j.WasStopped

theorem WasStopped.touched {j : Job} (h : j.WasStopped) (b : β) : j.Touched b := .inr (.inr (.inr h))

/-- A frame skips a task that it reaches only if the status says so. -/
theorem Touched.of_reach {b : β} {j : Job} {place : Nat} (h : (j.reach b place).Touched b) : j.Touched b := by
  unfold Job.reach at h
  split at h
  · rename_i slots hp
    have hrun : j.isRunning = true := by simp only [isRunning, hp]
    rcases h with hr | hn | ⟨-, hc⟩ | ⟨_, hs, hskipped⟩ | ⟨_, hf, -⟩
    · exact .inl hr
    · cases hn
    · exact .inr (.inr (.inl ⟨hrun, hc⟩))
    · cases hs
      obtain ⟨k, hk⟩ := List.mem_iff_getElem?.1 hskipped
      rw [List.getElem?_modify] at hk
      obtain ⟨slot, hslot, hvisit⟩ := Option.map_eq_some_iff.1 hk
      by_cases hsame : slot = .skipped
      · exact WasStopped.touched (.inl ⟨slots, hp, hsame ▸ List.mem_of_getElem? hslot⟩) b
      · -- The task was skipped just now.
        refine .inr (.inr (.inl ⟨hrun, ?_⟩))
        by_contra hc
        split at hvisit
        · cases slot <;> simp_all [visit]
        · exact hsame hvisit
    · cases hf
  · exact h

/-- Where a frame remembers no request, only the notes on itself and on the status tell of one. -/
theorem Touched.notes {b : β} {j : Job} (h : j.Touched b) (hnoted : j.phase ≠ .noted true) (hstopped : ¬ j.WasStopped) :
    j.requested = true ∨ (status b).cancelled = true := by
  rcases h with hr | hn | ⟨-, hc⟩ | hs
  · exact .inl hr
  · exact absurd hn hnoted
  · exact .inr hc
  · exact absurd hs hstopped

/-- A step of its own does not touch a frame: opening erases what the status said before. -/
theorem Touched.of_step [LawfulFrameBuffer β] {b : β} {j : Job} (h : (j.step b).2.Touched (j.step b).1) :
    j.Touched b := by
  obtain ⟨render, camera, config, requested, phase⟩ := j
  cases phase with
  | queued =>
    rcases h.notes (fun hn => by cases hn) (by simp [WasStopped, Job.step]) with hr | hc
    · exact .inl hr
    · have hc : (status (beginFrame b)).cancelled = true := hc
      rw [cancelled_beginFrame] at hc
      cases hc
  | opened =>
    rcases h with hr | hn | ⟨-, hc⟩ | hs
    · exact .inl hr
    · exact .inl (Phase.noted.inj hn)
    · exact .inr (.inr (.inl ⟨rfl, hc⟩))
    · simp [WasStopped, Job.step] at hs
  | noted stop =>
    cases stop with
    | true => exact .inr (.inl rfl)
    | false =>
      rcases h.notes (fun hn => by cases hn) (by simp [WasStopped, Job.step]) with hr | hc
      · exact .inl hr
      · exact .inr (.inr (.inl ⟨rfl, hc⟩))
  | rendering slots =>
    simp only [Job.step] at h
    split at h
    · exact h.of_reach
    · rcases h.notes (fun hn => by cases hn) (by simp [WasStopped]) with hr | hc
      · exact .inl hr
      · exact .inr (.inr (.inl ⟨rfl, by simpa using hc⟩))
  | folded tiles =>
    rcases h.notes (fun hn => by cases hn) (by simp [WasStopped, Job.step]) with hr | hc
    · exact .inl hr
    · exact .inr (.inr (.inl ⟨rfl, by simpa [Job.step] using hc⟩))
  | closed tiles =>
    rcases h with hr | hn | ⟨hrun, -⟩ | ⟨_, hs, -⟩ | ⟨_, hf, hc⟩
    · exact .inl hr
    · cases hn
    · cases hrun
    · cases hs
    · cases hf
      exact .inr (.inr (.inl ⟨rfl, hc⟩))
  | finished stats => exact h

/-- A request comes to a frame only from outside: to itself, or to the status while it holds the buffer. -/
theorem Touched.of_moves [LawfulFrameBuffer β] {number : Nat} {e : BackgroundEvent} {b b' : β} {j j' : Job}
    (hmove : j.Moves number e b b' j') (h : j'.Touched b') :
    j.Touched b ∨ e = .request number ∨ (∃ owner, e = .raise owner) ∧ j.isRunning = true := by
  cases hmove with
  | requested => exact .inr (.inl rfl)
  | raised owner =>
    rcases h with hr | hn | ⟨hrun, -⟩ | hs
    · exact .inl (.inl hr)
    · exact .inl (.inr (.inl hn))
    · exact .inr (.inr ⟨⟨owner, rfl⟩, hrun⟩)
    · exact .inl (hs.touched b)
  | stepped => exact .inl h.of_step
  | reached => exact .inl h.of_reach
  | passed => exact .inl h
  | waited _ _ _ hfree =>
    rcases h with hr | hn | ⟨hrun, -⟩ | hs
    · exact .inl (.inl hr)
    · exact .inl (.inr (.inl hn))
    · rw [hfree] at hrun
      cases hrun
    · exact .inl (hs.touched b)

end Job

/-! ## Who was asked -/

namespace Background

/-- Whether a frame was asked to stop in a run: itself, or through the status while it held the buffer. -/
def Asked (s : Background β) (job : Nat) (events : List BackgroundEvent) : Prop :=
  .request job ∈ events ∨ ∃ past owner future, events = past ++ .raise owner :: future ∧
    ∃ j, (s.run past).jobs[job]? = some j ∧ j.isRunning = true

variable {s : Background β} {job : Nat} {j : Job} {events : List BackgroundEvent}

theorem Asked.append (h : s.Asked job events) (more : List BackgroundEvent) : s.Asked job (events ++ more) := by
  rcases h with hr | ⟨past, owner, future, rfl, hrun⟩
  · exact .inl (List.mem_append_left _ hr)
  · exact .inr ⟨past, owner, future ++ more, by simp, hrun⟩

/-- A frame that no request has come to is touched only by a run that asks it. -/
theorem asked_of_touched [LawfulFrameBuffer β] (hj : s.jobs[job]? = some j) (hfresh : ¬ j.Touched s.buffer)
    (events : List BackgroundEvent) : ∃ j', (s.run events).jobs[job]? = some j' ∧
      (j'.Touched (s.run events).buffer → s.Asked job events) := by
  -- The run is taken apart at its end, since what counts is what the frame was when the last event fell.
  induction events using List.reverseRecOn with
  | nil => exact ⟨j, hj, fun h => absurd h hfresh⟩
  | append_singleton events e ih =>
    obtain ⟨j', hj', hasked⟩ := ih
    obtain ⟨j'', hj'', hmove⟩ := handle_moves hj' e
    rw [run_append]
    refine ⟨j'', hj'', fun htouched => ?_⟩
    rcases Job.Touched.of_moves hmove htouched with hbefore | rfl | ⟨⟨owner, rfl⟩, hrun⟩
    · exact (hasked hbefore).append _
    · exact .inl (by simp)
    · exact .inr ⟨events, owner, [], rfl, j', hj', hrun⟩

theorem length_handle (s : Background β) (e : BackgroundEvent) : (s.handle e).jobs.length = s.jobs.length := by
  cases e with
  | request job => exact List.length_modify ..
  | raise owner => rfl
  | advance job =>
    simp only [handle, advance]
    split
    · split
      · exact List.length_set
      · rfl
    · rfl
  | reach job place => exact List.length_modify ..

theorem length_run (s : Background β) (events : List BackgroundEvent) : (s.run events).jobs.length = s.jobs.length := by
  induction events generalizing s with
  | nil => rfl
  | cons e es ih => exact (ih (s.handle e)).trans (length_handle s e)

/-- **Who stops a frame.** Frames are queued on a buffer, and requests to stop them fall in any order between the
steps of any of them. A frame that skipped a task or reports that it was stopped was asked to stop itself, or the
status of the buffer was raised while the frame held the buffer. -/
theorem stopped_only_if_asked [LawfulFrameBuffer β] (b : β) (jobs : List Job)
    (hqueued : ∀ j ∈ jobs, j.phase = .queued ∧ j.requested = false) (events : List BackgroundEvent)
    (hj : ((Background.mk b jobs).run events).jobs[job]? = some j) (hstopped : j.WasStopped) :
    (Background.mk b jobs).Asked job events := by
  have hlt : job < jobs.length := by
    have hlt := (List.getElem?_eq_some_iff.1 hj).1
    rwa [length_run] at hlt
  obtain ⟨hphase, hrequested⟩ := hqueued jobs[job] (List.getElem_mem hlt)
  have hfresh : ¬ jobs[job].Touched b := by
    unfold Job.Touched Job.WasStopped Job.isRunning
    simp [hphase, hrequested]
  obtain ⟨j', hj', hasked⟩ := asked_of_touched (s := ⟨b, jobs⟩) (List.getElem?_eq_getElem hlt) hfresh events
  obtain rfl : j' = j := Option.some.inj (hj'.symm.trans hj)
  exact hasked (hstopped.touched _)

/-- **A request reaches the frame that holds the buffer**, whichever frame it was meant for: that frame renders no
task any more and reports that it was stopped. -/
theorem raise_stops_running [LawfulFrameBuffer β] (s : Background β) (hj : s.jobs[job]? = some j)
    (hrun : j.isRunning = true) (owner : Option Nat) (later : List BackgroundEvent) :
    let now := (s.handle (.raise owner)).run later
    ∃ j', now.jobs[job]? = some j' ∧ (j'.isReady = false → j'.tiles = j.tiles) ∧
      ∀ stats, now.stats? job = some stats →
        stats.cancelled = true ∧ stats.tasks = j.tiles.length ∧ stats.pixels = Frame.pixelCount j.tiles := by
  intro now
  have hready : j.isReady = false := by
    unfold Job.isReady
    unfold Job.isRunning at hrun
    cases hp : j.phase <;> simp_all
  have hheard : j.Heard (s.handle (.raise owner)).buffer := Job.heard_of_raised hrun (cancelled_cancelFrame s.buffer)
  obtain ⟨j', hj', hstopped⟩ := run_stopped (s := s.handle (.raise owner)) hj (hheard.stopped hready) later
  exact ⟨j', hj', hstopped.tiles, fun stats hs => hstopped.reported ((stats?_eq_some hj').1 hs)⟩

/-- Two frames are queued, and the second one is asked to stop while the first one runs. -/
theorem queued_request_stops_running :
    let render : PixelRenderer := fun _ p i => .ofColor (.splat (.ofNat (p.x + i)))
    ∃ b, DenseBuffer.create ⟨⟨1, 1⟩, .rgba8, .ofList [.accum, .variance], ⟨1, 1⟩⟩ = .ok b ∧
      let frame : Job := { render, camera := .standard, config := ⟨0.5, 8⟩ }
      let events : List BackgroundEvent :=
        .replicate 3 (.advance 0) ++ [.request 1, .raise (some 1)] ++ .replicate 4 (.advance 0)
      .request 0 ∉ events ∧ .raise none ∉ events ∧
        (((Background.mk b [frame, frame]).run events).stats? 0).map (fun stats => (stats.cancelled, stats.tasks)) =
          some (true, 0) := by
  intro render
  refine ⟨_, rfl, by decide, by decide, ?_⟩
  decide +kernel

end Background

end AdaptiveFrame
