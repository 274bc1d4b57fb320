import AdaptiveFrame.Proofs.Accum.Means
import AdaptiveFrame.Proofs.Accum.Numbers
import AdaptiveFrame.Proofs.Render.Requests

/-!
# What a run of frames accumulates

Whatever the thresholds drop and requests to stop skip, the pixels of a task that was rendered in `n` frames
of a run hold the means of its first `n` samples, and their renderer was asked for the indices below
`n * spp`, each once as long as a word can count them. The invariant is `Received`: a frame keeps it, counting
the tasks that it renders.
-/

namespace AdaptiveFrame.DenseBuffer

open AdaptiveFrame.Frame

/-- In how many frames of a run a task is rendered. -/
def timesRendered (render : PixelRenderer) : List Shot → DenseBuffer → Nat → Nat
  | [], _, _ => 0
  | shot :: shots, b, t =>
    (if t ∈ renderedIds shot b then 1 else 0) + timesRendered render shots (after render b shot) t

/-- What rendering the task of a pixel makes for the pixel at the accumulation id `k`. -/
def nthSample (f : Point → Nat → Sample) (samplesPerPixel : Nat) (p : Point) (k : Nat) : Sample :=
  PixelRenderer.average (f p) (firstSample k samplesPerPixel) (max samplesPerPixel 1)

/-- Since a given state of a buffer the pixels of a task have received its first `n` samples, one after another. -/
structure Received (f : Point → Nat → Sample) (samplesPerPixel : Nat) (b₀ : DenseBuffer) (t n : Nat)
    (b : DenseBuffer) : Prop where
  pipeline : b.life.pipeline = b₀.life.pipeline
  count : b.taskAccumId t = n
  pixels : ∀ p, (taskRegionOf b.desc t).contains p = true → b.pixels.getD p .blank =
    (b₀.pixels.getD p .blank).receiveAll (.dense b.desc) b₀.life.pipeline
      ((List.range n).map (nthSample f samplesPerPixel p))

variable {b b₀ : DenseBuffer} {f : Point → Nat → Sample} {n t samplesPerPixel : Nat}

theorem Received.after (h : b.Intact) (ht : t < (gridOf b.desc).area) {shot : Shot}
    (hspp : shot.config.samplesPerPixel = samplesPerPixel) (hr : Received f samplesPerPixel b₀ t n b) :
    Received f samplesPerPixel b₀ t (n + if t ∈ renderedIds shot b then 1 else 0)
      (Frame.after (fun _ => f) b shot) := by
  have hd := after_desc (fun _ => f) shot h
  refine ⟨(after_pipeline _ shot h).trans hr.pipeline, ?_, fun p hp => ?_⟩
  · rw [after_taskAccumId _ shot h ht, hr.count]
    split <;> simp
  · rw [hd] at hp
    have himage := image_contains_of_task h.valid hp
    have htask := (contains_taskRegionOf_iff h.valid himage).1 hp
    rw [hd, after_pixel _ shot h himage, htask]
    by_cases hrendered : t ∈ renderedIds shot b
    · have hsample : PixelRenderer.sample (fun _ => f) (context b.beginFrame shot.camera shot.config)
          (b.taskAccumId t) p = nthSample f samplesPerPixel p n := by
        rw [hr.count, ← hspp]
        rfl
      rw [if_pos hrendered, if_pos hrendered, hsample, hr.count, hr.pipeline, hr.pixels p hp,
        Pixel.receiveAll_range_succ]
    · rw [if_neg hrendered, if_neg hrendered]
      exact hr.pixels p hp

theorem Received.play (shots : List Shot) (h : b.Intact) (ht : t < (gridOf b.desc).area)
    (hspp : ∀ shot ∈ shots, shot.config.samplesPerPixel = samplesPerPixel) (hr : Received f samplesPerPixel b₀ t n b) :
    Received f samplesPerPixel b₀ t (n + timesRendered (fun _ => f) shots b t)
      (Frame.play (fun _ => f) shots b) := by
  induction shots generalizing b n with
  | nil => exact hr
  | cons shot shots ih =>
    have hd := after_desc (fun _ => f) shot h
    have hspp' : ∀ s ∈ shots, s.config.samplesPerPixel = samplesPerPixel := by
      intro s hs
      exact hspp s (by simp [hs])
    have hr := hr.after h ht (hspp shot (by simp))
    have hrest := ih (after_intact (fun _ => f) shot h) (hd ▸ ht) hspp' hr
    rw [Nat.add_assoc] at hrest
    exact hrest

/-- The log of a pixel counts on from the samples that it had received before. -/
theorem asked_requests {p : Point} (shots : List Shot) (h : b.Intact)
    (hp : (taskRegionOf b.desc t).contains p = true) (ht : t < (gridOf b.desc).area)
    (hspp : ∀ shot ∈ shots, shot.config.samplesPerPixel = samplesPerPixel) (hn : b.taskAccumId t = n) :
    asked p (requests (fun _ => f) shots b) = wordsFrom (n * max samplesPerPixel 1)
      (timesRendered (fun _ => f) shots b t * max samplesPerPixel 1) := by
  induction shots generalizing b n with
  | nil => simp [requests, asked, timesRendered, wordsFrom]
  | cons shot shots ih =>
    have hd := after_desc (fun _ => f) shot h
    have himage := image_contains_of_task h.valid hp
    have htask := (contains_taskRegionOf_iff h.valid himage).1 hp
    have hcount := after_taskAccumId (fun _ => f) shot h ht
    have hspp' : ∀ s ∈ shots, s.config.samplesPerPixel = samplesPerPixel := by
      intro s hs
      exact hspp s (by simp [hs])
    have hrest := fun m hm => ih (n := m) (after_intact (fun _ => f) shot h) (hd ▸ hp) (hd ▸ ht) hspp' hm
    rw [requests, asked_append, asked_frameRequests h himage, htask, hspp shot (by simp), hn, toNat_firstSample,
      wordsFrom_mod, timesRendered]
    by_cases hr : t ∈ renderedIds shot b
    · rw [if_pos hr, hn] at hcount
      rw [if_pos hr, if_pos hr, hrest (n + 1) hcount, Nat.add_mul 1, Nat.add_mul n, Nat.one_mul]
      exact wordsFrom_append ..
    · rw [if_neg hr, hn] at hcount
      rw [if_neg hr, if_neg hr, hrest n hcount, Nat.zero_add, List.nil_append]

theorem timesRendered_le (render : PixelRenderer) (shots : List Shot) (b : DenseBuffer) (t : Nat) :
    timesRendered render shots b t ≤ shots.length := by
  induction shots generalizing b with
  | nil => exact Nat.le_refl 0
  | cons shot shots ih =>
    have hrest := ih (Frame.after render b shot)
    rw [timesRendered, List.length_cons]
    split <;> omega

/-- Frames without a threshold that nobody stops render every task. -/
theorem timesRendered_eq_length (render : PixelRenderer) (shots : List Shot) (h : b.Intact)
    (ht : t < (gridOf b.desc).area) (hall : ∀ shot ∈ shots, shot.stop = .none ∧ ¬ 0 < shot.config.threshold) :
    timesRendered render shots b t = shots.length := by
  induction shots generalizing b with
  | nil => rfl
  | cons shot shots ih =>
    obtain ⟨hstop, hthreshold⟩ := hall shot (by simp)
    have hwanted : b.wanted shot.config t = true := by
      simp [wanted, adaptive, adaptiveAllowed, hthreshold]
    have hrest := ih (after_intact render shot h) (after_desc render shot h ▸ ht) fun s hs => hall s (by simp [hs])
    rw [timesRendered, DenseBuffer.renderedIds_none shot b hstop, if_pos (mem_nextTasks.2 ⟨ht, hwanted⟩), hrest,
      List.length_cons]
    omega

theorem Started.taskAccumId_eq {b : DenseBuffer} (h : Started b) (t : Nat) : b.taskAccumId t = 0 := by
  obtain ⟨-, ⟨n, haccum⟩, -⟩ := h.fresh
  rw [taskAccumId, haccum, getD_replicate_zero]

/-- What a run leaves of a new or cleared buffer. -/
theorem Started.received_play (hb : Started b) (shots : List Shot)
    (hspp : ∀ shot ∈ shots, shot.config.samplesPerPixel = samplesPerPixel) (ht : t < (gridOf b.desc).area) :
    Received f samplesPerPixel b t (timesRendered (fun _ => f) shots b t) (play (fun _ => f) shots b) := by
  have hstart : Received f samplesPerPixel b t 0 b := ⟨rfl, hb.taskAccumId_eq t, fun _ _ => rfl⟩
  have hend := hstart.play shots hb.intact ht hspp
  rwa [Nat.zero_add] at hend

/-- The numbers that a run leaves in a pixel of a new or cleared buffer are folded by `Pixel.Numbers.fold`, so the
formulas that are studied there over other scalars are the ones that frames go by. -/
theorem numbers_after_frames (hb : Started b) (f : Point → Nat → Sample) (shots : List Shot)
    (hspp : ∀ shot ∈ shots, shot.config.samplesPerPixel = samplesPerPixel) (ht : t < (gridOf b.desc).area) {p : Point}
    (hp : (taskRegionOf b.desc t).contains p = true) :
    ((play (fun _ => f) shots b).pixels.getD p .blank).numbers =
      (b.pixels.getD p .blank).numbers.foldAll (.dense b.desc)
        ((List.range (timesRendered (fun _ => f) shots b t)).map
          fun k => (nthSample f samplesPerPixel p k).numbers) := by
  have hend := hb.received_play (f := f) shots hspp ht
  have hd := (play_intact (fun _ => f) hb.intact shots).2
  rw [hend.pixels p (by rw [hd]; exact hp), Pixel.numbers_receiveAll, List.map_map, hd]
  rfl

/-- **What a run accumulates.** A new or cleared buffer is rendered into in any number of frames that 32 bits can
number, with any thresholds and any tasks skipped. A task that `n` of them rendered has the sample count `n`, its
pixels hold the means of their first `n` samples, and for each of its pixels the frames asked for the samples with
the indices below `n * spp`, in this order and as words: each of them once while a word can tell them apart. -/
theorem means_after_frames (hb : Started b) (hacc : b.desc.has .accum = true) (f : Point → Nat → Sample)
    (shots : List Shot) (hshots : shots.length < 2 ^ 31) (samplesPerPixel : Nat)
    (hspp : ∀ shot ∈ shots, shot.config.samplesPerPixel = samplesPerPixel) (ht : t < (gridOf b.desc).area) :
    let render : PixelRenderer := fun _ => f
    let n := timesRendered render shots b t
    let logged := (render.logging.play shots b).run []
    logged.1 = play render shots b ∧
    logged.1.taskAccumId t = n ∧ n < 2 ^ 31 ∧
    ∀ p, (taskRegionOf b.desc t).contains p = true →
      (logged.1.pixels.getD p .blank).Averages b.desc (nthSample f samplesPerPixel p) n ∧
      asked p logged.2 = (List.range (n * max samplesPerPixel 1)).map (· % 2 ^ 32) ∧
      (n * max samplesPerPixel 1 ≤ 2 ^ 32 → asked p logged.2 = List.range (n * max samplesPerPixel 1)) := by
  intro render n logged
  have h := hb.intact
  have hlogged : logged = (play render shots b, requests render shots b) := logs_play render shots b []
  have hend := hb.received_play (f := f) shots hspp ht
  rw [hlogged]
  have hd : (play render shots b).desc = b.desc := (play_intact render h shots).2
  refine ⟨rfl, hend.count, Nat.lt_of_le_of_lt (timesRendered_le ..) hshots, fun p hp => ?_⟩
  have hpixel := hend.pixels p (by rw [hd]; exact hp)
  rw [hd] at hpixel
  have hasked := asked_requests (f := f) shots h hp ht hspp (n := 0) (hb.taskAccumId_eq t)
  rw [Nat.zero_mul] at hasked
  refine ⟨?_, ?_, fun hfits => ?_⟩
  · rw [hpixel]
    exact Pixel.averages_receiveAll hacc ..
  · rw [hasked, wordsFrom, ← List.range_eq_range']
    rfl
  · rw [hasked, wordsFrom_eq_self (by rw [Nat.zero_add]; exact hfits), ← List.range_eq_range']

/-- One pixel, two samples a frame, three frames, of which the second skips all tasks. -/
theorem means_after_skipped_frame :
    let f : Point → Nat → Sample := fun _ i => .ofColor (.splat (.ofNat i))
    let skip : Interruption := ⟨fun _ => true, fun _ => true, fun _ _ _ _ => rfl⟩
    let shots : List Shot := [.none, skip, .none].map fun stop => ⟨stop, .standard, ⟨0.5, 2⟩⟩
    ∃ b, create ⟨⟨1, 1⟩, .none, .ofList [.accum, .variance], defaultTaskSize⟩ = .ok b ∧
      (b.desc.has .accum = true ∧ shots.length < 2 ^ 31 ∧ (∀ shot ∈ shots, shot.config.samplesPerPixel = 2) ∧
        0 < (gridOf b.desc).area) ∧
      let logged := ((PixelRenderer.logging fun _ => f).play shots b).run []
      logged.1.taskAccumId 0 = 2 ∧ asked ⟨0, 0⟩ logged.2 = [0, 1, 2, 3] ∧
      (logged.1.pixels.getD ⟨0, 0⟩ .blank).Averages b.desc (nthSample f 2 ⟨0, 0⟩) 2 := by
  intro f skip shots
  have hspp : ∀ shot ∈ shots, shot.config.samplesPerPixel = 2 := by simp [shots]
  have hshots : shots.length < 2 ^ 31 := by decide
  obtain ⟨b, hb, hacc, ht, hp, htimes⟩ :
      ∃ b, create ⟨⟨1, 1⟩, .none, .ofList [.accum, .variance], defaultTaskSize⟩ = .ok b ∧ b.desc.has .accum = true ∧
        0 < (gridOf b.desc).area ∧ (taskRegionOf b.desc 0).contains ⟨0, 0⟩ = true ∧
        timesRendered (fun _ => f) shots b 0 = 2 := ⟨_, rfl, rfl, by decide, by decide, by decide +kernel⟩
  obtain ⟨-, hcount, -, hpixels⟩ := means_after_frames (.create hb) hacc f shots hshots 2 hspp ht
  obtain ⟨hmeans, -, hasked⟩ := hpixels ⟨0, 0⟩ hp
  rw [htimes] at hcount hmeans hasked
  exact ⟨b, hb, ⟨hacc, hshots, hspp, ht⟩, hcount, hasked (by decide), hmeans⟩

/-- One pixel, half a word of samples a frame: the third frame asks for the samples of the first one again. -/
theorem samples_asked_again :
    let f : Point → Nat → Sample := fun _ i => .ofColor (.splat (.ofNat i))
    let shots : List Shot := List.replicate 3 ⟨.none, .standard, ⟨0, 2 ^ 31⟩⟩
    ∃ b, create ⟨⟨1, 1⟩, .none, .ofList [.accum], defaultTaskSize⟩ = .ok b ∧
      let log := (((PixelRenderer.logging fun _ => f).play shots b).run []).2
      timesRendered (fun _ => f) shots b 0 = 3 ∧
      asked ⟨0, 0⟩ log ≠ List.range (3 * 2 ^ 31) ∧
      ∀ i, i < 2 ^ 31 → (asked ⟨0, 0⟩ log)[i]? = some i ∧ (asked ⟨0, 0⟩ log)[2 ^ 32 + i]? = some i := by
  intro f shots
  have hall : ∀ shot ∈ shots, shot.stop = .none ∧ ¬ 0 < shot.config.threshold := by
    intro shot hshot
    obtain ⟨-, rfl⟩ := List.mem_replicate.1 hshot
    exact ⟨rfl, by decide⟩
  have hspp : ∀ shot ∈ shots, shot.config.samplesPerPixel = 2 ^ 31 := by
    intro shot hshot
    obtain ⟨-, rfl⟩ := List.mem_replicate.1 hshot
    rfl
  obtain ⟨b, hb, ht, hp⟩ : ∃ b, create ⟨⟨1, 1⟩, .none, .ofList [.accum], defaultTaskSize⟩ = .ok b ∧
      0 < (gridOf b.desc).area ∧ (taskRegionOf b.desc 0).contains ⟨0, 0⟩ = true := ⟨_, rfl, by decide, by decide⟩
  have hstart : Started b := .create hb
  have htimes : timesRendered (fun _ => f) shots b 0 = 3 := timesRendered_eq_length _ shots hstart.intact ht hall
  have hlog := logs_play (fun _ => f) shots b []
  have hasked := asked_requests (f := f) shots hstart.intact hp ht hspp (hstart.taskAccumId_eq 0)
  rw [htimes, Nat.zero_mul, Nat.max_eq_left (by decide)] at hasked
  have hword : ∀ i, i < 3 * 2 ^ 31 → (wordsFrom 0 (3 * 2 ^ 31))[i]? = some (i % 2 ^ 32) := by
    intro i hi
    rw [wordsFrom, List.getElem?_map, List.getElem?_range' hi, Option.map_some, Nat.zero_add, Nat.one_mul]
    rfl
  refine ⟨b, hb, ?_⟩
  rw [hlog, List.nil_append]
  intro log
  rw [hasked]
  refine ⟨htimes, fun heq => ?_, fun i hi => ?_⟩
  · have hsame : some (2 ^ 32 % 2 ^ 32) = some (2 ^ 32) := by
      rw [← hword _ (by decide), heq, List.getElem?_range (by decide)]
    cases hsame
  · rw [hword i (by omega), hword (2 ^ 32 + i) (by omega), Nat.add_mod_left, Nat.mod_eq_of_lt (by omega)]
    exact ⟨rfl, rfl⟩

end AdaptiveFrame.DenseBuffer
