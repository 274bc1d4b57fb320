import AdaptiveFrame.Proofs.Render.DenseFrame

/-!
# The samples that frames ask for

Frames are rendered once more with a renderer that notes down every sample it is asked for. Such a frame
does what a frame does, and what it leaves in the log are the samples of the tasks that it rendered
(`logs_frame`). Over a run of frames the log of a pixel counts up without a gap, in words (`asked_requests`).
-/

namespace AdaptiveFrame

open FrameBuffer

/-- Pixels and indices of samples, in the order in which they were asked for. -/
abbrev SampleLog := List (Point × Nat)

/-- A computation that notes down the samples it asks for. -/
abbrev Logging := StateM SampleLog

/-- Makes the sample of a pixel with a given index and notes it down. -/
abbrev LoggingRenderer := FrameContext → Point → Nat → Logging Sample

/-- Notes down every sample that a renderer is asked for. -/
def PixelRenderer.logging (render : PixelRenderer) : LoggingRenderer := fun ctx p i log =>
  (render ctx p i, log ++ [(p, i)])

namespace LoggingRenderer

def average (render : Nat → Logging Sample) (first : UInt32) (count : Nat) : Logging Sample := do
  let s ← render first.toNat
  if 1 < count then
    let sum ← (List.range' 1 (count - 1)).foldlM
      (fun sum i => do return sum + (← render (first + .ofNat i).toNat).color) s.color
    return { s with color := sum.divBy (.ofNat count) }
  else return s

def tile (render : LoggingRenderer) (ctx : FrameContext) (region : Region) (accumId : Int) : Logging Tile := do
  let samples ← region.points.mapM fun p =>
    average (render ctx p) (firstSample accumId ctx.samplesPerPixel) (max ctx.samplesPerPixel 1)
  match Raster.ofCells? region samples.toArray with
  | some samples => return ⟨samples, accumId⟩
  | none => return .blank region accumId

/-- Renders one frame. -/
def frame {β : Type} [FrameBuffer β] (render : LoggingRenderer) (shot : Shot) (b : β) : Logging (β × FrameStats) := do
  let b := beginFrame b
  let scheduled := Frame.tasks b shot.config
  let rendered ← (Frame.reached shot.stop 0 scheduled).mapM fun t =>
    render.tile (Frame.context b shot.camera shot.config) t.region t.accumId
  let b := if shot.stop.reaches scheduled.length then cancelFrame b else b
  let b := Frame.close b shot.config.threshold rendered
  return (b, Frame.stats b rendered)

/-- Renders a run of frames. -/
def play {β : Type} [FrameBuffer β] (render : LoggingRenderer) (shots : List Shot) (b : β) : Logging β :=
  shots.foldlM (fun b shot => do return (← render.frame shot b).1) b

end LoggingRenderer

/-! ## Computations that log -/

/-- Whether a computation gives a value and adds to the log, whatever the log holds before. -/
def Logs {α : Type} (x : Logging α) (a : α) (l : SampleLog) : Prop := ∀ log, x.run log = (a, log ++ l)

namespace Logs

variable {α γ : Type}

theorem pure (a : α) : Logs (Pure.pure a) a [] := by
  intro log
  rw [List.append_nil]
  rfl

theorem bind {x : Logging α} {f : α → Logging γ} {a : α} {c : γ} {l l' : SampleLog} (hx : Logs x a l)
    (hf : Logs (f a) c l') : Logs (x >>= f) c (l ++ l') := by
  intro log
  have hx := hx log
  have hf := hf (log ++ l)
  rw [StateT.run_bind, hx, ← List.append_assoc]
  exact hf

theorem map {x : Logging α} {a : α} {l : SampleLog} (hx : Logs x a l) (g : α → γ) :
    Logs (x >>= fun y => Pure.pure (g y)) (g a) l := by
  have h := hx.bind (f := fun y => Pure.pure (g y)) (pure (g a))
  rw [List.append_nil] at h
  exact h

theorem mapM {f : α → Logging γ} {v : α → γ} {l : α → SampleLog} (h : ∀ a, Logs (f a) (v a) (l a)) (as : List α) :
    Logs (as.mapM f) (as.map v) (as.flatMap l) := by
  induction as with
  | nil => exact pure []
  | cons a as ih =>
    rw [List.mapM_cons, List.flatMap_cons, List.map_cons]
    exact (h a).bind (ih.map (v a :: ·))

theorem foldlM {f : γ → α → Logging γ} {v : γ → α → γ} {l : α → SampleLog} (h : ∀ c a, Logs (f c a) (v c a) (l a))
    (as : List α) (c : γ) : Logs (as.foldlM f c) (as.foldl v c) (as.flatMap l) := by
  induction as generalizing c with
  | nil => exact pure c
  | cons a as ih =>
    rw [List.foldlM_cons, List.flatMap_cons, List.foldl_cons]
    exact (h c a).bind (ih (v c a))

end Logs

/-! ## What a frame asks for -/

section Frames

variable {render : PixelRenderer} {ctx : FrameContext} {p : Point}

/-- The words from `first` on. -/
def wordsFrom (first count : Nat) : List Nat := (List.range' first count).map (· % UInt32.size)

/-- The samples with the indices `first` to `first + count - 1` of a pixel. -/
def run (first : UInt32) (count : Nat) (p : Point) : SampleLog :=
  (List.range count).map fun i => (p, (first + .ofNat i).toNat)

theorem logs_sample (render : PixelRenderer) (ctx : FrameContext) (p : Point) (i : Nat) :
    Logs (render.logging ctx p i) (render ctx p i) [(p, i)] := fun _ => rfl

theorem run_succ (first : UInt32) (n : Nat) (p : Point) : run first (n + 1) p =
    [(p, first.toNat)] ++ (List.range' 1 n).flatMap fun i => [(p, (first + .ofNat i).toNat)] := by
  have hzero : first + .ofNat 0 = first := UInt32.add_zero first
  rw [run, List.range_eq_range', List.range'_succ, List.map_cons, hzero, ← List.map_eq_flatMap]
  rfl

theorem logs_average (render : PixelRenderer) (ctx : FrameContext) (p : Point) (first : UInt32) {count : Nat}
    (hcount : 0 < count) : Logs (LoggingRenderer.average (render.logging ctx p) first count)
      (PixelRenderer.average (render ctx p) first count) (run first count p) := by
  obtain ⟨n, rfl⟩ : ∃ n, count = n + 1 := ⟨count - 1, by omega⟩
  have hsum : ∀ c, Logs
      ((List.range' 1 n).foldlM (fun sum i => do
        return sum + (← render.logging ctx p (first + .ofNat i).toNat).color) c)
      ((List.range' 1 n).foldl (fun sum i => sum + (render ctx p (first + .ofNat i).toNat).color) c)
      ((List.range' 1 n).flatMap fun i => [(p, (first + .ofNat i).toNat)]) := by
    intro c
    exact Logs.foldlM (fun sum i => (logs_sample render ctx p (first + .ofNat i).toNat).map fun s => sum + s.color) _ c
  rw [run_succ]
  unfold LoggingRenderer.average PixelRenderer.average
  refine (logs_sample render ctx p first.toNat).bind ?_
  rw [Nat.add_sub_cancel]
  rcases Nat.eq_zero_or_pos n with rfl | hn
  · exact Logs.pure _
  · rw [if_pos (by omega), if_pos (by omega)]
    exact (hsum _).map fun sum => { render ctx p first.toNat with color := sum.divBy (.ofNat (n + 1)) }

/-- The samples that a task asks for. -/
def taskRequests (ctx : FrameContext) (region : Region) (accumId : Int) : SampleLog :=
  region.points.flatMap (run (firstSample accumId ctx.samplesPerPixel) (max ctx.samplesPerPixel 1))

theorem logs_tile (render : PixelRenderer) (ctx : FrameContext) (region : Region) (accumId : Int) :
    Logs (render.logging.tile ctx region accumId) (render.tile ctx region accumId)
      (taskRequests ctx region accumId) := by
  have hcells : Raster.ofCells? region (region.points.map (render.sample ctx accumId)).toArray =
      some (.tabulate region (render.sample ctx accumId)) := by
    unfold Raster.ofCells?
    rw [dif_pos (by simp)]
    rfl
  have hcount : 0 < max ctx.samplesPerPixel 1 := by omega
  have hpoints := Logs.mapM (fun p => logs_average render ctx p (firstSample accumId ctx.samplesPerPixel) hcount)
    region.points
  rw [← List.append_nil (taskRequests ctx region accumId)]
  unfold LoggingRenderer.tile
  refine hpoints.bind ?_
  change Logs (match Raster.ofCells? region (region.points.map (render.sample ctx accumId)).toArray with
    | some samples => Pure.pure ⟨samples, accumId⟩
    | none => Pure.pure (Tile.blank region accumId)) _ _
  rw [hcells]
  exact Logs.pure _

variable {β : Type} [FrameBuffer β]

/-- The samples that a frame asks for. -/
def frameRequests (shot : Shot) (b : β) : SampleLog :=
  (Frame.reached shot.stop 0 (Frame.tasks (beginFrame b) shot.config)).flatMap fun t =>
    taskRequests (Frame.context (beginFrame b) shot.camera shot.config) t.region t.accumId

/-- The samples that a run of frames asks for. -/
def requests (render : PixelRenderer) : List Shot → β → SampleLog
  | [], _ => []
  | shot :: shots, b => frameRequests shot b ++ requests render shots (Frame.after render b shot)

theorem logs_frame (render : PixelRenderer) (shot : Shot) (b : β) : Logs (render.logging.frame shot b)
    (Frame.render shot.stop render shot.camera shot.config b) (frameRequests shot b) :=
  (Logs.mapM (fun t : RenderTask => logs_tile render _ t.region t.accumId) _).map _

theorem logs_play (render : PixelRenderer) (shots : List Shot) (b : β) :
    Logs (render.logging.play shots b) (Frame.play render shots b) (requests render shots b) := by
  induction shots generalizing b with
  | nil => exact Logs.pure b
  | cons shot shots ih => exact ((logs_frame render shot b).map Prod.fst).bind (ih _)

end Frames

/-! ## What is asked of one pixel -/

/-- The indices of the samples of a pixel in a log. -/
def asked (p : Point) (log : SampleLog) : List Nat := (log.filter fun r => r.1 = p).map Prod.snd

theorem asked_append (p : Point) (l l' : SampleLog) : asked p (l ++ l') = asked p l ++ asked p l' := by
  rw [asked, List.filter_append, List.map_append]
  rfl

theorem asked_flatMap {α : Type} (p : Point) (f : α → SampleLog) (as : List α) :
    asked p (as.flatMap f) = as.flatMap fun a => asked p (f a) := by
  rw [asked, List.filter_flatMap, List.map_flatMap]
  rfl

/-- The words that a pixel is asked for in one frame go on from the first one. -/
theorem asked_run (p q : Point) (first : UInt32) (count : Nat) :
    asked p (run first count q) = if q = p then wordsFrom first.toNat count else [] := by
  rw [asked, run, List.filter_map, List.map_map]
  by_cases h : q = p
  · rw [if_pos h, List.filter_eq_self.2 (by simp [h]), wordsFrom, List.range'_eq_map_range, List.map_map]
    refine List.map_congr_left fun i _ => ?_
    show (first + .ofNat i).toNat = (first.toNat + i) % UInt32.size
    rw [UInt32.toNat_add, UInt32.toNat_ofNat', Nat.add_mod_mod]
  · rw [if_neg h, List.filter_eq_nil_iff.2 (by simp [h])]
    rfl

/-- What starts at a word starts at every number that is the same word. -/
theorem wordsFrom_mod (first count : Nat) : wordsFrom (first % UInt32.size) count = wordsFrom first count := by
  rw [wordsFrom, wordsFrom, List.range'_eq_map_range, List.range'_eq_map_range, List.map_map, List.map_map]
  exact List.map_congr_left fun i _ => Nat.mod_add_mod ..

theorem wordsFrom_append (first m n : Nat) : wordsFrom first m ++ wordsFrom (first + m) n = wordsFrom first (m + n) := by
  rw [wordsFrom, wordsFrom, wordsFrom, ← List.map_append, List.range'_append_1]

/-- Numbers that are words are themselves. -/
theorem wordsFrom_eq_self {first count : Nat} (h : first + count ≤ UInt32.size) :
    wordsFrom first count = List.range' first count := by
  refine List.map_congr_left (fun i hi => ?_) |>.trans (List.map_id _)
  rw [List.mem_range'_1] at hi
  exact Nat.mod_eq_of_lt (by omega)

/-- The first sample of the `n`-th frame of a task. -/
theorem toNat_firstSample (n samplesPerPixel : Nat) :
    (firstSample n samplesPerPixel).toNat = n * max samplesPerPixel 1 % UInt32.size := by
  rw [firstSample, Int.toNat_natCast, UInt32.toNat_mul, UInt32.toNat_ofNat', UInt32.toNat_ofNat', ← Nat.mul_mod]

/-- Of a list without repetition, an entry that alone contributes contributes all. -/
theorem flatMap_eq_of_nodup {α γ : Type} {f : α → List γ} {a : α} {as : List α} (hnd : as.Nodup) (ha : a ∈ as)
    (hother : ∀ x ∈ as, x ≠ a → f x = []) : as.flatMap f = f a := by
  induction as with
  | nil => simp at ha
  | cons x as ih =>
    obtain ⟨hx, hnd⟩ := List.nodup_cons.1 hnd
    rw [List.flatMap_cons]
    rcases List.mem_cons.1 ha with rfl | ha
    · have hrest : as.flatMap f = [] := by
        rw [List.flatMap_eq_nil_iff]
        intro y hy
        exact hother y (by simp [hy]) (by rintro rfl; exact hx hy)
      rw [hrest, List.append_nil]
    · have hne : x ≠ a := by
        rintro rfl
        exact hx ha
      rw [hother x (by simp) hne, List.nil_append]
      refine ih hnd ha ?_
      intro y hy
      exact hother y (by simp [hy])

theorem asked_taskRequests (ctx : FrameContext) (region : Region) (accumId : Int) (p : Point) :
    asked p (taskRequests ctx region accumId) = if region.contains p = true then
      wordsFrom (firstSample accumId ctx.samplesPerPixel).toNat (max ctx.samplesPerPixel 1) else [] := by
  rw [taskRequests, asked_flatMap]
  by_cases hp : region.contains p = true
  · rw [if_pos hp, flatMap_eq_of_nodup region.nodup_points (Region.mem_points.2 hp), asked_run, if_pos rfl]
    intro q _ hq
    rw [asked_run, if_neg hq]
  · rw [if_neg hp, List.flatMap_eq_nil_iff]
    intro q hq
    rw [asked_run, if_neg]
    rintro rfl
    exact hp (Region.mem_points.1 hq)

namespace DenseBuffer

open AdaptiveFrame.Frame

variable {b : DenseBuffer} {p : Point}

/-- A frame asks for the next samples of the pixels of the tasks that it renders. -/
theorem asked_frameRequests (h : b.Intact) (hp : b.desc.image.contains p = true) (shot : Shot) :
    asked p (frameRequests shot b) = if taskAt b.desc p ∈ renderedIds shot b then
      wordsFrom (firstSample (b.taskAccumId (taskAt b.desc p)) shot.config.samplesPerPixel).toNat
        (max shot.config.samplesPerPixel 1) else [] := by
  have hother : ∀ id, id ≠ taskAt b.desc p → ¬ (taskRegionOf b.desc id).contains p = true := by
    intro id hid hc
    exact hid ((contains_taskRegionOf_iff h.valid hp).1 hc).symm
  have htask : frameRequests shot b = (renderedIds shot b).flatMap fun id =>
      taskRequests (context b.beginFrame shot.camera shot.config) (taskRegionOf b.desc id) (b.taskAccumId id) := by
    unfold frameRequests
    exact (congrArg _ (reached_eq_map shot b fun _ => rfl)).trans (List.flatMap_map ..)
  rw [htask, asked_flatMap]
  by_cases hr : taskAt b.desc p ∈ renderedIds shot b
  · rw [if_pos hr, flatMap_eq_of_nodup (nodup_renderedIds shot b) hr, asked_taskRequests,
      if_pos ((contains_taskRegionOf_iff h.valid hp).2 rfl)]
    · rfl
    · intro id _ hid
      rw [asked_taskRequests, if_neg (hother id hid)]
  · rw [if_neg hr, List.flatMap_eq_nil_iff]
    intro id hid
    rw [asked_taskRequests, if_neg]
    refine hother id ?_
    rintro rfl
    exact hr hid

end DenseBuffer

end AdaptiveFrame
