import AdaptiveFrame.Proofs.Buffer.Composing
import AdaptiveFrame.Proofs.Render.ImageOps
import AdaptiveFrame.Proofs.Render.PairedParts

/-!
# Clearing a buffer

Clearing forgets frames, errors and sample counts, and leaves every pixel as it is. The pixels do not matter:
the first two frames render all tasks, the first sample of a pixel replaces what it holds, and the second one
the second mean. A cleared buffer therefore goes on as one that was just built (`cleared_as_new`).
-/

namespace AdaptiveFrame

open AdaptiveFrame.Frame FrameBuffer

/-! ## What samples have replaced -/

namespace Pixel.AgreeFrom

variable {d : BufferDesc} {k : Int} {px qx : Pixel} {ch : Channel}

/-- From the first sample on, what is shown of the pixels of a dense buffer agrees. -/
theorem visible (h : px.AgreeFrom (.dense d) k qx) (hk : 0 < k) : px.shown.visible d = qx.shown.visible d :=
  Sample.visible_ext (h .color rfl hk) (h .primitiveId rfl hk) (fun hhas => h .depth hhas hk)
    (fun hhas => h .normal hhas hk) fun hhas => h .albedo hhas hk

/-- From the first sample on, all that is shown of the pixels of a sparse buffer agrees. -/
theorem shown (h : px.AgreeFrom (.sparse d) k qx) (hk : 0 < k) : px.shown = qx.shown := by
  have hcolor : px.shown.color = qx.shown.color := h .color rfl hk
  have hdepth : px.shown.depth = qx.shown.depth := h .depth rfl hk
  have hnormal : px.shown.normal = qx.shown.normal := h .normal rfl hk
  have halbedo : px.shown.albedo = qx.shown.albedo := h .albedo rfl hk
  have hids : px.shown.ids = qx.shown.ids := h .primitiveId rfl hk
  show (⟨_, _, _, _, _⟩ : Sample) = ⟨_, _, _, _, _⟩
  rw [hcolor, hdepth, hnormal, halbedo, hids]

/-- A channel that a dense buffer was asked for agrees from the sample on that replaces it. -/
theorem sameOn (h : px.AgreeFrom (.dense d) k qx) (hhas : d.has ch = true)
    (hk : (if ch = .variance then 1 else 0) < k) : px.SameOn ch qx := by
  refine h ch ?_ hk
  cases ch with
  | color | primitiveId | objectId | instanceId => rfl
  | accum | variance | depth | normal | albedo => exact hhas

end Pixel.AgreeFrom

/-! ## Frames that nobody interrupts -/

namespace Frame

variable {β : Type} [FrameBuffer β] {b b' : β} {ids rendered : List Nat} {n : Nat}

/-- A buffer that started over and then went through `n` frames, the first two of which rendered the tasks in a
list. -/
structure Begun (ids : List Nat) (n : Nat) (b : β) : Prop where
  frameId : frameId b + 1 = n
  counts : ∀ id ∈ ids, ((min n 2 : Nat) : Int) ≤ taskAccumId b id

theorem Begun.next (h : Begun ids n b) (hframe : FrameBuffer.frameId b' = FrameBuffer.frameId b + 1)
    (hcount : ∀ id ∈ ids, taskAccumId b' id = if id ∈ rendered then taskAccumId b id + 1 else taskAccumId b id)
    (hall : FrameBuffer.frameId b < 1 → ∀ id ∈ ids, id ∈ rendered) : Begun ids (n + 1) b' := by
  have hn := h.frameId
  refine ⟨by rw [hframe, hn]; rfl, fun id hid => ?_⟩
  have hold := h.counts id hid
  rw [hcount id hid]
  rcases Nat.lt_or_ge n 2 with hlt | hge
  · rw [if_pos (hall (by omega) id hid)]
    omega
  · split <;> omega

/-- What holds of a buffer after each number of frames, holds at the end of a run. -/
theorem holds_play {P : Nat → β → Prop} (render : PixelRenderer)
    (hstep : ∀ {n b} (shot : Shot), shot.stop = .none → P n b → P (n + 1) (after render b shot)) (shots : List Shot)
    (hstop : ∀ shot ∈ shots, shot.stop = .none) (h : P n b) : P (n + shots.length) (play render shots b) := by
  induction shots generalizing n b with
  | nil => exact h
  | cons shot shots ih =>
    have hrest := ih (fun shot hmem => hstop shot (by simp [hmem])) (hstep shot (hstop shot (by simp)) h)
    rw [Nat.add_assoc, Nat.add_comm 1] at hrest
    exact hrest

end Frame

/-! ## Dense buffers -/

namespace DenseBuffer

variable {b b' c : DenseBuffer} {n : Nat} {shot : Shot}

/-- The buffer was just built, with the description and the operations that `b` has. -/
def BuiltLike (b c : DenseBuffer) : Prop := ∃ b₀ ops, create b.desc = .ok b₀ ∧ (setImageOps b₀ ops).commit = .ok c ∧
  c.life.pipeline = b.life.pipeline

/-- A step keeps the description, and to the operations at work it does nothing but commit others. -/
theorem Step.committed (h : b.Intact) (hs : Step b b') : b'.desc = b.desc ∧
    (b'.life.pipeline = b.life.pipeline ∨ ∃ ops, Pipeline.build ops b.desc true = .ok b'.life.pipeline) := by
  have hkept : ∀ {x : DenseBuffer}, (∃ status, x.life = { b.life with status }) → x.desc = b.desc ∧
      (x.life.pipeline = b.life.pipeline ∨ ∃ ops, Pipeline.build ops b.desc true = .ok x.life.pipeline) := by
    rintro x ⟨status, hl⟩
    refine ⟨?_, .inl ?_⟩
    · rw [DenseBuffer.desc, hl]
      rfl
    · rw [hl]
  have hself := ComposedFrom.self h
  cases hs with
  | setImageOps ops => exact ⟨rfl, .inl rfl⟩
  | commit hc =>
    obtain ⟨pipeline, hbuild, rfl⟩ := eq_of_commit hc
    exact ⟨rfl, .inr ⟨_, hbuild⟩⟩
  | beginFrame => exact ⟨rfl, .inl rfl⟩
  | accumulate t =>
    rw [accumulate_eq]
    split
    · exact hkept ⟨_, congrArg (fun l : Lifecycle => l.addRendered t.region.area) (h.absorb t).2⟩
    · exact ⟨rfl, .inl rfl⟩
  | accumulateAll tiles =>
    obtain ⟨n, hl⟩ := life_accumulateAll h tiles
    exact hkept ⟨_, hl⟩
  | writeTiles tiles => exact hkept (composedFrom_writeTiles hself tiles).life
  | writeSparse s hw =>
    unfold DenseBuffer.writeSparse at hw
    split at hw
    · cases hw
      exact hkept (Writes.inv_foldl (I := ComposedFrom b) (composedFrom_writeTiles hself _)
        fun _ i _ hx => hx.takeTask s i).life
    · cases hw
  | endFrame threshold =>
    rw [endFrame_eq]
    exact ⟨rfl, .inl rfl⟩
  | postProcess =>
    rw [postProcess_eq]
    exact ⟨rfl, .inl rfl⟩
  | setStatus s => exact ⟨rfl, .inl rfl⟩
  | clear => exact ⟨rfl, .inl rfl⟩
  | map hm =>
    unfold map? at hm
    obtain ⟨_, _, heq⟩ := Option.map_eq_some_iff.1 hm
    cases heq
    exact ⟨rfl, .inl rfl⟩
  | unmap => exact ⟨rfl, .inl rfl⟩

/-- Whatever was done to a buffer, one like it can be built. -/
theorem Reachable.exists_builtLike (h : Reachable b) : ∃ c, b.BuiltLike c := by
  have hparts : ∃ b₀ ops, DenseBuffer.create b.desc = .ok b₀ ∧
      Pipeline.build ops b.desc true = .ok b.life.pipeline := by
    induction h with
    | @create d b h =>
      obtain ⟨-, hnew⟩ := eq_of_create h
      have hd : b.desc = d := by rw [hnew]; rfl
      exact ⟨b, [], hd ▸ h, by rw [hnew]; rfl⟩
    | step h hs ih =>
      obtain ⟨b₀, ops, hcreate, hbuild⟩ := ih
      obtain ⟨hd, hpipeline⟩ := hs.committed h.intact
      rw [hd]
      rcases hpipeline with heq | ⟨ops, hbuild⟩
      · exact ⟨b₀, ops, hcreate, heq ▸ hbuild⟩
      · exact ⟨b₀, ops, hcreate, hbuild⟩
  obtain ⟨b₀, ops, hcreate, hbuild⟩ := hparts
  have hd : b₀.desc = b.desc := by
    obtain ⟨-, hnew⟩ := eq_of_create hcreate
    rw [hnew]
    rfl
  exact ⟨_, b₀, ops, hcreate, commit_setImageOps (hd.symm ▸ hbuild), rfl⟩

theorem BuiltLike.after (render : PixelRenderer) (shot : Shot) (hb : b.Intact) (h : b.BuiltLike c) :
    (Frame.after render b shot).BuiltLike c := by
  obtain ⟨b₀, ops, hcreate, hcommit, hpipeline⟩ := h
  refine ⟨b₀, ops, ?_, hcommit, ?_⟩
  · rw [after_desc render shot hb]
    exact hcreate
  · rw [after_pipeline render shot hb]
    exact hpipeline

/-- Cleared, a buffer is steered as one that was just built. -/
theorem paired_of_builtLike (h : b.Intact) (hc : b.BuiltLike c) :
    Paired (Pixel.AgreeFrom (.dense b.desc)) b.clear c ∧ c.desc = b.desc := by
  obtain ⟨b₀, ops, h₀, hcommit, hpipeline⟩ := hc
  have hnew : Intact (setImageOps b₀ ops) := (Intact.of_create h₀).setLife rfl
  have hintact := hnew.commit hcommit
  obtain ⟨-, rfl⟩ := eq_of_create h₀
  obtain ⟨pipeline, -, rfl⟩ := eq_of_commit hcommit
  have hpipeline : pipeline = b.life.pipeline := hpipeline
  refine ⟨.of_pixels h.clear hintact ⟨b.desc.format, rfl⟩ rfl rfl ?_ ?_ ?_ ?_, rfl⟩
  · exact congrArg ErrorTracker.fresh h.grid.symm
  · exact congrArg (Array.replicate · (0 : Int)) h.accumIds.symm
  · intro p _
    have hzero : b.clear.taskAccumId (taskAt b.clear.desc p) = 0 := getD_replicate_zero ..
    rw [hzero]
    intro ch _ hlt
    exact absurd hlt (by split <;> decide)
  · exact .agreeFrom (congrArg Pipeline.pixelOps hpipeline.symm) h.valid.accum

/-- A frame is a number of steps, whatever it skips. -/
theorem Reachable.after (render : PixelRenderer) (shot : Shot) (h : Reachable b) :
    Reachable (Frame.after render b shot) :=
  after_keeps h (fun b h => h.step (.beginFrame b)) (fun b status h => h.step (.setStatus b status))
    (fun b tiles h => h.step (.accumulateAll b tiles)) (fun b threshold h => h.step (.endFrame b threshold))
    (fun b h => h.step (.postProcess b)) render shot

/-- A buffer that started over, after `n` frames that nobody interrupted. -/
structure StartedOver (n : Nat) (b : DenseBuffer) : Prop where
  intact : b.Intact
  begun : Begun b.taskOrder n b
  finished : 0 < n → b.Finished
  displays : 0 < n → b.life.pipeline.hasFrameOps = false → ∀ p, b.desc.image.contains p = true → b.Displays p

theorem StartedOver.after (render : PixelRenderer) (shot : Shot) (hstop : shot.stop = .none)
    (h : b.StartedOver n) : (Frame.after render b shot).StartedOver (n + 1) := by
  have hd := after_desc render shot h.intact
  have hall : b.life.frameId < 1 → ∀ id, id < (gridOf b.desc).area → id ∈ renderedIds shot b := by
    intro hlt id hid
    rw [renderedIds_none shot b hstop]
    exact mem_nextTasks.2 ⟨hid, wanted_of_frameId_lt hlt id⟩
  have hcount : ∀ id ∈ b.taskOrder, (Frame.after render b shot).taskAccumId id =
      if id ∈ renderedIds shot b then b.taskAccumId id + 1 else b.taskAccumId id :=
    fun id hid => after_taskAccumId render shot h.intact (mem_taskOrderOf.1 hid)
  have hbegun : Begun b.taskOrder (n + 1) (Frame.after render b shot) :=
    h.begun.next (after_frameId render shot h.intact) hcount fun hlt id hid => hall hlt id (mem_taskOrderOf.1 hid)
  have horder : (Frame.after render b shot).taskOrder = b.taskOrder := congrArg taskOrderOf hd
  refine ⟨after_intact render shot h.intact, horder.symm ▸ hbegun, fun _ => after_finished render b shot, ?_⟩
  intro _ hf p hp
  rw [after_pipeline render shot h.intact] at hf
  rw [hd] at hp
  refine displays_after render shot h.intact hf (displays_folded render shot h.intact hp ?_)
  rcases Nat.eq_zero_or_pos n with hzero | hpos
  · refine .inl (hall ?_ _ (taskAt_lt h.intact.valid hp))
    have hframe : b.life.frameId + 1 = n := h.begun.frameId
    omega
  · exact .inr (h.displays hpos hf p hp)

theorem startedOver_of_paired {Q : Int → Pixel → Pixel → Prop} (h : Paired Q b.clear c) :
    b.clear.StartedOver 0 ∧ c.StartedOver 0 := by
  have hb : Begun b.clear.taskOrder 0 b.clear := by
    refine ⟨rfl, fun id _ => ?_⟩
    have hzero : b.clear.taskAccumId id = 0 := getD_replicate_zero ..
    exact Int.le_of_eq hzero.symm
  have hc : Begun c.taskOrder 0 c := by
    refine ⟨?_, fun id hid => ?_⟩
    · exact congrArg (· + 1) h.frameId
    · have hcount : c.taskAccumId id = b.clear.taskAccumId id :=
        congrArg (fun counts : Array Int => (counts[id]?).getD 0) h.accumIds_eq
      have hzero : b.clear.taskAccumId id = 0 := getD_replicate_zero ..
      exact Int.le_of_eq (hcount.trans hzero).symm
  exact ⟨⟨h.left, hb, fun hn => absurd hn (by decide), fun hn => absurd hn (by decide)⟩,
    ⟨h.right, hc, fun hn => absurd hn (by decide), fun hn => absurd hn (by decide)⟩⟩

/-- After a frame, buffers whose pixels agree on what was replaced read the same. -/
theorem Paired.readsAlike_of_startedOver {d : BufferDesc} (h : Paired (Pixel.AgreeFrom (.dense d)) b c)
    (hb : b.desc = d) (hc : c.desc = d) (hpipeline : c.life.pipeline = b.life.pipeline) (hleft : b.StartedOver n)
    (hright : c.StartedOver n) (hn : 0 < n) : ReadsAlike (fun ch => ch = .variance → 2 ≤ n) b c := by
  subst hb
  have hagree : ∀ p, b.desc.image.contains p = true → ((min n 2 : Nat) : Int) ≤ b.taskAccumId (taskAt b.desc p) ∧
      (b.pixels.getD p .blank).AgreeFrom (.dense b.desc) (b.taskAccumId (taskAt b.desc p)) (c.pixels.getD p .blank) :=
    fun p hp => ⟨hleft.begun.counts _ (mem_taskOrderOf.2 (taskAt_lt h.left.valid hp)), h.pixels hp⟩
  have hpicture : SamePicture b c := by
    refine ⟨h.left, h.right, hc, hpipeline, fun p hp => ?_⟩
    obtain ⟨hcount, hpixel⟩ := hagree p hp
    exact (hpixel.visible (by omega)).symm
  refine h.readsAlike fun ch hch => ?_
  by_cases hcolor : ch = .color
  · subst hcolor
    refine hpicture.channel?_of_finished (hleft.finished hn) (hright.finished hn) ?_ (by decide) (by decide)
    intro hf p hp
    exact ⟨hleft.displays hn hf p hp, hright.displays hn (hpipeline ▸ hf) p (hc ▸ hp)⟩
  · refine channel?_eq_of_sameOn h.left h.right hc hcolor fun hhas p hp => ?_
    obtain ⟨hcount, hpixel⟩ := hagree p hp
    refine hpixel.sameOn hhas ?_
    split
    · have h2 := hch ‹_›
      omega
    · omega

end DenseBuffer

/-! ## Sparse buffers -/

/-- Two sparse buffers that steer adaptive sampling alike and store the same samples. -/
structure StoresAlike (s t : SparseBuffer) : Prop where
  frameId : frameId t = frameId s
  variance : variance t = variance s
  taskError : ∀ id, taskError t id = taskError s id
  taskAccumId : ∀ id, taskAccumId t id = taskAccumId s id
  tileIds : t.tileIds = s.tileIds
  tiles : t.tiles.map OwnedTile.shown = s.tiles.map OwnedTile.shown

namespace SparseBuffer

variable {s s' t : SparseBuffer} {ids : List Nat} {n i : Nat}

/-- The buffer was just built, with the description, the tiles and the operations that `s` has. -/
def BuiltLike (s t : SparseBuffer) : Prop := ∃ s₀ ops, create s.desc s.tileIds = .ok s₀ ∧
  (setImageOps s₀ ops).commit = .ok t ∧ t.life.pipeline = s.life.pipeline

/-- A step keeps the description, and to the operations at work it does nothing but commit others. -/
theorem Step.committed (hs : Step s s') : s'.desc = s.desc ∧
    (s'.life.pipeline = s.life.pipeline ∨ ∃ ops, Pipeline.build ops s.desc false = .ok s'.life.pipeline) := by
  have hkept : ∀ {x : SparseBuffer}, (∃ status, x.life = { s.life with status }) → x.desc = s.desc ∧
      (x.life.pipeline = s.life.pipeline ∨ ∃ ops, Pipeline.build ops s.desc false = .ok x.life.pipeline) := by
    rintro x ⟨status, hl⟩
    refine ⟨?_, .inl ?_⟩
    · rw [SparseBuffer.desc, hl]
      rfl
    · rw [hl]
  cases hs with
  | setTiles ids => exact ⟨rfl, .inl rfl⟩
  | setImageOps ops => exact ⟨rfl, .inl rfl⟩
  | commit hc =>
    obtain ⟨pipeline, hbuild, rfl⟩ := eq_of_commit hc
    exact ⟨rfl, .inr ⟨_, hbuild⟩⟩
  | beginFrame => exact ⟨rfl, .inl rfl⟩
  | accumulate t => exact hkept (accumulate_keeps s t).2
  | tryAccumulate hc =>
    obtain ⟨k, r, hk, rfl⟩ := eq_of_tryAccumulate hc
    exact hkept (absorbAt_keeps hk _).2
  | accumulateAll tiles => exact hkept (accumulateAll_keeps s tiles).2
  | setTaskError i e =>
    unfold SparseBuffer.setTaskError
    split
    · exact ⟨rfl, .inl rfl⟩
    · exact ⟨rfl, .inl rfl⟩
  | setTaskAccumId i n => exact ⟨rfl, .inl rfl⟩
  | endFrame =>
    rw [endFrame_eq]
    exact ⟨rfl, .inl rfl⟩
  | setStatus status => exact ⟨rfl, .inl rfl⟩
  | clear => exact ⟨rfl, .inl rfl⟩
  | unmap => exact ⟨rfl, .inl rfl⟩

/-- Whatever was done to a buffer, its description is valid and its operations are built for it. -/
theorem Reachable.committed (h : Reachable s) : s.desc.validate = .ok () ∧
    ∃ ops, Pipeline.build ops s.desc false = .ok s.life.pipeline := by
  induction h with
  | create h =>
    have hvalid := validate_of_create h
    obtain ⟨-, rfl⟩ := eq_of_create h
    exact ⟨hvalid, [], rfl⟩
  | step _ hs ih =>
    obtain ⟨hvalid, ops, hbuild⟩ := ih
    obtain ⟨hd, hpipeline⟩ := hs.committed
    rw [hd]
    rcases hpipeline with heq | hbuild
    · exact ⟨hvalid, ops, heq ▸ hbuild⟩
    · exact ⟨hvalid, hbuild⟩

/-- Whatever was done to a buffer, one with its description, its operations and any tiles can be built. -/
theorem Reachable.exists_new (h : Reachable s) (ids : List Nat) : ∃ t s₀ ops,
    SparseBuffer.create s.desc ids = .ok s₀ ∧ (setImageOps s₀ ops).commit = .ok t ∧
      t.life.pipeline = s.life.pipeline := by
  obtain ⟨hvalid, ops, hbuild⟩ := h.committed
  obtain ⟨s₀, hcreate⟩ := exists_create hvalid ids
  have hd : s₀.desc = s.desc := (tileIds_of_create hcreate).1
  exact ⟨_, s₀, ops, hcreate, commit_setImageOps (hd.symm ▸ hbuild), rfl⟩

theorem Reachable.exists_builtLike (h : Reachable s) : ∃ t, s.BuiltLike t := h.exists_new s.tileIds

theorem BuiltLike.after (render : PixelRenderer) (shot : Shot) (h : s.BuiltLike t) :
    (Frame.after render s shot).BuiltLike t := by
  obtain ⟨s₀, ops, hcreate, hcommit, hpipeline⟩ := h
  obtain ⟨hsame, ⟨_, _, hlife⟩, hids, -⟩ := after_frame render shot s
  refine ⟨s₀, ops, ?_, hcommit, ?_⟩
  · rw [hids, hsame.desc]
    exact hcreate
  · rw [hlife]
    exact hpipeline

/-- Clearing a buffer leaves it the tasks, the errors and the labels that choosing its tiles afresh does. -/
theorem setTiles_tileIds (h : Owns s.tileIds s) (hd : t.desc = s.desc) :
    Owns s.tileIds (t.setTiles s.tileIds) ∧
      (t.setTiles s.tileIds).tiles.toList.map OwnedTile.region = s.clear.tiles.toList.map OwnedTile.region ∧
      (t.setTiles s.tileIds).tracker = s.clear.tracker ∧ (t.setTiles s.tileIds).labels = s.clear.labels := by
  have hinside : ∀ id ∈ s.tileIds, id < (Tiling.tileCount t.desc.size).area := hd ▸ h.inside
  have howns : Owns s.tileIds (t.setTiles s.tileIds) := owns_setTiles t (hd ▸ h.valid) h.nodup hinside
  have hregions : (t.setTiles s.tileIds).tiles.toList.map OwnedTile.region =
      s.clear.tiles.toList.map OwnedTile.region := by
    rw [howns.regions, (sameTasks_clear s).regions, h.regions]
    exact congrArg (fun d : BufferDesc => s.tileIds.map (Tiling.tileRegion d.size)) hd
  have htasks : ∀ i, taskRegionOf s.desc (t.setTiles s.tileIds).tiles i = taskRegionOf s.desc s.tiles i :=
    taskRegionOf_congr (hregions.trans (sameTasks_clear s).regions)
  refine ⟨howns, hregions, ?_, ?_⟩
  · have hfresh : (if t.desc.has .variance then ErrorTracker.fresh
        ⟨(t.setTiles s.tileIds).tiles.size * t.desc.tasksPerTile.area, 1⟩ else .disabled) = s.tracker.clear := by
      rw [howns.size_tiles, ErrorTracker.clear, h.grid, hd]
      split <;> rfl
    show settleEmptyTasks t.desc (t.setTiles s.tileIds).tiles (if t.desc.has .variance then ErrorTracker.fresh
        ⟨(t.setTiles s.tileIds).tiles.size * t.desc.tasksPerTile.area, 1⟩ else .disabled) =
      settleEmptyTasks s.desc s.tiles s.tracker.clear
    rw [hfresh, hd]
    unfold settleEmptyTasks
    rw [funext htasks]
  · have hclear : s.clear.labels = s.tileIds.map fun id => (id, 0) := by
      refine (labels_setAccumIds ..).trans ?_
      rw [tileIds, List.map_map, List.map_map]
      rfl
    rw [hclear, labels, (taken_setTiles t h.nodup hinside).tiles, List.map_map]
    rfl

/-- Cleared, a buffer is steered as one that was just built. -/
theorem paired_of_builtLike (h : Owns s.tileIds s) (ht : s.BuiltLike t) :
    Paired s.tileIds (Pixel.AgreeFrom (.sparse s.desc)) s.clear t := by
  obtain ⟨s₀, ops, h₀, hcommit, hpipeline⟩ := ht
  obtain ⟨-, rfl⟩ := eq_of_create h₀
  obtain ⟨pipeline, -, rfl⟩ := eq_of_commit hcommit
  have hpipeline : pipeline = s.life.pipeline := hpipeline
  obtain ⟨howns, hregions, htracker, hlabels⟩ := setTiles_tileIds
    (t := ⟨⟨s.desc, -1, Binary32.posInf, .fresh s.desc.size.area, [], .empty, 0⟩, #[], #[], .disabled, #[]⟩) h rfl
  have hright : Owns s.tileIds (withOps _ ops pipeline) := (sameTasks_withOps _).owns howns
  refine ⟨(sameTasks_clear s).owns h, hright, rfl, rfl, rfl, hlabels,
    congrArg ErrorTracker.regions htracker, fun i hi => ?_, ?_⟩
  · have hzero : s.clear.taskAccumId i = 0 := getD_replicate_zero ..
    refine ⟨(taskRegionOf_congr hregions i).symm, fun p _ => ?_, ?_, ?_⟩
    · show Pixel.AgreeFrom _ (s.clear.taskAccumId i) _ _
      rw [hzero]
      intro ch _ hlt
      exact absurd hlt (by split <;> decide)
    · exact congrArg (fun tr : ErrorTracker => tr.get i) htracker.symm
    · exact hzero.trans (getD_replicate_zero ..).symm
  · exact .agreeFrom (congrArg Pipeline.pixelOps hpipeline.symm) h.valid.accum

/-- A frame is a number of steps, whatever it skips. -/
theorem Reachable.after (render : PixelRenderer) (shot : Shot) (h : Reachable s) :
    Reachable (Frame.after render s shot) :=
  after_keeps h (fun s h => h.step (.beginFrame s)) (fun s status h => h.step (.setStatus s status))
    (fun s tiles h => h.step (.accumulateAll s tiles)) (fun s _ h => h.step (.endFrame s)) (fun _ h => h) render shot

/-- A buffer that started over, after `n` frames that nobody interrupted. -/
structure StartedOver (ids : List Nat) (n : Nat) (s : SparseBuffer) : Prop where
  owns : Owns ids s
  begun : Begun s.taskOrder n s

theorem startedOver_clear (h : Owns ids s) : s.clear.StartedOver ids 0 := by
  refine ⟨(sameTasks_clear s).owns h, rfl, fun i _ => ?_⟩
  have hzero : s.clear.taskAccumId i = 0 := getD_replicate_zero ..
  exact Int.le_of_eq hzero.symm

theorem StartedOver.after (render : PixelRenderer) (shot : Shot) (hstop : shot.stop = .none)
    (h : s.StartedOver ids n) : (Frame.after render s shot).StartedOver ids (n + 1) := by
  obtain ⟨hsame, ⟨_, _, hlife⟩, -⟩ := after_frame render shot s
  have hframe : (Frame.after render s shot).life.frameId = s.life.frameId + 1 := by rw [hlife]
  have hcount : ∀ i ∈ s.taskOrder, (Frame.after render s shot).taskAccumId i =
      if i ∈ renderedIds shot s then s.taskAccumId i + 1 else s.taskAccumId i :=
    fun i hi => after_taskAccumId render shot h.owns (h.owns.local_lt hi)
  have hall : s.life.frameId < 1 → ∀ i ∈ s.taskOrder, i ∈ renderedIds shot s := by
    intro hlt i hi
    rw [Frame.renderedIds_none shot s (fun _ => rfl) hstop]
    have hallowed : adaptiveAllowed (s.life.frameId + 1) shot.config.threshold shot.config.samplesPerPixel = false :=
      adaptiveAllowed_of_lt (by omega)
    show i ∈ s.beginFrame.schedule shot.config.threshold shot.config.samplesPerPixel
    rw [schedule_beginFrame, List.mem_filter, wanted, adaptive, hallowed, Bool.and_false]
    exact ⟨hi, rfl⟩
  exact ⟨hsame.owns h.owns, hsame.taskOrder.symm ▸ h.begun.next hframe hcount hall⟩

/-- After a frame, buffers whose pixels agree on what was replaced store the same samples. -/
theorem Paired.storesAlike {d : BufferDesc} (h : Paired ids (Pixel.AgreeFrom (.sparse d)) s t) (hs : s.StartedOver ids n)
    (hn : 0 < n) : StoresAlike s t := by
  refine ⟨h.frameId, h.variance, ?_, ?_, ?_, ?_⟩
  · intro id
    exact congrArg (fun tr : ErrorTracker => tr.get id) h.known_eq.1
  · intro id
    exact congrArg (fun counts : Array Int => (counts[id]?).getD 0) h.known_eq.2
  · rw [tileIds_eq, tileIds_eq, h.labels]
  · refine Array.ext_getElem? fun k => ?_
    rw [Array.getElem?_map, Array.getElem?_map]
    cases hu : s.tiles[k]? with
    | none =>
      have hsize : t.tiles.size = s.tiles.size := by rw [h.right.size_tiles, h.left.size_tiles]
      rw [Array.getElem?_eq_none (hsize ▸ Array.getElem?_eq_none_iff.1 hu)]
    | some u =>
      obtain ⟨v, hv, hregion, hlabel⟩ := h.exists_tile hu
      have hstore : v.store.map Pixel.shown = u.store.map Pixel.shown := by
        refine Raster.ext_getD Sample.blank hregion fun p hp => ?_
        have hp : v.store.region.contains p = true := hp
        have hp' : u.region.contains p = true := hregion ▸ hp
        obtain ⟨i, hi, hagree⟩ := h.pixels hu hv hp'
        have hcount : ((min n 2 : Nat) : Int) ≤ s.taskAccumId i := hs.begun.counts i hi
        rw [Raster.getD_map hp _ Pixel.blank, Raster.getD_map hp' _ Pixel.blank]
        exact (hagree.shown (by omega)).symm
      rw [hv]
      show some (⟨v.store.map Pixel.shown, v.accumId⟩ : Tile) = some ⟨u.store.map Pixel.shown, u.accumId⟩
      rw [hstore, hlabel]

end SparseBuffer

/-! ## Cleared or new -/

/-- **A cleared buffer goes on as a new one.** Take a dense or a sparse buffer in any state that it can get into.
A buffer with its description, its tiles and its committed operations can be built. Clear the one, and render any
number of frames that nobody interrupts into both: they schedule and report the same, and after one frame or more
the two are steered alike and read the same on every channel, but for the variance that takes two frames. Sparse
buffers have no channels; they store the same samples. -/
theorem cleared_as_new (render : PixelRenderer) (shots : List Shot) (hstop : ∀ shot ∈ shots, shot.stop = .none) :
    (∀ b : DenseBuffer, b.Reachable → (∃ c, b.BuiltLike c) ∧ ∀ c, b.BuiltLike c →
      reports render (shots.map .frame) (clear b) = reports render (shots.map .frame) c ∧
      (shots ≠ [] → ReadsAlike (fun ch => ch = .variance → 2 ≤ shots.length) (play render shots (clear b))
        (play render shots c))) ∧
    ∀ s : SparseBuffer, s.Reachable → (∃ t, s.BuiltLike t) ∧ ∀ t, s.BuiltLike t →
      reports render (shots.map .frame) (clear s) = reports render (shots.map .frame) t ∧
      (shots ≠ [] → StoresAlike (play render shots (clear s)) (play render shots t)) := by
  constructor
  · intro b h
    refine ⟨h.exists_builtLike, fun c hc => ?_⟩
    obtain ⟨hpair, hd⟩ := DenseBuffer.paired_of_builtLike h.intact hc
    obtain ⟨hb₀, hc₀⟩ := DenseBuffer.startedOver_of_paired hpair
    obtain ⟨hreports, hend⟩ := hpair.handleAll render (shots.map .frame)
    obtain ⟨-, hdb, hpb⟩ := DenseBuffer.handleAll_intact render (shots.map .frame) hpair.left
    obtain ⟨-, hdc, hpc⟩ := DenseBuffer.handleAll_intact render (shots.map .frame) hpair.right
    rw [handleAll_frames] at hdb hpb hdc hpc
    rw [handleAll_frames, handleAll_frames] at hend
    refine ⟨hreports.symm, fun hne => ?_⟩
    have hb := holds_play (P := DenseBuffer.StartedOver) render
      (fun shot hshot hx => hx.after render shot hshot) shots hstop hb₀
    have hc' := holds_play (P := DenseBuffer.StartedOver) render
      (fun shot hshot hx => hx.after render shot hshot) shots hstop hc₀
    rw [Nat.zero_add] at hb hc'
    obtain ⟨_, _, _, _, hpipeline⟩ := hc
    exact hend.readsAlike_of_startedOver hdb (hdc.trans hd) (hpc.trans (hpipeline.trans hpb.symm)) hb hc'
      (List.length_pos_iff.2 hne)
  · intro s h
    refine ⟨h.exists_builtLike, fun t ht => ?_⟩
    have hpair := SparseBuffer.paired_of_builtLike h.owns ht
    obtain ⟨hreports, hend⟩ := hpair.handleAll render (shots.map .frame)
    rw [handleAll_frames, handleAll_frames] at hend
    refine ⟨hreports.symm, fun hne => ?_⟩
    have hs := holds_play (P := SparseBuffer.StartedOver s.tileIds) render
      (fun shot hshot hx => hx.after render shot hshot) shots hstop (SparseBuffer.startedOver_clear h.owns)
    rw [Nat.zero_add] at hs
    exact SparseBuffer.Paired.storesAlike hend hs (List.length_pos_iff.2 hne)

/-- A strip and its second cell are rendered until somebody asks to stop, cleared and rendered again. -/
theorem cleared_as_new_strip :
    let ops : List ImageOp := [.pixel (.tint ⟨0, 0, 0.2⟩)]
    let render : PixelRenderer := fun _ p i => .ofColor (.splat (.ofNat (p.x + i)))
    let shot : Shot := ⟨.none, .standard, ⟨0.5, 8⟩⟩
    ∃ (b₀ b : DenseBuffer) (s₀ s : SparseBuffer),
      (DenseBuffer.create ⟨⟨68, 1⟩, .rgba8, .ofList [.color, .accum, .variance], defaultTaskSize⟩ = .ok b₀ ∧
        (setImageOps b₀ ops).commit = .ok b) ∧
      (SparseBuffer.create ⟨⟨68, 1⟩, .rgba8, .ofList [.color, .accum, .variance], defaultTaskSize⟩ [1] = .ok s₀ ∧
        (setImageOps s₀ ops).commit = .ok s) ∧
      (∀ shot' ∈ [shot, shot], shot'.stop = .none) ∧
      let b' := after render b { shot with stop := .after 1 }
      let s' := after render s { shot with stop := .after 1 }
      reports render [.frame shot, .frame shot] (clear b') = reports render [.frame shot, .frame shot] b ∧
        ReadsAlike (fun _ => True) (play render [shot, shot] (clear b')) (play render [shot, shot] b) ∧
        reports render [.frame shot, .frame shot] (clear s') = reports render [.frame shot, .frame shot] s ∧
        StoresAlike (play render [shot, shot] (clear s')) (play render [shot, shot] s) := by
  intro ops render shot
  obtain ⟨b₀, b, hb₀, hb⟩ : ∃ b₀ b,
      DenseBuffer.create ⟨⟨68, 1⟩, .rgba8, .ofList [.color, .accum, .variance], defaultTaskSize⟩ = .ok b₀ ∧
        (setImageOps b₀ ops).commit = .ok b := ⟨_, _, rfl, rfl⟩
  obtain ⟨s₀, s, hs₀, hs⟩ : ∃ s₀ s,
      SparseBuffer.create ⟨⟨68, 1⟩, .rgba8, .ofList [.color, .accum, .variance], defaultTaskSize⟩ [1] = .ok s₀ ∧
        (setImageOps s₀ ops).commit = .ok s := ⟨_, _, rfl, rfl⟩
  have hstop : ∀ shot' ∈ [shot, shot], shot'.stop = .none := by simp [shot]
  obtain ⟨hdense, hsparse⟩ := cleared_as_new render [shot, shot] hstop
  have hbr : b.Reachable := ((DenseBuffer.Reachable.create hb₀).step (.setImageOps _ ops)).step (.commit hb)
  have hsr : s.Reachable := ((SparseBuffer.Reachable.create hs₀).step (.setImageOps _ ops)).step (.commit hs)
  have hlikeb : b.BuiltLike b := by
    refine ⟨b₀, ops, ?_, hb, rfl⟩
    obtain ⟨-, rfl⟩ := DenseBuffer.eq_of_create hb₀
    obtain ⟨_, -, rfl⟩ := DenseBuffer.eq_of_commit hb
    exact hb₀
  have hlikes : s.BuiltLike s := by
    refine ⟨s₀, ops, ?_, hs, rfl⟩
    obtain ⟨-, rfl⟩ := SparseBuffer.eq_of_create hs₀
    obtain ⟨_, -, rfl⟩ := SparseBuffer.eq_of_commit hs
    exact hs₀
  obtain ⟨hreports, hreads⟩ := (hdense _ (hbr.after render { shot with stop := .after 1 })).2 b
    (hlikeb.after render _ hbr.intact)
  obtain ⟨hreports', hstores⟩ := (hsparse _ (hsr.after render { shot with stop := .after 1 })).2 s
    (hlikes.after render _)
  obtain ⟨hframe, hvariance, hregions, herror, hcount, hchannel⟩ := hreads (by simp)
  exact ⟨b₀, b, s₀, s, ⟨hb₀, hb⟩, ⟨hs₀, hs⟩, hstop, hreports,
    ⟨hframe, hvariance, hregions, herror, hcount, fun ch _ => hchannel ch fun _ => by decide⟩, hreports',
    hstores (by simp)⟩

end AdaptiveFrame
