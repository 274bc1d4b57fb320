import AdaptiveFrame.Buffer.Compose
import AdaptiveFrame.Proofs.Accum.Boxes
import AdaptiveFrame.Proofs.Accum.Receive
import AdaptiveFrame.Proofs.Buffer.Tasks

/-!
# What every dense buffer keeps

Whatever is done to a dense buffer, its pixels cover the image, its errors and sample counts cover the task
grid, and the boxes of its tracker are laid out (`Intact`). `Reachable` are the buffers that any use of one
can lead to, `Started` those among them that are about to begin their first frame.
-/

namespace AdaptiveFrame

theorem FrameOp.region_apply (op : FrameOp) (image : FrameImage) : (op.apply image).region = image.color.region := by
  cases op with
  | depth =>
    unfold apply
    dsimp only
    split <;> rfl
  | _ => rfl

theorem Pipeline.region_finish (pl : Pipeline) (image : FrameImage) :
    (pl.finish image).region = image.color.region := by
  unfold finish
  refine Writes.inv_foldl (I := fun im : FrameImage => im.color.region = image.color.region) rfl ?_
  intro im op _ h
  exact (op.region_apply im).trans h

theorem getD_replicate_zero (n i : Nat) : ((Array.replicate n (0 : Int))[i]?).getD 0 = 0 := by
  rw [Array.getElem?_replicate]
  split <;> rfl

namespace DenseBuffer

open FrameBuffer

/-- The grid of tasks whose errors a buffer tracks. -/
def trackedGrid (d : BufferDesc) : Point := if d.has .variance then gridOf d else .zero

structure Intact (b : DenseBuffer) : Prop where
  valid : b.desc.Valid
  pixels : b.pixels.region = b.desc.image
  display : ∀ g, b.display = some g → g.region = b.desc.image
  encoded : b.display.isSome = b.desc.hasEncodedColor
  output : ∀ g, b.output = some g → g.region = b.desc.image
  grid : b.tracker.grid = trackedGrid b.desc
  boxes : ErrorTracker.LaidOut b.tracker.grid b.tracker.regions
  accumIds : b.accumIds.size = (gridOf b.desc).area

/-- Whatever is done to a dense buffer. -/
inductive Step : DenseBuffer → DenseBuffer → Prop
  | setImageOps (b : DenseBuffer) (ops : List ImageOp) : Step b (setImageOps b ops)
  | commit {b b' : DenseBuffer} : b.commit = .ok b' → Step b b'
  | beginFrame (b : DenseBuffer) : Step b b.beginFrame
  | accumulate (b : DenseBuffer) (t : Tile) : Step b (b.accumulate t).1
  | accumulateAll (b : DenseBuffer) (tiles : List Tile) : Step b (b.accumulateAll tiles)
  | writeTiles (b : DenseBuffer) (tiles : List Tile) : Step b (b.writeTiles tiles)
  | writeSparse {b b' : DenseBuffer} (s : SparseBuffer) : b.writeSparse s = .ok b' → Step b b'
  | endFrame (b : DenseBuffer) (threshold : Float32) : Step b (b.endFrame threshold)
  | postProcess (b : DenseBuffer) : Step b b.postProcess
  | setStatus (b : DenseBuffer) (s : FrameStatus) : Step b (setStatus b s)
  | clear (b : DenseBuffer) : Step b b.clear
  | map {b b' : DenseBuffer} {c : Channel} {data : ChannelData} : map? b c = some (data, b') → Step b b'
  | unmap (b : DenseBuffer) : Step b (unmap b)

inductive Reachable : DenseBuffer → Prop
  | create {d : BufferDesc} {b : DenseBuffer} : create d = .ok b → Reachable b
  | step {b b' : DenseBuffer} : Reachable b → Step b b' → Reachable b'

/-- Buffers that are new or were just cleared. Image operations may have been chosen since. -/
inductive Started : DenseBuffer → Prop
  | create {d : BufferDesc} {b : DenseBuffer} : create d = .ok b → Started b
  | clear {b : DenseBuffer} : Reachable b → Started b.clear
  | setImageOps {b : DenseBuffer} (ops : List ImageOp) : Started b → Started (FrameBuffer.setImageOps b ops)
  | commit {b b' : DenseBuffer} : Started b → b.commit = .ok b' → Started b'

/-! ## New and committed buffers -/

theorem eq_of_create {d : BufferDesc} {b : DenseBuffer} (h : create d = .ok b) : d.Valid ∧
    b = { life := ⟨d, -1, Binary32.posInf, .fresh d.size.area, [], .empty, 0⟩
          pixels := .fill d.image .blank
          display := if d.hasEncodedColor then some (.fill d.image ⟨0, 0, 0, 0⟩) else none
          output := none
          tracker := .fresh (trackedGrid d)
          accumIds := Array.replicate (gridOf d).area 0 } := by
  unfold create Lifecycle.create at h
  cases hv : d.validate with
  | error e =>
    rw [hv] at h
    cases h
  | ok u =>
    rw [hv] at h
    cases h
    refine ⟨BufferDesc.valid_of_validate hv, ?_⟩
    have htracker :
        (if d.has .variance then ErrorTracker.fresh (gridOf d) else .disabled) = .fresh (trackedGrid d) := by
      unfold trackedGrid
      split <;> rfl
    rw [← htracker]

theorem eq_of_commit {b b' : DenseBuffer} (h : b.commit = .ok b') : ∃ pipeline,
    Pipeline.build b.life.imageOps b.desc true = .ok pipeline ∧
    b' = { b with
           life := { b.life with pipeline }
           output := if pipeline.hasFrameOps then some (b.output.getD b.color) else none } := by
  unfold commit Lifecycle.commit at h
  cases hp : Pipeline.build b.life.imageOps b.life.desc true with
  | error e =>
    rw [hp] at h
    cases h
  | ok pipeline =>
    rw [hp] at h
    cases h
    exact ⟨pipeline, hp, rfl⟩

/-! ## Parts that loops leave alone -/

section Loops

variable {d : BufferDesc} {pixels : Store} {tracker : ErrorTracker} {accumIds : Array Int} {tasks : List Point}

theorem grid_renewErrors : (renewErrors d pixels tasks tracker).grid = tracker.grid :=
  Writes.inv_foldl (I := fun t : ErrorTracker => t.grid = tracker.grid) rfl fun _ _ _ h => h

theorem regions_renewErrors : (renewErrors d pixels tasks tracker).regions = tracker.regions :=
  Writes.inv_foldl (I := fun t : ErrorTracker => t.regions = tracker.regions) rfl fun _ _ _ h => h

theorem size_noteAccumIds (grid : Point) (k : Int) : (noteAccumIds grid tasks k accumIds).size = accumIds.size := by
  refine Writes.inv_foldl (I := fun ids : Array Int => ids.size = accumIds.size) rfl ?_
  intro ids pos _ h
  rw [Array.size_setIfInBounds]
  exact h

theorem isSome_encodeTile (format : ColorFormat) (t : Tile) (display : Option (Raster Rgba8)) :
    (encodeTile format t display).isSome = display.isSome := by
  unfold encodeTile
  split <;> rfl

theorem region_encodeTile {format : ColorFormat} {t : Tile} {display : Option (Raster Rgba8)} {r : Region}
    (h : ∀ g, display = some g → g.region = r) (g : Raster Rgba8) (hg : encodeTile format t display = some g) :
    g.region = r := by
  unfold encodeTile at hg
  split at hg
  · rename_i shown _
    cases hg
    exact h shown rfl
  · exact h g hg

end Loops

/-! ## Every step keeps a buffer intact -/

namespace Intact

variable {b : DenseBuffer}

theorem setLife (h : b.Intact) {life : Lifecycle} (hd : life.desc = b.desc) : Intact { b with life } := by
  obtain ⟨hv, hp, hs, he, ho, hg, hb, ha⟩ := h
  rw [← hd] at hv hp hs he ho hg ha
  exact ⟨hv, hp, hs, he, ho, hg, hb, ha⟩

theorem of_create {d : BufferDesc} (h : DenseBuffer.create d = .ok b) : b.Intact := by
  obtain ⟨hv, rfl⟩ := eq_of_create h
  refine ⟨hv, rfl, ?_, ?_, by simp, rfl, ErrorTracker.laidOut_wholeGrid _, Array.size_replicate⟩
  · intro g hg
    obtain ⟨-, heq⟩ := Option.ite_none_right_eq_some.1 hg
    cases heq
    rfl
  · show Option.isSome (if d.hasEncodedColor = true then _ else none) = d.hasEncodedColor
    cases d.hasEncodedColor <;> rfl

theorem absorb (h : b.Intact) (t : Tile) : (b.absorb t).1.Intact ∧ (b.absorb t).1.life = b.life := by
  obtain ⟨life, pixels, display, output, tracker, accumIds⟩ := b
  unfold DenseBuffer.absorb
  split
  rename_i hb
  cases hb
  dsimp only
  split
  · exact ⟨h, rfl⟩
  · refine ⟨⟨h.valid, h.pixels, region_encodeTile h.display, ?_, h.output, ?_, ?_, ?_⟩, rfl⟩
    · exact (isSome_encodeTile ..).trans h.encoded
    · show ErrorTracker.grid (if _ then _ else _) = _
      split
      · exact grid_renewErrors.trans h.grid
      · exact h.grid
    · show ErrorTracker.LaidOut (ErrorTracker.grid (if _ then _ else _)) (ErrorTracker.regions (if _ then _ else _))
      split
      · rw [grid_renewErrors, regions_renewErrors]
        exact h.boxes
      · exact h.boxes
    · exact (size_noteAccumIds ..).trans h.accumIds

theorem foldl_absorb (h : b.Intact) (tiles : List Tile) :
    (tiles.foldl (fun b t => (b.absorb t).1) b).Intact ∧
      (tiles.foldl (fun b t => (b.absorb t).1) b).life = b.life :=
  Writes.inv_foldl (I := fun c : DenseBuffer => c.Intact ∧ c.life = b.life) ⟨h, rfl⟩
    fun _ t _ hc => ⟨(hc.1.absorb t).1, (hc.1.absorb t).2.trans hc.2⟩

theorem accumulate (h : b.Intact) (t : Tile) : (b.accumulate t).1.Intact := by
  unfold DenseBuffer.accumulate
  split
  · have h' := (h.absorb t).1
    exact h'.setLife rfl
  · exact h

theorem accumulateAll (h : b.Intact) (tiles : List Tile) : (b.accumulateAll tiles).Intact := by
  have hrows : Intact ((List.range (Tiling.tileCount b.desc.size).y).foldl
      (fun b row => (band tiles row).foldl (fun b t => (b.absorb t).1) b) b) :=
    Writes.inv_foldl h fun _ _ _ hc => (hc.foldl_absorb _).1
  exact hrows.setLife rfl

theorem writeTile (h : b.Intact) (t : Tile) : (b.writeTile t).Intact := by
  obtain ⟨life, pixels, display, output, tracker, accumIds⟩ := b
  exact ⟨h.valid, h.pixels, region_encodeTile h.display, (isSome_encodeTile ..).trans h.encoded, h.output, h.grid,
    h.boxes, h.accumIds⟩

theorem writeTiles (h : b.Intact) (tiles : List Tile) : (b.writeTiles tiles).Intact :=
  Writes.inv_foldl h fun _ t _ hc => hc.writeTile t

theorem takeTask (h : b.Intact) (s : SparseBuffer) (i : Nat) : (b.takeTask s i).Intact := by
  unfold DenseBuffer.takeTask
  dsimp only
  split
  · refine ⟨h.valid, h.pixels, h.display, h.encoded, h.output, ?_, ?_, (Array.size_setIfInBounds ..).trans h.accumIds⟩
    · show ErrorTracker.grid (if _ then _ else _) = _
      split <;> exact h.grid
    · show ErrorTracker.LaidOut (ErrorTracker.grid (if _ then _ else _)) (ErrorTracker.regions (if _ then _ else _))
      split <;> exact h.boxes
  · exact h

theorem writeSparse (h : b.Intact) {b' : DenseBuffer} {s : SparseBuffer} (hs : b.writeSparse s = .ok b') :
    b'.Intact := by
  unfold DenseBuffer.writeSparse at hs
  split at hs
  · cases hs
    exact Writes.inv_foldl (h.writeTiles _) fun _ i _ hc => hc.takeTask s i
  · cases hs

theorem endFrame (h : b.Intact) (threshold : Float32) : (b.endFrame threshold).Intact := by
  have hout : Intact (if b.life.pipeline.hasFrameOps && b.desc.hasColor then
      { b with output := some (b.life.pipeline.finish b.frameImage) } else b) := by
    split
    · refine ⟨h.valid, h.pixels, h.display, h.encoded, ?_, h.grid, h.boxes, h.accumIds⟩
      rintro g ⟨⟩
      exact (Pipeline.region_finish ..).trans h.pixels
    · exact h
  unfold DenseBuffer.endFrame
  dsimp only
  generalize (if b.life.pipeline.hasFrameOps && b.desc.hasColor then
      { b with output := some (b.life.pipeline.finish b.frameImage) } else b) = c at hout ⊢
  split
  · have hboxes := hout.boxes.shrunk (ErrorTracker.refine_shrunk c.tracker threshold)
    have hgrid := ErrorTracker.grid_refine c.tracker threshold
    rw [← hgrid] at hboxes
    exact ⟨hout.valid, hout.pixels, hout.display, hout.encoded, hout.output, hgrid.trans hout.grid, hboxes,
      hout.accumIds⟩
  · exact hout

theorem postProcess (h : b.Intact) : b.postProcess.Intact := by
  unfold DenseBuffer.postProcess
  split
  · split
    · rename_i _ _ _ shown output hencode hshown houtput
      have hencoded := h.encoded
      rw [hshown] at hencoded
      refine ⟨h.valid, h.pixels, ?_, hencoded, h.output, h.grid, h.boxes, h.accumIds⟩
      rintro g ⟨⟩
      exact h.output output houtput
    · exact h
  · exact h

theorem clear (h : b.Intact) : b.clear.Intact :=
  ⟨h.valid, h.pixels, h.display, h.encoded, h.output, h.grid, ErrorTracker.laidOut_wholeGrid _,
    Array.size_replicate.trans h.accumIds⟩

theorem commit (h : b.Intact) {b' : DenseBuffer} (hc : b.commit = .ok b') : b'.Intact := by
  obtain ⟨pipeline, -, rfl⟩ := eq_of_commit hc
  refine ⟨h.valid, h.pixels, h.display, h.encoded, fun g hg => ?_, h.grid, h.boxes, h.accumIds⟩
  dsimp only at hg
  split at hg
  · cases hg
    cases ho : b.output with
    | none => exact h.pixels
    | some output => exact h.output output ho
  · cases hg

theorem map (h : b.Intact) {b' : DenseBuffer} {c : Channel} {data : ChannelData}
    (hm : map? b c = some (data, b')) : b'.Intact := by
  unfold map? at hm
  obtain ⟨_, _, heq⟩ := Option.map_eq_some_iff.1 hm
  cases heq
  exact h.setLife rfl

theorem step (h : b.Intact) {b' : DenseBuffer} (hs : Step b b') : b'.Intact := by
  cases hs with
  | setImageOps ops => exact h.setLife rfl
  | commit hc => exact h.commit hc
  | beginFrame => exact h.setLife rfl
  | accumulate t => exact h.accumulate t
  | accumulateAll tiles => exact h.accumulateAll tiles
  | writeTiles tiles => exact h.writeTiles tiles
  | writeSparse s hw => exact h.writeSparse hw
  | endFrame threshold => exact h.endFrame threshold
  | postProcess => exact h.postProcess
  | setStatus s => exact h.setLife rfl
  | clear => exact h.clear
  | map hm => exact h.map hm
  | unmap => exact h.setLife rfl

end Intact

theorem Intact.grid_of_enabled {b : DenseBuffer} (h : b.Intact) (he : b.tracker.isEnabled = true) :
    b.tracker.grid = gridOf b.desc := by
  rw [ErrorTracker.isEnabled_eq, decide_eq_true_eq, h.grid, trackedGrid] at he
  rw [h.grid, trackedGrid]
  by_cases hv : b.desc.has .variance = true
  · rw [if_pos hv]
  · rw [if_neg hv] at he
    exact absurd he (by decide)

theorem Reachable.intact {b : DenseBuffer} (h : Reachable b) : b.Intact := by
  induction h with
  | create h => exact .of_create h
  | step _ hs ih => exact ih.step hs

theorem Started.intact {b : DenseBuffer} (h : Started b) : b.Intact := by
  induction h with
  | create h => exact .of_create h
  | clear h => exact h.intact.clear
  | setImageOps ops _ ih => exact ih.setLife rfl
  | commit _ hc ih => exact ih.commit hc

/-- A new or cleared buffer knows nothing of its tasks yet. -/
theorem Started.fresh {b : DenseBuffer} (h : Started b) : (∃ grid, b.tracker = .fresh grid) ∧
    (∃ n, b.accumIds = Array.replicate n 0) ∧ b.life.variance = Binary32.posInf := by
  induction h with
  | create h =>
    obtain ⟨-, rfl⟩ := eq_of_create h
    exact ⟨⟨_, rfl⟩, ⟨_, rfl⟩, rfl⟩
  | clear _ => exact ⟨⟨_, rfl⟩, ⟨_, rfl⟩, rfl⟩
  | setImageOps ops _ ih => exact ih
  | commit _ hc ih =>
    obtain ⟨pipeline, -, rfl⟩ := eq_of_commit hc
    exact ih

end DenseBuffer

end AdaptiveFrame
