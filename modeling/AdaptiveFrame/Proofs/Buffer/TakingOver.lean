import AdaptiveFrame.Proofs.Buffer.AnyOrder
import AdaptiveFrame.Proofs.Buffer.Composing

/-!
# Taking over a sparse buffer

What composing does to one pixel and to one task of a dense buffer. A pixel of an owned tile takes over the stored
sample, with its encoding on display; a task at the position of a scheduled one takes over its sample count, and its
error where both buffers track errors. Nothing else changes but the count of rendered pixels. The two buffers need
only have tasks of one extent: the image may be larger or smaller than the one the tiles were cut from.

Sparse buffers of one description that own different tiles meet in no pixel and in no task, so they are composed in
any order; composing one of them again finds everything as it is.
-/

namespace AdaptiveFrame

open FrameBuffer

/-- What an owned tile stores for a pixel. -/
def OwnedTile.stored (u : OwnedTile) (p : Point) : Sample := (u.store.getD p .blank).shown

/-! ## Tiles and tasks that meet -/

namespace SparseBuffer

variable {s s' : SparseBuffer} {u u' : OwnedTile} {p : Point} {i j : Nat}

/-- The pixel lies in an owned tile. -/
def Covers (s : SparseBuffer) (p : Point) : Prop := ∃ u ∈ s.tiles, u.region.contains p = true

/-- Tiles of images of one size that share a pixel are the same tile of the image. -/
theorem Owns.id_eq_of_contains (h : Owns s.tileIds s) (h' : Owns s'.tileIds s') (hd : s.desc = s'.desc)
    (hu : u ∈ s.tiles) (hu' : u' ∈ s'.tiles) (hp : u.region.contains p = true) (hp' : u'.region.contains p = true) :
    u.id = u'.id := by
  rw [h.region_eq hu] at hp
  rw [h'.region_eq hu', ← hd] at hp'
  have hcell := (Tiling.cell_of_contains_tileRegion hp).1.symm.trans (Tiling.cell_of_contains_tileRegion hp').1
  rw [← Point.rowMajor_ofRowMajor (Tiling.tileCount s.desc.size).x u.id, hcell, Point.rowMajor_ofRowMajor]

/-- Buffers that own no tile of the image in common. -/
def Apart (s s' : SparseBuffer) : Prop := s.tileIds.Disjoint s'.tileIds

instance : Std.Symm Apart := ⟨fun _ _ h _ hid hid' => h hid' hid⟩

/-- A pixel lies in one owned tile only. -/
theorem Owns.eq_of_contains (h : Owns s.tileIds s) (hu : u ∈ s.tiles) (hu' : u' ∈ s.tiles)
    (hp : u.region.contains p = true) (hp' : u'.region.contains p = true) : u = u' :=
  List.inj_on_of_nodup_map h.nodup (Array.mem_toList_iff.2 hu) (Array.mem_toList_iff.2 hu')
    (h.id_eq_of_contains h rfl hu hu' hp hp')

end SparseBuffer

namespace DenseBuffer

open SparseBuffer (Owns)

variable {b c : DenseBuffer} {s s' : SparseBuffer} {u : OwnedTile} {p : Point} {i id : Nat} {ss ss' : List SparseBuffer}

/-! ## One pixel -/

/-- What is displayed for a pixel. -/
def displayed? (b : DenseBuffer) (p : Point) : Option Rgba8 := b.display.map (·.getD p default)

/-- A pixel with what is displayed for it. -/
def cellAt (b : DenseBuffer) (p : Point) : Pixel × Option Rgba8 := (b.pixels.getD p .blank, b.displayed? p)

/-- A buffer that has tasks tracks their errors if it was asked to. -/
theorem Intact.isEnabled_eq (h : b.Intact) (hid : id < (gridOf b.desc).area) :
    b.tracker.isEnabled = b.desc.has .variance := by
  rw [ErrorTracker.isEnabled_eq, h.grid, trackedGrid]
  cases b.desc.has .variance with
  | false => rfl
  | true => exact decide_eq_true (Nat.zero_lt_of_lt hid)

theorem life_writeTiles (b : DenseBuffer) (tiles : List Tile) : (b.writeTiles tiles).life =
    b.life.addRendered (tiles.map fun t => (t.region.intersect b.desc.image).area).sum := by
  induction tiles generalizing b with
  | nil => exact (Lifecycle.addRendered_zero _).symm
  | cons t tiles ih =>
    have hstep : (b.writeTile t).life = b.life.addRendered (t.region.intersect b.desc.image).area := rfl
    have hdesc : (b.writeTile t).desc = b.desc := rfl
    have hrest := ih (b.writeTile t)
    rw [hstep, hdesc, Lifecycle.addRendered_addRendered] at hrest
    exact hrest

/-- Taking over tasks leaves pixels and the shared state alone. -/
theorem takeTasks_frame (c : DenseBuffer) (s : SparseBuffer) (order : List Nat) :
    (order.foldl (takeTask s) c).life = c.life ∧ ∀ p, (order.foldl (takeTask s) c).cellAt p = c.cellAt p := by
  refine Writes.inv_foldl (I := fun x : DenseBuffer => x.life = c.life ∧ ∀ p, x.cellAt p = c.cellAt p)
    ⟨rfl, fun _ => rfl⟩ ?_
  intro x i _ hx
  cases hpos : x.taskIdAt? (s.taskGridPos i) with
  | none =>
    rw [takeTask_of_none hpos]
    exact hx
  | some id =>
    rw [takeTask_of_some hpos]
    exact hx

section Compose

variable (hb : b.Intact) (ho : Owns s.tileIds s) (hsize : b.desc.taskSize = s.desc.taskSize)

include hsize

include hb

include ho

end Compose

theorem Intact.compose (h : b.Intact) (s : SparseBuffer) : (DeviceGroup.compose b s).Intact :=
  (composedFrom_compose (.self h) s).intact

section Apart

variable (hb : b.Intact) (hown : ∀ s ∈ ss, Owns s.tileIds s ∧ b.desc.taskSize = s.desc.taskSize)
  (hdesc : ∀ s ∈ ss, ∀ s' ∈ ss, s.desc = s'.desc) (hapart : ss.Pairwise SparseBuffer.Apart)

include hb hown hdesc hapart

end Apart

end DenseBuffer

end AdaptiveFrame
