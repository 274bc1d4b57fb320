import AdaptiveFrame.Proofs.Buffer.CellLookup
import AdaptiveFrame.Proofs.Buffer.TakingOver
import AdaptiveFrame.Proofs.Grid.Counting
import AdaptiveFrame.Proofs.Number.Quotients
import AdaptiveFrame.Proofs.Render.Clearing

/-!
# The progress of a frame

The tiles of a frame share no pixel, and are delivered one by one or in batches. Every pixel that one of them reaches is
folded once, and no other pixel is changed (`Folding.Took`). The status counts what is folded. A sparse buffer counts
nothing else, so its progress reaches one when every pixel of the image was folded and not before; a dense buffer also
counts the positions of a tile that lie outside the image (`progress_counts_folded`).
-/

namespace AdaptiveFrame

open FrameBuffer

/-! ## Deliveries -/

/-- The tiles share no pixel. -/
def Tile.Apart (t u : Tile) : Prop := t.region.overlaps u.region = false

instance (t u : Tile) : Decidable (t.Apart u) := inferInstanceAs (Decidable (_ = false))

instance : Std.Symm Tile.Apart := ⟨fun t u h => (Region.overlaps_comm u.region t.region).trans h⟩

/-- What a buffer is handed in a frame: one tile, or a batch. -/
inductive Delivery where
  | single (t : Tile)
  | batch (tiles : List Tile)

def Delivery.tiles : Delivery → List Tile
  | single t => [t]
  | batch tiles => tiles

namespace FrameBuffer

variable {β : Type} [FrameBuffer β]

def deliver (b : β) : Delivery → β
  | .single t => (accumulate b t).1
  | .batch tiles => accumulateAll b tiles

def deliverAll (b : β) (ds : List Delivery) : β := ds.foldl deliver b

end FrameBuffer

/-! ## Taking tiles -/

/-- How a buffer folds tiles. -/
structure Folding (β : Type) where
  image : Region
  /-- What is stored for a position. -/
  pixelAt? : β → Point → Option Pixel
  rule : FoldRule
  pipeline : Pipeline
  /-- The positions of a tile that are folded. -/
  part : Tile → Region
  /-- How many positions of a tile are counted without being folded. -/
  excess : Tile → Nat

namespace Folding

variable {β : Type} {f : Folding β} {b c d : β} {t : Tile} {tiles tiles' : List Tile} {p : Point}

/-- What is stored for a position after a tile. -/
def meet (f : Folding β) (p : Point) (px : Option Pixel) (t : Tile) : Option Pixel :=
  if (f.part t).contains p then px.map (·.receive f.rule f.pipeline t.accumId (t.sampleAt p)) else px

/-- How many positions of a tile are counted. -/
def counted (f : Folding β) (t : Tile) : Nat := (f.part t).area + f.excess t

/-- How many pixels of the image some tiles reach. -/
def reached (f : Folding β) (tiles : List Tile) : Nat :=
  f.image.points.countP fun p => tiles.any fun t => (f.part t).contains p

/-- The tiles reach every pixel of the image. -/
def ReachesAll (f : Folding β) (tiles : List Tile) : Prop :=
  ∀ p, f.image.contains p = true → ∃ t ∈ tiles, (f.part t).contains p = true

/-- What is folded of a tile lies in the tile, in the image, and where the buffer stores pixels. -/
structure Fits (f : Folding β) (b : β) : Prop where
  region : ∀ {t p}, (f.part t).contains p = true → t.region.contains p = true
  image : ∀ {t p}, (f.part t).contains p = true → f.image.contains p = true
  stored : ∀ {t p}, (f.part t).contains p = true → ∃ px, f.pixelAt? b p = some px

theorem foldl_meet_of_miss (h : ∀ t ∈ tiles, (f.part t).contains p = false) (px : Option Pixel) :
    tiles.foldl (f.meet p) px = px := by
  refine Writes.inv_foldl (I := fun x => x = px) rfl ?_
  rintro x t ht rfl
  rw [meet, h t ht, if_neg Bool.false_ne_true]

/-- Of tiles that share no pixel, only one reaches a position. -/
theorem part_of_apart {u : Tile} (hfits : f.Fits b) (h : t.Apart u) (hp : (f.part t).contains p = true) :
    (f.part u).contains p = false := by
  have hout := Region.overlaps_eq_false_iff.1 h p (hfits.region hp)
  exact Bool.eq_false_iff.2 fun hup => Bool.false_ne_true (hout.symm.trans (hfits.region hup))

theorem foldl_meet_of_hit (hfits : f.Fits b) (hapart : tiles.Pairwise Tile.Apart) (ht : t ∈ tiles)
    (hp : (f.part t).contains p = true) (px : Option Pixel) : tiles.foldl (f.meet p) px =
      px.map (·.receive f.rule f.pipeline t.accumId (t.sampleAt p)) := by
  obtain ⟨before, after, rfl⟩ := List.append_of_mem ht
  obtain ⟨-, hafter, hbefore⟩ := List.pairwise_append.1 hapart
  have hmiss : ∀ u ∈ before, (f.part u).contains p = false := fun u hu =>
    part_of_apart hfits (symm (hbefore u hu t (List.mem_cons_self ..))) hp
  have hmiss' : ∀ u ∈ after, (f.part u).contains p = false := fun u hu =>
    part_of_apart hfits ((List.pairwise_cons.1 hafter).1 u hu) hp
  rw [List.foldl_append, foldl_meet_of_miss hmiss, List.foldl_cons, foldl_meet_of_miss hmiss', meet, if_pos hp]

/-- The counted positions are the pixels that the tiles reach, and the excess. -/
theorem sum_counted (hfits : f.Fits b) (hapart : tiles.Pairwise Tile.Apart) :
    (tiles.map f.counted).sum = f.reached tiles + (tiles.map f.excess).sum := by
  have hparts : ((tiles.map f.part).map Region.area).sum = f.reached tiles := by
    rw [Region.sum_area_eq_countP (s := f.image), reached]
    · simp only [List.any_map, Function.comp_def]
    · intro r hr p hp
      obtain ⟨t, -, rfl⟩ := List.mem_map.1 hr
      exact hfits.image hp
    · refine List.pairwise_map.2 (hapart.imp fun {t u} htu => ?_)
      exact Region.overlaps_eq_false_iff.2 fun p hp => part_of_apart hfits htu hp
  rw [← hparts, List.map_map, ← List.sum_map_add]
  rfl

/-- Every pixel is reached if as many are reached as there are. -/
theorem reached_eq_area_iff : f.reached tiles = f.image.area ↔ f.ReachesAll tiles := by
  rw [reached, ← Region.length_points, List.countP_eq_length]
  simp only [ReachesAll, Region.mem_points, List.any_eq_true]

/-! ### One delivery after another -/

section Run

variable [FrameBuffer β]

/-- The second buffer is the first one after some tiles. -/
structure Took (f : Folding β) (b c : β) (tiles : List Tile) : Prop where
  pixel : ∀ p, f.pixelAt? c p = tiles.foldl (f.meet p) (f.pixelAt? b p)
  shared : life c = (life b).addRendered (tiles.map f.counted).sum

namespace Took

protected theorem nil (f : Folding β) (b : β) : f.Took b b [] := ⟨fun _ => rfl, (Lifecycle.addRendered_zero _).symm⟩

theorem single (hpixel : ∀ p, f.pixelAt? c p = f.meet p (f.pixelAt? b p) t)
    (hlife : life c = (life b).addRendered (f.counted t)) : f.Took b c [t] := by
  refine ⟨hpixel, ?_⟩
  rw [List.map_singleton, List.sum_singleton]
  exact hlife

theorem append (h : f.Took b c tiles) (h' : f.Took c d tiles') : f.Took b d (tiles ++ tiles') := by
  refine ⟨fun p => ?_, ?_⟩
  · rw [List.foldl_append, ← h.pixel, h'.pixel]
  · rw [h'.shared, h.shared, Lifecycle.addRendered_addRendered, List.map_append, List.sum_append]

end Took

variable {I : β → Prop}

/-- What each tile does, all of them do. `I` is what the buffer keeps meanwhile. -/
theorem took_foldl (hstep : ∀ c t, I c → I (accumulate c t).1 ∧ f.Took c (accumulate c t).1 [t]) (hb : I b)
    (tiles : List Tile) : I (tiles.foldl (fun b t => (accumulate b t).1) b) ∧
      f.Took b (tiles.foldl (fun b t => (accumulate b t).1) b) tiles := by
  induction tiles generalizing b with
  | nil => exact ⟨hb, .nil f b⟩
  | cons t tiles ih =>
    obtain ⟨hI, htook⟩ := hstep b t hb
    obtain ⟨hI', htook'⟩ := ih hI
    exact ⟨hI', htook.append htook'⟩

theorem took_deliverAll {ds : List Delivery}
    (hdeliver : ∀ c e, I c → e.tiles.Pairwise Tile.Apart → I (deliver c e) ∧ f.Took c (deliver c e) e.tiles)
    (hb : I b) (hapart : (ds.flatMap Delivery.tiles).Pairwise Tile.Apart) :
    f.Took b (deliverAll b ds) (ds.flatMap Delivery.tiles) := by
  induction ds generalizing b with
  | nil => exact .nil f b
  | cons e ds ih =>
    rw [List.flatMap_cons] at hapart ⊢
    obtain ⟨he, hds, -⟩ := List.pairwise_append.1 hapart
    obtain ⟨hI, htook⟩ := hdeliver b e hb he
    exact htook.append (ih hI hds)

end Run

end Folding

/-! ## Counting -/

namespace FrameStatus

variable {s : FrameStatus} {a n : Nat}

theorem ofNat_add_eq_iff {e : Nat} (he : e < 2 ^ 64) : UInt64.ofNat (a + e) = .ofNat a ↔ e = 0 := by
  rw [← UInt64.toNat_inj, UInt64.toNat_ofNat', UInt64.toNat_ofNat']
  omega

theorem rendered_eq_total_iff (ht : s.total = .ofNat n) (hr : s.rendered = .ofNat a) (hn : n < 2 ^ 64) (ha : a ≤ n) :
    s.rendered = s.total ↔ a = n := by
  rw [ht, hr, ← UInt64.toNat_inj, UInt64.toNat_ofNat_of_lt' hn, UInt64.toNat_ofNat_of_lt' (ha.trans_lt hn)]

/-- As long as single precision holds the total exactly, the progress is one when the count reaches it. -/
theorem progress_eq_one_iff (ht : s.total = .ofNat n) (hr : s.rendered = .ofNat a) (hpos : 0 < n) (hn : n ≤ 2 ^ 24)
    (ha : a < 2 ^ 64) : s.progress = 1 ↔ n ≤ a := by
  have hsize : n < 2 ^ 64 := by omega
  have htotal : s.total.toNat = n := by rw [ht, UInt64.toNat_ofNat_of_lt' hsize]
  have hrendered : s.rendered.toNat = a := by rw [hr, UInt64.toNat_ofNat_of_lt' ha]
  have hne : s.total ≠ 0 := fun h => by
    rw [h] at htotal
    exact absurd htotal.symm hpos.ne'
  rw [progress, if_neg hne, UInt64.toNat_min, hrendered, htotal,
    Binary32.div_ofNat_eq_one_iff hpos hn (Nat.min_le_right ..)]
  omega

-- Larger counts are rounded, and their quotient may be one too early.
example : FrameStatus.progress ⟨false, 2 ^ 24, 2 ^ 24 + 1, .noneFinished⟩ = 1 := by decide +kernel

end FrameStatus

/-- What the status of a frame says about the tiles that were delivered since it was opened. -/
structure Tally {β : Type} [FrameBuffer β] (f : Folding β) (b c : β) (tiles : List Tile) : Prop where
  /-- A pixel that a tile reaches received one sample. -/
  folded : ∀ t ∈ tiles, ∀ p, (f.part t).contains p = true → ∃ px, f.pixelAt? b p = some px ∧
    f.pixelAt? c p = some (px.receive f.rule f.pipeline t.accumId (t.sampleAt p))
  kept : ∀ p, (∀ t ∈ tiles, (f.part t).contains p = false) → f.pixelAt? c p = f.pixelAt? b p
  rendered : (status c).rendered = .ofNat (f.reached tiles + (tiles.map f.excess).sum)
  /-- The count is that of the pixels reached if there is no excess. -/
  counts : (tiles.map f.excess).sum < 2 ^ 64 →
    ((status c).rendered = .ofNat (f.reached tiles) ↔ (tiles.map f.excess).sum = 0)
  /-- The progress is one when the count, unless it wraps around, reaches the size of the image, unless that is
  rounded. -/
  progress : f.reached tiles + (tiles.map f.excess).sum < 2 ^ 64 → f.image.area ≤ 2 ^ 24 →
    ((status c).progress = 1 ↔ f.image.area ≤ f.reached tiles + (tiles.map f.excess).sum)
  /-- Without excess, the count and the progress are complete when every pixel was reached. -/
  complete : (tiles.map f.excess).sum = 0 → f.image.area < 2 ^ 64 →
    ((status c).rendered = (status c).total ↔ f.ReachesAll tiles) ∧
    (f.image.area ≤ 2 ^ 24 → ((status c).progress = 1 ↔ f.ReachesAll tiles))

theorem Folding.Took.tally {β : Type} [FrameBuffer β] {f : Folding β} {b c : β} {tiles : List Tile}
    (h : f.Took b c tiles) (hfits : f.Fits b) (hapart : tiles.Pairwise Tile.Apart)
    (hopened : (status b).rendered = 0) (htotal : (status b).total = .ofNat f.image.area) (hpos : 0 < f.image.area) :
    Tally f b c tiles := by
  have hstatus : status c = (status b).addRendered (f.reached tiles + (tiles.map f.excess).sum) := by
    rw [← sum_counted hfits hapart]
    exact congrArg Lifecycle.status h.shared
  have htotal' : (status c).total = .ofNat f.image.area := by
    rw [hstatus]
    exact htotal
  have hrendered : (status c).rendered = .ofNat (f.reached tiles + (tiles.map f.excess).sum) := by
    rw [hstatus, FrameStatus.addRendered, hopened, UInt64.zero_add]
  have hle : f.reached tiles ≤ f.image.area := by
    rw [← Region.length_points]
    exact List.countP_le_length
  refine ⟨fun t ht p hp => ?_, fun p hp => ?_, hrendered, fun hexcess => ?_, fun hcount hsize => ?_,
    fun hnone hsize => ?_⟩
  · obtain ⟨px, hpx⟩ := hfits.stored hp
    refine ⟨px, hpx, ?_⟩
    rw [h.pixel, foldl_meet_of_hit hfits hapart ht hp, hpx, Option.map_some]
  · rw [h.pixel, foldl_meet_of_miss hp]
  · rw [hrendered, FrameStatus.ofNat_add_eq_iff hexcess]
  · exact FrameStatus.progress_eq_one_iff htotal' hrendered hpos hsize hcount
  · rw [hnone, Nat.add_zero] at hrendered
    rw [← reached_eq_area_iff, FrameStatus.rendered_eq_total_iff htotal' hrendered hsize hle]
    refine ⟨.rfl, fun hsmall => ?_⟩
    rw [FrameStatus.progress_eq_one_iff htotal' hrendered hpos hsmall (hle.trans_lt hsize)]
    exact ⟨hle.antisymm, fun heq => heq.ge⟩

/-! ## Dense buffers -/

namespace DenseBuffer

variable {b b' : DenseBuffer} {t : Tile} {tiles : List Tile} {p : Point} {ds : List Delivery}

/-- The pixel at a position of the image. -/
def pixelAt? (b : DenseBuffer) (p : Point) : Option Pixel :=
  if b.desc.image.contains p then some (b.pixels.getD p .blank) else none

/-- What is folded of a tile: its part inside the image, unless it crosses a tile cell. -/
def foldedPart (d : BufferDesc) (t : Tile) : Region := if t.fitsCell then t.region.intersect d.image else ⟨.zero, .zero⟩

/-- The positions of a tile outside the image, unless it crosses a tile cell. -/
def outside (d : BufferDesc) (t : Tile) : Nat :=
  if t.fitsCell then t.region.points.countP fun p => !d.image.contains p else 0

def folding (b : DenseBuffer) : Folding DenseBuffer where
  image := b.desc.image
  pixelAt? := pixelAt?
  rule := .dense b.desc
  pipeline := b.life.pipeline
  part := foldedPart b.desc
  excess := outside b.desc

theorem contains_foldedPart {d : BufferDesc} : (foldedPart d t).contains p = true ↔
    t.fitsCell = true ∧ t.region.contains p = true ∧ d.image.contains p = true := by
  unfold foldedPart
  by_cases ht : t.fitsCell = true
  · rw [if_pos ht, Region.contains_intersect_iff, and_iff_right ht]
  · rw [if_neg ht]
    exact iff_of_false (fun hp => by simpa using Region.contains_iff.1 hp) fun hp => ht hp.1

theorem fits_folding (b : DenseBuffer) : b.folding.Fits b :=
  ⟨fun hp => (contains_foldedPart.1 hp).2.1, fun hp => (contains_foldedPart.1 hp).2.2,
    fun hp => ⟨_, if_pos (contains_foldedPart.1 hp).2.2⟩⟩

/-- All positions of a tile are counted. -/
theorem counted_eq (b : DenseBuffer) (t : Tile) :
    b.folding.counted t = if t.fitsCell = true then t.region.area else 0 := by
  show (foldedPart b.desc t).area + outside b.desc t = _
  unfold foldedPart outside
  by_cases ht : t.fitsCell = true
  · rw [if_pos ht, if_pos ht, if_pos ht, ← Region.area_eq_add_countP]
  · rw [if_neg ht, if_neg ht, if_neg ht]
    rfl

theorem sum_counted_eq (b : DenseBuffer) (tiles : List Tile) :
    (tiles.map b.folding.counted).sum = renderedOf tiles := by
  induction tiles with
  | nil => rfl
  | cons t tiles ih =>
    rw [List.map_cons, List.sum_cons, ih, counted_eq, renderedOf, renderedOf]
    by_cases ht : t.fitsCell = true
    · rw [if_pos ht, List.filter_cons_of_pos ht]
      rfl
    · rw [if_neg ht, List.filter_cons_of_neg ht, Nat.zero_add]

theorem pixels_accumulate (h : b.Intact) (t : Tile) : (b.accumulate t).1.pixels =
    if t.fitsCell = true then b.pixels.receive (.dense b.desc) b.life.pipeline t else b.pixels := by
  rw [accumulate_eq, ← pixels_absorb h]
  split <;> rfl

theorem life_accumulate (h : b.Intact) (t : Tile) :
    (b.accumulate t).1.life = b.life.addRendered (b.folding.counted t) := by
  rw [accumulate_eq, counted_eq]
  split
  · exact congrArg (fun life : Lifecycle => life.addRendered t.region.area) (h.absorb t).2
  · exact (Lifecycle.addRendered_zero _).symm

/-- One tile is folded where it reaches into the image. -/
theorem pixelAt?_accumulate (h : b.Intact) (t : Tile) (p : Point) :
    (b.accumulate t).1.pixelAt? p = b.folding.meet p (b.pixelAt? p) t := by
  have hdesc : (b.accumulate t).1.desc = b.desc := by
    rw [desc, life_accumulate h]
    rfl
  have hpart : (b.folding.part t).contains p = true ↔ _ := contains_foldedPart
  unfold pixelAt? Folding.meet
  rw [hdesc, pixels_accumulate h]
  by_cases hp : b.desc.image.contains p = true
  · rw [if_pos hp, if_pos hp, Option.map_some]
    by_cases ht : t.fitsCell = true
    · have hreached : (b.folding.part t).contains p = true ↔ t.region.contains p = true :=
        hpart.trans ⟨fun h => h.2.1, fun h => ⟨ht, h, hp⟩⟩
      rw [if_pos ht, Store.getD_receive (h.pixels ▸ hp), if_congr hreached rfl rfl]
      exact apply_ite some ..
    · rw [if_neg ht, if_neg fun h => ht (hpart.1 h).1]
  · rw [if_neg hp, if_neg hp, if_neg fun h => hp (hpart.1 h).2.2]

/-- Buffers that share all but pixels, display, errors and sample counts fold alike. -/
theorem folding_of_life {c : DenseBuffer} {n : Nat} (h : c.life = b.life.addRendered n) : c.folding = b.folding := by
  unfold folding desc
  rw [h]
  rfl

theorem took_accumulate (h : b.Intact) (t : Tile) : b.folding.Took b (b.accumulate t).1 [t] :=
  .single (pixelAt?_accumulate h t) (life_accumulate h t)

/-- What a buffer keeps while it takes tiles: it stays intact, and folds tiles in the same way. -/
def Folds (f : Folding DenseBuffer) (c : DenseBuffer) : Prop := c.Intact ∧ c.folding = f

theorem Folds.accumulate {f : Folding DenseBuffer} (h : Folds f b) (t : Tile) :
    Folds f (b.accumulate t).1 ∧ f.Took b (b.accumulate t).1 [t] := by
  obtain ⟨hb, rfl⟩ := h
  exact ⟨⟨hb.accumulate t, folding_of_life (life_accumulate hb t)⟩, took_accumulate hb t⟩

/-! ### Batches -/

theorem pixels_foldl_absorb (h : b.Intact) (tiles : List Tile) : (tiles.foldl (fun b t => (b.absorb t).1) b).pixels =
    tiles.foldl (fun st t => st.receive (.dense b.desc) b.life.pipeline t) b.pixels := by
  induction tiles generalizing b with
  | nil => rfl
  | cons t tiles ih =>
    obtain ⟨hI, hlife⟩ := h.absorb t
    rw [List.foldl_cons, ih hI, pixels_absorb h, absorb_desc h, hlife, List.foldl_cons]

/-- The pixels do not tell whether the tiles of a batch were folded row by row or in their order. -/
theorem pixels_accumulateAll (h : b.Intact) (hapart : tiles.Pairwise Tile.Apart) :
    (b.accumulateAll tiles).pixels = (tiles.foldl (fun b t => (b.accumulate t).1) b).pixels := by
  show ((List.range (Tiling.tileCount b.desc.size).y).foldl
    (fun b row => (band tiles row).foldl (fun b t => (b.absorb t).1) b) b).pixels = _
  rw [← List.foldl_flatMap, pixels_foldl_absorb h, List.foldl_flatMap, foldl_accumulate]
  refine (foldl_bands (I := fun st : Store => st.region = b.desc.image) h.pixels ?_ ?_ ?_).trans
    (pixels_foldl_absorb h _).symm
  · exact fun st t hst => hst
  · intro st t hbelow hst
    exact Store.receive_of_disjoint (hst ▸ overlaps_image_of_below hbelow)
  · intro st t ht t' ht' hne hst
    exact Store.receive_comm (hapart.forall ht ht' hne) st

theorem took_accumulateAll (h : b.Intact) (hapart : tiles.Pairwise Tile.Apart) :
    b.folding.Took b (b.accumulateAll tiles) tiles := by
  have hrows := (h.foldl_absorb ((List.range (Tiling.tileCount b.desc.size).y).flatMap (band tiles))).2
  rw [List.foldl_flatMap] at hrows
  have hlife : (b.accumulateAll tiles).life = b.life.addRendered (tiles.map b.folding.counted).sum := by
    rw [sum_counted_eq]
    exact congrArg (fun life : Lifecycle => life.addRendered (renderedOf tiles)) hrows
  have hsingly := (Folding.took_foldl (I := Folds b.folding) (fun _ t hc => hc.accumulate t) ⟨h, rfl⟩ tiles).2
  have hlife' : (tiles.foldl (fun b t => (b.accumulate t).1) b).life = _ := hsingly.shared
  refine ⟨fun p => ?_, hlife⟩
  rw [← hsingly.pixel]
  show (b.accumulateAll tiles).pixelAt? p = (tiles.foldl (fun b t => (b.accumulate t).1) b).pixelAt? p
  rw [pixelAt?, pixelAt?, pixels_accumulateAll h hapart, desc, desc, hlife, hlife']
  rfl

/-- Whatever is delivered, the pixels that it reaches are folded, and it is counted. -/
theorem took_deliverAll (h : b.Intact) (hapart : (ds.flatMap Delivery.tiles).Pairwise Tile.Apart) :
    b.folding.Took b (deliverAll b ds) (ds.flatMap Delivery.tiles) := by
  refine Folding.took_deliverAll (I := Folds b.folding) ?_ ⟨h, rfl⟩ hapart
  intro c e hc he
  cases e with
  | single t => exact hc.accumulate t
  | batch tiles =>
    obtain ⟨hc, hf⟩ := hc
    have htook := took_accumulateAll hc he
    rw [← hf]
    exact ⟨⟨hc.accumulateAll tiles, folding_of_life htook.shared⟩, htook⟩

/-! ### Buffers in use -/

/-- What is done to a buffer keeps its description, and the size that its status measures unless another status is
set. -/
theorem Step.measures (h : b.Intact) (hs : Step b b') : b'.desc = b.desc ∧
    ((status b').total = (status b).total ∨ ∃ st, b' = FrameBuffer.setStatus b st) := by
  refine ⟨(hs.committed h).1, ?_⟩
  have hrendered : ∀ {x : DenseBuffer} {n}, x.life = b.life.addRendered n → (status x).total = (status b).total := by
    intro x n hx
    show x.life.status.total = _
    rw [hx]
    rfl
  cases hs with
  | commit hc =>
    obtain ⟨pipeline, -, rfl⟩ := eq_of_commit hc
    exact .inl rfl
  | accumulate t => exact .inl (hrendered (life_accumulate h t))
  | accumulateAll tiles =>
    obtain ⟨n, hl⟩ := life_accumulateAll h tiles
    exact .inl (hrendered hl)
  | writeTiles tiles => exact .inl (hrendered (life_writeTiles b tiles))
  | writeSparse s hw =>
    unfold DenseBuffer.writeSparse at hw
    split at hw
    · cases hw
      exact .inl (hrendered ((takeTasks_frame ..).1.trans (life_writeTiles b _)))
    · cases hw
  | endFrame threshold =>
    rw [endFrame_eq]
    exact .inl rfl
  | postProcess =>
    rw [postProcess_eq]
    exact .inl rfl
  | setStatus st => exact .inr ⟨st, rfl⟩
  | map hm =>
    unfold map? at hm
    obtain ⟨_, _, heq⟩ := Option.map_eq_some_iff.1 hm
    cases heq
    exact .inl rfl
  | _ => exact .inl rfl

/-- The buffers that a use can lead to in which every status that is set measures the same size. -/
inductive InUse : DenseBuffer → Prop
  | create {d : BufferDesc} {b : DenseBuffer} : create d = .ok b → InUse b
  | step {b b' : DenseBuffer} : InUse b → Step b b' → (status b').total = (status b).total → InUse b'

theorem InUse.reachable (h : InUse b) : Reachable b := by
  induction h with
  | create h => exact .create h
  | step _ hs _ ih => exact ih.step hs

theorem InUse.total (h : InUse b) : (status b).total = .ofNat b.desc.image.area := by
  induction h with
  | create h =>
    obtain ⟨-, rfl⟩ := eq_of_create h
    rfl
  | step h hs htotal ih => rw [htotal, ih, (hs.measures h.reachable.intact).1]

theorem InUse.tally (h : InUse b) (hapart : (ds.flatMap Delivery.tiles).Pairwise Tile.Apart) :
    Tally b.folding b.beginFrame (deliverAll b.beginFrame ds) (ds.flatMap Delivery.tiles) := by
  have hopened : b.beginFrame.Intact := (h.reachable.step (.beginFrame b)).intact
  have hpos : 0 < b.desc.image.area := Region.area_pos_iff.2 ⟨hopened.valid.size_x, hopened.valid.size_y⟩
  exact (took_deliverAll hopened hapart).tally (fits_folding b.beginFrame) hapart rfl h.total hpos

end DenseBuffer

/-! ## Sparse buffers -/

namespace SparseBuffer

variable {s s' : SparseBuffer} {t : Tile} {u : OwnedTile} {p : Point} {k : Nat} {r : Region} {ds : List Delivery}

/-- The pixel at a position of an owned tile. -/
def pixelAt? (s : SparseBuffer) (p : Point) : Option Pixel :=
  (s.tiles.find? fun u => u.region.contains p).map fun u => u.store.getD p .blank

/-- What is folded of a tile: its part inside the owned tile that it is looked up under. -/
def foldedPart (s : SparseBuffer) (t : Tile) : Region :=
  match s.owner? t with
  | some (_, r) => t.region.intersect r
  | none => ⟨.zero, .zero⟩

def folding (s : SparseBuffer) : Folding SparseBuffer where
  image := s.desc.image
  pixelAt? := pixelAt?
  rule := .sparse s.desc
  pipeline := s.life.pipeline
  part := s.foldedPart
  excess := fun _ => 0

theorem contains_foldedPart : (s.foldedPart t).contains p = true ↔
    ∃ k r, s.owner? t = some (k, r) ∧ t.region.contains p = true ∧ r.contains p = true := by
  unfold foldedPart
  cases ho : s.owner? t with
  | none => simp [Region.contains_iff]
  | some owner =>
    obtain ⟨k, r⟩ := owner
    simp

theorem pixelAt?_of_mem (h : Owns s.tileIds s) (hu : u ∈ s.tiles) (hp : u.region.contains p = true) :
    s.pixelAt? p = some (u.store.getD p .blank) := by
  unfold pixelAt?
  cases hfind : s.tiles.find? fun u => u.region.contains p with
  | none => exact absurd hp (Array.find?_eq_none.1 hfind u hu)
  | some v =>
    have hv : v.region.contains p = true := Array.find?_some (p := fun u : OwnedTile => u.region.contains p) hfind
    rw [h.eq_of_contains (Array.mem_of_find?_eq_some hfind) hu hv hp]
    rfl

theorem pixelAt?_of_not_covers (hp : ¬s.Covers p) : s.pixelAt? p = none := by
  unfold pixelAt?
  rw [Array.find?_eq_none.2 fun u hu hup => hp ⟨u, hu, hup⟩]
  rfl

theorem SameTasks.covers (hs : SameTasks s s') (h : s'.Covers p) : s.Covers p := by
  obtain ⟨u, hu, hp⟩ := h
  have hregion : u.region ∈ s.tiles.toList.map OwnedTile.region :=
    hs.regions ▸ List.mem_map_of_mem (Array.mem_toList_iff.2 hu)
  obtain ⟨v, hv, heq⟩ := List.mem_map.1 hregion
  exact ⟨v, Array.mem_toList_iff.1 hv, heq ▸ hp⟩

theorem fits_folding (h : Owns s.tileIds s) : s.folding.Fits s := by
  refine ⟨fun {t p} hp => ?_, fun {t p} hp => ?_, fun {t p} hp => ?_⟩
  all_goals obtain ⟨k, r, ho, ht, hr⟩ := contains_foldedPart.1 hp
  · exact ht
  · obtain ⟨id, -, rfl⟩ := h.owned_of_ownedAt? ho
    exact (Tiling.cell_of_contains_tileRegion hr).2
  · obtain ⟨u, hu, rfl⟩ := (tile_of_ownedAt? ho).2
    exact ⟨_, pixelAt?_of_mem h (Array.mem_of_getElem? hu) hr⟩

/-- Folding into an owned tile folds the pixels that it shares with the tile. -/
theorem pixelAt?_received (h : Owns s.tileIds s) (hu : s.tiles[k]? = some u) (p : Point) :
    (s.received k u.region t).pixelAt? p =
      if t.region.contains p = true ∧ u.region.contains p = true then
        (s.pixelAt? p).map (·.receive (.sparse s.desc) s.life.pipeline t.accumId (t.sampleAt p))
      else s.pixelAt? p := by
  have hsame := sameTasks_received s k u.region t
  have hids : (s.received k u.region t).tileIds = s.tileIds := by rw [tileIds_eq, tileIds_eq, labels_received]
  have h' : Owns (s.received k u.region t).tileIds (s.received k u.region t) := by
    rw [hids]
    exact hsame.owns h
  have htiles : ∀ j : Nat, (s.received k u.region t).tiles[j]? =
      if k = j then (s.tiles[j]?).map (OwnedTile.mapStore (·.receive (.sparse s.desc) s.life.pipeline t))
      else s.tiles[j]? := fun j => Array.getElem?_modify ..
  by_cases hp : u.region.contains p = true
  · have hk := htiles k
    rw [if_pos rfl, hu] at hk
    rw [pixelAt?_of_mem h' (Array.mem_of_getElem? hk) hp, pixelAt?_of_mem h (Array.mem_of_getElem? hu) hp]
    show some ((u.store.receive (.sparse s.desc) s.life.pipeline t).getD p .blank) = _
    rw [Store.getD_receive hp, Option.map_some, apply_ite some]
    exact if_congr (and_iff_left hp).symm rfl rfl
  · rw [if_neg fun hboth => hp hboth.2]
    by_cases hcovers : s.Covers p
    · obtain ⟨v, hv, hvp⟩ := hcovers
      obtain ⟨j, hj⟩ := Array.mem_iff_getElem?.1 hv
      have hne : k ≠ j := by
        rintro rfl
        rw [hu] at hj
        cases hj
        exact hp hvp
      have hkept := htiles j
      rw [if_neg hne, hj] at hkept
      rw [pixelAt?_of_mem h' (Array.mem_of_getElem? hkept) hvp, pixelAt?_of_mem h hv hvp]
    · rw [pixelAt?_of_not_covers hcovers, pixelAt?_of_not_covers fun hc => hcovers (hsame.covers hc)]

/-- A tile is folded where it reaches into the owned tile that it is looked up under. -/
theorem took_accumulate (h : Owns s.tileIds s) (t : Tile) : s.folding.Took s (s.accumulate t).1 [t] := by
  have hidle : (s.foldedPart t).area = 0 → s.folding.Took s s [t] := by
    intro harea
    refine .single (fun p => ?_) ?_
    · have hout : ¬(s.folding.part t).contains p = true := fun hp =>
        (Region.area_pos_of_contains hp).ne' harea
      rw [Folding.meet, if_neg hout]
    · have hcounted : s.folding.counted t = 0 := harea
      rw [hcounted]
      exact (Lifecycle.addRendered_zero _).symm
  cases ho : s.owner? t with
  | none =>
    rw [accumulate_of_none ho]
    refine hidle ?_
    rw [foldedPart, ho]
    rfl
  | some owner =>
    obtain ⟨k, r⟩ := owner
    obtain ⟨u, hu, rfl⟩ := (tile_of_ownedAt? ho).2
    have hpart : s.foldedPart t = t.region.intersect u.region := by rw [foldedPart, ho]
    have hstep : (s.accumulate t).1 = (s.absorbAt k u.region t).1 := by
      unfold accumulate
      rw [ho]
    rw [hstep]
    rcases hover : t.region.overlaps u.region with _ | _
    · rw [absorbAt_of_outside hover]
      refine hidle ?_
      rw [hpart]
      refine Nat.eq_zero_of_not_pos fun hpos => ?_
      exact Bool.false_ne_true (hover.symm.trans (Region.overlaps_iff_area_pos.2 hpos))
    · rw [absorbAt_eq (lt_of_ownedAt? ho) hover]
      refine .single (fun p => ?_) ?_
      · have hreached : (s.folding.part t).contains p = true ↔
            t.region.contains p = true ∧ u.region.contains p = true := by
          show (s.foldedPart t).contains p = true ↔ _
          rw [hpart, Region.contains_intersect_iff]
        rw [Folding.meet, if_congr hreached rfl rfl]
        exact pixelAt?_received h hu p
      · have hcounted : s.folding.counted t = (t.region.intersect u.region).area := congrArg Region.area hpart
        rw [hcounted]
        rfl

theorem folding_of_same (hs : SameTasks s s') (hpipeline : s'.life.pipeline = s.life.pipeline) :
    s'.folding = s.folding := by
  have hpart : s'.foldedPart = s.foldedPart := by
    funext t
    rw [foldedPart, foldedPart, hs.owner?]
  rw [folding, folding, hpart, hs.desc, hpipeline]

/-- What a buffer keeps while it takes tiles: it owns the same ones, and folds tiles in the same way. -/
def Folds (f : Folding SparseBuffer) (s : SparseBuffer) : Prop := Owns s.tileIds s ∧ s.folding = f

theorem Folds.accumulate {f : Folding SparseBuffer} (h : Folds f s) (t : Tile) :
    Folds f (s.accumulate t).1 ∧ f.Took s (s.accumulate t).1 [t] := by
  obtain ⟨hs, rfl⟩ := h
  obtain ⟨hsame, status, hlife⟩ := accumulate_keeps s t
  exact ⟨⟨hs.step (.accumulate s t), folding_of_same hsame (by rw [hlife])⟩, took_accumulate hs t⟩

theorem took_deliverAll (h : Owns s.tileIds s) (hapart : (ds.flatMap Delivery.tiles).Pairwise Tile.Apart) :
    s.folding.Took s (deliverAll s ds) (ds.flatMap Delivery.tiles) := by
  refine Folding.took_deliverAll (I := Folds s.folding) ?_ ⟨h, rfl⟩ hapart
  intro c e hc he
  cases e with
  | single t => exact hc.accumulate t
  | batch tiles => exact Folding.took_foldl (I := Folds s.folding) (fun _ t hc => hc.accumulate t) hc tiles

/-! ### Buffers in use -/

theorem total_absorbAt (hk : k < s.tiles.size) (t : Tile) :
    (status (s.absorbAt k r t).1).total = (status s).total := by
  rcases hover : t.region.overlaps r with _ | _
  · rw [absorbAt_of_outside hover]
  · rw [absorbAt_eq hk hover]
    rfl

theorem total_accumulate (s : SparseBuffer) (t : Tile) : (status (s.accumulate t).1).total = (status s).total := by
  unfold accumulate
  split
  · rename_i ho
    exact total_absorbAt (lt_of_ownedAt? ho) t
  · rfl

/-- What is done to a buffer keeps its description, and the size that its status measures unless another status is
set. -/
theorem Step.measures (hs : Step s s') : s'.desc = s.desc ∧
    ((status s').total = (status s).total ∨ ∃ st, s' = FrameBuffer.setStatus s st) := by
  refine ⟨?_, ?_⟩
  · rcases hs.choice with ⟨ids, rfl⟩ | ⟨hsame, -⟩
    · rfl
    · exact hsame.desc
  cases hs with
  | commit hc =>
    obtain ⟨pipeline, -, rfl⟩ := eq_of_commit hc
    exact .inl rfl
  | accumulate t => exact .inl (total_accumulate s t)
  | tryAccumulate hc =>
    obtain ⟨k, r, hk, rfl⟩ := eq_of_tryAccumulate hc
    exact .inl (total_absorbAt hk _)
  | accumulateAll tiles =>
    refine .inl (Writes.inv_foldl (I := fun c : SparseBuffer => (status c).total = (status s).total) rfl ?_)
    exact fun c t _ hc => (total_accumulate c t).trans hc
  | setTaskError i e =>
    unfold SparseBuffer.setTaskError
    split <;> exact .inl rfl
  | endFrame =>
    rw [endFrame_eq]
    exact .inl rfl
  | setStatus st => exact .inr ⟨st, rfl⟩
  | _ => exact .inl rfl

/-- The buffers that a use can lead to in which every status that is set measures the same size. -/
inductive InUse : SparseBuffer → Prop
  | create {d : BufferDesc} {ids : List Nat} {s : SparseBuffer} : create d ids = .ok s → InUse s
  | step {s s' : SparseBuffer} : InUse s → Step s s' → (status s').total = (status s).total → InUse s'

theorem InUse.reachable (h : InUse s) : Reachable s := by
  induction h with
  | create h => exact .create h
  | step _ hs _ ih => exact ih.step hs

theorem InUse.total (h : InUse s) : (status s).total = .ofNat s.desc.image.area := by
  induction h with
  | create h =>
    obtain ⟨-, rfl⟩ := eq_of_create h
    rfl
  | step _ hs htotal ih => rw [htotal, ih, hs.measures.1]

theorem InUse.tally (h : InUse s) (hapart : (ds.flatMap Delivery.tiles).Pairwise Tile.Apart) :
    Tally s.folding s.beginFrame (deliverAll s.beginFrame ds) (ds.flatMap Delivery.tiles) := by
  have hopened : Reachable s.beginFrame := h.reachable.step (.beginFrame s)
  have hpos : 0 < s.desc.image.area := Region.area_pos_iff.2 ⟨hopened.owns.valid.size_x, hopened.owns.valid.size_y⟩
  rw [← folding_of_same (sameTasks_beginFrame s) rfl]
  exact (took_deliverAll hopened.owns hapart).tally (fits_folding hopened.owns) hapart rfl h.total hpos

end SparseBuffer

/-! ## Both kinds of buffers -/

end AdaptiveFrame
