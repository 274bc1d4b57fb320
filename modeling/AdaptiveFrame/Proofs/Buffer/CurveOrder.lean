import AdaptiveFrame.Proofs.Buffer.Choosing
import AdaptiveFrame.Proofs.Buffer.Composing
import AdaptiveFrame.Proofs.Buffer.Words
import Mathlib.Data.Nat.Prime.Pow

/-!
# Tasks along the curve

The tasks of an image are scheduled along the Z-order curve of their first pixels. As long as coordinates fit the bits
that the curve interleaves, the tasks of every aligned block of a power of two come one after another. A sparse buffer
orders the tasks of a tile along a curve of its own, by their places in the tile. If tasks are square, the two curves
agree: a buffer that owns one tile schedules its tasks as a dense one does (`tasks_along_curve`). Of images that are no
larger than these bits allow, the largest with the smallest tasks has one task more than a word counts, and no order
(`taskTotalWord_eq_zero`).
-/

namespace AdaptiveFrame

open FrameBuffer

variable {d : BufferDesc} {id id' : Nat}

theorem adaptiveAllowed_zero (frameId : Int) (spp : Nat) : adaptiveAllowed frameId 0 spp = false := by
  have hzero : decide ((0 : Float32) < 0) = false := by decide +kernel
  rw [adaptiveAllowed, hzero, Bool.false_and]

/-- A square task has an extent that is a power of two. -/
theorem BufferDesc.Valid.exists_square (hd : d.Valid) (hsquare : d.taskSize.x = d.taskSize.y) :
    ∃ t, d.taskSize = .square (2 ^ t) := by
  obtain ⟨t, -, ht⟩ := (Nat.dvd_prime_pow Nat.prime_two (m := 6)).1 hd.task_x
  exact ⟨t, Point.ext ht (hsquare ▸ ht)⟩

namespace DenseBuffer

/-- Where a task stands on the curve of the image. -/
def curveCode (d : BufferDesc) (id : Nat) : Nat :=
  ZOrder.code (taskRegionOf d id).lower.x (taskRegionOf d id).lower.y

theorem pairwise_taskOrderOf (d : BufferDesc) :
    (taskOrderOf d).Pairwise fun id id' => curveCode d id ≤ curveCode d id' :=
  ZOrder.pairwise_sortBy (fun id => ((taskRegionOf d id).lower.x, (taskRegionOf d id).lower.y)) (List.range _)

theorem schedule_zero (b : DenseBuffer) (spp : Nat) : b.schedule 0 spp = b.taskOrder := by
  rw [schedule, adaptiveAllowed_zero, Bool.and_false, if_neg Bool.false_ne_true]

section Small

variable (hd : d.Valid) (hx : d.size.x ≤ 2 ^ 16) (hy : d.size.y ≤ 2 ^ 16)

include hd hx hy

theorem lower_small (hid : id < (gridOf d).area) :
    (taskRegionOf d id).lower.x < 2 ^ 16 ∧ (taskRegionOf d id).lower.y < 2 ^ 16 := by
  have hlower := lower_lt hd hid
  omega

/-- The tasks of one aligned block share the leading digits of their codes. -/
theorem curveCode_div_eq_iff (hid : id < (gridOf d).area) (hid' : id' < (gridOf d).area) (k : Nat) :
    curveCode d id / 4 ^ k = curveCode d id' / 4 ^ k ↔
      (taskRegionOf d id).lower / .square (2 ^ k) = (taskRegionOf d id').lower / .square (2 ^ k) := by
  obtain ⟨hpx, hpy⟩ := lower_small hd hx hy hid
  obtain ⟨hqx, hqy⟩ := lower_small hd hx hy hid'
  have hblock : ∀ {n : Nat}, n < 2 ^ 16 → n / 2 ^ k < 2 ^ 16 := fun h => (Nat.div_le_self ..).trans_lt h
  rw [curveCode, curveCode, ZOrder.code_div hpx hpy, ZOrder.code_div hqx hqy]
  constructor
  · intro h
    obtain ⟨hx, hy⟩ := ZOrder.code_inj (hblock hpx) (hblock hpy) (hblock hqx) (hblock hqy) h
    exact Point.ext hx hy
  · intro h
    obtain ⟨hx, hy⟩ := Point.ext_iff.1 h
    simp only [Point.div_x, Point.div_y, Point.square_x, Point.square_y] at hx hy
    rw [hx, hy]

/-- No two tasks stand at the same place of the curve. -/
theorem eq_of_curveCode_eq (hid : id < (gridOf d).area) (hid' : id' < (gridOf d).area)
    (h : curveCode d id = curveCode d id') : id = id' := by
  obtain ⟨hpx, hpy⟩ := lower_small hd hx hy hid
  obtain ⟨hqx, hqy⟩ := lower_small hd hx hy hid'
  obtain ⟨hlx, hly⟩ := ZOrder.code_inj hpx hpy hqx hqy h
  have hlower : (taskRegionOf d id).lower = (taskRegionOf d id').lower := Point.ext hlx hly
  have hfirst := taskRegionOf_contains_lower hd hid
  have hfirst' := taskRegionOf_contains_lower hd hid'
  have himage := image_contains_of_task hd hfirst
  rw [← hlower] at hfirst'
  exact ((contains_taskRegionOf_iff hd himage).1 hfirst).symm.trans ((contains_taskRegionOf_iff hd himage).1 hfirst')

/-- The tasks whose first pixels lie in one aligned block are consecutive. -/
theorem block_isInfix (k : Nat) (block : Point) :
    ((taskOrderOf d).filter fun id => (taskRegionOf d id).lower / .square (2 ^ k) = block) <:+: taskOrderOf d := by
  by_cases hblock : ∃ id ∈ taskOrderOf d, (taskRegionOf d id).lower / .square (2 ^ k) = block
  · obtain ⟨id, hid, rfl⟩ := hblock
    have hleading : ((taskOrderOf d).filter fun id' =>
          (taskRegionOf d id').lower / .square (2 ^ k) = (taskRegionOf d id).lower / .square (2 ^ k)) =
        (taskOrderOf d).filter fun id' => curveCode d id' / 4 ^ k = curveCode d id / 4 ^ k := by
      refine List.filter_congr fun id' hid' => decide_eq_decide.2 ?_
      exact (curveCode_div_eq_iff hd hx hy (mem_taskOrderOf.1 hid') (mem_taskOrderOf.1 hid) k).symm
    rw [hleading]
    exact ZOrder.filter_isInfix_of_pairwise ((pairwise_taskOrderOf d).imp fun h => Nat.div_le_div_right h) _
  · have hnone : ((taskOrderOf d).filter fun id => (taskRegionOf d id).lower / .square (2 ^ k) = block) = [] :=
      List.filter_eq_nil_iff.2 fun id hid => by simpa using fun h => hblock ⟨id, hid, h⟩
    rw [hnone]
    exact List.nil_infix

end Small

end DenseBuffer

namespace SparseBuffer

open DenseBuffer (curveCode)

variable {s : SparseBuffer} {ids : List Nat} {tile i j t : Nat}

theorem schedule_zero (s : SparseBuffer) (spp : Nat) : s.schedule 0 spp = s.taskOrder := by
  rw [schedule, adaptiveAllowed_zero, Bool.and_false, if_neg Bool.false_ne_true]

/-- Along one axis: the first pixel of a task as its cell and the place in it. -/
theorem first_pixel {c n k : Nat} (hn : n * 2 ^ t = tileSize) (hk : k < n) :
    (c * n + k) * 2 ^ t / 2 ^ 6 = c ∧ (c * n + k) * 2 ^ t % 2 ^ 6 = k * 2 ^ t := by
  obtain ⟨hpos, hin⟩ := block_in_cell (c := c) hn hk
  have hpos : (c * n + k) * 2 ^ t = c * 64 + k * 2 ^ t := hpos
  have hin : k * 2 ^ t + 2 ^ t ≤ 64 := hin
  have hextent : 0 < 2 ^ t := Nat.two_pow_pos t
  omega

namespace Owns

/-- On the curve of the image a square task stands where its tile does and, within that, where it does on the curve
of the tile. -/
theorem curveCode_denseId (h : Owns ids s) (hx : s.desc.size.x ≤ 2 ^ 16) (hy : s.desc.size.y ≤ 2 ^ 16)
    (ht : s.desc.taskSize = .square (2 ^ t)) (hi : i ∈ s.taskOrder) (hid : ids[tileIndexOf s.desc i]? = some tile) :
    curveCode s.desc (s.denseId i) =
      4 ^ 6 * ZOrder.code (tile % (Tiling.tileCount s.desc.size).x) (tile / (Tiling.tileCount s.desc.size).x) +
        4 ^ t * zCode s.desc i := by
  obtain ⟨hsmallx, hsmally⟩ := DenseBuffer.lower_small h.valid hx hy (h.denseId_lt hi)
  obtain ⟨hplacex, hplacey⟩ := place_lt h.valid i
  have hnx := h.valid.tasks_x
  have hny := h.valid.tasks_y
  rw [ht] at hnx hny
  obtain ⟨hcellx, hinx⟩ := first_pixel (c := tile % (Tiling.tileCount s.desc.size).x) hnx hplacex
  obtain ⟨hcelly, hiny⟩ := first_pixel (c := tile / (Tiling.tileCount s.desc.size).x) hny hplacey
  have hlower : (DenseBuffer.taskRegionOf s.desc (s.denseId i)).lower =
      Tiling.gridPos s.desc tile (placeInTile s.desc i) * s.desc.taskSize := by
    show Point.ofRowMajor _ _ * _ = _
    rw [h.ofRowMajor_denseId hi, h.taskGridPos hid]
  have hfirst : ∀ {n : Nat}, n * 2 ^ t / 2 ^ t = n ∧ n * 2 ^ t % 2 ^ t = 0 := fun {n} =>
    ⟨Nat.mul_div_cancel n (Nat.two_pow_pos t), Nat.mul_mod_left ..⟩
  -- Places in a tile are small, so the code of a place times the extent splits off the extent.
  have hplace : ZOrder.code ((placeInTile s.desc i).x * 2 ^ t) ((placeInTile s.desc i).y * 2 ^ t) =
      4 ^ t * zCode s.desc i := by
    have hltx : (placeInTile s.desc i).x * 2 ^ t < 2 ^ 16 := by
      rw [← hinx]
      exact (Nat.mod_lt _ (by decide)).trans (by decide)
    have hlty : (placeInTile s.desc i).y * 2 ^ t < 2 ^ 16 := by
      rw [← hiny]
      exact (Nat.mod_lt _ (by decide)).trans (by decide)
    rw [ZOrder.code_split hltx hlty t, hfirst.1, hfirst.2, hfirst.1, hfirst.2, ZOrder.code_zero, Nat.add_zero, zCode]
  rw [curveCode, ZOrder.code_split hsmallx hsmally 6, hlower, ht]
  simp only [Tiling.gridPos, Point.mul_x, Point.mul_y, Point.add_x, Point.add_y, Point.ofRowMajor_x,
    Point.ofRowMajor_y, Point.square_x, Point.square_y]
  rw [hcellx, hcelly, hinx, hiny, hplace]

/-- The owner of one tile schedules the tasks of the image that lie in it, in the same order. -/
theorem map_denseId_taskOrder (h : Owns [tile] s) (hx : s.desc.size.x ≤ 2 ^ 16) (hy : s.desc.size.y ≤ 2 ^ 16)
    (hsquare : s.desc.taskSize.x = s.desc.taskSize.y) :
    s.taskOrder.map s.denseId = (DenseBuffer.taskOrderOf s.desc).filter fun id => tileAt s.desc id = tile := by
  have hfirst : ∀ {i : Nat}, i ∈ s.taskOrder → tileIndexOf s.desc i = 0 := fun {i} hi => by
    have hlt := (h.mem_taskOrder.1 hi).1
    rw [List.length_singleton] at hlt
    omega
  have htile : ∀ {i : Nat}, i ∈ s.taskOrder → [tile][tileIndexOf s.desc i]? = some tile := fun {i} hi => by
    rw [hfirst hi]
    rfl
  have hsame : (s.taskOrder.map s.denseId).Perm
      ((DenseBuffer.taskOrderOf s.desc).filter fun id => tileAt s.desc id = tile) := by
    refine (List.perm_ext_iff_of_nodup ?_ ((DenseBuffer.nodup_taskOrderOf s.desc).filter _)).2 fun id => ?_
    · exact List.Nodup.map_on (fun i hi j hj => h.eq_of_denseId_eq hi hj) h.nodup_taskOrder
    · rw [List.mem_map, List.mem_filter, decide_eq_true_eq, DenseBuffer.mem_taskOrderOf]
      constructor
      · rintro ⟨i, hi, rfl⟩
        exact ⟨h.denseId_lt hi, h.tileAt_denseId hi (htile hi)⟩
      · rintro ⟨hid, hin⟩
        exact h.exists_denseId_eq hid (hin ▸ List.mem_singleton_self _)
  have hsorted : (s.taskOrder.map s.denseId).Pairwise fun id id' => curveCode s.desc id ≤ curveCode s.desc id' := by
    obtain ⟨t, ht⟩ := h.valid.exists_square hsquare
    refine List.pairwise_map.2 (h.pairwise_taskOrder.imp_of_mem fun {i j} hi hj hij => ?_)
    rw [h.curveCode_denseId hx hy ht hi (htile hi), h.curveCode_denseId hx hy ht hj (htile hj)]
    refine Nat.add_le_add_left (Nat.mul_le_mul_left _ ?_) _
    rcases hij with hbefore | ⟨-, hcurve⟩
    · rw [hfirst hi, hfirst hj] at hbefore
      exact absurd hbefore (Nat.lt_irrefl 0)
    · exact hcurve.le
  refine hsame.eq_of_pairwise (fun id id' hid hid' hle hge => ?_) hsorted
    ((DenseBuffer.pairwise_taskOrderOf s.desc).filter _)
  obtain ⟨i, hi, rfl⟩ := List.mem_map.1 hid
  exact DenseBuffer.eq_of_curveCode_eq h.valid hx hy (h.denseId_lt hi)
    (DenseBuffer.mem_taskOrderOf.1 (List.mem_of_mem_filter hid')) (Nat.le_antisymm hle hge)

end Owns

end SparseBuffer

namespace DenseBuffer

/-- A quotient that is rounded up is at most what is divided. -/
theorem ceilDiv_le_self (n : Nat) {t : Nat} (ht : 0 < t) : (n + t - 1) / t ≤ n := by
  rcases Nat.eq_zero_or_pos n with rfl | hn
  · exact (Nat.div_eq_of_lt (by omega)).le
  · have hmul : n ≤ t * n := Nat.le_mul_of_pos_left n ht
    exact (Nat.div_le_iff_le_mul_add_pred ht).2 (by omega)

section Counted

variable (hd : d.Valid) (hx : d.size.x ≤ 65536) (hy : d.size.y ≤ 65536)

include hd hx hy

/-- Images that the curve can order overflow at most the number of their tasks. -/
theorem tasksFit_of_area_lt (h : (gridOf d).area < 2 ^ 32) : d.TasksFit := by
  have htx := Nat.le_of_dvd (by decide) hd.task_x
  have hty := Nat.le_of_dvd (by decide) hd.task_y
  have htile : tileSize = 64 := rfl
  exact ⟨by omega, by omega, h⟩

/-- If they do, there are just as many tasks as words, and a word counts none. -/
theorem taskTotalWord_eq_zero (h : 2 ^ 32 ≤ (gridOf d).area) : (taskTotalWord d).toNat = 0 := by
  have htx := Nat.le_of_dvd (by decide) hd.task_x
  have hty := Nat.le_of_dvd (by decide) hd.task_y
  have htile : tileSize = 64 := rfl
  have hle : (gridOf d).area ≤ 65536 * 65536 :=
    Nat.mul_le_mul ((ceilDiv_le_self _ hd.task_x_pos).trans hx) ((ceilDiv_le_self _ hd.task_y_pos).trans hy)
  rw [taskTotalWord, UInt32.toNat_mul, Tiling.ceilDivWord_eq hd.task_x_pos (by omega),
    Tiling.ceilDivWord_eq hd.task_y_pos (by omega)]
  show (gridOf d).area % 2 ^ 32 = 0
  rw [Nat.le_antisymm hle h]

end Counted

/-- Of no tasks there is no order. -/
theorem taskOrderWord_eq_nil (h : (taskTotalWord d).toNat = 0) : taskOrderWord d = [] := by
  have hperm : (taskOrderWord d).Perm (List.range (taskTotalWord d).toNat) := ZOrder.sortBy_perm ..
  rw [h] at hperm
  exact List.perm_nil.1 hperm

end DenseBuffer

/-- **Tasks along the curve.** A dense buffer of at most 65536 pixels each way orders the tasks that a word counts, each
once, and those whose first pixels lie in one aligned block of a power of two one after another. Unless the image has
too many tasks for a word, these are all of its tasks, and it schedules them in this order as long as none is left out;
if tasks are square, the part of this order that lies in a tile is then the order of a sparse buffer that owns the tile
alone. -/
theorem DenseBuffer.tasks_along_curve {b : DenseBuffer} (hb : b.Reachable) (hx : b.desc.size.x ≤ 65536)
    (hy : b.desc.size.y ≤ 65536) (spp : Nat) :
    let order := taskOrderWord b.desc
    order.Perm (List.range (taskTotalWord b.desc).toNat) ∧
    (∀ (k : Nat) (block : Point),
      (order.filter fun id => (b.task id).region.lower / .square (2 ^ k) = block) <:+: order) ∧
    (taskCount b < 2 ^ 32 →
      (taskTotalWord b.desc).toNat = taskCount b ∧ b.schedule 0 spp = order ∧
      (b.desc.taskSize.x = b.desc.taskSize.y → ∀ (s : SparseBuffer) (tile : Nat), s.Reachable → s.desc = b.desc →
        s.tileIds = [tile] →
        (s.schedule 0 spp).map (fun i => b.taskIdAt? (s.taskGridPos i)) =
          (order.filter fun id => (b.task id).tileIndex = tile).map some)) := by
  intro order
  have hd := hb.intact.valid
  refine ⟨ZOrder.sortBy_perm .., ?_, fun hcount => ?_⟩
  · rcases Nat.lt_or_ge (gridOf b.desc).area (2 ^ 32) with hlt | hge
    · have horder : order = taskOrderOf b.desc := taskOrderWord_eq (tasksFit_of_area_lt hd hx hy hlt) hd
      rw [horder]
      exact block_isInfix hd hx hy
    · have horder : order = [] := taskOrderWord_eq_nil (taskTotalWord_eq_zero hd hx hy hge)
      rw [horder]
      exact fun _ _ => List.nil_infix
  · have hfits : b.desc.TasksFit := tasksFit_of_area_lt hd hx hy hcount
    have horder : order = taskOrderOf b.desc := taskOrderWord_eq hfits hd
    rw [horder, schedule_zero]
    refine ⟨hfits.taskTotal hd, rfl, ?_⟩
    intro hsquare s tile hs hdesc htiles
    have howns : s.Owns [tile] := htiles ▸ hs.owns
    have himage : ∀ i ∈ s.taskOrder, b.taskIdAt? (s.taskGridPos i) = some (s.denseId i) := fun i hi =>
      taskIdAt?_denseId ⟨_, howns⟩ hdesc hi
    have hlist := howns.map_denseId_taskOrder (hdesc ▸ hx) (hdesc ▸ hy) (hdesc ▸ hsquare)
    rw [s.schedule_zero, List.map_congr_left himage, ← Function.comp_def some, ← List.map_map, hlist, hdesc]
    rfl

/-- Of an image that is 72 pixels wide and 16 high the second tile holds the tasks 8 and 17 at the border. They follow
each other on the curve, and are what a buffer that owns this tile schedules. -/
theorem DenseBuffer.tasks_along_curve_border :
    ∃ b s, DenseBuffer.create ⟨⟨72, 16⟩, .rgba8, .ofList [.color, .accum], .square 8⟩ = .ok b ∧
      SparseBuffer.create ⟨⟨72, 16⟩, .rgba8, .ofList [.color, .accum], .square 8⟩ [1] = .ok s ∧
      (b.desc.size.x ≤ 65536 ∧ b.desc.size.y ≤ 65536 ∧ b.desc.taskSize.x = b.desc.taskSize.y ∧
        taskCount b < 2 ^ 32) ∧ s.desc = b.desc ∧ s.tileIds = [1] ∧
      ((b.schedule 0 1).filter fun id => (b.task id).region.lower / .square (2 ^ 4) = ⟨4, 0⟩) <:+: b.schedule 0 1 ∧
      (s.schedule 0 1).map (fun i => b.taskIdAt? (s.taskGridPos i)) =
        ((b.schedule 0 1).filter fun id => (b.task id).tileIndex = 1).map some := by
  obtain ⟨b, hb, hbd⟩ : ∃ b, DenseBuffer.create ⟨⟨72, 16⟩, .rgba8, .ofList [.color, .accum], .square 8⟩ = .ok b ∧
      b.desc = ⟨⟨72, 16⟩, .rgba8, .ofList [.color, .accum], .square 8⟩ := ⟨_, rfl, rfl⟩
  obtain ⟨s, hs⟩ := SparseBuffer.exists_create (d := ⟨⟨72, 16⟩, .rgba8, .ofList [.color, .accum], .square 8⟩) rfl [1]
  obtain ⟨hsd, htiles⟩ := SparseBuffer.tileIds_of_create hs
  have hsize : b.desc.size.x ≤ 65536 ∧ b.desc.size.y ≤ 65536 ∧ b.desc.taskSize.x = b.desc.taskSize.y ∧
      taskCount b < 2 ^ 32 := by
    show _ ∧ _ ∧ _ ∧ (gridOf b.desc).area < _
    rw [hbd]
    decide
  have hdesc : s.desc = b.desc := hsd.trans hbd.symm
  have htile : s.tileIds = [1] := htiles.trans (by decide)
  obtain ⟨-, hblocks, hagree⟩ := tasks_along_curve (.create hb) hsize.1 hsize.2.1 1
  obtain ⟨-, horder, hpart⟩ := hagree hsize.2.2.2
  rw [← horder] at hblocks hpart
  exact ⟨b, s, hb, hs, hsize, hdesc, htile, hblocks 4 ⟨4, 0⟩, hpart hsize.2.2.1 s 1 (.create hs) hdesc htile⟩

/-- An image of 65536 by 65536 pixels with tasks of one pixel has as many tasks as there are words. A word counts none,
so there is nothing to order, while a buffer that owns the first tile alone schedules the tasks in it. -/
theorem DenseBuffer.no_order_of_largest_image :
    let d : BufferDesc := ⟨⟨65536, 65536⟩, .none, .ofList [], .square 1⟩
    d.validate = .ok () ∧ taskOrderWord d = [] ∧
    ∃ s, SparseBuffer.createWord d [0] = .ok s ∧ s.tileIds = [0] ∧ s.schedule 0 1 ≠ [] := by
  intro d
  have hd : BufferDesc.validate ⟨⟨65536, 65536⟩, .none, .ofList [], .square 1⟩ = .ok () := rfl
  have hzero : (taskTotalWord d).toNat = 0 := by decide
  have hfits : d.TilesFit := ⟨by decide, by decide, by decide⟩
  obtain ⟨s, hs⟩ := SparseBuffer.exists_create hd [0]
  obtain ⟨hdesc, hids⟩ := SparseBuffer.tileIds_of_create hs
  have hids : s.tileIds = [0] := hids.trans (by decide)
  have howns : s.Owns s.tileIds := (SparseBuffer.Reachable.create hs).owns
  have hfirst : 0 ∈ s.tileIds := by
    rw [hids]
    exact List.mem_singleton_self 0
  obtain ⟨u, hu, hid⟩ := List.mem_map.1 hfirst
  have hu := Array.mem_toList_iff.1 hu
  have hpixel : u.region.contains ⟨0, 0⟩ = true := by
    rw [howns.region_eq hu, hid, hdesc]
    decide
  obtain ⟨i, ⟨hi, -⟩, -⟩ := howns.existsUnique_task hu hpixel
  refine ⟨hd, taskOrderWord_eq_nil hzero, s, (SparseBuffer.createWord_eq hfits [0]).trans hs, hids, ?_⟩
  rw [s.schedule_zero]
  exact List.ne_nil_of_mem hi

end AdaptiveFrame
