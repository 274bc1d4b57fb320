import AdaptiveFrame.Buffer.Dense
import AdaptiveFrame.Proofs.Grid.Points
import AdaptiveFrame.Proofs.Grid.ZOrder

/-!
# The tasks of an image

The render tasks of an image share out its pixels: a pixel lies in the task of its block and in no other.
Every task has a pixel and stays inside one tile cell, and the schedule names each task once.
-/

namespace AdaptiveFrame

/-- What a description that passed its checks grants. -/
structure BufferDesc.Valid (d : BufferDesc) : Prop where
  size_x : 0 < d.size.x
  size_y : 0 < d.size.y
  task_x : d.taskSize.x ∣ tileSize
  task_y : d.taskSize.y ∣ tileSize
  accum : d.has .variance = true → d.has .accum = true

namespace BufferDesc

variable {d : BufferDesc}

theorem valid_of_validate (h : d.validate = .ok ()) : d.Valid := by
  unfold validate at h
  split at h
  · cases h
  · rename_i hsize
    split at h
    · cases h
    · rename_i htask
      split at h
      · cases h
      · rename_i hchannels
        simp only [Bool.or_eq_true, beq_iff_eq, not_or] at hsize
        simp only [isTaskExtent, Bool.or_eq_true, Bool.not_eq_true', beq_eq_false_iff_ne, ne_eq, not_or,
          Decidable.not_not] at htask
        refine ⟨by omega, by omega, Nat.dvd_of_mod_eq_zero htask.1, Nat.dvd_of_mod_eq_zero htask.2, ?_⟩
        intro hv
        simpa [hv] using hchannels

theorem Valid.task_x_pos (h : d.Valid) : 0 < d.taskSize.x := Nat.pos_of_dvd_of_pos h.task_x (by decide)
theorem Valid.task_y_pos (h : d.Valid) : 0 < d.taskSize.y := Nat.pos_of_dvd_of_pos h.task_y (by decide)

end BufferDesc

/-! ## Along one axis -/

theorem div_eq_iff_block {t n k : Nat} (ht : 0 < t) : n / t = k ↔ k * t ≤ n ∧ n < k * t + t := by
  rw [Nat.div_eq_iff ht]
  omega

theorem lt_ceilDiv_iff {t n k : Nat} (ht : 0 < t) : k < (n + t - 1) / t ↔ k * t < n := by
  rw [Nat.lt_iff_add_one_le, Nat.le_div_iff_mul_le ht, Nat.succ_mul]
  omega

/-- A block whose extent divides the cells lies in one of them. -/
theorem div_cell_eq {t c k n : Nat} (hc : 0 < c) (ht : t ∣ c) (h : n / t = k) : n / c = k * t / c := by
  obtain ⟨m, rfl⟩ := ht
  have hpos : 0 < t := Nat.pos_of_mul_pos_right hc
  rw [← Nat.div_div_eq_div_mul, ← Nat.div_div_eq_div_mul, h, Nat.mul_div_cancel _ hpos]

/-- The blocks over an interval are those of its numbers. -/
theorem over_iff_exists {t lo up k : Nat} (ht : 0 < t) (h : lo < up) :
    lo / t ≤ k ∧ k < (up + t - 1) / t ↔ ∃ n, lo ≤ n ∧ n < up ∧ n / t = k := by
  rw [lt_ceilDiv_iff ht]
  constructor
  · rintro ⟨hlo, hup⟩
    have hlast : lo < k * t + t := by
      rw [← Nat.succ_mul]
      exact (Nat.div_lt_iff_lt_mul ht).1 (Nat.lt_succ_of_le hlo)
    exact ⟨max lo (k * t), by omega, by omega, (div_eq_iff_block ht).2 (by omega)⟩
  · rintro ⟨n, hlo, hup, rfl⟩
    exact ⟨Nat.div_le_div_right hlo, Nat.lt_of_le_of_lt (Nat.div_mul_le_self ..) hup⟩

@[simp] theorem Point.ceilDiv_x (e b : Point) : (e.ceilDiv b).x = (e.x + b.x - 1) / b.x := rfl
@[simp] theorem Point.ceilDiv_y (e b : Point) : (e.ceilDiv b).y = (e.y + b.y - 1) / b.y := rfl

/-- The tasks over a region are those of its positions. -/
theorem Tiling.mem_tasksOver {task pos : Point} {r : Region} (hx : 0 < task.x) (hy : 0 < task.y) (hr : 0 < r.area) :
    pos ∈ (tasksOver task r).points ↔ ∃ p, r.contains p = true ∧ p / task = pos := by
  obtain ⟨hwide, hhigh⟩ := Region.area_pos_iff.1 hr
  have hiffx := over_iff_exists (k := pos.x) hx hwide
  have hiffy := over_iff_exists (k := pos.y) hy hhigh
  rw [Region.mem_points, Region.contains_iff]
  constructor
  · rintro ⟨hlx, hly, hux, huy⟩
    obtain ⟨x, hx₁, hx₂, hx⟩ := hiffx.1 ⟨hlx, hux⟩
    obtain ⟨y, hy₁, hy₂, hy⟩ := hiffy.1 ⟨hly, huy⟩
    exact ⟨⟨x, y⟩, Region.contains_iff.2 ⟨hx₁, hy₁, hx₂, hy₂⟩, Point.ext hx hy⟩
  · rintro ⟨p, hp, rfl⟩
    obtain ⟨hx₁, hy₁, hx₂, hy₂⟩ := Region.contains_iff.1 hp
    obtain ⟨hlx, hux⟩ := hiffx.2 ⟨p.x, hx₁, hx₂, rfl⟩
    obtain ⟨hly, huy⟩ := hiffy.2 ⟨p.y, hy₁, hy₂, rfl⟩
    exact ⟨hlx, hly, hux, huy⟩

/-- Seen from a corner `o`, the tasks over a region are those whose blocks share a position with it. -/
theorem Tiling.mem_tasksOver_relativeTo {task pos o : Point} {r : Region} (hx : 0 < task.x) (hy : 0 < task.y)
    (hr : 0 < r.area) (ho : o.x ≤ r.lower.x ∧ o.y ≤ r.lower.y) :
    pos ∈ (tasksOver task (r.relativeTo o)).points ↔
      ∃ p, r.contains p = true ∧ (⟨o + pos * task, o + pos * task + task⟩ : Region).contains p = true := by
  have hpos := Region.area_pos_iff.1 hr
  have hmoved : 0 < (r.relativeTo o).area := by
    rw [Region.area_pos_iff]
    simp only [Region.relativeTo, Point.sub_x, Point.sub_y]
    omega
  rw [mem_tasksOver hx hy hmoved]
  simp only [Region.contains_iff, Region.relativeTo, Point.sub_x, Point.sub_y, Point.add_x, Point.add_y, Point.mul_x,
    Point.mul_y]
  constructor
  · rintro ⟨q, hq, rfl⟩
    have hqx := (div_eq_iff_block (n := q.x) hx).1 rfl
    have hqy := (div_eq_iff_block (n := q.y) hy).1 rfl
    refine ⟨q + o, ?_⟩
    simp only [Point.add_x, Point.add_y, Point.div_x, Point.div_y]
    omega
  · rintro ⟨p, hp, hb⟩
    refine ⟨p - o, ?_, Point.ext ((div_eq_iff_block hx).2 ?_) ((div_eq_iff_block hy).2 ?_)⟩
    all_goals
      simp only [Point.sub_x, Point.sub_y]
      omega

/-- A region that fits a cell has all its positions in it. -/
theorem Tiling.cellOf_eq_of_fitsCell {r : Region} {p : Point} (hf : fitsCell r = true) (hp : r.contains p = true) :
    cellOf p = cellOf r.lower := by
  have hpos := Region.area_pos_of_contains hp
  have hp := Region.contains_iff.1 hp
  rw [fitsCell, Region.isEmpty_eq_false.2 hpos, Bool.false_or, beq_iff_eq, Point.ext_iff] at hf
  simp only [cellOf, Point.div_x, Point.div_y, Point.sub_x, Point.sub_y, Point.square_x, Point.square_y] at hf
  refine Point.ext (Nat.le_antisymm ?_ (Nat.div_le_div_right hp.1)) (Nat.le_antisymm ?_ (Nat.div_le_div_right hp.2.1))
  · show p.x / tileSize ≤ r.lower.x / tileSize
    rw [hf.1]
    exact Nat.div_le_div_right (by omega)
  · show p.y / tileSize ≤ r.lower.y / tileSize
    rw [hf.2]
    exact Nat.div_le_div_right (by omega)

namespace DenseBuffer

variable {d : BufferDesc} {id : Nat} {p : Point}

/-- The task that a pixel lies in. -/
def taskAt (d : BufferDesc) (p : Point) : Nat := (p / d.taskSize).rowMajor (gridOf d).x

theorem block_lt (hd : d.Valid) (hp : d.image.contains p = true) :
    (p / d.taskSize).x < (gridOf d).x ∧ (p / d.taskSize).y < (gridOf d).y := by
  have hp := Region.contains_ofSize.1 hp
  simp only [gridOf, Point.ceilDiv_x, Point.ceilDiv_y, lt_ceilDiv_iff hd.task_x_pos, lt_ceilDiv_iff hd.task_y_pos]
  exact ⟨Nat.lt_of_le_of_lt (Nat.div_mul_le_self ..) hp.1, Nat.lt_of_le_of_lt (Nat.div_mul_le_self ..) hp.2⟩

theorem taskAt_lt (hd : d.Valid) (hp : d.image.contains p = true) : taskAt d p < (gridOf d).area :=
  Point.rowMajor_lt (block_lt hd hp).1 (block_lt hd hp).2

/-- The first pixel of a task lies in the image. -/
theorem lower_lt (hd : d.Valid) (hid : id < (gridOf d).area) :
    (taskRegionOf d id).lower.x < d.size.x ∧ (taskRegionOf d id).lower.y < d.size.y := by
  have h := Point.ofRowMajor_lt hid
  simp only [gridOf, Point.ceilDiv_x, Point.ceilDiv_y, lt_ceilDiv_iff hd.task_x_pos, lt_ceilDiv_iff hd.task_y_pos] at h
  exact h

theorem contains_taskRegionOf (hd : d.Valid) : (taskRegionOf d id).contains p = true ↔
    d.image.contains p = true ∧ p / d.taskSize = .ofRowMajor (gridOf d).x id := by
  have hx := div_eq_iff_block (n := p.x) (k := id % (gridOf d).x) hd.task_x_pos
  have hy := div_eq_iff_block (n := p.y) (k := id / (gridOf d).x) hd.task_y_pos
  rw [BufferDesc.image, Region.contains_ofSize, Region.contains_iff, Point.ext_iff]
  simp only [taskRegionOf, Tiling.blockRegion, Point.mul_x, Point.mul_y, Point.add_x, Point.add_y, Point.min_x,
    Point.min_y, Point.div_x, Point.div_y, Point.ofRowMajor_x, Point.ofRowMajor_y, hx, hy]
  omega

/-- A pixel of the image lies in its own task and in no other. -/
theorem contains_taskRegionOf_iff (hd : d.Valid) (hp : d.image.contains p = true) :
    (taskRegionOf d id).contains p = true ↔ taskAt d p = id := by
  rw [contains_taskRegionOf hd]
  constructor
  · rintro ⟨-, h⟩
    rw [taskAt, h, Point.rowMajor_ofRowMajor]
  · rintro rfl
    exact ⟨hp, (Point.ofRowMajor_rowMajor (block_lt hd hp).1).symm⟩

theorem image_contains_of_task (hd : d.Valid) (h : (taskRegionOf d id).contains p = true) :
    d.image.contains p = true := ((contains_taskRegionOf hd).1 h).1

theorem taskRegionOf_contains_lower (hd : d.Valid) (hid : id < (gridOf d).area) :
    (taskRegionOf d id).contains (taskRegionOf d id).lower = true := by
  have hl := lower_lt hd hid
  have hx := hd.task_x_pos
  have hy := hd.task_y_pos
  rw [Region.contains_iff]
  simp only [taskRegionOf, Tiling.blockRegion, Point.mul_x, Point.mul_y, Point.add_x, Point.add_y, Point.min_x,
    Point.min_y] at hl ⊢
  omega

theorem area_taskRegionOf_pos (hd : d.Valid) (hid : id < (gridOf d).area) : 0 < (taskRegionOf d id).area :=
  Region.area_pos_of_contains (taskRegionOf_contains_lower hd hid)

/-- The block of a task reaches over the image at most where the task is cut off. -/
theorem block_intersect_image (hd : d.Valid) (hid : id < (gridOf d).area) :
    (Tiling.blockRegion d.taskSize (.ofRowMajor (gridOf d).x id)).intersect d.image = taskRegionOf d id := by
  have hl := lower_lt hd hid
  simp only [taskRegionOf, Tiling.blockRegion, Point.mul_x, Point.mul_y] at hl
  simp only [Region.intersect, Region.mk.injEq, Point.ext_iff, taskRegionOf, Tiling.blockRegion, BufferDesc.image,
    Region.ofSize, Point.max_x, Point.max_y, Point.min_x, Point.min_y, Point.mul_x, Point.mul_y, Point.add_x,
    Point.add_y, Point.zero_x, Point.zero_y]
  omega

theorem task_intersect_image (hd : d.Valid) (hid : id < (gridOf d).area) :
    (taskRegionOf d id).intersect d.image = taskRegionOf d id := by
  have hpos := Region.area_pos_iff.1 (area_taskRegionOf_pos hd hid)
  simp only [taskRegionOf, Tiling.blockRegion, Point.mul_x, Point.mul_y, Point.add_x, Point.add_y, Point.min_x,
    Point.min_y] at hpos
  simp only [Region.intersect, Region.mk.injEq, Point.ext_iff, taskRegionOf, Tiling.blockRegion, BufferDesc.image,
    Region.ofSize, Point.max_x, Point.max_y, Point.min_x, Point.min_y, Point.mul_x, Point.mul_y, Point.add_x,
    Point.add_y, Point.zero_x, Point.zero_y]
  omega

/-- The tasks over the part of a region inside the image are those that it overlaps. -/
theorem mem_tasksOver_image {r : Region} (hd : d.Valid) (hr : r.overlaps d.image = true) :
    Point.ofRowMajor (gridOf d).x id ∈ (Tiling.tasksOver d.taskSize (r.intersect d.image)).points ↔
      r.overlaps (taskRegionOf d id) = true := by
  rw [Tiling.mem_tasksOver hd.task_x_pos hd.task_y_pos (Region.overlaps_iff_area_pos.1 hr), Region.overlaps_iff]
  simp only [Region.contains_intersect_iff, contains_taskRegionOf hd, and_assoc]

theorem lt_of_mem_tasksOver {r : Region} {pos : Point} (hd : d.Valid) (hr : r.overlaps d.image = true)
    (h : pos ∈ (Tiling.tasksOver d.taskSize (r.intersect d.image)).points) :
    pos.x < (gridOf d).x ∧ pos.y < (gridOf d).y := by
  have hr := Region.overlaps_iff_area_pos.1 hr
  obtain ⟨p, hp, rfl⟩ := (Tiling.mem_tasksOver hd.task_x_pos hd.task_y_pos hr).1 h
  exact block_lt hd (Region.contains_intersect_iff.1 hp).2

theorem fitsCell_taskRegionOf (hd : d.Valid) (hid : id < (gridOf d).area) :
    Tiling.fitsCell (taskRegionOf d id) = true := by
  have hl := lower_lt hd hid
  have hx := hd.task_x_pos
  have hy := hd.task_y_pos
  simp only [taskRegionOf, Tiling.blockRegion, Point.mul_x, Point.mul_y] at hl
  -- The first and the last pixel of a task lie in one block, and blocks divide cells.
  have hlast : ∀ {t n k : Nat}, 0 < t → t ∣ tileSize → k * t < n →
      (k * t) / tileSize = (min (k * t + t) n - 1) / tileSize := by
    intro t n k ht hdvd hk
    refine (div_cell_eq (by decide) hdvd ((div_eq_iff_block ht).2 ?_)).symm
    omega
  rw [Tiling.fitsCell, Bool.or_eq_true, beq_iff_eq]
  refine .inr (Point.ext ?_ ?_)
  · exact hlast hx hd.task_x hl.1
  · exact hlast hy hd.task_y hl.2

theorem cell_lt (hd : d.Valid) (hid : id < (gridOf d).area) :
    (Tiling.cellOf (taskRegionOf d id).lower).x < (Tiling.tileCount d.size).x ∧
      (Tiling.cellOf (taskRegionOf d id).lower).y < (Tiling.tileCount d.size).y := by
  have hl := lower_lt hd hid
  simp only [Tiling.cellOf, Tiling.tileCount, Point.ceilDiv_x, Point.ceilDiv_y, Point.square_x, Point.square_y,
    lt_ceilDiv_iff (show 0 < tileSize by decide), Point.div_x, Point.div_y]
  exact ⟨Nat.lt_of_le_of_lt (Nat.div_mul_le_self ..) hl.1, Nat.lt_of_le_of_lt (Nat.div_mul_le_self ..) hl.2⟩

/-! ## The order of tasks -/

theorem taskOrderOf_perm (d : BufferDesc) : (taskOrderOf d).Perm (List.range (gridOf d).area) :=
  ZOrder.sortBy_perm ..

theorem mem_taskOrderOf : id ∈ taskOrderOf d ↔ id < (gridOf d).area := by
  rw [(taskOrderOf_perm d).mem_iff, List.mem_range]

theorem nodup_taskOrderOf (d : BufferDesc) : (taskOrderOf d).Nodup :=
  (taskOrderOf_perm d).nodup_iff.2 List.nodup_range

end DenseBuffer

end AdaptiveFrame
