import AdaptiveFrame.Proofs.Render.DeviceRuns
import Mathlib.Data.Set.Function

/-!
# How an image is shared out

Pixels, tiles, the tasks of the image and the tasks that devices number for themselves are four ways to
name the parts of an image. They line up for every size of an image and of its tasks: each task lies in the
tile that it names, each tile goes to one device, and the tasks that the devices schedule are the tasks of
the image, each once and with the same pixels.
-/

namespace AdaptiveFrame

open FrameBuffer SparseBuffer

variable {d : BufferDesc} {b : DenseBuffer} {id n : Nat} {life : Lifecycle}

/-! ## Tasks and tiles -/

/-- A block that starts in a cell ends in it if its extent divides the cells. -/
theorem block_le_cell {c t : Nat} (hc : 0 < c) (ht : t ∣ c) (k : Nat) : k * t + t ≤ k * t / c * c + c := by
  obtain ⟨m, rfl⟩ := ht
  have hpos : 0 < t := Nat.pos_of_mul_pos_right hc
  have hk : k + 1 ≤ k / m * m + m := Nat.lt_div_mul_add (Nat.pos_of_mul_pos_left hc)
  calc k * t + t = (k + 1) * t := (Nat.succ_mul k t).symm
    _ ≤ (k / m * m + m) * t := Nat.mul_le_mul_right t hk
    _ = k * t / (t * m) * (t * m) + t * m := by
      rw [Nat.mul_comm t m, Nat.mul_div_mul_right k m hpos, Nat.add_mul, Nat.mul_assoc]

namespace DenseBuffer

/-- A task lies in the tile that it names. -/
theorem tileRegion_containsRegion_task (hd : d.Valid) (hid : id < (DenseBuffer.gridOf d).area) :
    (Tiling.tileRegion d.size (tileAt d id)).containsRegion (taskRegionOf d id) = true := by
  have hcell := cell_lt hd hid
  have hx := block_le_cell (by decide) hd.task_x (id % (gridOf d).x)
  have hy := block_le_cell (by decide) hd.task_y (id / (gridOf d).x)
  have hlx := Nat.div_mul_le_self (id % (gridOf d).x * d.taskSize.x) tileSize
  have hly := Nat.div_mul_le_self (id / (gridOf d).x * d.taskSize.y) tileSize
  rw [Tiling.tileRegion, tileAt, Point.ofRowMajor_rowMajor hcell.1, Region.containsRegion_iff]
  simp only [taskRegionOf, Tiling.blockRegion, Tiling.cellOf, Point.mul_x, Point.mul_y, Point.add_x, Point.add_y,
    Point.div_x, Point.div_y, Point.min_x, Point.min_y, Point.square_x, Point.square_y, Point.ofRowMajor_x,
    Point.ofRowMajor_y]
  omega

/-- A pixel of the image lies in one task. -/
theorem existsUnique_task (hd : d.Valid) {p : Point} (hp : d.image.contains p = true) :
    ∃! id, id < (DenseBuffer.gridOf d).area ∧ (taskRegionOf d id).contains p = true := by
  refine ⟨taskAt d p, ⟨taskAt_lt hd hp, (contains_taskRegionOf_iff hd hp).2 rfl⟩, ?_⟩
  rintro id ⟨-, hid⟩
  exact ((contains_taskRegionOf_iff hd hp).1 hid).symm

end DenseBuffer

/-! ## Tiles and devices -/

theorem shares_getElem? (d : BufferDesc) (n k : Nat) : (shares d n)[k]? =
    if k < max n 1 then some (DeviceGroup.share (Tiling.tileCount d.size).area (max n 1) k) else none := by
  rw [shares, List.getElem?_map]
  by_cases hk : k < max n 1
  · rw [if_pos hk, List.getElem?_range hk, Option.map_some]
  · rw [if_neg hk, List.getElem?_eq_none (by rw [List.length_range]; omega), Option.map_none]

namespace DeviceGroup

/-- The tasks that the devices schedule: the place of a device, and the number of a task there. -/
def localTasks (g : DeviceGroup) : Set (Nat × Nat) := {x | ∃ s, g.devices[x.1]? = some s ∧ x.2 ∈ s.taskOrder}

/-- The task of the image at the place of a task of a device. -/
def imageTask? (g : DeviceGroup) (b : DenseBuffer) (x : Nat × Nat) : Option Nat :=
  (g.devices[x.1]?).bind fun s => b.taskIdAt? (s.taskGridPos x.2)

/-- The devices of a new group own the tiles that are dealt to them. -/
structure Dealt (d : BufferDesc) (n : Nat) (g : DeviceGroup) : Prop where
  valid : d.Valid
  length : g.devices.length = max n 1
  device : ∀ k s, g.devices[k]? = some s → k < max n 1 ∧ s.desc = d ∧
    s.Owns (share (Tiling.tileCount d.size).area (max n 1) k) ∧
    s.tileIds = share (Tiling.tileCount d.size).area (max n 1) k

theorem exists_dealt (h : DenseBuffer.create d = .ok b) (n : Nat) : ∃ g, create d n = .ok g ∧ Dealt d n g := by
  refine ⟨_, create_eq h n, ?_⟩
  obtain ⟨hd, rfl⟩ := DenseBuffer.eq_of_create h
  refine ⟨hd, by simp [shares], ?_⟩
  intro k s hs
  rw [List.getElem?_map, shares_getElem?] at hs
  by_cases hk : k < max n 1
  · rw [if_pos hk] at hs
    cases hs
    have hnd := nodup_share (Tiling.tileCount d.size).area (max n 1) k
    have hlt : ∀ id ∈ share (Tiling.tileCount d.size).area (max n 1) k, id < (Tiling.tileCount d.size).area :=
      fun id hid => (mem_share.1 hid).1
    exact ⟨hk, rfl, owns_setTiles _ hd hnd hlt, tileIds_setTiles _ hnd hlt⟩
  · rw [if_neg hk] at hs
    cases hs

namespace Dealt

variable {g : DeviceGroup}

theorem exists_device (h : Dealt d n g) {k : Nat} (hk : k < max n 1) : ∃ s, g.devices[k]? = some s :=
  ⟨_, List.getElem?_eq_getElem (h.length ▸ hk)⟩

/-- A tile of the image goes to one device. -/
theorem existsUnique_owner (h : Dealt d n g) (hid : id < (Tiling.tileCount d.size).area) :
    ∃! k : Nat, ∃ s : SparseBuffer, g.devices[k]? = some s ∧ id ∈ s.tileIds := by
  obtain ⟨s, hs⟩ := h.exists_device (Nat.mod_lt id (show 0 < max n 1 by omega))
  refine ⟨id % max n 1, ⟨s, hs, ?_⟩, ?_⟩
  · obtain ⟨-, -, -, htiles⟩ := h.device _ s hs
    rw [htiles]
    exact mem_share.2 ⟨hid, rfl⟩
  · rintro k ⟨s, hs, hmem⟩
    obtain ⟨-, -, -, htiles⟩ := h.device k s hs
    rw [htiles] at hmem
    exact (mem_share.1 hmem).2.symm

/-- A scheduled task of a device is a task of the image, and covers its pixels. -/
theorem imageTask (h : Dealt d n g) (hb : b.desc = d) {k i : Nat} {s : SparseBuffer} (hs : g.devices[k]? = some s)
    (hi : i ∈ s.taskOrder) : b.taskIdAt? (s.taskGridPos i) = some (s.denseId i) ∧
      s.denseId i < (DenseBuffer.gridOf d).area ∧
      SparseBuffer.taskRegionOf s.desc s.tiles i = DenseBuffer.taskRegionOf d (s.denseId i) := by
  obtain ⟨-, hd, ho, -⟩ := h.device k s hs
  refine ⟨DenseBuffer.taskIdAt?_denseId ⟨_, ho⟩ (hd.trans hb.symm) hi, hd ▸ ho.denseId_lt hi, ?_⟩
  rw [ho.region_task hi, hd]

/-- Numbering the tasks of the devices as tasks of the image reaches each task once. -/
theorem bijOn_imageTask (h : Dealt d n g) (hb : b.desc = d) :
    Set.BijOn (g.imageTask? b) g.localTasks (some '' {id | id < (DenseBuffer.gridOf d).area}) := by
  have himage : ∀ {k i : Nat} {s : SparseBuffer}, g.devices[k]? = some s → i ∈ s.taskOrder →
      g.imageTask? b (k, i) = some (s.denseId i) := by
    intro k i s hs hi
    rw [imageTask?, hs]
    exact (h.imageTask hb hs hi).1
  refine ⟨?_, ?_, ?_⟩
  · rintro ⟨k, i⟩ ⟨s, hs, hi⟩
    exact ⟨s.denseId i, (h.imageTask hb hs hi).2.1, (himage hs hi).symm⟩
  · rintro ⟨k, i⟩ ⟨s, hs, hi⟩ ⟨l, j⟩ ⟨s', hs', hj⟩ heq
    rw [himage hs hi, himage hs' hj, Option.some_inj] at heq
    obtain ⟨-, hd, ho, -⟩ := h.device k s hs
    obtain ⟨-, hd', ho', -⟩ := h.device l s' hs'
    -- The tile of the task tells the device, and the place in it the number there.
    obtain ⟨id, hid⟩ := ho.tile_task hi
    have htile := (ho.denseId_inj ho' (hd.trans hd'.symm) hi hj heq).1
    rw [hid] at htile
    have hk := (mem_share.1 (List.mem_of_getElem? hid)).2
    have hl := (mem_share.1 (List.mem_of_getElem? htile.symm)).2
    obtain rfl : k = l := hk.symm.trans hl
    rw [hs, Option.some_inj] at hs'
    subst hs'
    exact Prod.ext rfl (ho.eq_of_denseId_eq hi hj heq)
  · rintro _ ⟨t, ht, rfl⟩
    have hcell := DenseBuffer.cell_lt h.valid ht
    have htile : tileAt d t < (Tiling.tileCount d.size).area := Point.rowMajor_lt hcell.1 hcell.2
    obtain ⟨k, ⟨s, hs, hmem⟩, -⟩ := h.existsUnique_owner htile
    obtain ⟨-, hd, ho, htiles⟩ := h.device k s hs
    obtain ⟨i, hi, heq⟩ := ho.exists_denseId_eq (by rw [hd]; exact ht) (by rw [hd, ← htiles]; exact hmem)
    exact ⟨(k, i), ⟨s, hs, hi⟩, (himage hs hi).trans (congrArg some heq)⟩

end Dealt

end DeviceGroup

/-- **An image is shared out without gaps or overlaps.** Take any valid description and any number of devices.
Every pixel of the image lies in one task, and every task has pixels and lies in the tile that it names. Every
tile goes to one device. Numbering the tasks that the devices schedule by their places on the task grid reaches
each task of the image once, and a task has the same pixels under both numbers. -/
theorem image_shared_out (hd : d.validate = .ok ()) (n : Nat) :
    ∃ b g, DenseBuffer.create d = .ok b ∧ DeviceGroup.create d n = .ok g ∧
      (∀ p, d.image.contains p = true → ∃! id, id < taskCount b ∧ (task b id).region.contains p = true) ∧
      (∀ id, id < taskCount b → 0 < (task b id).region.area ∧
        (Tiling.tileRegion d.size (task b id).tileIndex).containsRegion (task b id).region = true) ∧
      g.devices.length = max n 1 ∧
      (∀ id, id < (Tiling.tileCount d.size).area →
        ∃! k : Nat, ∃ s : SparseBuffer, g.devices[k]? = some s ∧ id ∈ s.tileIds) ∧
      Set.BijOn (g.imageTask? b) g.localTasks (some '' {id | id < taskCount b}) ∧
      ∀ (k i : Nat) (s : SparseBuffer) (id : Nat), g.devices[k]? = some s → i ∈ s.taskOrder →
        b.taskIdAt? (s.taskGridPos i) = some id → (s.task i).region = (task b id).region := by
  obtain ⟨b, hb⟩ : ∃ b, DenseBuffer.create d = .ok b := by
    unfold DenseBuffer.create Lifecycle.create
    rw [hd]
    exact ⟨_, rfl⟩
  obtain ⟨g, hg, hdealt⟩ := DeviceGroup.exists_dealt hb n
  have hv := hdealt.valid
  have hdesc : b.desc = d := by
    obtain ⟨-, rfl⟩ := DenseBuffer.eq_of_create hb
    rfl
  have hcount : taskCount b = (DenseBuffer.gridOf d).area := congrArg (fun d => (DenseBuffer.gridOf d).area) hdesc
  have hregion : ∀ id, (task b id).region = DenseBuffer.taskRegionOf d id :=
    fun id => congrArg (fun d => DenseBuffer.taskRegionOf d id) hdesc
  have htile : ∀ id, (task b id).tileIndex = tileAt d id := fun id => congrArg (fun d => tileAt d id) hdesc
  refine ⟨b, g, hb, hg, ?_, ?_, hdealt.length, fun id => hdealt.existsUnique_owner, ?_, ?_⟩
  · intro p hp
    simp only [hregion, hcount]
    exact DenseBuffer.existsUnique_task hv hp
  · intro id hid
    rw [hregion, htile]
    rw [hcount] at hid
    exact ⟨DenseBuffer.area_taskRegionOf_pos hv hid, DenseBuffer.tileRegion_containsRegion_task hv hid⟩
  · rw [hcount]
    exact hdealt.bijOn_imageTask hdesc
  · intro k i s id hs hi hid
    obtain ⟨himage, -, hsame⟩ := hdealt.imageTask hdesc hs hi
    rw [himage, Option.some_inj] at hid
    subst hid
    rw [hregion]
    exact hsame

/-- A strip of three pixels more than a tile, with tasks of four by eight, on two devices. -/
theorem image_shared_out_strip :
    BufferDesc.validate ⟨⟨67, 9⟩, .none, .empty, ⟨4, 8⟩⟩ = .ok () ∧
      ∃ b g, DenseBuffer.create ⟨⟨67, 9⟩, .none, .empty, ⟨4, 8⟩⟩ = .ok b ∧
        DeviceGroup.create ⟨⟨67, 9⟩, .none, .empty, ⟨4, 8⟩⟩ 2 = .ok g ∧ taskCount b = 34 ∧
        g.devices.map tileIds = [[0], [1]] ∧ g.imageTask? b (1, 16) = some 33 ∧
        Set.BijOn (g.imageTask? b) g.localTasks (some '' {id | id < taskCount b}) := by
  have hd : BufferDesc.validate ⟨⟨67, 9⟩, .none, .empty, ⟨4, 8⟩⟩ = .ok () := rfl
  obtain ⟨b, g, hb, hg, -, -, -, -, hbij, -⟩ := image_shared_out hd 2
  obtain ⟨b', g', hb', hg', hcount, hdealt, himage⟩ :
      ∃ b g, DenseBuffer.create ⟨⟨67, 9⟩, .none, .empty, ⟨4, 8⟩⟩ = .ok b ∧
        DeviceGroup.create ⟨⟨67, 9⟩, .none, .empty, ⟨4, 8⟩⟩ 2 = .ok g ∧ taskCount b = 34 ∧
        g.devices.map tileIds = [[0], [1]] ∧ g.imageTask? b (1, 16) = some 33 :=
    ⟨_, _, rfl, rfl, by decide +kernel, by decide +kernel, by decide +kernel⟩
  obtain rfl : b' = b := Except.ok.inj (hb'.symm.trans hb)
  obtain rfl : g' = g := Except.ok.inj (hg'.symm.trans hg)
  exact ⟨hd, b', g', hb, hg, hcount, hdealt, himage, hbij⟩

end AdaptiveFrame
