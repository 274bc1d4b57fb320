import AdaptiveFrame.Proofs.Buffer.Owning

/-!
# Counts as words

Buffers count tiles and tasks in words of 32 bits. Of an image that is small enough (`TilesFit`, `TasksFit`) the words
are the counts: what is looked up, chosen or ordered by words is what it is by numbers. Of a larger image a count can
wrap, and then fewer tiles or tasks are there than the image has. A buffer that chooses its tiles by words (`Counted`)
is one that was given fewer numbers to choose from.
-/

namespace AdaptiveFrame

/-- Nothing overflows when the tiles of an image are counted. -/
structure BufferDesc.TilesFit (d : BufferDesc) : Prop where
  width : d.size.x + tileSize < 2 ^ 32
  height : d.size.y + tileSize < 2 ^ 32
  total : (Tiling.tileCount d.size).area < 2 ^ 32

/-- Nothing overflows when the tasks of an image are counted. -/
structure BufferDesc.TasksFit (d : BufferDesc) : Prop where
  width : d.size.x + d.taskSize.x < 2 ^ 32
  height : d.size.y + d.taskSize.y < 2 ^ 32
  total : (DenseBuffer.gridOf d).area < 2 ^ 32

namespace Tiling

/-- The quotient of the wrapped sum. -/
theorem toNat_ceilDivWord (extent : Nat) {block : Nat} (h0 : 0 < block) (h : block < 2 ^ 32) :
    (ceilDivWord extent block).toNat = (extent + block - 1) % 2 ^ 32 / block := by
  have hblock : (UInt32.ofNat block).toNat = block := UInt32.toNat_ofNat_of_lt' h
  have hsum : (UInt32.ofNat extent + UInt32.ofNat block - 1).toNat = (extent + block - 1) % 2 ^ 32 := by
    rw [UInt32.toNat_sub, UInt32.toNat_add, UInt32.toNat_ofNat', hblock, show (1 : UInt32).toNat = 1 from rfl]
    omega
  rw [ceilDivWord, UInt32.toNat_div, hsum, hblock]

theorem ceilDivWord_le (extent : Nat) {block : Nat} (h0 : 0 < block) (h : block < 2 ^ 32) :
    (ceilDivWord extent block).toNat ≤ (extent + block - 1) / block := by
  rw [toNat_ceilDivWord extent h0 h]
  exact Nat.div_le_div_right (Nat.mod_le ..)

theorem ceilDivWord_eq {extent block : Nat} (h0 : 0 < block) (h : extent + block < 2 ^ 32) :
    (ceilDivWord extent block).toNat = (extent + block - 1) / block := by
  rw [toNat_ceilDivWord extent h0 (by omega), Nat.mod_eq_of_lt (by omega)]

/-- Either a word counts the columns of an image, or the sum that is divided wraps and there are none. -/
theorem columnsWord_cases {size : Point} (hx : size.x < 2 ^ 32) :
    (columnsWord size).toNat = (tileCount size).x ∨ columnsWord size = 0 := by
  have hword : (columnsWord size).toNat = (size.x + tileSize - 1) % 2 ^ 32 / tileSize :=
    toNat_ceilDivWord size.x (by decide) (by decide)
  rcases Nat.lt_or_ge (size.x + tileSize - 1) (2 ^ 32) with hlt | hwraps
  · left
    rw [hword, Nat.mod_eq_of_lt hlt]
    rfl
  · right
    have hsize : tileSize = 64 := rfl
    refine UInt32.toNat_inj.1 (hword.trans (Nat.div_eq_of_lt ?_))
    omega

end Tiling

namespace BufferDesc

variable {d : BufferDesc}

namespace TilesFit

theorem columns (h : d.TilesFit) : (Tiling.columnsWord d.size).toNat = (Tiling.tileCount d.size).x :=
  Tiling.ceilDivWord_eq (by decide) h.width

theorem rows (h : d.TilesFit) : (Tiling.rowsWord d.size).toNat = (Tiling.tileCount d.size).y :=
  Tiling.ceilDivWord_eq (by decide) h.height

theorem tileTotal (h : d.TilesFit) : (Tiling.tileTotalWord d.size).toNat = (Tiling.tileCount d.size).area := by
  rw [Tiling.tileTotalWord, UInt32.toNat_mul, h.columns, h.rows]
  exact Nat.mod_eq_of_lt h.total

end TilesFit

theorem TasksFit.taskTotal (h : d.TasksFit) (hd : d.Valid) :
    (DenseBuffer.taskTotalWord d).toNat = (DenseBuffer.gridOf d).area := by
  rw [DenseBuffer.taskTotalWord, UInt32.toNat_mul, Tiling.ceilDivWord_eq hd.task_x_pos h.width,
    Tiling.ceilDivWord_eq hd.task_y_pos h.height]
  exact Nat.mod_eq_of_lt h.total

end BufferDesc

/-- The order of all tasks is that of the tasks that a word counts. -/
theorem DenseBuffer.taskOrderWord_eq {d : BufferDesc} (h : d.TasksFit) (hd : d.Valid) :
    taskOrderWord d = taskOrderOf d := by
  rw [taskOrderWord, h.taskTotal hd]
  rfl

namespace SparseBuffer

variable {d : BufferDesc} {s : SparseBuffer} {t : Tile}

/-- Numbers that the image has no tile for can be left out. -/
theorem setTiles_filter (s : SparseBuffer) (ids : List Nat) :
    s.setTiles (ids.filter fun id => id < (Tiling.tileCount s.desc.size).area) = s.setTiles ids := by
  have hkept : kept (Tiling.tileCount s.desc.size).area
      (ids.filter fun id => id < (Tiling.tileCount s.desc.size).area) = kept (Tiling.tileCount s.desc.size).area ids := by
    rw [kept, kept, List.filter_filter]
    simp
  have hsame := (hkept ▸ taken_kept s.desc (Tiling.tileCount s.desc.size).area _).unique (taken_kept s.desc _ ids)
  unfold setTiles
  dsimp only
  rw [hsame]

theorem setTilesWord_eq (h : s.desc.TilesFit) (ids : List Nat) : s.setTilesWord ids = s.setTiles ids := by
  rw [setTilesWord, inRangeWord, h.tileTotal, setTiles_filter]

theorem createWord_eq (h : d.TilesFit) (ids : List Nat) : createWord d ids = create d ids := by
  rw [createWord, inRangeWord, h.tileTotal]
  unfold create Lifecycle.create
  cases d.validate with
  | error e => rfl
  | ok u =>
    exact congrArg Except.ok (setTiles_filter ⟨⟨d, -1, Binary32.posInf, .fresh d.size.area, [], .empty, 0⟩, #[], #[],
      .disabled, #[]⟩ ids)

theorem toNat_taskTotalWord (h : FrameBuffer.taskCount s < 2 ^ 32) :
    s.taskTotalWord.toNat = FrameBuffer.taskCount s := by
  have hword : s.taskTotalWord = .ofNat (FrameBuffer.taskCount s) := by
    show _ = UInt32.ofNat (s.tiles.size * s.desc.tasksPerTile.x * s.desc.tasksPerTile.y)
    rw [taskTotalWord, UInt32.ofNat_mul, UInt32.ofNat_mul, UInt32.mul_assoc]
  rw [hword, UInt32.toNat_ofNat_of_lt' h]

theorem toNat_cellWord (s : SparseBuffer) (t : Tile) :
    (s.cellWord t).toNat = (t.cell.y * (Tiling.columnsWord s.desc.size).toNat + t.cell.x) % 2 ^ 32 := by
  simp [cellWord]

/-! ## Buffers that choose their tiles by words -/

/-- What becomes of buffers that choose their tiles among those that a word counts. -/
inductive Counted : SparseBuffer → Prop
  | create {d : BufferDesc} {ids : List Nat} {s : SparseBuffer} : createWord d ids = .ok s → Counted s
  | setTiles {s : SparseBuffer} (ids : List Nat) : Counted s → Counted (s.setTilesWord ids)
  | setTaskError {s : SparseBuffer} (i : Nat) (e : Float32) : Counted s → Counted (s.setTaskError i e)
  | turn {s s' : SparseBuffer} : Counted s → Turn s s' → Counted s'

namespace Counted

theorem reachable (h : Counted s) : Reachable s := by
  induction h with
  | create h => exact .create h
  | setTiles ids _ ih => exact ih.step (.setTiles _ _)
  | setTaskError i e _ ih => exact ih.step (.setTaskError _ i e)
  | turn _ hs ih => exact ih.step hs.step

theorem lt_total (h : Counted s) : ∀ id ∈ s.tileIds, id < (Tiling.tileTotalWord s.desc.size).toNat := by
  have hchosen : ∀ {d : BufferDesc} {ids : List Nat} {n id : Nat}, id ∈ kept n (inRangeWord d ids) →
      id < (Tiling.tileTotalWord d.size).toNat := fun hid => by
    simpa using (List.mem_filter.1 (mem_kept.1 hid).1).2
  induction h with
  | create h =>
    obtain ⟨rfl, hids⟩ := tileIds_of_create h
    rw [hids]
    exact fun id hid => hchosen hid
  | setTiles ids _ _ =>
    rw [setTilesWord, tileIds_setTiles_eq]
    exact fun id hid => hchosen hid
  | setTaskError i e _ ih =>
    rw [tileIds_setTaskError, (sameTasks_setTaskError _ i e).desc]
    exact ih
  | turn _ hs ih =>
    rw [hs.same.2, hs.same.1.desc]
    exact ih

theorem lt_of_mem (h : Counted s) {id : Nat} (hid : id ∈ s.tileIds) : id < 2 ^ 32 :=
  (h.lt_total id hid).trans (UInt32.toNat_lt _)

/-- Where anything is owned, the columns did not wrap, and the number of a cell wraps on the whole. -/
theorem cellWord_eq (h : Counted s) (hx : s.desc.size.x < 2 ^ 32) {id : Nat} (hid : id ∈ s.tileIds) (t : Tile) :
    (s.cellWord t).toNat = s.cellId t % 2 ^ 32 := by
  rcases Tiling.columnsWord_cases hx with hcolumns | hnone
  · rw [toNat_cellWord, hcolumns]
    rfl
  · have hlt := h.lt_total id hid
    rw [Tiling.tileTotalWord, hnone, UInt32.zero_mul] at hlt
    exact absurd hlt (Nat.not_lt_zero id)

theorem cellWord_mem_iff (h : Counted s) (hx : s.desc.size.x < 2 ^ 32) (t : Tile) :
    (s.cellWord t).toNat ∈ s.tileIds ↔ s.cellId t % 2 ^ 32 ∈ s.tileIds := by
  constructor
  · exact fun hid => h.cellWord_eq hx hid t ▸ hid
  · exact fun hid => (h.cellWord_eq hx hid t).symm ▸ hid

end Counted

end SparseBuffer

end AdaptiveFrame
