import AdaptiveFrame.Layout.Dense
import AdaptiveFrame.Proofs.Buffer.SparseTasks
import AdaptiveFrame.Proofs.Buffer.DenseFold
import AdaptiveFrame.Proofs.Layout.Errors
import AdaptiveFrame.Proofs.Layout.Planes

/-!
# Folding tiles in memory

The layout of a dense buffer holds the channels of its pixels (`DenseBuffer.layout`). A row of tile cells is one
piece of every array, whichever way the arrays are cut (`TakesRow`), and a tile that fits its cell has all its
pixels and tasks in that piece. So a tile is folded into the layout as it is into the buffer.
-/

namespace AdaptiveFrame

/-! ## Rasters over the image -/

section Images

variable {α : Type} {d : BufferDesc} {g : Raster α}

theorem Raster.size_image (hg : g.region = d.image) : g.cells.size = d.size.area :=
  g.size_eq.trans (congrArg Region.area hg)

theorem BufferDesc.Valid.raster_pos (hd : d.Valid) (hg : g.region = d.image) : 0 < g.region.area := by
  rw [hg]
  exact Region.area_pos_iff.2 ⟨hd.size_x, hd.size_y⟩

theorem BufferDesc.Valid.area_pos (hd : d.Valid) : 0 < d.size.area := Nat.mul_pos hd.size_x hd.size_y

end Images

/-! ## Bands -/

section Bands

variable {cut : Nat → Cut} {row rows : Nat} {g : Point} {part : Region} {d : BufferDesc}

/-- From arrays that are cut into pieces of so many rows, the piece with this number is taken. -/
def TakesRow (cut : Nat → Cut) (row : Nat) : Prop := ∀ (g : Point) (rows : Nat), 0 < g.x → 0 < rows →
  row * rows < g.y → cut (g.x * rows) g.area = some ⟨row * rows * g.x, min (rows * g.x) (g.area - row * rows * g.x)⟩

theorem TakesRow.reaches (h : TakesRow cut row) (hx : 0 < g.x) (hrow : row * rows < g.y) (hrows : 0 < rows)
    (hpart : ∀ p, part.contains p = true → p.x < g.x ∧ p.y < g.y ∧ p.y / rows = row) :
    (cut (g.x * rows)).Reaches g (row * rows) part := by
  refine ⟨_, h g rows hx hrows hrow, fun p hp => ?_⟩
  obtain ⟨hpx, hpy, hdiv⟩ := hpart p hp
  obtain ⟨hlo, hup⟩ := (div_eq_iff_block hrows).1 hdiv
  refine ⟨hpx, hlo, hpy, Nat.le_min.2 ⟨Nat.mul_le_mul_right _ (by omega), ?_⟩⟩
  rw [Point.area, Nat.mul_comm g.x, ← Nat.sub_mul]
  exact Nat.mul_le_mul_right _ (by omega)

/-- The first entry of a row comes before the last row ends. -/
theorem row_lt_area (hx : 0 < g.x) (hrow : row * rows < g.y) : row * rows * g.x < g.area := by
  rw [Point.area, Nat.mul_comm g.x]
  exact Nat.mul_lt_mul_of_pos_right hrow hx

theorem takesRow_piece (row : Nat) : TakesRow (.piece row) row := by
  intro g rows hx hrows hrow
  have hlt := row_lt_area hx hrow
  have hfirst : row * (g.x * rows) = row * rows * g.x := by rw [Nat.mul_comm g.x, Nat.mul_assoc]
  have hcount : min (row * rows * g.x + g.x * rows) g.area - row * rows * g.x =
      min (rows * g.x) (g.area - row * rows * g.x) := by
    rw [Nat.mul_comm g.x]
    omega
  unfold Cut.piece
  rw [if_neg (by omega), hfirst, Nat.min_eq_left hlt.le]
  show (if _ ∧ _ then some (⟨0 + row * rows * g.x, _⟩ : Span) else none) = _
  rw [if_pos ⟨by omega, Nat.min_le_right ..⟩, Nat.zero_add, hcount]

theorem takesRow_chunk (count row : Nat) : TakesRow (.chunk count row) row := by
  intro g rows hx hrows hrow
  have hlt := row_lt_area hx hrow
  have hlength : 0 < g.x * rows := Nat.mul_pos hx hrows
  have hfirst : row * (g.x * rows) = row * rows * g.x := by rw [Nat.mul_comm g.x, Nat.mul_assoc]
  have hmem : row < (g.area + g.x * rows - 1) / (g.x * rows) := by
    rw [lt_ceilDiv_iff hlength, hfirst]
    exact hlt
  unfold Cut.chunk Span.chunks?
  rw [if_neg (by omega)]
  show ((Count.div? (g.area + g.x * rows - 1) (g.x * rows)).bind _).bind _ = _
  rw [Count.div?_eq _ hlength]
  show ((List.range _).map fun i => (⟨0 + i * (g.x * rows), min (g.x * rows) (g.area - i * (g.x * rows))⟩ : Span))[row]? = _
  rw [List.getElem?_map, List.getElem?_range hmem, Option.map_some, hfirst, Nat.zero_add, Nat.mul_comm g.x]

/-- A piece can be cut even beyond the end. -/
theorem exists_piece (row length size : Nat) : ∃ s, Cut.piece row length size = some s := by
  unfold Cut.piece
  split
  · exact ⟨_, rfl⟩
  · refine ⟨_, if_pos ⟨?_, Nat.min_le_right ..⟩⟩
    exact Nat.le_min.2 ⟨Nat.le_add_right .., Nat.min_le_right ..⟩

/-- There is a piece for every row, and as many of an empty array. -/
theorem exists_chunk {count size : Nat} (hcount : row < count) (hx : 0 < g.x) (hrows : 0 < rows)
    (hrow : row * rows < g.y) (hsize : size = 0 ∨ size = g.area) :
    ∃ s, Cut.chunk count row (g.x * rows) size = some s := by
  rcases hsize with rfl | rfl
  · refine ⟨.whole 0, ?_⟩
    show (List.replicate count (Span.whole 0))[row]? = _
    rw [List.getElem?_replicate, if_pos hcount]
  · exact ⟨_, takesRow_chunk count row g rows hx hrows hrow⟩

/-- The band of a row of tile cells. -/
def Band.ofRow (d : BufferDesc) (cut : Nat → Cut) (row : Nat) : Band where
  pixels := .rows (cut (d.size.x * tileSize)) d.size.x (row * tileSize)
  tasks := .rows (cut ((DenseBuffer.gridOf d).x * d.tasksPerTile.y)) (DenseBuffer.gridOf d).x (row * d.tasksPerTile.y)

theorem Band.ofRow?_eq (hd : d.Valid) (cut : Nat → Cut) (row : Nat) :
    Band.ofRow? d (DenseBuffer.gridOf d) cut row = some (.ofRow d cut row) := by
  rw [ofRow?, Count.div?_eq _ hd.task_y_pos]
  rfl

end Bands

namespace Band

variable {cut : Nat → Cut} {row : Nat} {part : Region} {d : BufferDesc}

section Row

variable (hd : d.Valid) (h : TakesRow cut row) (hrow : row * tileSize < d.size.y)

include hd h hrow

theorem reaches_pixels (hpart : ∀ p, part.contains p = true → d.image.contains p = true ∧ p.y / tileSize = row) :
    (cut (d.size.x * tileSize)).Reaches d.size (row * tileSize) part := by
  refine h.reaches hd.size_x hrow (by decide) fun p hp => ?_
  obtain ⟨himage, hdiv⟩ := hpart p hp
  obtain ⟨hx, hy⟩ := Region.contains_ofSize.1 himage
  exact ⟨hx, hy, hdiv⟩

theorem finds_pixels (hpart : ∀ p, part.contains p = true → d.image.contains p = true ∧ p.y / tileSize = row) :
    (ofRow d cut row).pixels.Finds d.image part := View.finds_rows (reaches_pixels hd h hrow hpart)

omit h in
/-- A row of tile cells that begins in the image has a row of tasks. -/
theorem task_rows : 0 < (DenseBuffer.gridOf d).x ∧ 0 < d.tasksPerTile.y ∧
    row * d.tasksPerTile.y < (DenseBuffer.gridOf d).y := by
  refine ⟨?_, Nat.pos_of_mul_pos_right (b := d.taskSize.y) (by rw [hd.tasks_y]; decide), ?_⟩
  · rw [DenseBuffer.gridOf, Point.ceilDiv_x, lt_ceilDiv_iff hd.task_x_pos, Nat.zero_mul]
    exact hd.size_x
  · rw [DenseBuffer.gridOf, Point.ceilDiv_y, lt_ceilDiv_iff hd.task_y_pos, Nat.mul_assoc, hd.tasks_y]
    exact hrow

theorem finds_tasks (hpart : ∀ pos, part.contains pos = true →
      pos.x < (DenseBuffer.gridOf d).x ∧ pos.y < (DenseBuffer.gridOf d).y ∧ pos.y / d.tasksPerTile.y = row) :
    (ofRow d cut row).tasks.Finds (.ofSize (DenseBuffer.gridOf d)) part := by
  obtain ⟨hwide, hrows, hfirst⟩ := task_rows hd hrow
  exact View.finds_rows (h.reaches hwide hfirst hrows hpart)

end Row

end Band

/-! ## The part of a tile in its row -/

namespace DenseBuffer

variable {d : BufferDesc} {t : Tile} {p pos : Point}

/-- A tile that fits a cell has its pixels in the row of the cell. -/
theorem row_of_part (hf : t.fitsCell = true) (hp : (t.region.intersect d.image).contains p = true) :
    d.image.contains p = true ∧ p.y / tileSize = t.cell.y := by
  obtain ⟨ht, himage⟩ := Region.contains_intersect_iff.1 hp
  exact ⟨himage, congrArg Point.y (Tiling.cellOf_eq_of_fitsCell hf ht)⟩

/-- A pixel lies in the row of its task. -/
theorem row_of_block (hd : d.Valid) (hp : p / d.taskSize = pos) : p.y / tileSize = pos.y / d.tasksPerTile.y := by
  subst hp
  rw [Point.div_y, Nat.div_div_eq_div_mul, Nat.mul_comm, hd.tasks_y]

theorem div_of_contains_block (hd : d.Valid) (hp : (Tiling.blockRegion d.taskSize pos).contains p = true) :
    p / d.taskSize = pos := by
  obtain ⟨hlx, hly, hux, huy⟩ := Region.contains_iff.1 hp
  exact Point.ext ((div_eq_iff_block hd.task_x_pos).2 ⟨hlx, hux⟩) ((div_eq_iff_block hd.task_y_pos).2 ⟨hly, huy⟩)

/-- The tasks that a tile is folded into lie in the row of its cell. -/
theorem row_of_task (hd : d.Valid) (hf : t.fitsCell = true) (ho : t.region.overlaps d.image = true)
    (hpos : pos ∈ tasksOf d t) :
    pos.x < (gridOf d).x ∧ pos.y < (gridOf d).y ∧ pos.y / d.tasksPerTile.y = t.cell.y := by
  obtain ⟨hx, hy⟩ := lt_of_mem_tasksOver hd ho hpos
  obtain ⟨p, hp, hblock⟩ :=
    (Tiling.mem_tasksOver hd.task_x_pos hd.task_y_pos (Region.overlaps_iff_area_pos.1 ho)).1 hpos
  exact ⟨hx, hy, (row_of_block hd hblock).symm.trans (row_of_part hf hp).2⟩

theorem row_lt (hf : t.fitsCell = true) (ho : t.region.overlaps d.image = true) :
    t.cell.y * tileSize < d.size.y := by
  obtain ⟨p, ht, himage⟩ := Region.overlaps_iff.1 ho
  have hrow := (row_of_part hf (Region.contains_intersect_iff.2 ⟨ht, himage⟩)).2
  rw [← hrow]
  exact Nat.lt_of_le_of_lt (Nat.div_mul_le_self ..) (Region.contains_ofSize.1 himage).2

/-- The block of a task is cut off at the image. -/
theorem block_intersect (hd : d.Valid) (hx : pos.x < (gridOf d).x) (hy : pos.y < (gridOf d).y) :
    (⟨pos * d.taskSize, min (pos * d.taskSize + d.taskSize) d.size⟩ : Region) =
      (Tiling.blockRegion d.taskSize pos).intersect d.image := by
  have hblock := block_intersect_image hd (Point.rowMajor_lt hx hy)
  rw [taskRegionOf, Point.ofRowMajor_rowMajor hx] at hblock
  exact hblock.symm

/-! ## The layout -/

/-- A dense buffer in memory. -/
def layout (b : DenseBuffer) : DenseLayout where
  life := b.life
  grid := b.grid
  order := b.taskOrder
  color := b.pixels.plane b.desc.hasColor (·.shown.color)
  output := Raster.cellsOf b.output
  display := Raster.cellsOf b.display
  means := .ofStore b.desc b.pixels
  guides := .ofStore b.desc b.pixels
  tracker := b.tracker
  accumIds := b.accumIds

/-! ## Folding a tile -/

section Absorb

variable {g : Store} {cut : Nat → Cut}

/-- What the arrays give back for a pixel is what the stored pixel gives back. -/
theorem reflect?_eq {v : View} {part : Region} (hf : v.Finds g.region part) (hp : part.contains p = true)
    (s : Sample) : DenseLayout.reflect? v (.ofStore d g) (.ofStore d g) p s =
      some ((g.getD p .blank).reflect (.dense d) s) := by
  unfold DenseLayout.reflect? Means.ofStore Guides.ofStore
  dsimp only
  rw [Raster.readKept?_plane hf hp .blank, Raster.readKept?_plane hf hp .blank, Raster.readKept?_plane hf hp .blank,
    Raster.readKept?_plane hf hp .blank]
  rfl

/-- The errors of tasks in a row are found in the band of the row. -/
theorem renewErrors?_eq {row : Nat} (hd : d.Valid) (hv : d.has .variance = true) (h : TakesRow cut row)
    (hrow : row * tileSize < d.size.y) (hg : g.region = d.image) {tracker : ErrorTracker}
    (hgrid : tracker.grid = gridOf d) {part : Region}
    (hpart : ∀ pos, part.contains pos = true →
      pos.x < (gridOf d).x ∧ pos.y < (gridOf d).y ∧ pos.y / d.tasksPerTile.y = row) :
    DenseLayout.renewErrors? d (.ofRow d cut row) (.ofStore d g) part.points tracker =
      some (renewErrors d g part.points tracker) := by
  refine foldlM_eq_some (R := id) (I := fun t : ErrorTracker => t.grid = gridOf d) hgrid
    fun t pos hpos ht => ⟨?_, ht⟩
  have hpos := Region.mem_points.1 hpos
  obtain ⟨hx, hy, hdiv⟩ := hpart pos hpos
  have hfind : (Band.ofRow d cut row).pixels.Finds g.region
      ((Tiling.blockRegion d.taskSize pos).intersect d.image) := by
    rw [hg]
    refine Band.finds_pixels hd h hrow fun p hp => ?_
    obtain ⟨hblock, himage⟩ := Region.contains_intersect_iff.1 hp
    exact ⟨himage, (row_of_block hd (div_of_contains_block hd hblock)).trans hdiv⟩
  have herror := Means.error?_eq (r := Tiling.blockRegion d.taskSize pos) hv (hd.accum hv) hfind
    (fun p hp => hg ▸ hp)
  rw [hg] at herror
  show ((Means.ofStore d g).error? _ _).bind _ = _
  rw [block_intersect hd hx hy, herror]
  have hfound : (Band.ofRow d cut row).tasks.Finds (.ofSize t.grid) part := by
    rw [ht]
    exact Band.finds_tasks hd h hrow hpart
  exact ErrorTracker.write?_eq hfound hpos _

theorem noteAccumIds?_eq {row : Nat} (hd : d.Valid) (h : TakesRow cut row) (hrow : row * tileSize < d.size.y)
    {part : Region} (hpart : ∀ pos, part.contains pos = true →
      pos.x < (gridOf d).x ∧ pos.y < (gridOf d).y ∧ pos.y / d.tasksPerTile.y = row)
    {accumIds : Array Int} (hsize : accumIds.size = (gridOf d).area) (k : Int) :
    DenseLayout.noteAccumIds? (.ofRow d cut row) part.points k accumIds =
      some (noteAccumIds (gridOf d) part.points k accumIds) := by
  refine foldlM_eq_some (R := id) (I := fun ids : Array Int => ids.size = (gridOf d).area) hsize
    fun ids pos hpos hids => ⟨?_, ?_⟩
  · exact (Band.finds_tasks hd h hrow hpart).write?_array hids (Region.mem_points.1 hpos) k
  · rw [Array.size_setIfInBounds]
    exact hids

/-- Where the colors of a tile are shown, encoding them is encoding the tile. -/
theorem encodeRows?_eq_encodeTile (format : ColorFormat) {cut : Cut} {first : Nat} {part : Region} {keep : Bool}
    {display : Option (Raster Rgba8)} (h : cut.Reaches d.size first part) (hg : g.region = d.image)
    (hpart : part = t.region.intersect d.image) (hpos : 0 < part.area)
    (hdisplay : ∀ shown, display = some shown → shown.region = d.image) (hkeep : display.isSome = true → keep = true)
    (hcolor : ∀ p, part.contains p = true → (g.getD p .blank).shown.color = (t.sampleAt p).color) :
    encodeRows? format (.rows cut d.size.x first) part (g.plane keep (·.shown.color)) (Raster.cellsOf display) =
      some (Raster.cellsOf (encodeTile format t display)) := by
  cases display with
  | none =>
    unfold encodeTile
    cases Color.encoding? format <;> rfl
  | some shown =>
    have hshown := hdisplay shown rfl
    rw [hkeep rfl, Raster.plane, if_pos rfl]
    have hrows : encodeRows? format (.rows cut d.size.x first) part (g.map (·.shown.color)).cells shown.cells = _ :=
      encodeRows?_eq h hpos hg hshown
    refine hrows.trans ?_
    unfold paint encodeTile
    cases Color.encoding? format with
    | none => rfl
    | some encode =>
      dsimp only
      rw [Raster.modifyOn_eq_foldl, hshown, ← hpart]
      refine congrArg (fun s : Raster Rgba8 => some s.cells) (List.foldl_ext _ _ _ fun s p hp => ?_)
      have hp := Region.mem_points.1 hp
      have himage : g.region.contains p = true := hg ▸ (Region.contains_intersect_iff.1 (hpart ▸ hp)).2
      rw [Raster.getD_map himage _ .blank, hcolor p hp]

/-- The colors of a tile are shown pixel by pixel, and encoded where eight bits per lane are displayed. -/
theorem showColors?_eq (format : ColorFormat) {cut : Cut} {first : Nat} {part : Region} {keep : Bool}
    {display : Option (Raster Rgba8)} (h : cut.Reaches d.size first part) (hg : g.region = d.image)
    (hpart : part = t.region.intersect d.image) (hpos : 0 < part.area)
    (hdisplay : ∀ shown, display = some shown → shown.region = d.image) (hkeep : display.isSome = true → keep = true) :
    DenseLayout.showColors? format (.rows cut d.size.x first) part t (g.plane keep (·.shown.color))
      (Raster.cellsOf display) =
      some ((g.showColors t).plane keep (·.shown.color), Raster.cellsOf (encodeTile format t display)) := by
  have hfind : (View.rows cut d.size.x first).Finds g.region part := by
    rw [hg]
    exact View.finds_rows h
  have hlower : part.contains part.lower = true := by
    have hpos := Region.area_pos_iff.1 hpos
    exact Region.contains_iff.2 (by omega)
  unfold DenseLayout.showColors?
  rw [Raster.isEmpty_plane_of_found hfind hlower]
  cases keep with
  | false =>
    have hnone : display = none := Option.not_isSome_iff_eq_none.1 fun hsome => Bool.false_ne_true (hkeep hsome)
    subst hnone
    unfold encodeTile
    cases Color.encoding? format <;> rfl
  | true =>
    have hshow : part.points.foldlM (fun color p => do
        (View.rows cut d.size.x first).write? color p (← t.sample? p).color) (g.plane true (·.shown.color)) =
        some ((g.showColors t).plane true (·.shown.color)) := by
      rw [Store.showColors, Raster.modifyOn_eq_foldl, hg, ← hpart]
      refine foldlM_eq_some (R := fun h : Store => h.plane true (·.shown.color))
        (I := fun h : Store => h.region = g.region) rfl fun h p hp hh => ⟨?_, hh⟩
      have hp := Region.mem_points.1 hp
      have ht : t.region.contains p = true := (Region.contains_intersect_iff.1 (hpart ▸ hp)).1
      rw [Tile.sample?_eq ht]
      exact Raster.write?_plane (g := h) (by rwa [hh]) hp fun _ => rfl
    have hcolor : ∀ p, part.contains p = true →
        ((g.showColors t).getD p .blank).shown.color = (t.sampleAt p).color := by
      intro p hp
      obtain ⟨ht, himage⟩ := Region.contains_intersect_iff.1 (hpart ▸ hp)
      rw [Store.showColors, Raster.getD_modifyOn (hg ▸ himage), if_pos ht]
      rfl
    have hencode := encodeRows?_eq_encodeTile format (g := g.showColors t) h hg hpart hpos hdisplay hkeep hcolor
    show Option.bind (List.foldlM _ _ _) _ = _
    rw [hshow]
    show Option.bind (encodeRows? _ _ _ _ _) _ = _
    rw [hencode]
    rfl

/-- The tile that is left is put together from the arrays. -/
theorem reflectTile?_eq {v : View} {part : Region} (hf : v.Finds g.region part)
    (hpart : part = t.region.intersect g.region) :
    DenseLayout.reflectTile? v (.ofStore d g) (.ofStore d g) part t = some (g.reflectTile (.dense d) t) := by
  unfold Store.reflectTile DenseLayout.reflectTile?
  rw [← hpart]
  refine Tile.mapPoints?_eq fun p _ => ?_
  split
  · rename_i hp
    exact reflect?_eq hf hp _
  · rfl

/-- Whether errors are renewed can be seen from the arrays that are kept. -/
theorem updateErrors?_eq {row : Nat} (hd : d.Valid) (h : TakesRow cut row) (hrow : row * tileSize < d.size.y)
    (hg : g.region = d.image) {tracker : ErrorTracker} (hgrid : tracker.grid = trackedGrid d) {part : Region}
    (hpart : ∀ pos, part.contains pos = true →
      pos.x < (gridOf d).x ∧ pos.y < (gridOf d).y ∧ pos.y / d.tasksPerTile.y = row) (k : Int) :
    DenseLayout.updateErrors? d (.ofRow d cut row) (.ofStore d g) k part.points tracker =
      some (if (FoldRule.dense d).updatesError k then renewErrors d g part.points tracker else tracker) := by
  have himage := hd.raster_pos hg
  have hodd : (Means.ofStore d g).oddMean.isEmpty = !d.has .variance := Raster.isEmpty_plane himage ..
  have hupdates : (FoldRule.dense d).updatesError k = (d.has .variance && Blend.isOdd k) := rfl
  unfold DenseLayout.updateErrors?
  rw [hodd, Bool.not_not, hupdates]
  cases hv : d.has .variance with
  | false => rfl
  | true =>
    have hcount : 0 < (gridOf d).area := Nat.lt_of_le_of_lt (Nat.zero_le _)
      (taskAt_lt hd (Region.contains_ofSize.2 ⟨hd.size_x, hd.size_y⟩ : d.image.contains .zero = true))
    have hgrid : tracker.grid = gridOf d := by rw [hgrid, trackedGrid, if_pos hv]
    have henabled : (!tracker.errors.isEmpty) = true := by
      show tracker.isEnabled = true
      rw [ErrorTracker.isEnabled_eq, hgrid, decide_eq_true hcount]
    rw [henabled, Bool.and_true]
    split
    · exact renewErrors?_eq hd hv h hrow hg hgrid hpart
    · rfl

theorem hasColor_of_display {b : DenseBuffer} (h : b.Intact) (hdisplay : b.display.isSome = true) :
    b.desc.hasColor = true := by
  rw [h.encoded, BufferDesc.hasEncodedColor, Bool.and_eq_true] at hdisplay
  exact hdisplay.1

/-- Tiles are folded in the band of their row. -/
theorem absorb?_eq {b : DenseBuffer} (h : b.Intact) (hcut : TakesRow cut t.cell.y) (hf : t.fitsCell = true) :
    b.layout.absorb? (.ofRow b.desc cut t.cell.y) t = some ((b.absorb t).1.layout, (b.absorb t).2) := by
  obtain ⟨life, pixels, display, output, tracker, accumIds⟩ := b
  have hd : life.desc.Valid := h.valid
  have hg : pixels.region = life.desc.image := h.pixels
  cases hempty : (t.region.intersect life.desc.image).isEmpty with
  | true =>
    simp only [DenseLayout.absorb?, absorb, layout, DenseLayout.desc, hempty, if_true]
  | false =>
    have hpos := Region.isEmpty_eq_false.1 hempty
    have ho : t.region.overlaps life.desc.image = true := Region.overlaps_iff_area_pos.2 hpos
    have hrow := row_lt hf ho
    have hpart : t.region.intersect life.desc.image = t.region.intersect pixels.region := by rw [hg]
    have hreach := Band.reaches_pixels hd hcut hrow fun p hp => row_of_part hf hp
    have hfind : (Band.ofRow life.desc cut t.cell.y).pixels.Finds pixels.region (t.region.intersect life.desc.image) := by
      rw [hg]
      exact View.finds_rows hreach
    have htasks : ∀ pos, (Tiling.tasksOver life.desc.taskSize (t.region.intersect life.desc.image)).contains pos = true →
        pos.x < (gridOf life.desc).x ∧ pos.y < (gridOf life.desc).y ∧ pos.y / life.desc.tasksPerTile.y = t.cell.y :=
      fun pos hpos => row_of_task hd hf ho (Region.mem_points.2 hpos)
    have hmeans := Means.foldTile?_eq (Means.ruled_dense hd.accum) hfind hpart
    have hguides := Guides.foldTile?_eq (d := life.desc) hfind hpart
    have hleft := reflectTile?_eq (d := life.desc) (g := pixels.foldTile (.dense life.desc) t) hfind hpart
    have herrors := updateErrors?_eq (g := pixels.foldTile (.dense life.desc) t) hd hcut hrow hg h.grid htasks t.accumId
    have hnote := noteAccumIds?_eq hd hcut hrow htasks h.accumIds (t.accumId + 1)
    have hrecolored : t.region.intersect life.desc.image = (life.pipeline.recolor
        ((pixels.foldTile (.dense life.desc) t).reflectTile (.dense life.desc) t)).region.intersect life.desc.image := by
      rw [Pipeline.region_recolor]
      rfl
    have hshow := showColors?_eq life.desc.format (g := pixels.foldTile (.dense life.desc) t) hreach hg hrecolored hpos
      h.display (hasColor_of_display h)
    rw [color_foldTile] at hshow
    obtain ⟨hsame, hsame'⟩ := ofStore_showColors life.desc (pixels.foldTile (.dense life.desc) t)
      (life.pipeline.recolor ((pixels.foldTile (.dense life.desc) t).reflectTile (.dense life.desc) t))
    simp only [DenseLayout.absorb?, absorb, layout, DenseLayout.desc, desc, hempty, Bool.false_eq_true, if_false, hmeans,
      hguides, hleft, hnote, herrors, Option.bind_eq_bind, Option.bind_some, hsame, hsame',
      Tiling.tasksOver?_eq _ hd.task_x_pos hd.task_y_pos]
    exact congrArg (Option.bind · _) hshow

end Absorb

/-! ## Cutting all arrays -/

section Cutting

variable {b : DenseBuffer} {row : Nat}

/-- Every array is empty, or has a value for each pixel or each task. -/
theorem size_cases (h : b.Intact) : (∀ n ∈ b.layout.pixelSizes, n = 0 ∨ n = b.desc.size.area) ∧
    ∀ n ∈ b.layout.taskSizes, n = 0 ∨ n = (gridOf b.desc).area := by
  have hplane : ∀ {α : Type} (keep : Bool) (read : Pixel → α),
      (b.pixels.plane keep read).size = 0 ∨ (b.pixels.plane keep read).size = b.desc.size.area := by
    intro α keep read
    rw [Raster.size_plane, h.pixels]
    cases keep with
    | true => exact .inr rfl
    | false => exact .inl rfl
  have hdisplay : (Raster.cellsOf b.display).size = 0 ∨ (Raster.cellsOf b.display).size = b.desc.size.area := by
    cases hb : b.display with
    | none => exact .inl rfl
    | some shown => exact .inr (Raster.size_image (h.display shown hb))
  have herrors : b.tracker.errors.size = 0 ∨ b.tracker.errors.size = (gridOf b.desc).area := by
    rw [b.tracker.size_eq, h.grid, trackedGrid]
    cases b.desc.has .variance with
    | true => exact .inr rfl
    | false => exact .inl rfl
  simp only [DenseLayout.pixelSizes, DenseLayout.taskSizes, List.forall_mem_cons]
  exact ⟨⟨hplane .., hdisplay, hplane .., hplane .., hplane .., hplane .., hplane .., hplane .., hplane .., hplane ..,
    by simp⟩, herrors, .inr h.accumIds, by simp⟩

theorem exists_cutAll (h : b.Intact) (band : Band)
    (hpixels : ∀ n, n = 0 ∨ n = b.desc.size.area → ∃ s, band.pixels.cut n = some s)
    (htasks : ∀ n, n = 0 ∨ n = (gridOf b.desc).area → ∃ s, band.tasks.cut n = some s) :
    ∃ spans, b.layout.cutAll? band = some spans := by
  obtain ⟨pixelCuts, hp⟩ := exists_mapM fun n hn => hpixels n ((size_cases h).1 n hn)
  obtain ⟨taskCuts, ht⟩ := exists_mapM fun n hn => htasks n ((size_cases h).2 n hn)
  refine ⟨pixelCuts ++ taskCuts, ?_⟩
  rw [DenseLayout.cutAll?, hp, ht]
  rfl

end Cutting

/-! ## One tile and many -/

variable {b : DenseBuffer}

theorem accumulate?_eq (h : b.Intact) (t : Tile) :
    b.layout.accumulate? t = some ((b.accumulate t).1.layout, (b.accumulate t).2) := by
  unfold DenseLayout.accumulate? accumulate
  rw [Tiling.fitsCell?_eq]
  cases hf : t.fitsCell with
  | false =>
    have hf : Tiling.fitsCell t.region = false := hf
    rw [hf]
    rfl
  | true =>
    have hf' : Tiling.fitsCell t.region = true := hf
    obtain ⟨spans, hcuts⟩ := exists_cutAll h (.ofRow b.desc (.piece t.cell.y) t.cell.y)
      (fun n _ => exists_piece _ _ n) fun n _ => exists_piece _ _ n
    have habsorb := absorb?_eq h (takesRow_piece t.cell.y) hf
    have hband : Band.ofRow? b.layout.desc b.layout.grid (.piece t.cell.y) t.cell.y = _ := Band.ofRow?_eq h.valid ..
    simp only [hf', hband, hcuts, habsorb, Option.bind_eq_bind, Option.bind_some, if_true]
    rfl

/-- The tiles of a row are folded one after another; those that cross a cell are left out. -/
theorem absorbRow?_eq (h : b.Intact) (tiles : List Tile) {row : Nat}
    (hrow : row < (Tiling.tileCount b.desc.size).y) :
    b.layout.absorbRow? tiles (Tiling.tileCount b.desc.size).y row =
      some ((band tiles row).foldl (fun b t => (b.absorb t).1) b).layout := by
  have hrow' : row * tileSize < b.desc.size.y := (lt_ceilDiv_iff (by decide)).1 hrow
  obtain ⟨hwide, hrows, hfirst⟩ := Band.task_rows h.valid hrow'
  obtain ⟨spans, hcuts⟩ := exists_cutAll h (.ofRow b.desc (.chunk (Tiling.tileCount b.desc.size).y row) row)
    (fun n hn => exists_chunk hrow h.valid.size_x (by decide) hrow' hn)
    fun n hn => exists_chunk hrow hwide hrows hfirst hn
  have hband : Band.ofRow? b.layout.desc b.layout.grid (.chunk (Tiling.tileCount b.desc.size).y row) row = _ :=
    Band.ofRow?_eq h.valid ..
  have hloop : (tiles.filter fun t => t.cell.y == row).foldlM (fun l t => do
      if ← Tiling.fitsCell? t.region then
        return (← l.absorb? (.ofRow b.desc (.chunk (Tiling.tileCount b.desc.size).y row) row) t).1
      else return l) b.layout = some ((band tiles row).foldl (fun b t => (b.absorb t).1) b).layout := by
    have hband : band tiles row = (tiles.filter fun t => t.cell.y == row).filter Tile.fitsCell :=
      List.filter_filter.symm
    rw [hband, List.foldl_filter]
    refine foldlM_eq_some (R := layout) (I := fun c : DenseBuffer => c.Intact ∧ c.life = b.life) ⟨h, rfl⟩ ?_
    rintro c t ht ⟨hc, hlife⟩
    have hd : b.desc = c.desc := congrArg Lifecycle.desc hlife.symm
    obtain rfl : t.cell.y = row := by simpa using (List.mem_filter.1 ht).2
    rw [Tiling.fitsCell?_eq]
    cases hf : t.fitsCell with
    | false =>
      have hf : Tiling.fitsCell t.region = false := hf
      rw [hf]
      exact ⟨rfl, hc, hlife⟩
    | true =>
      have hf' : Tiling.fitsCell t.region = true := hf
      have habsorb := absorb?_eq hc (takesRow_chunk (Tiling.tileCount c.desc.size).y t.cell.y) hf
      rw [hf', hd, habsorb]
      exact ⟨rfl, (hc.absorb t).1, (hc.absorb t).2.trans hlife⟩
  unfold DenseLayout.absorbRow?
  simp only [hband, hcuts, Option.bind_eq_bind, Option.bind_some]
  exact hloop

theorem accumulateAll?_eq (h : b.Intact) (tiles : List Tile) :
    b.layout.accumulateAll? tiles = some (b.accumulateAll tiles).layout := by
  have hrows : (List.range (Tiling.tileCount b.desc.size).y).foldlM
      (fun l row => l.absorbRow? tiles (Tiling.tileCount b.desc.size).y row) b.layout =
      some ((List.range (Tiling.tileCount b.desc.size).y).foldl
        (fun b row => (band tiles row).foldl (fun b t => (b.absorb t).1) b) b).layout := by
    refine foldlM_eq_some (R := layout) (I := fun c : DenseBuffer => c.Intact ∧ c.life = b.life) ⟨h, rfl⟩ ?_
    rintro c row hrow ⟨hc, hlife⟩
    have hd : b.desc = c.desc := congrArg Lifecycle.desc hlife.symm
    obtain ⟨hnext, hlife'⟩ := hc.foldl_absorb (band tiles row)
    have hrow := List.mem_range.1 hrow
    rw [hd] at hrow ⊢
    exact ⟨absorbRow?_eq hc tiles hrow, hnext, hlife'.trans hlife⟩
  unfold DenseLayout.accumulateAll?
  cases hempty : tiles.isEmpty with
  | true =>
    obtain rfl := List.isEmpty_iff.1 hempty
    rw [accumulateAll_nil]
    rfl
  | false =>
    have hfitting : tiles.filterM (fun t => Tiling.fitsCell? t.region) = some (tiles.filter Tile.fitsCell) :=
      filterM_eq_some fun t _ => Tiling.fitsCell?_eq t.region
    have hcount : b.layout.desc.size.ceilDiv? (.square tileSize) = some (Tiling.tileCount b.desc.size) :=
      Point.ceilDiv?_eq _ (by decide) (by decide)
    simp only [Bool.false_eq_true, if_false, hfitting, hcount, hrows, Option.bind_eq_bind, Option.bind_some]
    rfl

end DenseBuffer

end AdaptiveFrame
