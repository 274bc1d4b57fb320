import AdaptiveFrame.Layout.Sparse
import AdaptiveFrame.Proofs.Buffer.Owning
import AdaptiveFrame.Proofs.Layout.Errors
import AdaptiveFrame.Proofs.Layout.Planes

/-!
# The tasks of a sparse buffer in memory

The layout of a sparse buffer holds its tiles as they are shown, next to their means (`SparseBuffer.layout`). It
finds the tasks of the buffer, and choosing tiles gives the layout of the chosen tiles. Whatever is done to a sparse
buffer, the place of a tile that its number stands for is the place of an owned tile (`Placed`).
-/

namespace AdaptiveFrame

/-! ## Scheduling -/

theorem scheduled?_eq (life : Lifecycle) (tracker : ErrorTracker) (order : List Nat) (threshold : Float32)
    (samplesPerPixel : Nat) : scheduled? life tracker order threshold samplesPerPixel =
      some (if tracker.isEnabled && adaptiveAllowed life.frameId threshold samplesPerPixel then
        order.filter fun id => threshold < tracker.get id
      else order) := by
  have hframes : Count.div? 16 (max samplesPerPixel 1) = some (16 / max samplesPerPixel 1) :=
    Count.div?_eq _ (by omega)
  unfold scheduled?
  rw [hframes]
  exact (apply_ite some ..).symm

/-- Only a valid description has frames. -/
theorem Lifecycle.desc_of_create {d : BufferDesc} {life : Lifecycle} (h : Lifecycle.create d = .ok life) :
    d.Valid ∧ life.desc = d := by
  unfold Lifecycle.create at h
  cases hv : d.validate with
  | error e =>
    rw [hv] at h
    cases h
  | ok u =>
    rw [hv] at h
    cases h
    exact ⟨BufferDesc.valid_of_validate hv, rfl⟩

namespace SparseBuffer

variable {d : BufferDesc} {s s' : SparseBuffer} {tiles : Array OwnedTile} {id : Nat}

/-! ## The layout -/

/-- An owned tile in memory. -/
def layoutTile (d : BufferDesc) (t : OwnedTile) : TileLayout := ⟨t.id, t.shown, .ofStore d t.store⟩

/-- A sparse buffer in memory. -/
def layout (s : SparseBuffer) : SparseLayout where
  life := s.life
  tiles := s.tiles.map (layoutTile s.desc)
  slots := s.slots
  tracker := s.tracker
  accumIds := s.accumIds
  order := s.taskOrder

/-! ## Tasks -/

theorem tasksPerTile?_eq (hd : d.Valid) : SparseLayout.tasksPerTile? d = some d.tasksPerTile :=
  Point.div?_eq _ hd.task_x_pos hd.task_y_pos

theorem placeInTile?_eq (hd : d.Valid) (id : Nat) :
    SparseLayout.placeInTile? d.tasksPerTile id = some (placeInTile d id) := by
  have hx : 0 < d.tasksPerTile.x := Nat.pos_of_mul_pos_right hd.perTile_pos
  rw [SparseLayout.placeInTile?, Count.mod?_eq _ hd.perTile_pos]
  exact Point.ofRowMajor?_eq _ hx

theorem taskRegion?_eq (hd : d.Valid) (tiles : Array OwnedTile) (id : Nat) :
    SparseLayout.taskRegion? d (tiles.map (layoutTile d)) id = some (taskRegionOf d tiles id) := by
  have htile : id / d.tasksPerTile.area = tileIndexOf d id := rfl
  unfold SparseLayout.taskRegion? taskRegionOf
  rw [tasksPerTile?_eq hd]
  simp only [Count.div?_eq _ hd.perTile_pos, placeInTile?_eq hd, Option.bind_eq_bind, Option.bind_some,
    Array.getElem?_map, htile]
  cases tiles[tileIndexOf d id]? with
  | none => rfl
  | some t => rfl

theorem taskGridPos?_eq (hd : s.desc.Valid) (id : Nat) : s.layout.taskGridPos? id = some (s.taskGridPos id) := by
  have htile : id / s.desc.tasksPerTile.area = tileIndexOf s.desc id := rfl
  have hdesc : s.layout.desc = s.desc := rfl
  unfold SparseLayout.taskGridPos? taskGridPos
  rw [hdesc, tasksPerTile?_eq hd]
  simp only [Count.div?_eq _ hd.perTile_pos, placeInTile?_eq hd, Option.bind_eq_bind, Option.bind_some, layout,
    Array.getElem?_map, htile]
  cases s.tiles[tileIndexOf s.desc id]? with
  | none => rfl
  | some t => rfl

theorem tasksOfTile?_eq (hd : d.Valid) (index : Nat) : SparseLayout.tasksOfTile? d.tasksPerTile index =
    some (ZOrder.sortBy (fun id => ((placeInTile d id).x, (placeInTile d id).y))
      (List.range' (index * d.tasksPerTile.area) d.tasksPerTile.area)) := by
  have hkeyed : (List.range' (index * d.tasksPerTile.area) d.tasksPerTile.area).mapM (fun id => do
      return (id, ← SparseLayout.placeInTile? d.tasksPerTile id)) =
      some ((List.range' (index * d.tasksPerTile.area) d.tasksPerTile.area).map fun id => (id, placeInTile d id)) := by
    refine mapM_eq_some fun id _ => ?_
    rw [placeInTile?_eq hd]
    rfl
  unfold SparseLayout.tasksOfTile?
  rw [hkeyed]
  exact congrArg some (ZOrder.sortBy_map (fun _ => rfl) _ _)

/-- The order that is worked out is that of the tasks. -/
theorem order?_eq (hd : d.Valid) (tiles : Array OwnedTile) :
    SparseLayout.order? d (tiles.map (layoutTile d)) = some (taskOrderOf d tiles) := by
  have hids := mapM_eq_some fun i (_ : i ∈ List.range tiles.size) => tasksOfTile?_eq hd i
  unfold SparseLayout.order? taskOrderOf
  simp only [tasksPerTile?_eq hd, hids, Option.bind_eq_bind, Option.bind_some, Array.size_map, List.flatMap_def]
  refine filterM_eq_some fun id _ => ?_
  rw [taskRegion?_eq hd]
  rfl

theorem schedule?_eq (s : SparseBuffer) (threshold : Float32) (samplesPerPixel : Nat) :
    s.layout.schedule? threshold samplesPerPixel = some (s.schedule threshold samplesPerPixel) := scheduled?_eq ..

/-! ## Choosing tiles -/

/-- Settling tasks one by one settles all of them. -/
theorem foldl_settle {n : Nat} {t : ErrorTracker} (hgrid : t.grid = ⟨n, 1⟩) (settled : Nat → Bool) :
    (List.range n).foldl (fun t id => if settled id then t.update ⟨id, 0⟩ 0 else t) t =
      t.mapErrors fun id e => if settled id then 0 else e := by
  have hinv : ∀ u : ErrorTracker, ∀ id ∈ List.range n, u.grid = t.grid ∧ u.regions = t.regions →
      (if settled id then u.update ⟨id, 0⟩ 0 else u).grid = t.grid ∧
        (if settled id then u.update ⟨id, 0⟩ 0 else u).regions = t.regions := by
    intro u id _ hu
    split <;> exact hu
  obtain ⟨hloop, hboxes⟩ := Writes.inv_foldl (s := t) ⟨rfl, rfl⟩ hinv
  have hsize : ∀ u : ErrorTracker, u.grid = t.grid → u.errors.size = n := by
    intro u hu
    rw [u.size_eq, hu, hgrid, Point.area, Nat.mul_one]
  refine ErrorTracker.ext_get hloop hboxes fun i hi => ?_
  rw [hloop, hgrid, Point.area, Nat.mul_one] at hi
  have hread : ∀ u : ErrorTracker, ∀ id ∈ List.range n, u.grid = t.grid ∧ u.regions = t.regions →
      (if settled id then u.update ⟨id, 0⟩ 0 else u).get i =
        if id = i then (if settled i then 0 else u.get i) else u.get i := by
    intro u id _ hu
    have hplace : (⟨id, 0⟩ : Point).rowMajor u.grid.x = id := by rw [Point.rowMajor, Nat.zero_mul, Nat.zero_add]
    by_cases hid : id = i
    · subst hid
      rw [if_pos rfl]
      split
      · rw [ErrorTracker.get_update, hplace, hsize u hu.1, if_pos ⟨rfl, hi⟩]
      · rfl
    · rw [if_neg hid]
      split
      · rw [ErrorTracker.get_update, hplace, if_neg fun h => hid h.1]
      · rfl
  have hmap : (t.mapErrors fun id e => if settled id then 0 else e).get i = if settled i then 0 else t.get i :=
    t.get_mapErrors _ (by rwa [hsize t rfl])
  refine (Writes.read_foldl_ite (fun u : ErrorTracker => u.get i) (f := fun e => if settled i then 0 else e) ⟨rfl, rfl⟩
    hinv List.nodup_range hread).trans ?_
  rw [if_pos (List.mem_range.2 hi), hmap]

theorem settleEmptyTasks?_eq (hd : d.Valid) (tiles : Array OwnedTile) {n : Nat} {t : ErrorTracker}
    (hgrid : t.isEnabled = true → t.grid = ⟨n, 1⟩) :
    SparseLayout.settleEmptyTasks? d (tiles.map (layoutTile d)) n t = some (settleEmptyTasks d tiles t) := by
  unfold SparseLayout.settleEmptyTasks? settleEmptyTasks
  cases he : t.isEnabled with
  | true =>
    rw [if_pos rfl, ← foldl_settle (hgrid he)]
    refine foldlM_eq_some (R := id) (I := fun u : ErrorTracker => u.grid = ⟨n, 1⟩) (hgrid he) fun u id hid hu => ?_
    have hin : id < u.grid.x ∧ 0 < u.grid.y := by
      rw [hu]
      exact ⟨List.mem_range.1 hid, Nat.one_pos⟩
    rw [taskRegion?_eq hd]
    show (if (taskRegionOf d tiles id).isEmpty then u.update? ⟨id, 0⟩ 0 else some u) = some (if _ then _ else _) ∧
      ErrorTracker.grid (if _ then _ else _) = _
    split
    · exact ⟨ErrorTracker.update?_eq (fun _ => hin) 0, hu⟩
    · exact ⟨rfl, hu⟩
  | false =>
    obtain ⟨grid, errors, regions, size_eq⟩ := t
    have hempty : errors = #[] := by simpa [ErrorTracker.isEnabled] using he
    subst hempty
    rfl

/-- The tiles taken so far and the places of all tiles, in memory. -/
def layoutOwned (d : BufferDesc) (owned : Array OwnedTile × Array (Option Nat)) :
    Array TileLayout × Array (Option Nat) := (owned.1.map (layoutTile d), owned.2)

theorem layoutTile_fresh (d : BufferDesc) (id : Nat) : layoutTile d (freshTile d id) =
    ⟨id, .blank (Tiling.tileRegion d.size id) 0,
      if d.has .accum then Array.replicate (Tiling.tileRegion d.size id).area .zero else #[],
      if d.has .variance then Array.replicate (Tiling.tileRegion d.size id).area .zero else #[]⟩ := by
  have hshown : (freshTile d id).shown = .blank (Tiling.tileRegion d.size id) 0 := by
    have hcells : ((Raster.fill (Tiling.tileRegion d.size id) Pixel.blank).map Pixel.shown) =
        .fill (Tiling.tileRegion d.size id) Sample.blank := Raster.ext_cells rfl Array.map_replicate
    unfold OwnedTile.shown freshTile Tile.blank
    rw [hcells]
  have hmeans : Means.ofStore d (freshTile d id).store =
      ⟨if d.has .accum then Array.replicate (Tiling.tileRegion d.size id).area .zero else #[],
        if d.has .variance then Array.replicate (Tiling.tileRegion d.size id).area .zero else #[]⟩ := by
    unfold Means.ofStore freshTile
    rw [Raster.plane_fill, Raster.plane_fill]
    rfl
  rw [layoutTile, hshown, hmeans]
  rfl

theorem own?_eq (hd : d.Valid) {owned : Array OwnedTile × Array (Option Nat)}
    (hslots : owned.2.size = (Tiling.tileCount d.size).area) (id : Nat) :
    SparseLayout.own? d (layoutOwned d owned) id = some (layoutOwned d (own d owned id)) ∧
      (own d owned id).2.size = (Tiling.tileCount d.size).area := by
  obtain ⟨tiles, slots⟩ := owned
  have hslots : slots.size = (Tiling.tileCount d.size).area := hslots
  have hwidth : 0 < (Tiling.tileCount d.size).x := by
    rw [Tiling.tileCount, Point.ceilDiv_x, lt_ceilDiv_iff (by decide), Nat.zero_mul]
    exact hd.size_x
  unfold SparseLayout.own? own layoutOwned
  dsimp only
  split
  · rename_i hout
    have hnone : slots[id]? = none := Array.getElem?_eq_none (hslots ▸ hout)
    rw [hnone]
    exact ⟨rfl, hslots⟩
  · rename_i hin
    have hlt : id < slots.size := by omega
    rw [Array.getElem?_eq_getElem hlt]
    cases slots[id] with
    | some k => exact ⟨rfl, hslots⟩
    | none =>
      refine ⟨?_, (Array.size_setIfInBounds ..).trans hslots⟩
      have hregion := Tiling.tileRegion?_eq id hwidth
      have hwrite := Span.write?_whole hlt (some tiles.size)
      have hfresh : (⟨id, 0, .fill (Tiling.tileRegion d.size id) .blank⟩ : OwnedTile) = freshTile d id := rfl
      rw [hfresh, Array.map_push, layoutTile_fresh]
      simp only [Option.bind_eq_bind, Option.bind_some, hregion, Array.size_map, hwrite]
      rfl

/-- Choosing tiles anew gives the layout of the chosen tiles, whatever was there before. -/
theorem setTiles?_eq {l : SparseLayout} (hd : s.desc.Valid) (hlife : l.life = s.life)
    (hslots : l.slots.size = (Tiling.tileCount s.desc.size).area) (ids : List Nat) :
    l.setTiles? ids = some (s.setTiles ids).layout := by
  have hdesc : l.desc = s.desc := congrArg Lifecycle.desc hlife
  have hnone : (#[], Array.replicate l.slots.size none) =
      layoutOwned s.desc (#[], Array.replicate (Tiling.tileCount s.desc.size).area none) := by
    rw [layoutOwned, Array.map_empty, hslots]
  rcases hchosen : ids.foldl (own s.desc) (#[], Array.replicate (Tiling.tileCount s.desc.size).area none) with
    ⟨tiles, slots⟩
  have howned : ids.foldlM (SparseLayout.own? s.desc) (#[], Array.replicate l.slots.size none) =
      some (tiles.map (layoutTile s.desc), slots) := by
    rw [hnone]
    refine (foldlM_eq_some
      (I := fun owned : Array OwnedTile × Array (Option Nat) => owned.2.size = (Tiling.tileCount s.desc.size).area)
      Array.size_replicate fun owned id _ h => own?_eq hd h id).trans ?_
    rw [hchosen]
    rfl
  have hplain : s.setTiles ids = { s with
      tiles, slots
      tracker := settleEmptyTasks s.desc tiles
        (if s.desc.has .variance then .fresh ⟨tiles.size * s.desc.tasksPerTile.area, 1⟩ else .disabled)
      accumIds := Array.replicate (tiles.size * s.desc.tasksPerTile.area) 0 } := by
    unfold setTiles
    dsimp only
    rw [hchosen]
  have hsettle : SparseLayout.settleEmptyTasks? s.desc (tiles.map (layoutTile s.desc))
      (tiles.size * s.desc.tasksPerTile.area)
      (if s.desc.has .variance then .fresh ⟨tiles.size * s.desc.tasksPerTile.area, 1⟩ else .disabled) =
      some (settleEmptyTasks s.desc tiles
        (if s.desc.has .variance then .fresh ⟨tiles.size * s.desc.tasksPerTile.area, 1⟩ else .disabled)) := by
    refine settleEmptyTasks?_eq hd tiles fun he => ?_
    split
    · rfl
    · rename_i hv
      rw [if_neg hv] at he
      cases he
  unfold SparseLayout.setTiles?
  rw [hdesc, hplain]
  simp only [howned, tasksPerTile?_eq hd, hsettle, order?_eq hd, Option.bind_eq_bind, Option.bind_some, Array.size_map]
  rw [hlife]
  rfl

/-- A description that is refused for a buffer is refused for a layout. -/
theorem create?_eq (d : BufferDesc) (ids : List Nat) :
    SparseLayout.create? d ids = (create d ids).map fun s => some s.layout := by
  unfold SparseLayout.create? create
  cases hlife : Lifecycle.create d with
  | error e => rfl
  | ok life =>
    obtain ⟨hd, rfl⟩ := Lifecycle.desc_of_create hlife
    exact congrArg Except.ok
      (setTiles?_eq (s := ⟨life, #[], #[], .disabled, #[]⟩) hd rfl Array.size_replicate ids)

/-! ## Places -/

/-- The buffer owns its tiles, and the places that tile numbers stand for are places of owned tiles. -/
structure Placed (s : SparseBuffer) : Prop where
  owns : Owns s.tileIds s
  slots : s.slots.size = (Tiling.tileCount s.desc.size).area
  place : ∀ id k : Nat, s.slots[id]? = some (some k) → k < s.tiles.size

theorem placed_setTiles (hd : s.desc.Valid) (ids : List Nat) : Placed (s.setTiles ids) := by
  have hindexed := indexed_setTiles s ids
  refine ⟨owns_tileIds_setTiles s hd ids, hindexed.size, fun id k hk => ?_⟩
  have hlt := (List.getElem?_eq_some_iff.1 ((hindexed.slot_iff id k).1 hk)).1
  simpa [tileIds] using hlt

theorem Placed.keep (h : Placed s) (hs : SameTasks s s') (hids : s'.tileIds = s.tileIds) : Placed s' := by
  have hsize : s'.tiles.size = s.tiles.size := by
    have hlen := congrArg List.length hs.regions
    simpa using hlen
  refine ⟨hids ▸ hs.owns h.owns, ?_, ?_⟩
  · rw [hs.slots, hs.desc]
    exact h.slots
  · rw [hs.slots, hsize]
    exact h.place

theorem Placed.step (h : Placed s) (hs : Step s s') : Placed s' := by
  rcases hs.choice with ⟨ids, rfl⟩ | ⟨hsame, hids⟩
  · exact placed_setTiles h.owns.valid ids
  · exact h.keep hsame hids

theorem Reachable.placed (h : Reachable s) : Placed s := by
  induction h with
  | create h =>
    obtain ⟨hd, rfl⟩ := eq_of_create h
    refine placed_setTiles ?_ _
    exact hd
  | step _ hs ih => exact ih.step hs

end SparseBuffer

end AdaptiveFrame
