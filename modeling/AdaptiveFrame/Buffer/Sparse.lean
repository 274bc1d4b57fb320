import AdaptiveFrame.Accum.Pixel
import AdaptiveFrame.Buffer.Contract
import AdaptiveFrame.Grid.ZOrder

/-!
# Sparse frame buffers

A sparse buffer holds a chosen set of the image's tiles. Its tasks are numbered within the owned
tiles: task `i` lies in the owned tile `i / n` at the row-major place `i % n` in it, where `n` is the
number of tasks in a tile. Errors are kept by task id and never refined, since neighboring ids lie in
unrelated parts of the image; whoever composes the tiles refines them. A sparse buffer cannot be read
by channel and runs no frame operations.
-/

namespace AdaptiveFrame

/-- A tile that a sparse buffer stores (`SparseTile`). -/
structure OwnedTile where
  id : Nat
  accumId : Int
  store : Store

namespace OwnedTile

def region (t : OwnedTile) : Region := t.store.region

/-- Cell of the tile grid that the tile fills. -/
def cell (t : OwnedTile) : Point := Tiling.cellOf t.region.lower

/-- First pixel of the cell (`tile_origin`). -/
def origin (t : OwnedTile) : Point := t.cell * .square tileSize

/-- Changes the pixels of the tile. -/
def mapStore (f : Store → Store) : OwnedTile → OwnedTile
  | ⟨id, accumId, store⟩ => ⟨id, accumId, f store⟩

/-- The samples that are shown. -/
def shown (t : OwnedTile) : Tile := ⟨t.store.map Pixel.shown, t.accumId⟩

end OwnedTile

/-- A buffer that holds some tiles of an image (`SparseFrameBuffer`). -/
structure SparseBuffer where
  life : Lifecycle
  tiles : Array OwnedTile
  /-- By tile number, the place among the owned tiles (`tile_lookup`). -/
  slots : Array (Option Nat)
  /-- Errors on a grid of one row, by local task id. -/
  tracker : ErrorTracker
  /-- Samples received so far, by local task id. -/
  accumIds : Array Int

namespace SparseBuffer

/-! ## Tasks -/

def desc (b : SparseBuffer) : BufferDesc := b.life.desc

/-- Position of a task inside its tile, on the grid of the tile's tasks. -/
def placeInTile (d : BufferDesc) (taskId : Nat) : Point :=
  .ofRowMajor d.tasksPerTile.x (taskId % d.tasksPerTile.area)

/-- Place among the owned tiles of the tile that holds a task (`tile_index_for_task`). -/
def tileIndexOf (d : BufferDesc) (taskId : Nat) : Nat := taskId / d.tasksPerTile.area

/-- Pixels of a task inside the image; none for a task of no owned tile (`local_task_region`). -/
def taskRegionOf (d : BufferDesc) (tiles : Array OwnedTile) (taskId : Nat) : Region :=
  match tiles[tileIndexOf d taskId]? with
  | some t =>
    let lower := t.origin + placeInTile d taskId * d.taskSize
    Region.intersect ⟨lower, lower + d.taskSize⟩ t.region
  | none => ⟨.zero, .zero⟩

/-- Position of a task on the task grid of the image (`task_grid_pos`). -/
def taskGridPos (b : SparseBuffer) (taskId : Nat) : Point :=
  let cell := match b.tiles[tileIndexOf b.desc taskId]? with
    | some t => t.cell
    | none => .zero
  cell * b.desc.tasksPerTile + placeInTile b.desc taskId

def taskAccumId (b : SparseBuffer) (taskId : Nat) : Int := (b.accumIds[taskId]?).getD 0

def taskError (b : SparseBuffer) (taskId : Nat) : Float32 := b.tracker.get taskId

/-- What a renderer is told about a task (`task_desc`). -/
def task (b : SparseBuffer) (taskId : Nat) : RenderTask :=
  { id := taskId
    tileIndex := tileIndexOf b.desc taskId
    region := taskRegionOf b.desc b.tiles taskId
    accumId := b.taskAccumId taskId }

/-- Extent of the grid of local tasks (`num_render_tasks`). -/
def grid (b : SparseBuffer) : Point := ⟨b.tiles.size * b.desc.tasksPerTile.x, b.desc.tasksPerTile.y⟩

/-- Numbers of the owned tiles (`tile_ids`). -/
def tileIds (b : SparseBuffer) : List Nat := b.tiles.toList.map OwnedTile.id

/-- The tasks of the owned tiles that have pixels, tile after tile and along the Z-order curve in each
(`render_task_ids` in `set_tiles`). -/
def taskOrderOf (d : BufferDesc) (tiles : Array OwnedTile) : List Nat :=
  let perTile := d.tasksPerTile.area
  let place (id : Nat) : Nat × Nat := let p := placeInTile d id; (p.x, p.y)
  ((List.range tiles.size).flatMap fun i => ZOrder.sortBy place (List.range' (i * perTile) perTile)).filter
    fun id => !(taskRegionOf d tiles id).isEmpty

/-- Tasks that have pixels in the image, in the order in which they are scheduled. -/
def taskOrder (b : SparseBuffer) : List Nat := taskOrderOf b.desc b.tiles

/-- Tasks to render: those whose error exceeds the threshold once tasks may be dropped, all before
(`render_task_ids`). -/
def schedule (b : SparseBuffer) (threshold : Float32) (samplesPerPixel : Nat) : List Nat :=
  if b.tracker.isEnabled && adaptiveAllowed b.life.frameId threshold samplesPerPixel then
    b.taskOrder.filter fun id => threshold < b.tracker.get id
  else b.taskOrder

/-! ## Choosing tiles -/

/-- Tasks wholly outside the image never render, so they count as converged (`reset_empty_task_errors`). -/
def settleEmptyTasks (d : BufferDesc) (tiles : Array OwnedTile) (tracker : ErrorTracker) : ErrorTracker :=
  tracker.mapErrors fun id e => if (taskRegionOf d tiles id).isEmpty then 0 else e

/-- Takes a tile, if the image has it and it is not owned yet (`set_tiles`, the loop over the list). -/
def own (d : BufferDesc) (owned : Array OwnedTile × Array (Option Nat)) (id : Nat) :
    Array OwnedTile × Array (Option Nat) :=
  let (tiles, slots) := owned
  match slots[id]? with
  | some none =>
    (tiles.push ⟨id, 0, .fill (Tiling.tileRegion d.size id) .blank⟩, slots.setIfInBounds id (some tiles.size))
  | _ => (tiles, slots)

/-- Replaces the owned tiles (`set_tiles`). Stored pixels, errors and sample counts start anew; the frame number, the
frame's error and the image operations stay. -/
def setTiles (b : SparseBuffer) (ids : List Nat) : SparseBuffer :=
  let d := b.desc
  let (tiles, slots) := ids.foldl (own d) (#[], Array.replicate (Tiling.tileCount d.size).area none)
  let taskCount := tiles.size * d.tasksPerTile.area
  let tracker := if d.has .variance then .fresh ⟨taskCount, 1⟩ else .disabled
  { b with
    tiles, slots
    tracker := settleEmptyTasks d tiles tracker
    accumIds := Array.replicate taskCount 0 }

/-- A new buffer that owns tiles (`new`). -/
def create (d : BufferDesc) (ids : List Nat) : Except FrameError SparseBuffer := do
  let life ← Lifecycle.create d
  return setTiles ⟨life, #[], #[], .disabled, #[]⟩ ids

/-- The numbers of a list that are numbers of tiles, as words count these (`total` in `set_tiles`). -/
def inRangeWord (d : BufferDesc) (ids : List Nat) : List Nat :=
  ids.filter fun id => id < (Tiling.tileTotalWord d.size).toNat

/-- Replaces the owned tiles, which are looked for among those that a word counts. -/
def setTilesWord (b : SparseBuffer) (ids : List Nat) : SparseBuffer := b.setTiles (inRangeWord b.desc ids)

/-- A new buffer that owns tiles, which are looked for among those that a word counts. -/
def createWord (d : BufferDesc) (ids : List Nat) : Except FrameError SparseBuffer := create d (inRangeWord d ids)

/-- Number of tasks of the owned tiles as a word (`total_tasks` in `set_tiles`). -/
def taskTotalWord (b : SparseBuffer) : UInt32 :=
  .ofNat b.tiles.size * (.ofNat b.desc.tasksPerTile.x * .ofNat b.desc.tasksPerTile.y)

/-! ## Overrides -/

/-- Replaces the error of a task, as known elsewhere (`set_task_error`). -/
def setTaskError (b : SparseBuffer) (taskId : Nat) (error : Float32) : SparseBuffer :=
  if taskId < b.accumIds.size then { b with tracker := b.tracker.update ⟨taskId, 0⟩ error } else b

/-- Replaces the sample count of a task, as known elsewhere (`set_task_accum_id`). -/
def setTaskAccumId (b : SparseBuffer) (taskId : Nat) (accumId : Int) : SparseBuffer :=
  { b with accumIds := b.accumIds.setIfInBounds taskId accumId }

/-! ## Folding tiles -/

/-- The pixels of the owned tile at a place, none if there is no such tile. -/
def storeAt (tiles : Array OwnedTile) (index : Nat) : Store :=
  match tiles[index]? with
  | some t => t.store
  | none => .fill ⟨.zero, .zero⟩ .blank

/-- Folds the part of a tile inside the owned tile at a place, which fills a region (`accumulate_owned`). -/
def absorbAt (b : SparseBuffer) (index : Nat) (region : Region) (t : Tile) : SparseBuffer × Tile :=
  match b with
  | ⟨life, tiles, slots, tracker, accumIds⟩ =>
    let d := life.desc
    let part := t.region.intersect region
    if part.isEmpty then (⟨life, tiles, slots, tracker, accumIds⟩, t)
    else
      let rule := FoldRule.sparse d
      let origin := Tiling.cellOf region.lower * .square tileSize
      let tasks := (Tiling.tasksOver d.taskSize (part.relativeTo origin)).points
      let localId (pos : Point) : Nat := index * d.tasksPerTile.area + pos.rowMajor d.tasksPerTile.x
      let tiles := tiles.modify index (OwnedTile.mapStore (·.foldTile rule t))
      let store := storeAt tiles index
      let folded := store.reflectTile rule t
      let tracker :=
        if rule.updatesError t.accumId then
          tasks.foldl (fun tr pos =>
            let lower := origin + pos * d.taskSize
            tr.update ⟨localId pos, 0⟩ (store.meanError ⟨lower, lower + d.taskSize⟩)) tracker
        else tracker
      let accumIds := tasks.foldl (fun ids pos => ids.setIfInBounds (localId pos) (t.accumId + 1)) accumIds
      let recolored := life.pipeline.recolor folded
      let tiles := tiles.modify index (OwnedTile.mapStore (·.showColors recolored))
      (⟨life.addRendered part.area, tiles, slots, tracker, accumIds⟩, recolored)

/-- Row-major number of the cell of a tile. -/
def cellId (b : SparseBuffer) (t : Tile) : Nat := t.cell.rowMajor (Tiling.tileCount b.desc.size).x

/-- Place and region of the owned tile with a number (`tile_lookup` in `try_accumulate`). -/
def ownedAt? (b : SparseBuffer) (number : Nat) : Option (Nat × Region) :=
  match (b.slots[number]?).join with
  | some index => (b.tiles[index]?).map fun owned => (index, owned.region)
  | none => none

/-- Place and region of the owned tile that a tile belongs to. -/
def owner? (b : SparseBuffer) (t : Tile) : Option (Nat × Region) := b.ownedAt? (b.cellId t)

/-- Number of the cell of a tile as a word (`tile_id` in `try_accumulate`). -/
def cellWord (b : SparseBuffer) (t : Tile) : UInt32 :=
  .ofNat t.cell.y * Tiling.columnsWord b.desc.size + .ofNat t.cell.x

/-- Folds a tile whose cell is owned (`try_accumulate`). Cells are looked up by their number as a word. -/
def tryAccumulate (b : SparseBuffer) (t : Tile) : Except FrameError (SparseBuffer × Tile) :=
  match b.ownedAt? (b.cellWord t).toNat with
  | some (index, region) => .ok (b.absorbAt index region t)
  | none => .error (.tileNotOwned (b.cellWord t).toNat)

/-- Folds a tile; one that is not owned is skipped (`accumulate`). -/
def accumulate (b : SparseBuffer) (t : Tile) : SparseBuffer × Tile :=
  match b.owner? t with
  | some (index, region) => b.absorbAt index region t
  | none => (b, t)

/-- Folds a batch of tiles in order (`accumulate_tiles`). -/
def accumulateAll (b : SparseBuffer) (tiles : List Tile) : SparseBuffer :=
  tiles.foldl (fun b t => (b.accumulate t).1) b

/-! ## Frames -/

/-- Checks the attached operations and puts the pixel operations to work (`commit`). -/
def commit (b : SparseBuffer) : Except FrameError SparseBuffer := do
  return { b with life := ← b.life.commit false }

/-- Opens a frame, whose number the owned tiles take over (`begin_frame`). -/
def beginFrame (b : SparseBuffer) : SparseBuffer :=
  let life := b.life.beginFrame
  { b with life, tiles := b.tiles.map fun t => { t with accumId := life.frameId } }

/-- The largest of a list of errors, infinite if there is none. -/
def largestError : List Float32 → Float32
  | [] => Binary32.posInf
  | e :: es => es.foldl Binary32.maxNum e

/-- Closes a frame without refining: the errors stay, and the largest one becomes the error of the frame
(`end_frame`). -/
def endFrame (b : SparseBuffer) : SparseBuffer :=
  if b.tracker.isEnabled then
    { b with life := { b.life with variance := largestError (b.taskOrder.map b.tracker.get) } }
  else b

/-- Forgets frames, errors and sample counts (`clear`). Pixels are overwritten by the first samples that follow. -/
def clear (b : SparseBuffer) : SparseBuffer :=
  { b with
    life := b.life.clear
    tracker := settleEmptyTasks b.desc b.tiles b.tracker.clear
    accumIds := Array.replicate b.accumIds.size 0
    tiles := b.tiles.map fun t => { t with accumId := 0 } }

instance : FrameBuffer SparseBuffer where
  life := SparseBuffer.life
  setLife b life := { b with life }
  commit := commit
  beginFrame := beginFrame
  grid := grid
  task := task
  schedule := schedule
  taskError := taskError
  taskAccumId := taskAccumId
  accumulate := accumulate
  accumulateAll := accumulateAll
  endFrame b _ := b.endFrame
  postProcess b := b
  clear := clear
  channel? _ _ := none

/-- The buffer on one line. -/
def describe (b : SparseBuffer) : String :=
  "SparseFrameBuffer \x7b size: " ++ FrameError.extentText b.desc.size ++ ", tiles: ["
    ++ ", ".intercalate (b.tileIds.map toString) ++ "], frame_id: " ++ toString b.life.frameId ++ " \x7d"

end SparseBuffer

end AdaptiveFrame
