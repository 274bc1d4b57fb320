import AdaptiveFrame.Buffer.Sparse
import AdaptiveFrame.Layout.Planes

/-!
# Sparse buffers in memory

An owned tile stores the samples that are shown, and next to them the means if the buffer keeps them. Its arrays
are numbered from the first pixel of the tile, its tasks from the first pixel of the cell that it fills. The order
of the tasks is worked out once, when tiles are chosen.
-/

namespace AdaptiveFrame

/-- The tasks of an order to render. -/
def scheduled? (life : Lifecycle) (tracker : ErrorTracker) (order : List Nat) (threshold : Float32)
    (samplesPerPixel : Nat) : Option (List Nat) := do
  let frames := max (← Count.div? 16 (max samplesPerPixel 1)) 2
  if tracker.isEnabled && (0 < threshold && (frames : Int) ≤ life.frameId) then
    return order.filter fun id => threshold < tracker.get id
  else return order

/-- An owned tile in memory. -/
structure TileLayout where
  id : Nat
  tile : Tile
  means : Means

/-- A sparse buffer in memory. -/
structure SparseLayout where
  life : Lifecycle
  tiles : Array TileLayout
  slots : Array (Option Nat)
  tracker : ErrorTracker
  accumIds : Array Int
  /-- The tasks that have pixels, in the order in which they are scheduled. -/
  order : List Nat

namespace SparseLayout

def desc (l : SparseLayout) : BufferDesc := l.life.desc

/-! ## Tasks -/

def tasksPerTile? (d : BufferDesc) : Option Point := (Point.square tileSize).div? d.taskSize

/-- Position of a task inside its tile. -/
def placeInTile? (tasksPerTile : Point) (taskId : Nat) : Option Point := do
  Point.ofRowMajor? tasksPerTile.x (← Count.mod? taskId tasksPerTile.area)

/-- Pixels of a task inside the image; none for a task of no owned tile. -/
def taskRegion? (d : BufferDesc) (tiles : Array TileLayout) (taskId : Nat) : Option Region := do
  let tasksPerTile ← tasksPerTile? d
  match tiles[← Count.div? taskId tasksPerTile.area]? with
  | some t =>
    let lower := t.tile.cellOrigin + (← placeInTile? tasksPerTile taskId) * d.taskSize
    return Region.intersect ⟨lower, lower + d.taskSize⟩ t.tile.region
  | none => return ⟨.zero, .zero⟩

/-- Position of a task on the task grid of the image. -/
def taskGridPos? (l : SparseLayout) (taskId : Nat) : Option Point := do
  let tasksPerTile ← tasksPerTile? l.desc
  let cell := match l.tiles[← Count.div? taskId tasksPerTile.area]? with
    | some t => t.tile.cell
    | none => .zero
  return cell * tasksPerTile + (← placeInTile? tasksPerTile taskId)

/-- The tasks of the tile at a place, sorted along the Z-order curve. -/
def tasksOfTile? (tasksPerTile : Point) (index : Nat) : Option (List Nat) := do
  let keyed ← (List.range' (index * tasksPerTile.area) tasksPerTile.area).mapM fun id => do
    return (id, ← placeInTile? tasksPerTile id)
  return (ZOrder.sortBy (fun (_, p) => (p.x, p.y)) keyed).map Prod.fst

def order? (d : BufferDesc) (tiles : Array TileLayout) : Option (List Nat) := do
  let tasksPerTile ← tasksPerTile? d
  let ids ← (List.range tiles.size).mapM (tasksOfTile? tasksPerTile)
  ids.flatten.filterM fun id => do return !(← taskRegion? d tiles id).isEmpty

/-- Tasks to render. -/
def schedule? (l : SparseLayout) (threshold : Float32) (samplesPerPixel : Nat) : Option (List Nat) :=
  scheduled? l.life l.tracker l.order threshold samplesPerPixel

/-! ## Choosing tiles -/

/-- Tasks wholly outside the image count as converged. -/
def settleEmptyTasks? (d : BufferDesc) (tiles : Array TileLayout) (count : Nat) (tracker : ErrorTracker) :
    Option ErrorTracker :=
  if tracker.isEnabled then
    (List.range count).foldlM (fun tracker id => do
      if (← taskRegion? d tiles id).isEmpty then tracker.update? ⟨id, 0⟩ 0 else return tracker) tracker
  else some tracker

/-- Takes a tile, if the image has it and it is not owned yet. -/
def own? (d : BufferDesc) (owned : Array TileLayout × Array (Option Nat)) (id : Nat) :
    Option (Array TileLayout × Array (Option Nat)) :=
  let (tiles, slots) := owned
  if (Tiling.tileCount d.size).area ≤ id then some (tiles, slots)
  else do
    match ← slots[id]? with
    | some _ => return (tiles, slots)
    | none =>
      let region ← Tiling.tileRegion? d.size id
      let kept (c : Channel) : Array Vec4 := if d.has c then Array.replicate region.area .zero else #[]
      let slots ← (Span.whole slots.size).write? slots id (some tiles.size)
      return (tiles.push ⟨id, .blank region 0, kept .accum, kept .variance⟩, slots)

/-- Replaces the owned tiles. -/
def setTiles? (l : SparseLayout) (ids : List Nat) : Option SparseLayout := do
  let d := l.desc
  let (tiles, slots) ← ids.foldlM (own? d) (#[], Array.replicate l.slots.size none)
  let taskCount := tiles.size * (← tasksPerTile? d).area
  let tracker : ErrorTracker := if d.has .variance then .fresh ⟨taskCount, 1⟩ else .disabled
  return { l with
    tiles, slots
    tracker := ← settleEmptyTasks? d tiles taskCount tracker
    accumIds := Array.replicate taskCount 0
    order := ← order? d tiles }

/-- A new buffer. A description that is not valid gives an error. -/
def create? (d : BufferDesc) (ids : List Nat) : Except FrameError (Option SparseLayout) := do
  let life ← Lifecycle.create d
  return setTiles? ⟨life, #[], Array.replicate (Tiling.tileCount d.size).area none, .disabled, #[], []⟩ ids

/-! ## Overrides -/

def setTaskError? (l : SparseLayout) (taskId : Nat) (error : Float32) : Option SparseLayout :=
  if taskId < l.accumIds.size then do return { l with tracker := ← l.tracker.update? ⟨taskId, 0⟩ error }
  else some l

def setTaskAccumId (l : SparseLayout) (taskId : Nat) (accumId : Int) : SparseLayout :=
  { l with accumIds := l.accumIds.setIfInBounds taskId accumId }

/-! ## Folding tiles -/

/-- A sample after the owned tile folded it. -/
def reflect? (rule : FoldRule) (stored : Tile) (means : Means) (k : Int) (p : Point) (s : Sample) : Option Sample := do
  let v : View := .ofRegion stored.region
  let w := rule.weight k
  let old ← stored.sample? p
  return {
    color := ← v.readKept? means.accum p s.color
    depth := Blend.depth old.depth s.depth w
    normal := Blend.lerp3 old.normal s.normal w
    albedo := Blend.lerp3 old.albedo s.albedo w
    ids := if rule.storesIds k then s.ids else old.ids }

/-- A tile after the owned tile folded a part of it. -/
def reflectTile? (rule : FoldRule) (stored : Tile) (means : Means) (part : Region) (t : Tile) : Option Tile :=
  t.mapPoints? fun p s => if part.contains p then reflect? rule stored means t.accumId p s else some s

/-- Number of the task at a place in the owned tile with a number. -/
def localId (tasksPerTile : Point) (index : Nat) (pos : Point) : Nat :=
  index * tasksPerTile.area + pos.rowMajor tasksPerTile.x

/-- Renews the errors of tasks, given by their positions in the tile. -/
def renewErrors? (d : BufferDesc) (region : Region) (means : Means) (number : Point → Nat) (origin : Point)
    (tasks : List Point) (tracker : ErrorTracker) : Option ErrorTracker :=
  tasks.foldlM (fun tracker pos => do
    let lower := origin + pos * d.taskSize
    let part := Region.intersect ⟨lower, lower + d.taskSize⟩ region
    tracker.update? ⟨number pos, 0⟩ (← means.error? (.ofRegion region) part)) tracker

/-- Renews the errors of the tasks that the sample with id `k` was folded into, if it changed the second mean. -/
def updateErrors? (d : BufferDesc) (region : Region) (means : Means) (number : Point → Nat) (origin : Point) (k : Int)
    (tasks : List Point) (tracker : ErrorTracker) : Option ErrorTracker :=
  if !means.oddMean.isEmpty && Blend.isOdd k && tracker.isEnabled then
    renewErrors? d region means number origin tasks tracker
  else some tracker

/-- Notes the number of samples that tasks have received. -/
def noteAccumIds? (number : Point → Nat) (tasks : List Point) (accumId : Int) (accumIds : Array Int) :
    Option (Array Int) :=
  tasks.foldlM (fun ids pos => (Span.whole ids.size).write? ids (number pos) accumId) accumIds

/-- Shows the samples of a part of a tile. -/
def showSamples? (part : Region) (t shown : Tile) : Option Tile :=
  part.points.foldlM (fun shown p => do shown.write? p (← t.sample? p)) shown

/-- Folds the part of a tile inside the owned tile at a place. -/
def absorbAt? (l : SparseLayout) (index : Nat) (t : Tile) : Option (SparseLayout × Tile) := do
  let d := l.desc
  let tasksPerTile ← tasksPerTile? d
  let owned ← l.tiles[index]?
  let region := owned.tile.region
  let part := t.region.intersect region
  if part.isEmpty then return (l, t)
  else
    let rule := FoldRule.sparse d
    let means ← owned.means.foldTile? (.ofRegion region) (rule.weight t.accumId) part t
    let folded ← reflectTile? rule owned.tile means part t
    let origin := owned.tile.cellOrigin
    let tasks ← Tiling.tasksOver? d.taskSize ⟨← part.lower.sub? origin, ← part.upper.sub? origin⟩
    let number := localId tasksPerTile index
    let tracker ← updateErrors? d region means number origin t.accumId tasks.points l.tracker
    let accumIds ← noteAccumIds? number tasks.points (t.accumId + 1) l.accumIds
    let recolored := l.life.pipeline.recolor folded
    let shown ← showSamples? part recolored owned.tile
    let tiles := l.tiles.setIfInBounds index { owned with tile := shown, means }
    return ({ l with life := l.life.addRendered part.area, tiles, tracker, accumIds }, recolored)

/-- Folds a tile; one whose cell is not owned is skipped. -/
def accumulate? (l : SparseLayout) (t : Tile) : Option (SparseLayout × Tile) :=
  match (l.slots[t.cell.rowMajor (Tiling.tileCount l.desc.size).x]?).join with
  | some index => l.absorbAt? index t
  | none => some (l, t)

def accumulateAll? (l : SparseLayout) (tiles : List Tile) : Option SparseLayout :=
  tiles.foldlM (fun l t => do return (← l.accumulate? t).1) l

/-! ## Frames -/

def commit (l : SparseLayout) : Except FrameError SparseLayout := do return { l with life := ← l.life.commit false }

def setAccumIds (tiles : Array TileLayout) (n : Int) : Array TileLayout :=
  tiles.map fun t => { t with tile := { t.tile with accumId := n } }

def beginFrame (l : SparseLayout) : SparseLayout :=
  let life := l.life.beginFrame
  { l with life, tiles := setAccumIds l.tiles life.frameId }

/-- Closes a frame. -/
def endFrame (l : SparseLayout) : SparseLayout :=
  if l.tracker.isEnabled then
    { l with life := { l.life with variance := SparseBuffer.largestError (l.order.map l.tracker.get) } }
  else l

/-- Forgets frames, errors and sample counts. -/
def clear? (l : SparseLayout) : Option SparseLayout := do
  return { l with
    life := l.life.clear
    tracker := ← settleEmptyTasks? l.desc l.tiles l.accumIds.size l.tracker.clear
    accumIds := Array.replicate l.accumIds.size 0
    tiles := setAccumIds l.tiles 0 }

/-- No channel can be read. -/
def channel? (_ : SparseLayout) (_ : Channel) : Option ChannelData := none

end SparseLayout

end AdaptiveFrame
