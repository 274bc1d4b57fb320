import AdaptiveFrame.Accum.Pixel
import AdaptiveFrame.Buffer.Contract
import AdaptiveFrame.Grid.ZOrder

/-!
# Dense frame buffers

A dense buffer holds every pixel of the image. Render tasks are numbered row by row over the image and
scheduled along a Z-order curve of their first pixels. Folding a tile blends it into the stored
pixels, renews the errors of the tasks it touches, and shows its color after the pixel operations.
Frame operations work on a copy of the color, so their output never enters a later frame.
-/

namespace AdaptiveFrame

/-- A buffer that holds every pixel of an image (`LocalFrameBuffer`). -/
structure DenseBuffer where
  life : Lifecycle
  /-- The pixels of the image. -/
  pixels : Store
  /-- Display-encoded color, for the formats that have one. -/
  display : Option (Raster Rgba8)
  /-- What the frame operations made of the last frame, while there are any. -/
  output : Option (Raster Vec4)
  tracker : ErrorTracker
  /-- Samples received so far, by task. -/
  accumIds : Array Int

namespace DenseBuffer

/-! ## Tasks -/

/-- Extent of the task grid of an image (`num_tasks` in `with_desc`). -/
def gridOf (d : BufferDesc) : Point := d.size.ceilDiv d.taskSize

/-- Pixels of a task inside the image (`task_region`). -/
def taskRegionOf (d : BufferDesc) (taskId : Nat) : Region :=
  let block := Tiling.blockRegion d.taskSize (.ofRowMajor (gridOf d).x taskId)
  ⟨block.lower, min block.upper d.size⟩

/-- The tasks of an image along the Z-order curve of their first pixels (`render_task_ids` in `with_desc`). -/
def taskOrderOf (d : BufferDesc) : List Nat :=
  ZOrder.sortBy (fun id => let p := (taskRegionOf d id).lower; (p.x, p.y)) (List.range (gridOf d).area)

/-- Number of tasks of an image as a word (`total_tasks` in `with_desc`). -/
def taskTotalWord (d : BufferDesc) : UInt32 :=
  Tiling.ceilDivWord d.size.x d.taskSize.x * Tiling.ceilDivWord d.size.y d.taskSize.y

/-- The tasks that a word counts, along the Z-order curve of their first pixels. -/
def taskOrderWord (d : BufferDesc) : List Nat :=
  ZOrder.sortBy (fun id => let p := (taskRegionOf d id).lower; (p.x, p.y)) (List.range (taskTotalWord d).toNat)

/-- A new buffer (`with_desc`). -/
def create (d : BufferDesc) : Except FrameError DenseBuffer := do
  let life ← Lifecycle.create d
  return {
    life
    pixels := .fill d.image .blank
    display := if d.hasEncodedColor then some (.fill d.image ⟨0, 0, 0, 0⟩) else none
    output := none
    tracker := if d.has .variance then .fresh (gridOf d) else .disabled
    accumIds := Array.replicate (gridOf d).area 0 }

def desc (b : DenseBuffer) : BufferDesc := b.life.desc

def grid (b : DenseBuffer) : Point := gridOf b.desc

/-- All tasks in the order in which they are scheduled. -/
def taskOrder (b : DenseBuffer) : List Nat := taskOrderOf b.desc

/-- The task at a position of the task grid (`task_id_at`). -/
def taskIdAt? (b : DenseBuffer) (pos : Point) : Option Nat :=
  if pos.x < b.grid.x && pos.y < b.grid.y then some (pos.rowMajor b.grid.x) else none

def taskAccumId (b : DenseBuffer) (taskId : Nat) : Int := (b.accumIds[taskId]?).getD 0

/-- What a renderer is told about a task (`task_desc`). -/
def task (b : DenseBuffer) (taskId : Nat) : RenderTask :=
  let region := taskRegionOf b.desc taskId
  { id := taskId
    tileIndex := (Tiling.cellOf region.lower).rowMajor (Tiling.tileCount b.desc.size).x
    region
    accumId := b.taskAccumId taskId }

/-- Tasks to render: those whose error exceeds the threshold once tasks may be dropped, all before
(`render_task_ids`). -/
def schedule (b : DenseBuffer) (threshold : Float32) (samplesPerPixel : Nat) : List Nat :=
  if b.tracker.isEnabled && adaptiveAllowed b.life.frameId threshold samplesPerPixel then
    b.taskOrder.filter fun id => threshold < b.tracker.get id
  else b.taskOrder

/-! ## Folding tiles -/

/-- Renews the errors of tasks from the stored means (`BandMut::accumulate`, the errors of `tasks_in_region`). -/
def renewErrors (d : BufferDesc) (pixels : Store) (tasks : List Point) (tracker : ErrorTracker) : ErrorTracker :=
  tasks.foldl (fun t pos => t.update pos (pixels.meanError (Tiling.blockRegion d.taskSize pos))) tracker

/-- Notes the number of samples that tasks have received (`task_accum_ids` there). -/
def noteAccumIds (grid : Point) (tasks : List Point) (accumId : Int) (accumIds : Array Int) : Array Int :=
  tasks.foldl (fun ids pos => ids.setIfInBounds (pos.rowMajor grid.x) accumId) accumIds

/-- Encodes the colors of a tile for display (`encode_into` there). -/
def encodeTile (format : ColorFormat) (t : Tile) (display : Option (Raster Rgba8)) : Option (Raster Rgba8) :=
  match Color.encoding? format, display with
  | some encode, some shown => some (shown.modifyOn t.region fun p _ => encode (t.sampleAt p).color)
  | _, display => display

/-- Folds the part of a tile inside the image (`BandMut::accumulate`). -/
def absorb (b : DenseBuffer) (t : Tile) : DenseBuffer × Tile :=
  match b with
  | ⟨life, pixels, display, output, tracker, accumIds⟩ =>
    let d := life.desc
    let part := t.region.intersect d.image
    if part.isEmpty then (⟨life, pixels, display, output, tracker, accumIds⟩, t)
    else
      let rule := FoldRule.dense d
      let tasks := (Tiling.tasksOver d.taskSize part).points
      let pixels := pixels.foldTile rule t
      let folded := pixels.reflectTile rule t
      let tracker := if rule.updatesError t.accumId then renewErrors d pixels tasks tracker else tracker
      let accumIds := noteAccumIds (gridOf d) tasks (t.accumId + 1) accumIds
      let recolored := life.pipeline.recolor folded
      let pixels := pixels.showColors recolored
      let display := encodeTile d.format recolored display
      (⟨life, pixels, display, output, tracker, accumIds⟩, recolored)

def addRendered (b : DenseBuffer) (pixels : Nat) : DenseBuffer := { b with life := b.life.addRendered pixels }

/-- Folds one tile; a tile that crosses a tile cell is skipped. All pixels of the tile count as rendered
(`accumulate`). -/
def accumulate (b : DenseBuffer) (t : Tile) : DenseBuffer × Tile :=
  if t.fitsCell then
    let (b, left) := b.absorb t
    (b.addRendered t.region.area, left)
  else (b, t)

/-- The tiles whose cell lies in a row of tile cells, in their order (`band_index`). -/
def band (tiles : List Tile) (row : Nat) : List Tile := tiles.filter fun t => t.fitsCell && t.cell.y == row

/-- Folds a batch of tiles, one row of tile cells after another (`accumulate_tiles`). -/
def accumulateAll (b : DenseBuffer) (tiles : List Tile) : DenseBuffer :=
  let rendered := ((tiles.filter Tile.fitsCell).map fun t => t.region.area).foldr (· + ·) 0
  let rows := List.range (Tiling.tileCount b.desc.size).y
  let b := rows.foldl (fun b row => (band tiles row).foldl (fun b t => (b.absorb t).1) b) b
  b.addRendered rendered

/-! ## Frames -/

/-- The color of every pixel before frame operations. -/
def color (b : DenseBuffer) : Raster Vec4 := b.pixels.map fun px => px.shown.color

/-- The image as frame operations see it. -/
def frameImage (b : DenseBuffer) : FrameImage :=
  let guide {α : Type} (c : Channel) (read : Sample → α) : Option (Raster α) :=
    if b.desc.has c then some (b.pixels.map fun px => read px.shown) else none
  { color := b.color
    depth := guide .depth Sample.depth
    normal := guide .normal Sample.normal
    albedo := guide .albedo Sample.albedo }

/-- Checks the attached operations and puts them to work (`commit`). The output starts as a copy of the color. -/
def commit (b : DenseBuffer) : Except FrameError DenseBuffer := do
  let life ← b.life.commit true
  let output := if life.pipeline.hasFrameOps then some (b.output.getD b.color) else none
  return { b with life, output }

def beginFrame (b : DenseBuffer) : DenseBuffer := { b with life := b.life.beginFrame }

/-- Runs the frame operations and refines the errors (`end_frame`). -/
def endFrame (b : DenseBuffer) (threshold : Float32) : DenseBuffer :=
  let b :=
    if b.life.pipeline.hasFrameOps && b.desc.hasColor then
      { b with output := some (b.life.pipeline.finish b.frameImage) }
    else b
  if b.tracker.isEnabled then
    let (tracker, variance) := b.tracker.refine threshold
    { b with tracker, life := { b.life with variance } }
  else b

/-- Encodes the output of the frame operations for display (`post_process`). -/
def postProcess (b : DenseBuffer) : DenseBuffer :=
  if b.life.pipeline.hasFrameOps then
    match Color.encoding? b.desc.format, b.display, b.output with
    | some encode, some _, some output => { b with display := some (output.map encode) }
    | _, _, _ => b
  else b

/-- Forgets frames, errors and sample counts (`clear`). Pixels are overwritten by the first samples that follow. -/
def clear (b : DenseBuffer) : DenseBuffer :=
  { b with
    life := b.life.clear
    tracker := b.tracker.clear
    accumIds := Array.replicate b.accumIds.size 0 }

/-! ## Reading channels -/

/-- The color to display: the output of the frame operations while there are any (`color_buffer`). -/
def shownColor (b : DenseBuffer) : Raster Vec4 :=
  if b.life.pipeline.hasFrameOps then b.output.getD b.color else b.color

/-- The values of a channel that the buffer was asked for (`map_buffer`). -/
def channel? (b : DenseBuffer) (c : Channel) : Option ChannelData :=
  let cells {α : Type} (read : Pixel → α) : Array α := b.pixels.cells.map read
  let kept (d : ChannelData) : Option ChannelData := if b.desc.has c then some d else none
  match c with
  | .color =>
    if b.desc.hasColor then
      some (match b.display with
        | some shown => .encoded shown.cells
        | none => .color b.shownColor.cells)
    else none
  | .depth => kept (.depth (cells fun px => px.shown.depth))
  | .accum => kept (.color (cells Pixel.accum))
  | .variance => kept (.color (cells Pixel.oddMean))
  | .normal => kept (.vectors (cells fun px => px.shown.normal))
  | .albedo => kept (.vectors (cells fun px => px.shown.albedo))
  | .primitiveId => kept (.ids (cells fun px => px.shown.ids.primitiveId))
  | .objectId => kept (.ids (cells fun px => px.shown.ids.objectId))
  | .instanceId => kept (.ids (cells fun px => px.shown.ids.instanceId))

instance : FrameBuffer DenseBuffer where
  life := DenseBuffer.life
  setLife b life := { b with life }
  commit := commit
  beginFrame := beginFrame
  grid := grid
  task := task
  schedule := schedule
  taskError b id := b.tracker.get id
  taskAccumId := taskAccumId
  accumulate := accumulate
  accumulateAll := accumulateAll
  endFrame := endFrame
  postProcess := postProcess
  clear := clear
  channel? := channel?

end DenseBuffer

end AdaptiveFrame
