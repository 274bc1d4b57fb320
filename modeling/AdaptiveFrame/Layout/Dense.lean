import AdaptiveFrame.Buffer.Compose
import AdaptiveFrame.Layout.Filters
import AdaptiveFrame.Layout.Sparse

/-!
# Dense buffers in memory

Every channel of a dense buffer is an array over the image. Tiles are folded into one row of tile cells at a time:
all arrays are cut into pieces of that height first, and pixels and tasks are numbered from the first one of the
piece. A single tile has its piece cut out by the number of its row; for a batch the list of all pieces is made.
-/

namespace AdaptiveFrame

/-- A dense buffer in memory. -/
structure DenseLayout where
  life : Lifecycle
  /-- Extent of the task grid. -/
  grid : Point
  /-- The tasks in the order in which they are scheduled. -/
  order : List Nat
  color : Array Vec4
  /-- What the frame operations made, empty while there are none. -/
  output : Array Vec4
  display : Array Rgba8
  means : Means
  guides : Guides
  tracker : ErrorTracker
  accumIds : Array Int

/-- A row of tile cells, as it lies in the arrays of the pixels and in those of the tasks. -/
structure Band where
  pixels : View
  tasks : View

/-- The row with a number, given how its piece is cut from arrays that are cut into pieces of some length. -/
def Band.ofRow? (d : BufferDesc) (grid : Point) (cut : Nat → Cut) (row : Nat) : Option Band := do
  let taskRows ← Count.div? tileSize d.taskSize.y
  return {
    pixels := .rows (cut (d.size.x * tileSize)) d.size.x (row * tileSize)
    tasks := .rows (cut (grid.x * taskRows)) grid.x (row * taskRows) }

namespace DenseLayout

def desc (l : DenseLayout) : BufferDesc := l.life.desc

/-- Positions of the pixels of an image in its arrays. -/
def imageView (d : BufferDesc) : View := .rows .whole d.size.x 0

/-! ## New buffers -/

/-- The tasks of an image along the Z-order curve of their first pixels. -/
def order? (d : BufferDesc) (grid : Point) : Option (List Nat) := do
  let keyed ← (List.range grid.area).mapM fun id => do
    return (id, (← Point.ofRowMajor? grid.x id) * d.taskSize)
  return (ZOrder.sortBy (fun (_, p) => (p.x, p.y)) keyed).map Prod.fst

/-- A new buffer. A description that is not valid gives an error. -/
def create? (d : BufferDesc) : Except FrameError (Option DenseLayout) := do
  let life ← Lifecycle.create d
  let kept {α : Type} (keep : Bool) (a : α) : Array α := if keep then Array.replicate d.size.area a else #[]
  return do
    let grid ← d.size.ceilDiv? d.taskSize
    return {
      life, grid
      order := ← order? d grid
      color := kept d.hasColor .zero
      output := #[]
      display := kept d.hasEncodedColor ⟨0, 0, 0, 0⟩
      means := ⟨kept (d.has .accum) .zero, kept (d.has .variance) .zero⟩
      guides := {
        depth := kept (d.has .depth) Binary32.posInf
        normal := kept (d.has .normal) .zero
        albedo := kept (d.has .albedo) .zero
        primitiveId := kept (d.has .primitiveId) noId
        objectId := kept (d.has .objectId) noId
        instanceId := kept (d.has .instanceId) noId }
      tracker := if d.has .variance then .fresh grid else .disabled
      accumIds := Array.replicate grid.area 0 }

/-! ## Tasks -/

/-- The task at a position of the task grid. -/
def taskIdAt? (l : DenseLayout) (pos : Point) : Option Nat :=
  if pos.x < l.grid.x && pos.y < l.grid.y then some (pos.rowMajor l.grid.x) else none

/-- Tasks to render. -/
def schedule? (l : DenseLayout) (threshold : Float32) (samplesPerPixel : Nat) : Option (List Nat) :=
  scheduled? l.life l.tracker l.order threshold samplesPerPixel

/-! ## Folding tiles -/

/-- Sizes of the arrays of the channels. -/
def pixelSizes (l : DenseLayout) : List Nat :=
  [l.color.size, l.display.size, l.means.accum.size, l.means.oddMean.size, l.guides.depth.size, l.guides.normal.size,
    l.guides.albedo.size, l.guides.primitiveId.size, l.guides.objectId.size, l.guides.instanceId.size]

/-- Sizes of the arrays of the tasks. -/
def taskSizes (l : DenseLayout) : List Nat := [l.tracker.errors.size, l.accumIds.size]

/-- Cuts all arrays. -/
def cutAll? (l : DenseLayout) (band : Band) : Option (List Span) := do
  return (← l.pixelSizes.mapM band.pixels.cut) ++ (← l.taskSizes.mapM band.tasks.cut)

/-- A sample after it was folded. -/
def reflect? (v : View) (means : Means) (guides : Guides) (p : Point) (s : Sample) : Option Sample := do
  return {
    color := ← v.readKept? means.accum p s.color
    depth := ← v.readKept? guides.depth p s.depth
    normal := ← v.readKept? guides.normal p s.normal
    albedo := ← v.readKept? guides.albedo p s.albedo
    ids := s.ids }

/-- A tile after a part of it was folded. -/
def reflectTile? (v : View) (means : Means) (guides : Guides) (part : Region) (t : Tile) : Option Tile :=
  t.mapPoints? fun p s => if part.contains p then reflect? v means guides p s else some s

/-- Renews the errors of tasks. -/
def renewErrors? (d : BufferDesc) (band : Band) (means : Means) (tasks : List Point) (tracker : ErrorTracker) :
    Option ErrorTracker :=
  tasks.foldlM (fun tracker pos => do
    let lower := pos * d.taskSize
    tracker.write? band.tasks pos (← means.error? band.pixels ⟨lower, min (lower + d.taskSize) d.size⟩)) tracker

/-- Renews the errors of the tasks that the sample with id `k` was folded into, if it changed the second mean. -/
def updateErrors? (d : BufferDesc) (band : Band) (means : Means) (k : Int) (tasks : List Point)
    (tracker : ErrorTracker) : Option ErrorTracker :=
  if !means.oddMean.isEmpty && Blend.isOdd k && !tracker.errors.isEmpty then renewErrors? d band means tasks tracker
  else some tracker

/-- Notes the number of samples that tasks have received. -/
def noteAccumIds? (band : Band) (tasks : List Point) (accumId : Int) (accumIds : Array Int) : Option (Array Int) :=
  tasks.foldlM (fun ids pos => band.tasks.write? ids pos accumId) accumIds

/-- Shows the colors of a part of a tile. -/
def showColors? (format : ColorFormat) (v : View) (part : Region) (t : Tile) (color : Array Vec4)
    (display : Array Rgba8) : Option (Array Vec4 × Array Rgba8) :=
  if color.isEmpty then some (color, display)
  else do
    let color ← part.points.foldlM (fun color p => do v.write? color p (← t.sample? p).color) color
    return (color, ← encodeRows? format v part color display)

/-- Folds the part of a tile inside the image into a band. -/
def absorb? (l : DenseLayout) (band : Band) (t : Tile) : Option (DenseLayout × Tile) :=
  let d := l.desc
  let part := t.region.intersect d.image
  if part.isEmpty then some (l, t)
  else do
    let rule := FoldRule.dense d
    let k := t.accumId
    let means ← l.means.foldTile? band.pixels (rule.weight k) part t
    let guides ← l.guides.foldTile? band.pixels (rule.weight k) (rule.storesIds k) part t
    let folded ← reflectTile? band.pixels means guides part t
    let tasks ← Tiling.tasksOver? d.taskSize part
    let tracker ← updateErrors? d band means k tasks.points l.tracker
    let accumIds ← noteAccumIds? band tasks.points (k + 1) l.accumIds
    let recolored := l.life.pipeline.recolor folded
    let (color, display) ← showColors? d.format band.pixels part recolored l.color l.display
    return ({ l with means, guides, tracker, accumIds, color, display }, recolored)

def addRendered (l : DenseLayout) (pixels : Nat) : DenseLayout := { l with life := l.life.addRendered pixels }

/-- Folds one tile; a tile that crosses a tile cell is skipped. -/
def accumulate? (l : DenseLayout) (t : Tile) : Option (DenseLayout × Tile) := do
  if ← Tiling.fitsCell? t.region then
    let row := t.cell.y
    let band ← Band.ofRow? l.desc l.grid (.piece row) row
    let _ ← l.cutAll? band
    let (l, left) ← l.absorb? band t
    return (l.addRendered t.region.area, left)
  else return (l, t)

/-- Folds the tiles of a batch whose cell lies in a row of tile cells. -/
def absorbRow? (l : DenseLayout) (tiles : List Tile) (count row : Nat) : Option DenseLayout := do
  let band ← Band.ofRow? l.desc l.grid (.chunk count row) row
  let _ ← l.cutAll? band
  (tiles.filter fun t => t.cell.y == row).foldlM (fun l t => do
    if ← Tiling.fitsCell? t.region then return (← l.absorb? band t).1 else return l) l

/-- Folds a batch of tiles, one row of tile cells after another. -/
def accumulateAll? (l : DenseLayout) (tiles : List Tile) : Option DenseLayout :=
  if tiles.isEmpty then some l
  else do
    let fitting ← tiles.filterM fun t => Tiling.fitsCell? t.region
    let count ← l.desc.size.ceilDiv? (.square tileSize)
    let l ← (List.range count.y).foldlM (fun l row => l.absorbRow? tiles count.y row) l
    return l.addRendered ((fitting.map fun t => t.region.area).foldr (· + ·) 0)

/-! ## Composing -/

/-- Copies the colors of a part of a tile. -/
def copyColors? (v : View) (part : Region) (t : Tile) (color : Array Vec4) : Option (Array Vec4) :=
  part.points.foldlM (fun color p => do
    let s ← t.sample? p
    v.modifyKept? color p fun _ => s.color) color

/-- Copies the part of a tile inside the image. -/
def writeTile? (l : DenseLayout) (t : Tile) : Option DenseLayout := do
  let d := l.desc
  let part := t.region.intersect d.image
  if part.isEmpty then return l
  else
    let v := imageView d
    let color ← copyColors? v part t l.color
    let guides ← l.guides.overwriteTile? v part t
    let display ← encodeRows? d.format v part color l.display
    return { l with life := l.life.addRendered part.area, color, guides, display }

def writeTiles? (l : DenseLayout) (tiles : List Tile) : Option DenseLayout := tiles.foldlM writeTile? l

/-- Takes over the error of one task, if both buffers track errors. -/
def takeError? (s : SparseLayout) (l : DenseLayout) (pos : Point) (localId : Nat) : Option ErrorTracker :=
  if l.tracker.isEnabled && s.desc.has .variance then l.tracker.update? pos (s.tracker.get localId) else some l.tracker

/-- Takes over the error and the sample count of one task. -/
def takeTask? (s : SparseLayout) (l : DenseLayout) (localId : Nat) : Option DenseLayout := do
  let pos ← s.taskGridPos? localId
  match l.taskIdAt? pos with
  | some id =>
    let tracker ← takeError? s l pos localId
    let accumIds ← (Span.whole l.accumIds.size).write? l.accumIds id ((s.accumIds[localId]?).getD 0)
    return { l with tracker, accumIds }
  | none => return l

/-- Takes over the tiles of a sparse buffer with the state of their tasks. -/
def writeSparse? (l : DenseLayout) (s : SparseLayout) : Except FrameError (Option DenseLayout) :=
  if l.desc.taskSize = s.desc.taskSize then .ok do
    s.order.foldlM (takeTask? s) (← l.writeTiles? (s.tiles.toList.map TileLayout.tile))
  else .error (.mismatchedTaskSize l.desc.taskSize s.desc.taskSize)

/-! ## Frames -/

/-- Puts the attached operations to work. The output is made anew unless it has the right size already. -/
def commit (l : DenseLayout) : Except FrameError DenseLayout := do
  let life ← l.life.commit true
  let output :=
    if life.pipeline.hasFrameOps then (if l.output.size != l.color.size then l.color else l.output) else #[]
  return { l with life, output }

def beginFrame (l : DenseLayout) : DenseLayout := { l with life := l.life.beginFrame }

/-- The arrays that frame operations work on. -/
def looseFrame (l : DenseLayout) : LooseFrame :=
  let lent {α : Type} (xs : Array α) : Option (Array α) := if xs.isEmpty then none else some xs
  ⟨l.desc.size, l.color, lent l.guides.depth, lent l.guides.normal, lent l.guides.albedo⟩

/-- Runs the frame operations on a copy of the color. -/
def finish? (l : DenseLayout) : Option (Array Vec4) :=
  if l.life.pipeline.hasFrameOps && !l.color.isEmpty then
    (l.looseFrame.processAll? l.life.pipeline.frameOps).map LooseFrame.color
  else some l.output

/-- Runs the frame operations and refines the errors. -/
def endFrame? (l : DenseLayout) (threshold : Float32) : Option DenseLayout := do
  let output ← l.finish?
  if l.tracker.isEnabled then
    let (tracker, variance) ← l.tracker.refine? threshold
    return { l with output, tracker, life := { l.life with variance } }
  else return { l with output }

/-- Encodes the output of the frame operations, row by row. -/
def postProcess? (l : DenseLayout) : Option DenseLayout :=
  if !l.life.pipeline.hasFrameOps || l.display.isEmpty || l.output.isEmpty then some l
  else do
    let width := l.desc.size.x
    let targets ← (Span.whole l.display.size).chunks? width
    let sources ← (Span.whole l.output.size).chunks? width
    let display ← (targets.zip sources).foldlM (fun shown (target, source) =>
      encodeSpan? l.desc.format l.output source target shown) l.display
    return { l with display }

/-- Forgets frames, errors and sample counts. -/
def clear (l : DenseLayout) : DenseLayout :=
  { l with
    life := l.life.clear
    tracker := l.tracker.clear
    accumIds := Array.replicate l.accumIds.size 0 }

/-! ## Reading channels -/

/-- The color to display. -/
def shownColor (l : DenseLayout) : Array Vec4 :=
  if l.life.pipeline.hasFrameOps && !l.output.isEmpty then l.output else l.color

/-- The values of a channel, if its array is kept. -/
def channel? (l : DenseLayout) (c : Channel) : Option ChannelData :=
  let kept {α : Type} (xs : Array α) (data : Array α → ChannelData) : Option ChannelData :=
    if xs.isEmpty then none else some (data xs)
  match c with
  | .color =>
    if l.color.isEmpty then none
    else some (match l.desc.format with
      | .rgba32f => .color l.shownColor
      | _ => .encoded l.display)
  | .depth => kept l.guides.depth .depth
  | .accum => kept l.means.accum .color
  | .variance => kept l.means.oddMean .color
  | .normal => kept l.guides.normal .vectors
  | .albedo => kept l.guides.albedo .vectors
  | .primitiveId => kept l.guides.primitiveId .ids
  | .objectId => kept l.guides.objectId .ids
  | .instanceId => kept l.guides.instanceId .ids

end DenseLayout

end AdaptiveFrame
