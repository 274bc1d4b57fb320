import AdaptiveFrame.Buffer.Desc
import AdaptiveFrame.Filter.Denoise
import AdaptiveFrame.Filter.ToneMap

/-!
# Image operations

Pixel operations recolor every tile after it is folded and before it is encoded. Frame operations
replace the color of the whole image once all tiles of a frame are in, so in a list of operations
they follow all pixel operations. `Pipeline.build` checks this order and the channels that every
operation reads, position by position; the first position at fault gives the error.
-/

namespace AdaptiveFrame

/-- An operation on the colors of one tile. -/
inductive PixelOp where
  /-- Scales the color and applies a tone curve; alpha stays. -/
  | toneMap (curve : ToneMap) (exposure : Float32)
  /-- Adds a constant color; alpha stays. -/
  | tint (add : Vec3)

/-- An operation on the color of a whole frame. -/
inductive FrameOp where
  | markRed | blur | depth | denoise
  deriving DecidableEq, Repr

/-- An operation as users list it. -/
inductive ImageOp where
  | pixel (op : PixelOp)
  | frame (op : FrameOp)

namespace PixelOp

def name : PixelOp → String
  | toneMap .. => "tonemapper"
  | tint _ => "tile_debug"

/-- The new color of one pixel. -/
def recolor : PixelOp → Vec4 → Vec4
  | toneMap curve exposure, c => c.withXyz (curve.applyExposed c.xyz exposure)
  | tint add, c => c + add.extend 0

def apply (op : PixelOp) (t : Tile) : Tile := t.mapColor op.recolor

end PixelOp

namespace FrameOp

def name : FrameOp → String
  | markRed => "frame_debug" | blur => "frame_blur" | depth => "frame_depth" | denoise => "frame_denoise"

/-- The new color of the image. Showing depth needs a depth channel and otherwise changes nothing. -/
def apply (op : FrameOp) (image : FrameImage) : Raster Vec4 :=
  match op with
  | markRed => FrameImage.markRed image.color
  | blur => FrameImage.boxBlur image.color
  | depth =>
    match image.depth with
    | some d => FrameImage.showDepth image.color d
    | none => image.color
  | denoise =>
    let smooth := ({} : Denoiser).run (image.color.map Vec4.xyz) image.albedo image.normal
    image.color.mapPoints fun p c => c.withXyz (smooth.getD p .zero)

end FrameOp

namespace ImageOp

def name : ImageOp → String
  | pixel op => op.name
  | frame op => op.name

def isPixel : ImageOp → Bool
  | pixel _ => true
  | frame _ => false

/-- Splits a text at the first occurrence of a character. -/
def splitAtFirst (sep : Char) (s : String) : Option (String × String) :=
  let cs := s.toList
  match cs.dropWhile (· != sep) with
  | [] => none
  | _ :: rest => some (.ofList (cs.takeWhile (· != sep)), .ofList rest)

/-- Looks an operation up by name. The tone mapper takes a curve after a colon. -/
def ofName (name : String) : Except FrameError ImageOp :=
  match splitAtFirst ':' name with
  | some ("tonemapper", curve) =>
    match ToneMap.ofName? curve with
    | some m => .ok (pixel (.toneMap m 1))
    | none => .error (.unknownOp name)
  | some _ => .error (.unknownOp name)
  | none =>
    match name with
    | "tonemapper" => .ok (pixel (.toneMap .aces 1))
    | "tile_debug" => .ok (pixel (.tint ⟨0, 0, 0.2⟩))
    | "frame_debug" => .ok (frame .markRed)
    | "frame_blur" => .ok (frame .blur)
    | "frame_depth" => .ok (frame .depth)
    | "frame_denoise" => .ok (frame .denoise)
    | _ => .error (.unknownOp name)

/-- Channels the operation reads, in the order they are asked for. -/
def requires : ImageOp → List Channel
  | frame .depth => [.color, .depth]
  | _ => [.color]

/-- Whether a buffer keeps a channel in the form that operations read; color needs a format. -/
def serves (desc : BufferDesc) : Channel → Bool
  | .color => desc.hasColor
  | c => desc.has c

/-- The first channel that the operation reads and the buffer lacks. -/
def missing? (op : ImageOp) (desc : BufferDesc) : Option Channel := op.requires.find? fun c => !serves desc c

end ImageOp

/-- Operations that were checked against a buffer and are ready to run. -/
structure Pipeline where
  pixelOps : List PixelOp
  frameOps : List FrameOp

namespace Pipeline

def empty : Pipeline := ⟨[], []⟩

def hasFrameOps (p : Pipeline) : Bool := !p.frameOps.isEmpty

/-- Checks and collects operations from position `index` on. -/
def collect (desc : BufferDesc) (allowFrameOps : Bool) (index : Nat) (seenFrameOp : Bool) :
    List ImageOp → Except FrameError Pipeline
  | [] => .ok empty
  | op :: ops =>
    match op with
    | .pixel p =>
      if seenFrameOp then .error (.opOrder index p.name)
      else match op.missing? desc with
        | some c => .error (.missingChannel p.name c)
        | none => do
          let rest ← collect desc allowFrameOps (index + 1) false ops
          return { rest with pixelOps := p :: rest.pixelOps }
    | .frame f =>
      if !allowFrameOps then collect desc allowFrameOps (index + 1) true ops
      else match op.missing? desc with
        | some c => .error (.missingChannel f.name c)
        | none => do
          let rest ← collect desc allowFrameOps (index + 1) true ops
          return { rest with frameOps := f :: rest.frameOps }

/-- Checks a list of operations for a buffer. A buffer that never holds the whole image leaves the frame
operations out, without asking for their channels. -/
def build (ops : List ImageOp) (desc : BufferDesc) (allowFrameOps : Bool) : Except FrameError Pipeline :=
  collect desc allowFrameOps 0 false ops

/-- Runs the pixel operations on a tile, in order. -/
def recolor (p : Pipeline) (t : Tile) : Tile := p.pixelOps.foldl (fun t op => op.apply t) t

/-- Runs the frame operations on an image, in order. Each sees the color its predecessor left. -/
def finish (p : Pipeline) (image : FrameImage) : Raster Vec4 :=
  (p.frameOps.foldl (fun im op => { im with color := op.apply im }) image).color

/-- The names of the operations, on one line. -/
def describe (p : Pipeline) : String :=
  let quoted (names : List String) : String := "[" ++ ", ".intercalate (names.map fun n => "\"" ++ n ++ "\"") ++ "]"
  "ImagePipeline \x7b pixel_ops: " ++ quoted (p.pixelOps.map PixelOp.name) ++ ", frame_ops: "
    ++ quoted (p.frameOps.map FrameOp.name) ++ " \x7d"

end Pipeline

end AdaptiveFrame
