import AdaptiveFrame.Buffer.Channel
import AdaptiveFrame.Grid.Tiling

/-!
# Errors

What can be wrong with the configuration of a frame buffer, its image operations or an export.
Folding tiles into a buffer raises none of these, except where a caller asks whether a sparse buffer
holds the tile.
-/

namespace AdaptiveFrame

/-- Why a set of channels cannot be served. -/
inductive ChannelConflict where
  | varianceWithoutAccum
  | colorWithoutFormat
  deriving DecidableEq, Repr

def ChannelConflict.reason : ChannelConflict → String
  | varianceWithoutAccum => "VARIANCE requires ACCUM"
  | colorWithoutFormat => "COLOR requires a color format"

/-- What went wrong. -/
inductive FrameError where
  /-- An image without pixels. -/
  | invalidSize (size : Point)
  /-- A task extent that is no power of two or does not divide a tile. -/
  | invalidTaskSize (task : Point)
  | invalidChannels (channels : ChannelSet) (format : ColorFormat) (conflict : ChannelConflict)
  /-- A pixel operation placed after a frame operation. -/
  | opOrder (index : Nat) (op : String)
  /-- An image operation that needs a channel the buffer does not keep. -/
  | missingChannel (op : String) (channel : Channel)
  | unknownOp (name : String)
  | mismatchedTaskSize (dense sparse : Point)
  /-- A tile whose cell a sparse buffer does not store. -/
  | tileNotOwned (tileId : Nat)
  | noSamplesPerPixel
  /-- A channel that is not kept, or a buffer that cannot be read at all. -/
  | channelUnavailable (channel : Channel)
  /-- An image that cannot be written in the format its file name asks for. -/
  | exportFailed (reason : String)

namespace FrameError

private def pair (p : Point) : String := s!"{p.x}x{p.y}"

/-- An extent as messages show it. -/
def extentText (p : Point) : String := s!"UVec2({p.x}, {p.y})"

def message : FrameError → String
  | invalidSize size => s!"framebuffer has invalid size {pair size}, dimensions must be greater than 0"
  | invalidTaskSize task =>
    s!"render task size {pair task} must be a power of two dividing the tile size {tileSize}"
  | invalidChannels channels format conflict =>
    "invalid channel configuration " ++ channels.describe ++ " with color format " ++ format.name ++ ": "
      ++ conflict.reason
  | opOrder index op =>
    s!"image operation #{index} ({op}) is a pixel operation but follows a frame operation"
  | missingChannel op channel => s!"image operation {op} requires the {channel.name} channel"
  | unknownOp name => s!"unknown image operation '{name}'"
  | mismatchedTaskSize dense sparse =>
    s!"render task size mismatch: dense buffer uses {extentText dense}, sparse buffer uses {extentText sparse}"
  | tileNotOwned tileId => s!"tile {tileId} is not stored in this sparse framebuffer"
  | noSamplesPerPixel => "samples per pixel must be at least 1"
  | channelUnavailable channel => s!"{channel.name} channel cannot be mapped from this framebuffer"
  | exportFailed reason => s!"image export failed: {reason}"

end FrameError

end AdaptiveFrame
