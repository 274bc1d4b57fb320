import AdaptiveFrame.Buffer.Contract
import AdaptiveFrame.Filter.FrameImage

/-!
# Snapshots of channels

A snapshot shows one channel as an image of eight bits per lane. Eight-bit color is shown as it is kept
and other color gamma-encoded; the means of the odd samples are shown linearly. Depth is spread over its
finite range with misses in white, normals are moved into the unit cube, and identifiers get colors that
tell them apart.
-/

namespace AdaptiveFrame.Snapshot

/-- An image of eight bits per lane. -/
abbrev Image := Raster Rgba8

/-- A color for an identifier, black for the identifier of a miss. -/
def idColor (id : UInt32) : Rgba8 :=
  if id = noId then ⟨0, 0, 0, 255⟩
  else
    let h := id * 0x9E3779B9
    let h := (h <<< 13 ||| h >>> 19) ^^^ 0x5bd1e995
    ⟨(h >>> 16).toUInt8, (h >>> 8).toUInt8, h.toUInt8, 255⟩

/-- Colors for the values of a channel. -/
def colors (c : Channel) : ChannelData → Array Rgba8
  | .encoded cells => cells
  | .color cells => cells.map (if c = .variance then Color.encodeRgba8 else Color.encodeSrgba)
  | .depth cells =>
    let scale := FrameImage.depthScale cells
    cells.map fun d =>
      let z := FrameImage.scaledDepth scale d
      Color.encodeRgba8 ⟨z, z, z, 1⟩
  | .vectors cells =>
    cells.map fun v => Color.encodeRgba8 (((if c = .normal then v.scale 0.5 + .splat 0.5 else v)).extend 1)
  | .ids cells => cells.map idColor

/-- Shows a channel of a buffer that can be read and keeps it. -/
def take {β : Type} [FrameBuffer β] (b : β) (c : Channel) : Except FrameError Image :=
  let region := (FrameBuffer.desc b).image
  match (FrameBuffer.channel? b c).bind fun d => Raster.ofCells? region (colors c d) with
  | some image => .ok image
  | none => .error (.channelUnavailable c)

end AdaptiveFrame.Snapshot
