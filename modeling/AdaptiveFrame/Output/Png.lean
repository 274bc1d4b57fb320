import AdaptiveFrame.Grid.Raster
import AdaptiveFrame.Output.Color

/-!
# PNG files

An image of eight bits per lane as the bytes of a PNG file: a signature, a header, the pixels and an end
mark, each in a chunk with a check sum. The pixel rows are stored without compression.
-/

namespace AdaptiveFrame.Png

/-- Whether a path names a file of this format: the part after the last point of the file name, which has
to have something before it, is one of the known extensions in any case of letters. -/
def hasExtension (path : String) : Bool :=
  let reversed := (path.toList.reverse.dropWhile (· == '/')).takeWhile (· != '/')
  match reversed.dropWhile (· != '.') with
  | _ :: _ :: _ => ["png", "apng"].contains (String.ofList ((reversed.takeWhile (· != '.')).reverse.map Char.toLower))
  | _ => false

/-- A word, high byte first. -/
def bigEndian (w : UInt32) : List UInt8 :=
  [(w >>> 24).toUInt8, (w >>> 16).toUInt8, (w >>> 8).toUInt8, w.toUInt8]

/-- A half word, low byte first. -/
def littleEndian16 (n : Nat) : List UInt8 := [.ofNat n, .ofNat (n / 256)]

/-! ## Check sums -/

/-- Takes one bit of a cyclic redundancy check. -/
def crcBit (c : UInt32) : UInt32 := if c &&& 1 = 1 then (c >>> 1) ^^^ 0xEDB88320 else c >>> 1

def crcByte (c : UInt32) (b : UInt8) : UInt32 := (List.range 8).foldl (fun c _ => crcBit c) (c ^^^ b.toUInt32)

/-- The cyclic redundancy check of a chunk. -/
def crc (bytes : List UInt8) : UInt32 := bytes.foldl crcByte 0xFFFFFFFF ^^^ 0xFFFFFFFF

/-- Two running sums modulo a prime, the check of a stored stream. -/
def adler (bytes : List UInt8) : UInt32 :=
  let (a, b) := bytes.foldl (fun (a, b) byte =>
    let a := (a + byte.toNat) % 65521
    (a, (b + a) % 65521)) (1, 0)
  .ofNat (b * 65536 + a)

/-! ## Parts of a file -/

/-- A chunk of a file: length, name, data and check sum. -/
def chunk (name : String) (data : List UInt8) : List UInt8 :=
  let body := name.toUTF8.toList ++ data
  bigEndian (.ofNat data.length) ++ body ++ bigEndian (crc body)

/-- Longest block of a stored stream. -/
def blockLength : Nat := 65535

/-- Data as blocks that are stored as they are, `count` of them being left. -/
def storedBlocks : (count : Nat) → List UInt8 → List UInt8
  | 0, _ => []
  | count + 1, data =>
    let block := data.take blockLength
    let last : UInt8 := if count = 0 then 1 else 0
    last :: littleEndian16 block.length ++ littleEndian16 (65535 - block.length) ++ block
      ++ storedBlocks count (data.drop blockLength)

/-- A stream of stored blocks with header and check sum. -/
def stored (data : List UInt8) : List UInt8 :=
  [0x78, 0x01] ++ storedBlocks (max 1 ((data.length + blockLength - 1) / blockLength)) data ++ bigEndian (adler data)

/-- The rows of an image, each after a mark that it is stored as it is. -/
def rows (image : Raster Rgba8) : List UInt8 :=
  (List.range image.region.height).flatMap fun y =>
    (0 : UInt8) :: (List.range image.region.width).flatMap fun x =>
      let c := image.getD ⟨image.region.lower.x + x, image.region.lower.y + y⟩ ⟨0, 0, 0, 0⟩
      [c.r, c.g, c.b, c.a]

/-- The bytes of a file. -/
def encode (image : Raster Rgba8) : List UInt8 :=
  let size := image.region.size
  let header := bigEndian (.ofNat size.x) ++ bigEndian (.ofNat size.y) ++ [8, 6, 0, 0, 0]
  [0x89, 0x50, 0x4E, 0x47, 0x0D, 0x0A, 0x1A, 0x0A] ++ chunk "IHDR" header ++ chunk "IDAT" (stored (rows image))
    ++ chunk "IEND" []

end AdaptiveFrame.Png
