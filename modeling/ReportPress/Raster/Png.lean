import ReportPress.Raster.Fields

/-!
# The header of a PNG file

After its signature the file is a sequence of chunks: a length, a name of four letters, data and a
checksum over name and data.  The first chunk says the size, and a file is taken for a picture
once a chunk with pixels begins.

* `pngSignature` — the first bytes.
* `checksum` — CRC-32, the remainder of the polynomial division by `0xEDB88320`, bits reversed.
* `chunk?` — the chunk that the bytes begin with.
* `PngHeader`, `pngHeader?` — what the first chunk says.
* `Preamble`, `Preamble.next?` — what the chunks before the pixels say.
* `pngSize?` — the size of a picture.
-/

namespace ReportPress.Raster

/-- The first bytes of a file. -/
def pngSignature : Bytes := [0x89, 0x50, 0x4E, 0x47, 0x0D, 0x0A, 0x1A, 0x0A]

/-! ## Checksums -/

/-- One bit of the division. -/
def divideBit (crc : UInt32) : UInt32 :=
  if crc &&& 1 = 1 then (crc >>> 1) ^^^ 0xEDB88320 else crc >>> 1

/-- One byte of the division. -/
def divideByte (crc : UInt32) (b : UInt8) : UInt32 :=
  Nat.repeat divideBit 8 (crc ^^^ b.toUInt32)

/-- CRC-32 of bytes. -/
def checksum (data : Bytes) : UInt32 := data.foldl divideByte 0xFFFFFFFF ^^^ 0xFFFFFFFF

/-! ## Chunks -/

/-- A whole chunk. -/
structure Chunk where
  name : String
  data : Bytes
  checksum : Nat
  /-- The bytes after the chunk. -/
  rest : Bytes

/-- The text of bytes that stand for a character each. -/
def ofLatin (data : Bytes) : String := String.ofList (data.map fun b => Char.ofNat b.toNat)

/-- The chunk that bytes begin with. -/
def chunk? (data : Bytes) : Option Chunk := do
  let length ← big? 0 4 data
  let name ← take? 4 4 data
  let content ← take? 8 length data
  let sum ← big? (8 + length) 4 data
  return ⟨ofLatin name, content, sum, data.drop (12 + length)⟩

namespace Chunk

/-- Whether a reader that does not know the chunk may skip it, as the case of the first letter
says. -/
def isOptional (c : Chunk) : Bool := c.name.toList.head?.any (·.toNat / 32 % 2 = 1)

/-- Whether the checksum is right. -/
def isSound (c : Chunk) : Bool :=
  c.checksum = (Raster.checksum (c.name.toList.map (UInt8.ofNat ·.toNat) ++ c.data)).toNat

end Chunk

/-! ## The first chunk -/

/-- What the first chunk says. -/
structure PngHeader where
  width : Nat
  height : Nat
  bits : Nat
  /-- The kind of colour: 0 for grey, 2 for red, green and blue, 3 for a palette, and four more
  than that with an opacity. -/
  kind : Nat
deriving DecidableEq, Repr

/-- Whether samples of so many bits are possible for a kind of colour. -/
def isColorKind (kind bits : Nat) : Bool :=
  match kind with
  | 0 => [1, 2, 4, 8, 16].contains bits
  | 3 => [1, 2, 4, 8].contains bits
  | 2 | 4 | 6 => [8, 16].contains bits
  | _ => false

/-- What the data of the first chunk say.  Neither side is zero, and all else has to be one of the
values that the format knows. -/
def pngHeader? (data : Bytes) : Option PngHeader := do
  let width ← big? 0 4 data
  let height ← big? 4 4 data
  let bits ← big? 8 1 data
  let kind ← big? 9 1 data
  let methods ← take? 10 2 data
  let interlace ← big? 12 1 data
  if width ≠ 0 ∧ height ≠ 0 ∧ isColorKind kind bits ∧ methods = [0, 0] ∧ interlace ≤ 1 ∧
      data.length = 13 then
    some ⟨width, height, bits, kind⟩
  else none

/-! ## Up to the pixels -/

/-- What the chunks before the pixels say. -/
structure Preamble where
  header : PngHeader
  hasPalette : Bool := false
  /-- One colour, or each of the palette, has an opacity. -/
  isTransparent : Bool := false
  /-- How many frames of an animation have been announced. -/
  frames : Nat := 0
deriving Repr

namespace Preamble

/-- Whether data announce the first image as the next frame of an animation: a number in sequence,
the size and place of the whole picture, a delay, and how to go on to the next frame. -/
def announcesFrame (p : Preamble) (data : Bytes) : Bool :=
  data.length = 26 && big? 0 4 data = some p.frames && big? 4 4 data = some p.header.width &&
    big? 8 4 data = some p.header.height && big? 12 8 data = some 0 &&
    (big? 24 1 data).any (· ≤ 2) && (big? 25 1 data).any (· ≤ 1)

/-- Whether data say how opaque colours are. -/
def saysOpacity (p : Preamble) (data : Bytes) : Bool :=
  match p.header.kind with
  | 0 => 2 ≤ data.length
  | 2 => 6 ≤ data.length
  | 3 => p.hasPalette
  | _ => false

/-- What is known after one more chunk.  An optional chunk that is not in order is skipped, unless
it announces a frame. -/
def next? (p : Preamble) (c : Chunk) : Option Preamble :=
  if !c.isSound then if c.isOptional then some p else none
  else if c.name = "PLTE" then if p.hasPalette then none else some { p with hasPalette := true }
  else if c.name = "tRNS" then
    some { p with isTransparent := p.isTransparent || p.saysOpacity c.data }
  else if c.name = "fcTL" then
    if p.announcesFrame c.data then some { p with frames := p.frames + 1 } else none
  else if c.isOptional then some p
  else none

/-- What is known when the pixels begin, those of the picture or those of an announced frame.  A
chunk takes twelve bytes at least, so there are no more chunks than bytes. -/
def atPixels? (fuel : Nat) (p : Preamble) (data : Bytes) : Option Preamble := do
  match fuel with
  | 0 => none
  | fuel + 1 =>
    let name ← (take? 4 4 data).map ofLatin
    if name = "IDAT" then return p
    else if name = "fdAT" then
      let length ← big? 0 4 data
      if 0 < p.frames ∧ 4 ≤ length then return p else none
    else
      let c ← chunk? data
      atPixels? fuel (← p.next? c) c.rest

/-- The numbers that a pixel is made of once it is read. -/
def samples (p : Preamble) : Nat :=
  match p.header.kind with
  | 0 => if p.isTransparent then 2 else 1
  | 4 => 2
  | 6 => 4
  | _ => if p.isTransparent then 4 else 3

/-- The bytes of a row of pixels.  Samples of fewer than eight bits are widened. -/
def rowLength (p : Preamble) : Nat :=
  p.header.width * p.samples * (if p.header.bits = 16 then 2 else 1)

end Preamble

/-- No row of pixels is longer, in bytes. -/
def maxRowLength : Nat := 512 * 1024 * 1024

/-- The width and height of a picture. -/
def pngSize? (data : Bytes) : Option (Nat × Nat) := do
  let first ← chunk? (data.drop pngSignature.length)
  let header ← pngHeader? first.data
  if first.name = "IHDR" ∧ first.isSound then
    let p ← Preamble.atPixels? data.length { header } first.rest
    if p.rowLength ≤ maxRowLength then some (header.width, header.height) else none
  else none

end ReportPress.Raster
