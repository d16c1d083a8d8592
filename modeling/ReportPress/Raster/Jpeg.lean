import ReportPress.Raster.JpegSegment

/-!
# The header of a JPEG file

After two bytes of its signature the file is a sequence of segments, each with a mark.  The frame
segment says the size.  A file is taken for a picture if a scan segment follows that, and if all
segments up to there are in order.

* `jpegSignature` — the first bytes.
* `mark?` — the next mark and what follows it.
* `segment?` — the content of the segment after a mark, and what follows it.
* `scannedFrame?` — the frame that is known when a scan begins.
* `jpegSize?` — the size of a picture.
-/

namespace ReportPress.Raster

/-- The first bytes of a file: those of its start, and the first of a mark. -/
def jpegSignature : Bytes := [0xFF, 0xD8, 0xFF]

/-- The next mark, and what follows it: the first byte right after an `FF` that is neither zero nor
`FF` itself.  Bytes between segments are passed over. -/
def mark? : Bytes → Option (UInt8 × Bytes)
  | a :: b :: rest =>
    if a = 0xFF ∧ b ≠ 0xFF ∧ b ≠ 0 then some (b, rest) else mark? (b :: rest)
  | _ => none

/-- The content of a segment, and what follows it.  The length at its start counts its own two
bytes. -/
def segment? (mark : Mark) (data : Bytes) : Option (Bytes × Bytes) := do
  let length ← big? 0 2 data
  if length < 2 then none
  let size := mark.contentLength (length - 2)
  let content ← take? 2 size data
  return (content, data.drop (2 + size))

/-- The frame that is known when a scan begins.  There are no more marks than bytes. -/
def scannedFrame? (fuel : Nat) (known : Option Frame) (data : Bytes) : Option Frame := do
  match fuel with
  | 0 => none
  | fuel + 1 =>
    let (code, rest) ← mark? data
    let mark ← Mark.ofByte? code
    let (content, after) ← segment? mark rest
    match mark with
    | .frame => if known.isSome then none else scannedFrame? fuel (some (← frame? content)) after
    | .scan => known.filter (hasScan · content)
    | _ => if mark.accepts content then scannedFrame? fuel known after else none

/-- The width and height of a picture. -/
def jpegSize? (data : Bytes) : Option (Nat × Nat) :=
  (scannedFrame? data.length none (data.drop 2)).map fun f => (f.width, f.height)

end ReportPress.Raster
