import ReportPress.Raster.Fields

/-!
# The header of a GIF file

After the signature come the size of the screen, some flags and, if a flag says so, a table of
colours.  Blocks follow, up to the first image or the end of the file.

* `gifSignatures` — the first bytes.
* `colorTableLength` — how long the table of colours is.
* `afterParts?` — what follows the parts of an extension block.
* `leadsToImage` — whether extension blocks lead up to an image.
* `gifSize?` — the size of the screen.
-/

namespace ReportPress.Raster

/-- The first bytes of a file, in two versions. -/
def gifSignatures : List Bytes :=
  [[0x47, 0x49, 0x46, 0x38, 0x37, 0x61], [0x47, 0x49, 0x46, 0x38, 0x39, 0x61]]

/-- The bytes of the table of colours that the flags announce. -/
def colorTableLength (flags : Nat) : Nat :=
  if 128 ≤ flags then 3 <<< (flags % 8 + 1) else 0

/-- What follows the parts of an extension block: each part begins with its length, and a part
without bytes is the last.  So many bytes are left of the part that has begun. -/
def afterParts? (left : Nat) : Bytes → Option Bytes
  | [] => none
  | b :: rest =>
    match left with
    | left + 1 => afterParts? left rest
    | 0 => if b = 0 then some rest else afterParts? b.toNat rest

/-- Whether extension blocks lead up to an image.  The mark of an image counts once a byte
follows it, and so does the mark of the end where no extension stands before it.  There are no more
blocks than bytes. -/
def leadsToImage (fuel : Nat) (extended : Bool) (data : Bytes) : Bool :=
  match fuel, data with
  | _, 0x2C :: rest => !rest.isEmpty
  | _, 0x3B :: rest => extended || !rest.isEmpty
  | fuel + 1, 0x21 :: label :: length :: rest =>
    (label ≠ 0xF9 || length = 4) &&
      match afterParts? length.toNat rest with
      | none => false
      | some after => leadsToImage fuel true after
  | _, _ => false

/-- The width and height of a picture. -/
def gifSize? (data : Bytes) : Option (Nat × Nat) := do
  let width ← little? 6 2 data
  let height ← little? 8 2 data
  let flags ← little? 10 1 data
  let table := 13 + colorTableLength flags
  if table ≤ data.length && leadsToImage data.length false (data.drop table) then
    some (width, height)
  else none

end ReportPress.Raster
