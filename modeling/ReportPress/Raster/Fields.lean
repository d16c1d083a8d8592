/-!
# Numbers in picture files

The header of a picture is a record of numbers of one, two or four bytes.

* `Bytes` — the contents of a file.
* `ofBigEndian`, `ofLittleEndian` — the number that bytes stand for, the first or the last byte
  being the greatest.
* `take?` — the bytes of a field, if they are all there.
* `ofTwosComplement` — a number of 32 bits that may be negative.
-/

namespace ReportPress

/-- The contents of a file. -/
abbrev Bytes := List UInt8

namespace Raster

/-- The number whose greatest byte comes first. -/
def ofBigEndian (data : Bytes) : Nat := data.foldl (fun n b => 256 * n + b.toNat) 0

/-- The number whose greatest byte comes last. -/
def ofLittleEndian (data : Bytes) : Nat := ofBigEndian data.reverse

/-- So many bytes from a place on, if they are all there. -/
def take? (place count : Nat) (data : Bytes) : Option Bytes :=
  if place + count ≤ data.length then some ((data.drop place).take count) else none

/-- A big-endian number from a place on. -/
def big? (place count : Nat) (data : Bytes) : Option Nat := (take? place count data).map ofBigEndian

/-- A little-endian number from a place on. -/
def little? (place count : Nat) (data : Bytes) : Option Nat :=
  (take? place count data).map ofLittleEndian

/-- A number of 32 bits, the greatest of which is the sign. -/
def ofTwosComplement (n : Nat) : Int := if n < 0x80000000 then n else (n : Int) - 0x100000000

end Raster

end ReportPress
