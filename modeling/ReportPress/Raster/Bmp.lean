import ReportPress.Raster.Fields

/-!
# The header of a BMP file

After fourteen bytes about the file comes a header that begins with its own length.  There are six
versions of it; the shortest has narrower fields than the others.  What the header announces, a
palette or masks for the parts of a colour, has to be in the file as well.

* `bmpSignature` — the first bytes.
* `BmpHeader` — what the versions of the header say alike.
* `coreHeader?`, `infoHeader?` — the header of the first version and of the others.
* `BmpHeader.isComplete` — whether palette and masks are there and make sense.
* `bmpSize?` — the size of a picture.
-/

namespace ReportPress.Raster

/-- The first bytes of a file. -/
def bmpSignature : Bytes := [0x42, 0x4D]

/-- Where the header begins. -/
def bmpStart : Nat := 14

/-- No side is longer, unless it is the height of a picture stored from top to bottom. -/
def maxBmpSide : Int := 65535

/-- How the pixels of a picture are stored. -/
inductive Pixels where
  | palette
  | direct
  | masked
deriving DecidableEq, Repr

/-- What a header says. -/
structure BmpHeader where
  length : Nat
  width : Nat
  height : Nat
  bits : Nat
  pixels : Pixels
  /-- The entries of the palette; zero for all that the pixels can tell apart. -/
  colors : Nat
deriving Repr

/-- Storage by bits of a pixel, in a header that knows nothing else. -/
def corePixels? (bits : Nat) : Option Pixels :=
  if [1, 4, 8].contains bits then some .palette
  else if bits = 24 then some .direct
  else none

/-- Storage by compression and bits of a pixel. -/
def infoPixels? (compression bits : Nat) : Option Pixels :=
  match compression with
  | 0 =>
    if [1, 2, 4, 8].contains bits then some .palette
    else if [16, 24, 32].contains bits then some .direct
    else none
  | 1 => if bits = 8 then some .palette else none
  | 2 => if bits = 4 then some .palette else none
  | 3 => if [16, 32].contains bits then some .masked else none
  | _ => none

/-- The header of the first version. -/
def coreHeader? (data : Bytes) : Option BmpHeader := do
  let width ← little? (bmpStart + 4) 2 data
  let height ← little? (bmpStart + 6) 2 data
  let planes ← little? (bmpStart + 8) 2 data
  let bits ← little? (bmpStart + 10) 2 data
  let pixels ← corePixels? bits
  if planes = 1 then some ⟨12, width, height, bits, pixels, 0⟩ else none

/-- The header of a later version.  A negative height says that the picture is stored from top to
bottom; it is not compressed then. -/
def infoHeader? (length : Nat) (data : Bytes) : Option BmpHeader := do
  let width ← ofTwosComplement <$> little? (bmpStart + 4) 4 data
  let height ← ofTwosComplement <$> little? (bmpStart + 8) 4 data
  let planes ← little? (bmpStart + 12) 2 data
  let bits ← little? (bmpStart + 14) 2 data
  let compression ← little? (bmpStart + 16) 4 data
  let colors ← little? (bmpStart + 32) 4 data
  let _ ← take? (bmpStart + 36) 4 data
  let pixels ← infoPixels? compression bits
  if 0 ≤ width ∧ width ≤ maxBmpSide ∧ height ≤ maxBmpSide ∧ -0x80000000 < height ∧ planes = 1 ∧
      (0 ≤ height ∨ compression = 0 ∨ compression = 3) then
    some ⟨length, width.toNat, height.natAbs, bits, pixels, colors⟩
  else none

/-- Whether the set bits of a mask stand side by side within so many bits, at least one of
them. -/
def isMask (bits mask : Nat) : Bool :=
  (List.range bits).any fun low => (List.range (bits - low)).any fun more =>
    mask = (1 <<< (more + 1) - 1) <<< low

namespace BmpHeader

/-- The bytes of an entry of the palette. -/
def colorLength (h : BmpHeader) : Nat := if h.length = 12 then 3 else 4

/-- Whether the palette is there.  It has no more entries than pixels can tell apart; those past
the first 256 are not looked at. -/
def hasPalette (h : BmpHeader) (data : Bytes) : Bool :=
  let entries := if h.colors = 0 then 1 <<< h.bits else h.colors
  entries ≤ 1 <<< h.bits &&
    (take? (bmpStart + h.length) (min entries 256 * h.colorLength) data).isSome

/-- Whether the masks for red, green and blue are there and make sense; headers of the later
versions have one for the opacity, which may be zero. -/
def hasMasks (h : BmpHeader) (data : Bytes) : Bool :=
  let mask (n : Nat) := little? (bmpStart + 40 + 4 * n) 4 data
  ([0, 1, 2].all fun n => (mask n).any (isMask h.bits)) &&
    (h.length < 56 || (mask 3).any fun m => m = 0 || isMask h.bits m)

/-- Whether what the header announces is in the file. -/
def isComplete (h : BmpHeader) (data : Bytes) : Bool :=
  match h.pixels with
  | .palette => h.hasPalette data
  | .direct => true
  | .masked => h.hasMasks data

end BmpHeader

/-- The header of a file, of whatever version. -/
def bmpHeader? (data : Bytes) : Option BmpHeader := do
  let length ← little? bmpStart 4 data
  if length = 12 then coreHeader? data
  else if [40, 52, 56, 108, 124].contains length then infoHeader? length data
  else none

/-- The width and height of a picture; neither is zero. -/
def bmpSize? (data : Bytes) : Option (Nat × Nat) := do
  let h ← bmpHeader? data
  if h.width ≠ 0 ∧ h.height ≠ 0 ∧ h.isComplete data then some (h.width, h.height) else none

end ReportPress.Raster
