import ReportPress.Failure
import ReportPress.Raster.PixelSize

/-!
# Pictures of a report

* `LoadedImage`, `loadImage` — a picture from its file.  The extension decides whether a file is
  accepted at all, the contents say what size the picture has to whatever reads sizes.
* `fitBox` — the size at which a picture is set, for any way of rounding to the numbers that are
  computed with.
* `fit` — that size as it is computed in binary64.
-/

namespace ReportPress.Typeset

open Number

/-! ## Loading -/

/-- A picture from a file. -/
structure LoadedImage where
  data : Bytes
  format : Word.ImageFormat
  /-- In pixels, as the file says. -/
  width : UInt32
  height : UInt32
deriving Repr

/-- The picture in a file below a directory, by what reads sizes. -/
def loadImage (files : Files) (directory : Path) (source : String)
    (sizeOf? : Raster.SizeReader := Raster.pixelSize?) : Except Failure LoadedImage := do
  let path := directory.join ⟨source⟩
  let extension := path.extension?.getD ""
  let some format := Word.ImageFormat.ofExtension? extension
    | throw (.unsupportedImage extension path)
  unless files.isFile path do throw (.missingFile path)
  let data ← (files.readBytes path).mapError .storage
  let some (width, height) := sizeOf? data | throw (.unreadableImage path)
  return ⟨data, format, width, height⟩

/-! ## Size on the page -/

/-- No picture is wider. -/
def maxWidth : Rat := 600

/-- No picture is higher. -/
def maxHeight : Rat := 800

/-- A side that is given and not zero. -/
def givenSide (side : Option UInt32) : Option Rat :=
  (side.filter (· ≠ 0)).map fun n => (n.toNat : Rat)

/-- A side in the file, at least one pixel. -/
def ownSide (side : UInt32) : Rat := ((max side.toNat 1 : Nat) : Rat)

/-- The size that is asked for.  If one side is given, the other keeps the proportions. -/
def wantedSize (round : Rat → Rat) (own : Rat × Rat) : Option Rat → Option Rat → Rat × Rat
  | some w, some h => (w, h)
  | some w, none => (w, round (round (own.2 / own.1) * w))
  | none, some h => (round (round (own.1 / own.2) * h), h)
  | none, none => own

/-- A size with the second side brought down to a limit, in proportion. -/
def limitSecond (round : Rat → Rat) (limit : Rat) (size : Rat × Rat) : Rat × Rat :=
  if limit < size.2 then (round (round (size.1 / size.2) * limit), limit) else size

/-- The size of a picture within the box: first the height is brought down, then the width. -/
def boxedSize (round : Rat → Rat) (size : Rat × Rat) : Rat × Rat :=
  (limitSecond round maxWidth (limitSecond round maxHeight size).swap).swap

/-- A side in whole pixels, at least one. -/
def wholeSide (side : Rat) : UInt32 :=
  UInt32.ofNat (max 1 (halfAway side).toNat)

/-- The size at which a picture is set: a side of zero counts as not given. -/
def fitBox (round : Rat → Rat) (own : UInt32 × UInt32) (width height : Option UInt32) :
    UInt32 × UInt32 :=
  let size := boxedSize round (wantedSize round (ownSide own.1, ownSide own.2)
    (givenSide width) (givenSide height))
  (wholeSide size.1, wholeSide size.2)

/-- The size at which a picture is set. -/
def fit (own : UInt32 × UInt32) (width height : Option UInt32) : UInt32 × UInt32 :=
  fitBox Binary64.round own width height

end ReportPress.Typeset
