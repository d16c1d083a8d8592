import ReportPress.Raster.Bmp
import ReportPress.Raster.Gif
import ReportPress.Raster.Jpeg
import ReportPress.Raster.Png

/-!
# The size of a picture in pixels

* `SizeReader` — what reads sizes.
* `formats` — the formats, each with the first bytes of its files.
* `pixelSize?` — the reader for all of them.  The first bytes decide what format a picture is in,
  and contents with other ones have no size.
-/

namespace ReportPress.Raster

/-- What reads the width and height of a picture, in pixels, from the contents of its file. -/
abbrev SizeReader := Bytes → Option (UInt32 × UInt32)

/-- The first bytes of files in the formats, each with the way to read a size. -/
def formats : List (Bytes × (Bytes → Option (Nat × Nat))) :=
  (pngSignature, pngSize?) :: (jpegSignature, jpegSize?) ::
    (gifSignatures.map fun signature => (signature, gifSize?)) ++ [(bmpSignature, bmpSize?)]

/-- The width and height of a picture. -/
def pixelSize? : SizeReader := fun data => do
  let (_, size?) ← formats.find? fun format => format.1.isPrefixOf data
  let (width, height) ← size? data
  return (UInt32.ofNat width, UInt32.ofNat height)

end ReportPress.Raster
