import ReportPress.Raster.Fields

/-!
# Formats of pictures

* `ImageFormat` — the formats that a document may embed.
* `ImageFormat.detect` — the format by the first bytes of a picture.
* `ImageFormat.ofExtension?` — the format by the extension of a file name.
-/

namespace ReportPress.Word

/-- A format that a document may embed. -/
inductive ImageFormat where
  | png
  | jpeg
  | gif
  | bmp
deriving DecidableEq, Repr

namespace ImageFormat

/-- The first bytes of a PNG file. -/
def pngSignature : Bytes := [0x89, 0x50, 0x4E, 0x47, 0x0D, 0x0A, 0x1A, 0x0A]

/-- The first bytes of a JPEG file. -/
def jpegSignature : Bytes := [0xFF, 0xD8, 0xFF]

/-- The first bytes of the two versions of GIF files. -/
def gifSignatures : List Bytes :=
  [[0x47, 0x49, 0x46, 0x38, 0x37, 0x61], [0x47, 0x49, 0x46, 0x38, 0x39, 0x61]]

/-- The first bytes of a BMP file. -/
def bmpSignature : Bytes := [0x42, 0x4D]

/-- The format by the first bytes of a picture. -/
def detect (data : Bytes) : Option ImageFormat :=
  if pngSignature.isPrefixOf data then some png
  else if jpegSignature.isPrefixOf data then some jpeg
  else if gifSignatures.any (·.isPrefixOf data) then some gif
  else if bmpSignature.isPrefixOf data then some bmp
  else none

/-- The format by an extension in any letter case. -/
def ofExtension? (extension : String) : Option ImageFormat :=
  match String.ofList (extension.toList.map Char.toLower) with
  | "png" => some png
  | "jpg" | "jpeg" => some jpeg
  | "gif" => some gif
  | "bmp" => some bmp
  | _ => none

/-- The extension of files of the format in a document. -/
def extension : ImageFormat → String
  | png => "png"
  | jpeg => "jpeg"
  | gif => "gif"
  | bmp => "bmp"

/-- The media type of the format. -/
def mediaType (format : ImageFormat) : String := "image/" ++ format.extension

end ImageFormat

end ReportPress.Word
