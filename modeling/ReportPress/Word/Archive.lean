import ReportPress.Raster.Png
import ReportPress.Word.Package

/-!
# The bytes of an archive

An archive is a ZIP file whose entries are stored as they are.  Each entry is a record with its
content; a listing of all records follows, and an ending that says where the listing is.

* `littleEndian` — a number in bytes, the least of which comes first.
* `Record` — an entry as bytes; `Record.facts` is what its record and the listing both say.
* `archiveBytes` — the whole archive.
-/

namespace ReportPress.Word

/-- A number in so many bytes; what does not fit is lost. -/
def littleEndian : Nat → Nat → Bytes
  | 0, _ => []
  | count + 1, n => UInt8.ofNat n :: littleEndian count (n / 256)

/-- An entry as it stands in an archive. -/
structure Record where
  name : Bytes
  data : Bytes

namespace Record

/-- The bytes of an entry. -/
def ofEntry (e : Entry) : Record where
  name := e.name.toUTF8.toList
  data := match e.content with
    | .text s => s.toUTF8.toList
    | .bytes data => data

/-- The version of the format, the mark for names in UTF-8, no compression, the first day that
can be written down, the checksum, both sizes, and the lengths of the name and of what is added
to it. -/
def facts (r : Record) : Bytes :=
  littleEndian 2 20 ++ littleEndian 2 0x0800 ++ littleEndian 2 0 ++
    littleEndian 2 0 ++ littleEndian 2 0x0021 ++
    littleEndian 4 (Raster.checksum r.data).toNat ++
    littleEndian 4 r.data.length ++ littleEndian 4 r.data.length ++
    littleEndian 2 r.name.length ++ littleEndian 2 0

/-- The bytes of the record, the content included. -/
def bytes (r : Record) : Bytes := [0x50, 0x4B, 0x03, 0x04] ++ r.facts ++ r.name ++ r.data

/-- The line of the listing for a record at a place. -/
def listed (r : Record) (place : Nat) : Bytes :=
  [0x50, 0x4B, 0x01, 0x02] ++ littleEndian 2 20 ++ r.facts ++
    littleEndian 2 0 ++ littleEndian 2 0 ++ littleEndian 2 0 ++ littleEndian 4 0 ++
    littleEndian 4 place ++ r.name

end Record

/-- The listing of records the first of which is at a place. -/
def listing : Nat → List Record → Bytes
  | _, [] => []
  | place, r :: rest => r.listed place ++ listing (place + r.bytes.length) rest

/-- The ending, for so many entries and a listing of a length at a place. -/
def ending (count length place : Nat) : Bytes :=
  [0x50, 0x4B, 0x05, 0x06] ++ littleEndian 2 0 ++ littleEndian 2 0 ++
    littleEndian 2 count ++ littleEndian 2 count ++
    littleEndian 4 length ++ littleEndian 4 place ++ littleEndian 2 0

/-- The bytes of an archive. -/
def archiveBytes (entries : List Entry) : Bytes :=
  let records := entries.map Record.ofEntry
  let contents := records.flatMap Record.bytes
  let list := listing 0 records
  contents ++ list ++ ending entries.length list.length contents.length

end ReportPress.Word
