import ReportPress.Word.Paragraph

/-!
# Blocks: paragraphs, tables and the table of contents

The body of a section is a sequence of blocks, and so is a cell of a table.

* `ContentsField` — the table of contents, a field that a word processor fills in.
* `Block` — the three kinds of blocks.
* `columnCount`, `columnWidth` — the grid of a table: the widest row decides, and the width is
  shared evenly.
* `Block.xml` — the element of a block.  A cell always ends with a paragraph.
-/

namespace ReportPress.Word

/-! ## The table of contents -/

/-- The field for the table of contents. -/
structure ContentsField where
  firstLevel : Nat := 1
  lastLevel : Nat := 3
  /-- The name shown on the field. -/
  label : Option String := none
deriving DecidableEq, Repr

namespace ContentsField

/-- The field with other levels, brought into the range from one to nine. -/
def withLevels (c : ContentsField) (first last : Nat) : ContentsField :=
  let first := max 1 (min first 9)
  { c with firstLevel := first, lastLevel := max first (min last 9) }

/-- The instruction of the field. -/
def instruction (c : ContentsField) : String :=
  "TOC \\o \"" ++ toString c.firstLevel ++ "-" ++ toString c.lastLevel ++ "\" \\h \\z \\u"

/-- The text that stands in the field until it is filled in. -/
def placeholder : String := "Обновите поле, чтобы построить оглавление."

/-- The content control with the field. -/
def xml (c : ContentsField) : Xml :=
  .plain "w:sdt" [
    .plain "w:sdtPr" (optional (fun a => [.val "w:alias" a]) c.label ++
      [.plain "w:docPartObj" [.val "w:docPartGallery" "Table of Contents",
        .tag "w:docPartUnique"]]),
    .plain "w:sdtContent" [.plain "w:p" [
      .plain "w:r" [.empty "w:fldChar" [⟨"w:fldCharType", "begin", false⟩,
        ⟨"w:dirty", "true", false⟩]],
      .plain "w:r" [Run.preserved "w:instrText" (" " ++ c.instruction ++ " ")],
      Run.fieldMark "separate",
      .plain "w:r" [.plain "w:t" [.text placeholder]],
      Run.fieldMark "end"]]]

end ContentsField

/-! ## Blocks -/

/-- A block of a section or of a cell. -/
inductive Block where
  | paragraph (p : Paragraph)
  /-- Rows of cells; the first `headerRows` rows are repeated on every page. -/
  | table (width : UInt32) (headerRows : Nat) (rows : List (List (List Block)))
  | contents (field : ContentsField)
deriving Inhabited

/-- A cell of a table. -/
abbrev Cell := List Block

/-- A row of a table. -/
abbrev Row := List Cell

namespace Block

/-- Whether a block is a paragraph. -/
def isParagraph : Block → Bool
  | .paragraph _ => true
  | _ => false

end Block

/-! ## The grid of a table -/

/-- The number of columns: that of the cells in the widest row. -/
def columnCount (rows : List Row) : Nat := (rows.map List.length).foldl max 0

/-- The width of each column in twips.  As long as there are fewer columns than 32 bits can count,
it is what division in 32 bits makes of the width (`columnWidth_eq_toNat_div`). -/
def columnWidth (width : UInt32) (rows : List Row) : Nat := width.toNat / max (columnCount rows) 1

/-- The width of the cell borders, in eighths of a point. -/
def borderSize : Nat := 4

/-- One of the borders of a table. -/
def borderXml (side : String) : Xml :=
  .empty side [⟨"w:val", "single", false⟩, .nat "w:sz" borderSize, .nat "w:space" 0,
    ⟨"w:color", "000000", false⟩]

/-- The properties of a table. -/
def tableProperties (width : UInt32) : Xml :=
  .plain "w:tblPr" [
    .empty "w:tblW" [.nat "w:w" width.toNat, ⟨"w:type", "dxa", false⟩],
    .plain "w:tblBorders" (["w:top", "w:left", "w:bottom", "w:right", "w:insideH",
      "w:insideV"].map borderXml),
    .empty "w:tblLayout" [⟨"w:type", "fixed", false⟩],
    .empty "w:tblLook" [⟨"w:val", "04A0", false⟩, .nat "w:firstRow" 1, .nat "w:lastRow" 0,
      .nat "w:firstColumn" 1, .nat "w:lastColumn" 0, .nat "w:noHBand" 0, .nat "w:noVBand" 1]]

/-- The grid of a table. -/
def gridXml (columns width : Nat) : Xml :=
  .plain "w:tblGrid" (List.replicate columns (.empty "w:gridCol" [.nat "w:w" width]))

/-- The width of a cell. -/
def cellWidthXml (width : Nat) : Xml :=
  .plain "w:tcPr" [.empty "w:tcW" [.nat "w:w" width, ⟨"w:type", "dxa", false⟩]]

/-- The paragraph that a cell ends with if its last block is none. -/
def cellEnd (cell : Cell) : List Xml :=
  if cell.getLast?.any Block.isParagraph then [] else [.tag "w:p"]

/-- The mark of a header row. -/
def headerMark : Xml := .plain "w:trPr" [.tag "w:tblHeader"]

mutual

/-- The element of a block. -/
def Block.xml : Block → StateM References Xml
  | .paragraph p => p.xml
  | .table width headerRows rows => do
    let body ← rowsXml (columnWidth width rows) headerRows rows
    return .plain "w:tbl" (tableProperties width ::
      gridXml (columnCount rows) (columnWidth width rows) :: body)
  | .contents field => return field.xml

/-- The elements of blocks. -/
def blocksXml : List Block → StateM References (List Xml)
  | [] => return []
  | b :: bs => do
    let x ← b.xml
    let xs ← blocksXml bs
    return x :: xs

/-- The elements of cells of the given width. -/
def cellsXml (width : Nat) : List (List Block) → StateM References (List Xml)
  | [] => return []
  | c :: cs => do
    let blocks ← blocksXml c
    let xs ← cellsXml width cs
    return .plain "w:tc" (cellWidthXml width :: blocks ++ cellEnd c) :: xs

/-- The elements of rows, the first `headers` of which are header rows. -/
def rowsXml (width headers : Nat) : List (List (List Block)) → StateM References (List Xml)
  | [] => return []
  | r :: rs => do
    let cells ← cellsXml width r
    let xs ← rowsXml width (headers - 1) rs
    return .plain "w:tr" (whenSet (0 < headers) headerMark ++ cells) :: xs

end

end ReportPress.Word
