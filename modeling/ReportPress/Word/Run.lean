import ReportPress.Xml.Tree

/-!
# Runs

A run is text in one format, or a field or break that stands in its place.

* `RunContent`, `RunFormat`, `Run` — runs.
* `Run.text` — the text of a run; fields and breaks have none.
* `Run.xml` — the elements of a run.  A page number is a field and takes five elements.
-/

namespace ReportPress.Word

/-- What a run holds. -/
inductive RunContent where
  | text (s : String)
  /-- The number of the page. -/
  | pageNumber
  | pageBreak
deriving DecidableEq, Repr

/-- The format of a run; whatever is absent comes from the styles. -/
structure RunFormat where
  style : Option String := none
  bold : Bool := false
  italic : Bool := false
  /-- In half-points. -/
  size : Option Nat := none
  font : Option String := none
  /-- Red, green and blue in hexadecimal, written as it is. -/
  color : Option String := none
  /-- A language tag, written as it is. -/
  language : Option String := none
deriving DecidableEq, Repr

/-- Text in one format, or what stands in its place. -/
structure Run where
  content : RunContent
  format : RunFormat := {}
  /-- A new line begins before the content. -/
  breakBefore : Bool := false
deriving DecidableEq, Repr

/-- The elements for an optional value. -/
def optional {α : Type} (make : α → List Xml) : Option α → List Xml
  | none => []
  | some a => make a

/-- The elements for a flag. -/
def whenSet (flag : Bool) (x : Xml) : List Xml := if flag then [x] else []

/-- A font for all alphabets. -/
def fontXml (font : String) : Xml :=
  .empty "w:rFonts"
    [⟨"w:ascii", font, false⟩, ⟨"w:hAnsi", font, false⟩, ⟨"w:cs", font, false⟩]

/-- A font size in half-points. -/
def sizeXml (size : Int) : List Xml := [.val "w:sz" (toString size), .val "w:szCs" (toString size)]

namespace RunFormat

/-- The elements of a format in the order that the schema asks for. -/
def children (f : RunFormat) : List Xml :=
  optional (fun s => [.val "w:rStyle" s]) f.style ++
  optional (fun s => [fontXml s]) f.font ++
  whenSet f.bold (.tag "w:b") ++
  whenSet f.italic (.tag "w:i") ++
  optional (fun c => [.empty "w:color" [⟨"w:val", c, true⟩]]) f.color ++
  optional (fun n => sizeXml (n : Nat)) f.size ++
  optional (fun l => [.empty "w:lang" [⟨"w:val", l, true⟩]]) f.language

/-- The element of a format, unless it says nothing. -/
def xml (f : RunFormat) : List Xml :=
  if f.children.isEmpty then [] else [.plain "w:rPr" f.children]

end RunFormat

namespace Run

/-- A run of text. -/
def ofText (text : String) : Run := { content := .text text }

/-- A page break. -/
def pageBreak : Run := { content := .pageBreak }

/-- The number of the page. -/
def pageNumber : Run := { content := .pageNumber }

/-- The text of a run. -/
def text (r : Run) : String :=
  match r.content with
  | .text s => s
  | _ => ""

/-- Text that keeps its spaces. -/
def preserved (name text : String) : Xml :=
  .element name [⟨"xml:space", "preserve", false⟩] [.text text]

/-- A mark of a field. -/
def fieldMark (kind : String) : Xml :=
  .plain "w:r" [.empty "w:fldChar" [⟨"w:fldCharType", kind, false⟩]]

/-- The element of a content. -/
def contentXml : RunContent → List Xml
  | .text s => if s.isEmpty then [] else [preserved "w:t" s]
  | .pageBreak => [.empty "w:br" [⟨"w:type", "page", false⟩]]
  | .pageNumber => []

/-- The elements of a run. -/
def xml (r : Run) : List Xml :=
  match r.content with
  | .pageNumber =>
    [fieldMark "begin",
     .plain "w:r" (r.format.xml ++ [preserved "w:instrText" " PAGE "]),
     fieldMark "separate",
     .plain "w:r" (r.format.xml ++ [.plain "w:t" [.text "1"]]),
     fieldMark "end"]
  | content =>
    [.plain "w:r" (r.format.xml ++ whenSet r.breakBefore (.tag "w:br") ++ contentXml content)]

end Run

end ReportPress.Word
