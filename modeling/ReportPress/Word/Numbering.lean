import ReportPress.Word.Paragraph

/-!
# Numbering of lists

Every list has a definition of its own, with a level for each depth of nesting.  Definitions are
numbered from one, and an instance goes with each under the same number.

* `NumberFormat`, `NumberLevel` — how the items of a level are marked and indented.
* `Definition` — the levels of a list in ascending order.
* `Definition.add` — one more level; a level that is there already stays as it is.
* `definition?` — a definition by its number.
* `numberingXml` — all definitions as a part of the package.
-/

namespace ReportPress.Word

/-- What the items of a level are counted with. -/
inductive NumberFormat where
  | decimal
  | bullet
deriving DecidableEq, Repr

/-- The name of a format in a document. -/
def NumberFormat.name : NumberFormat → String
  | decimal => "decimal"
  | bullet => "bullet"

/-- How the items of a level are marked and indented; lengths are in twips. -/
structure NumberLevel where
  level : Nat
  format : NumberFormat
  /-- The mark, with a place for the number. -/
  text : String
  start : UInt32
  indentLeft : Int
  /-- Negative for a mark that hangs. -/
  indentFirstLine : Int
deriving DecidableEq, Repr

/-- The element of a level. -/
def NumberLevel.xml (l : NumberLevel) : Xml :=
  .element "w:lvl" [.nat "w:ilvl" l.level] [
    .val "w:start" (toString l.start.toNat),
    .val "w:numFmt" l.format.name,
    .val "w:lvlText" l.text,
    .val "w:lvlJc" "left",
    .plain "w:pPr" [.empty "w:ind" [.int "w:left" l.indentLeft,
      firstLineAttribute l.indentFirstLine]]]

/-- The levels of a list in ascending order. -/
abbrev Definition := List NumberLevel

namespace Definition

/-- Whether the level is there. -/
def hasLevel (d : Definition) (level : Nat) : Bool := d.any fun l => l.level = level

/-- The level put in its place among the others. -/
def insert (l : NumberLevel) : Definition → Definition
  | [] => [l]
  | k :: d => if l.level < k.level then l :: k :: d else k :: insert l d

/-- The definition with one more level, unless it is there already. -/
def add (d : Definition) (l : NumberLevel) : Definition :=
  if d.hasLevel l.level then d else insert l d

end Definition

/-- The definition with a number; numbers begin at one. -/
def definition? (definitions : List Definition) : Nat → Option Definition
  | 0 => none
  | n + 1 => definitions[n]?

/-- The definition with a number replaced. -/
def updateDefinition (definitions : List Definition) (number : Nat) (f : Definition → Definition) :
    List Definition :=
  match number with
  | 0 => definitions
  | n + 1 => definitions.modify n f

/-- The definition with its number. -/
def definitionXml (number : Nat) (d : Definition) : Xml :=
  .element "w:abstractNum" [.nat "w:abstractNumId" number]
    (.val "w:multiLevelType" "hybridMultilevel" :: d.map NumberLevel.xml)

/-- The instance of a definition. -/
def instanceXml (number : Nat) : Xml :=
  .element "w:num" [.nat "w:numId" number] [.val "w:abstractNumId" (toString number)]

/-- All definitions, and after them all instances. -/
def numberingXml (definitions : List Definition) : Xml :=
  .element "w:numbering"
    [⟨"xmlns:w", "http://schemas.openxmlformats.org/wordprocessingml/2006/main", false⟩]
    (definitions.mapIdx (fun i d => definitionXml (i + 1) d) ++
      (List.range definitions.length).map fun i => instanceXml (i + 1))

end ReportPress.Word
