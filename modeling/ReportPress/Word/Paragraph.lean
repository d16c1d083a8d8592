import ReportPress.Document.Rune
import ReportPress.Length
import ReportPress.Word.Bookmark
import ReportPress.Word.Relation
import ReportPress.Word.Run

/-!
# Paragraphs of a Word document

* `Picture` — a picture in a line of text.
* `Inline` — what a paragraph holds: runs, links, pictures and the ends of bookmarks.
* `ParagraphFormat`, `Paragraph` — paragraphs.
* `Paragraph.text` — the text of all runs, those under links included.
* `Paragraph.xml` — the element of a paragraph.  Links to addresses and pictures become references
  on the way.  The last paragraph of a section also holds the setup of its pages.
-/

namespace ReportPress.Word

/-! ## Pictures -/

/-- A picture in a line of text. -/
structure Picture where
  data : Bytes
  format : ImageFormat
  /-- In English metric units. -/
  width : Nat
  height : Nat
  description : String := ""
deriving Repr

namespace Picture

/-- A picture of a size in pixels; its format is seen from its first bytes. -/
def ofBytes? (data : Bytes) (width height : UInt32) : Option Picture :=
  (ImageFormat.detect data).map fun format =>
    { data, format, width := Length.pxToEmu width, height := Length.pxToEmu height }

/-- The address that stands for pictures. -/
def address : String := "http://schemas.openxmlformats.org/drawingml/2006/picture"

/-- A size, as an attribute pair of an element. -/
def extent (name : String) (p : Picture) : Xml :=
  .empty name [.nat "cx" p.width, .nat "cy" p.height]

/-- Number, name and description of a picture. -/
def identity (name : String) (number : Nat) (description : String) : Xml :=
  .empty name [.nat "id" number, ⟨"name", "Picture " ++ toString number, false⟩,
    ⟨"descr", description, false⟩]

/-- The graphic of a picture: the reference to its data, and its shape. -/
def graphic (p : Picture) (id : String) (number : Nat) : Xml :=
  .plain "a:graphic" [.element "a:graphicData" [⟨"uri", address, false⟩] [.plain "pic:pic" [
    .plain "pic:nvPicPr" [identity "pic:cNvPr" number p.description, .tag "pic:cNvPicPr"],
    .plain "pic:blipFill" [.empty "a:blip" [⟨"r:embed", id, false⟩],
      .plain "a:stretch" [.tag "a:fillRect"]],
    .plain "pic:spPr" [
      .plain "a:xfrm" [.empty "a:off" [.nat "x" 0, .nat "y" 0], p.extent "a:ext"],
      .element "a:prstGeom" [⟨"prst", "rect", false⟩] [.tag "a:avLst"]]]]]

/-- The run of a picture. -/
def xml (p : Picture) : StateM References Xml := do
  let (id, number) ← References.addPicture p.format p.data
  return .plain "w:r" [.plain "w:drawing" [
    .element "wp:inline" [.nat "distT" 0, .nat "distB" 0, .nat "distL" 0, .nat "distR" 0] [
      p.extent "wp:extent",
      .empty "wp:effectExtent" [.nat "l" 0, .nat "t" 0, .nat "r" 0, .nat "b" 0],
      identity "wp:docPr" number p.description,
      .plain "wp:cNvGraphicFramePr" [.empty "a:graphicFrameLocks" [.nat "noChangeAspect" 1]],
      p.graphic id number]]]

end Picture

/-! ## Links -/

/-- A run under a link has the style of links, unless it has one of its own. -/
def linkedRun (r : Run) : Run :=
  if r.format.style.isNone then { r with format.style := some "Hyperlink" } else r

/-- The element of a link. -/
def linkXml (target : LinkTarget) (runs : List Run) : StateM References Xml := do
  let destination : Attribute ← match target with
    | .external address => do
      let id ← References.add .hyperlink address
      pure ⟨"r:id", id, false⟩
    | .anchor name => pure ⟨"w:anchor", bookmarkName name, false⟩
  return .element "w:hyperlink" [destination, .nat "w:history" 1] (runs.flatMap Run.xml)

/-! ## Contents of a paragraph -/

/-- What a paragraph holds. -/
inductive Inline where
  | run (run : Run)
  | link (target : LinkTarget) (runs : List Run)
  | picture (picture : Picture)
  | bookmarkStart (id : Nat) (anchor : String)
  | bookmarkEnd (id : Nat)
deriving Repr

namespace Inline

/-- A link over runs, in the style of links. -/
def linkOver (target : LinkTarget) (runs : List Run) : Inline := .link target (runs.map linkedRun)

/-- The text of runs. -/
def text : Inline → String
  | .run r => r.text
  | .link _ runs => String.join (runs.map Run.text)
  | _ => ""

/-- The elements of what a paragraph holds. -/
def xml : Inline → StateM References (List Xml)
  | .run r => return r.xml
  | .link target runs => return [← linkXml target runs]
  | .picture p => return [← p.xml]
  | .bookmarkStart id anchor =>
    return [.empty "w:bookmarkStart" [.nat "w:id" id, ⟨"w:name", bookmarkName anchor, false⟩]]
  | .bookmarkEnd id => return [.empty "w:bookmarkEnd" [.nat "w:id" id]]

end Inline

/-! ## Formats -/

/-- How the lines of a paragraph are placed. -/
inductive Alignment where
  | left
  | center
  | right
  | justify
deriving DecidableEq, Repr

namespace Alignment

/-- The name of an alignment in a document. -/
def name : Alignment → String
  | left => "left"
  | center => "center"
  | right => "right"
  | justify => "both"

end Alignment

/-- A multiple of the line height, in 240ths of a line. -/
def lineSpacing (multiple : Rat) : Int :=
  Number.clamp 0 Length.maxUnsigned (Number.halfAway (Number.Binary64.round (multiple * 240)))

/-- Space around a paragraph and between its lines, unless nothing is said about it. -/
def spacingXml (before after line : Option Int) : List Xml :=
  let attributes :=
    (before.map (Attribute.int "w:before")).toList ++
    (after.map (Attribute.int "w:after")).toList ++
    (line.map fun n => [Attribute.int "w:line" n, ⟨"w:lineRule", "auto", false⟩]).getD []
  if attributes.isEmpty then [] else [.empty "w:spacing" attributes]

/-- The indent of a first line; a negative one makes the line hang.  The least number of 32 bits
has no opposite and hangs by itself. -/
def firstLineAttribute (n : Int) : Attribute :=
  if 0 ≤ n then .int "w:firstLine" n else .int "w:hanging" (Length.wrapSigned (-n))

/-- The indents of a paragraph, unless nothing is said about them. -/
def indentXml (left firstLine : Option Int) : List Xml :=
  let attributes :=
    (left.map (Attribute.int "w:left")).toList ++ (firstLine.map firstLineAttribute).toList
  if attributes.isEmpty then [] else [.empty "w:ind" attributes]

/-- The format of a paragraph; lengths are in twips. -/
structure ParagraphFormat where
  keepNext : Bool := false
  /-- The numbering instance and the level in it. -/
  numbering : Option (Nat × Nat) := none
  spaceBefore : Option Int := none
  spaceAfter : Option Int := none
  line : Option Int := none
  indentLeft : Option Int := none
  indentFirstLine : Option Int := none
  alignment : Option Alignment := none
deriving DecidableEq, Repr

/-- The elements of a format in the order that the schema asks for. -/
def ParagraphFormat.children (f : ParagraphFormat) : List Xml :=
  whenSet f.keepNext (.tag "w:keepNext") ++
  optional (fun n => [.plain "w:numPr" [.val "w:ilvl" (toString n.2),
    .val "w:numId" (toString n.1)]]) f.numbering ++
  spacingXml f.spaceBefore f.spaceAfter f.line ++
  indentXml f.indentLeft f.indentFirstLine ++
  optional (fun a => [.val "w:jc" a.name]) f.alignment

/-! ## Paragraphs -/

/-- A paragraph. -/
structure Paragraph where
  inlines : List Inline := []
  style : Option String := none
  format : ParagraphFormat := {}
deriving Repr

namespace Paragraph

/-- An empty paragraph in a style. -/
def ofStyle (style : String) : Paragraph := { style := some style }

/-- The paragraph with one more inline at its end. -/
def push (p : Paragraph) (i : Inline) : Paragraph := { p with inlines := p.inlines ++ [i] }

/-- The text of all runs. -/
def text (p : Paragraph) : String := String.join (p.inlines.map Inline.text)

/-- Whether the last thing in the paragraph is a page break. -/
def endsWithPageBreak (p : Paragraph) : Bool :=
  match p.inlines.getLast? with
  | some (.run r) => decide (r.content = .pageBreak)
  | _ => false

/-- The properties of a paragraph, unless there are none; `setup` is that of the pages of the
section that ends with the paragraph. -/
def properties (p : Paragraph) (setup : Option Xml) : List Xml :=
  let children :=
    optional (fun s => [.val "w:pStyle" s]) p.style ++ p.format.children ++ setup.toList
  if children.isEmpty then [] else [.plain "w:pPr" children]

/-- The element of a paragraph that may hold the setup of the pages of a section. -/
def xmlWith (p : Paragraph) (setup : Option Xml) : StateM References Xml := do
  let inlines ← p.inlines.mapM Inline.xml
  return .plain "w:p" (p.properties setup ++ inlines.flatten)

/-- The element of a paragraph. -/
def xml (p : Paragraph) : StateM References Xml := p.xmlWith none

end Paragraph

end ReportPress.Word
