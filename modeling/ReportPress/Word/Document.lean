import ReportPress.Word.Block
import ReportPress.Word.Numbering
import ReportPress.Word.Package
import ReportPress.Word.PageSetup
import ReportPress.Word.Properties
import ReportPress.Word.Style

/-!
# Word documents

A document is a sequence of sections, each with its pages, its footer and its blocks, and what
they share: styles, numbering and facts about the document.  Blocks are added at the end of the
last section.

* `Section`, `Document` — the model.  A document has at least one section.
* `Document.push`, `Document.addSection` and the others — how a document grows.
* `bodyXml` — the text of all sections.  The setup of a section stands at its end: in its last
  paragraph, or in a paragraph of its own if it ends with something else; that of the last
  section stands by itself.
* `Document.package` — all parts of the document.
-/

namespace ReportPress.Word

/-- Blocks that share the setup of their pages and a footer. -/
structure Section where
  blocks : List Block := []
  setup : PageSetup := .report
  footer : List Paragraph := []

/-- A Word document. -/
structure Document where
  /-- All sections but the last, the newest first. -/
  before : List Section := []
  /-- The last section. -/
  current : Section := {}
  definitions : List Definition := []
  styles : List Style := Style.report
  properties : Properties := {}
  /-- A word processor is to fill in the fields when it opens the document. -/
  updateFields : Bool := false

namespace Document

/-! ## Growing -/

/-- The sections in order. -/
def sections (d : Document) : List Section := d.before.reverse ++ [d.current]

/-- The document with the given sections in place of its own, if there are any. -/
def withSections (d : Document) (sections : List Section) : Document :=
  match sections.reverse with
  | [] => d
  | last :: before => { d with before, current := last }

/-- A new section after the others. -/
def addSection (d : Document) (setup : PageSetup) : Document :=
  { d with before := d.current :: d.before, current := { setup } }

/-- The document with its last section changed. -/
def mapCurrent (d : Document) (f : Section → Section) : Document :=
  { d with current := f d.current }

/-- The document with its first section changed. -/
def mapFirst (d : Document) (f : Section → Section) : Document :=
  match d.before.getLast? with
  | none => d.mapCurrent f
  | some first => { d with before := d.before.dropLast ++ [f first] }

/-- One more block at the end of the last section. -/
def push (d : Document) (b : Block) : Document :=
  d.mapCurrent fun s => { s with blocks := s.blocks ++ [b] }

/-- One more paragraph in the footer of the last section. -/
def pushFooter (d : Document) (p : Paragraph) : Document :=
  d.mapCurrent fun s => { s with footer := s.footer ++ [p] }

/-- The last block of the last section with a page break at its end, if it is a paragraph. -/
def breakLastParagraph? (d : Document) : Option Document :=
  match d.current.blocks.getLast? with
  | some (.paragraph p) =>
    some (d.mapCurrent fun s =>
      { s with blocks := s.blocks.dropLast ++ [.paragraph (p.push (.run .pageBreak))] })
  | _ => none

/-- A new list definition; the answer is its number. -/
def addDefinition (d : Document) : Nat × Document :=
  (d.definitions.length + 1, { d with definitions := d.definitions ++ [[]] })

/-- The number of paragraphs that are blocks of a section. -/
def paragraphCount (d : Document) : Nat :=
  (d.sections.flatMap (·.blocks)).countP Block.isParagraph

end Document

/-! ## Parts -/

/-- The namespaces of parts with references and pictures. -/
def namespaces : List Attribute := [
  ⟨"xmlns:w", "http://schemas.openxmlformats.org/wordprocessingml/2006/main", false⟩,
  ⟨"xmlns:r", "http://schemas.openxmlformats.org/officeDocument/2006/relationships", false⟩,
  ⟨"xmlns:wp", "http://schemas.openxmlformats.org/drawingml/2006/wordprocessingDrawing", false⟩,
  ⟨"xmlns:a", "http://schemas.openxmlformats.org/drawingml/2006/main", false⟩,
  ⟨"xmlns:pic", "http://schemas.openxmlformats.org/drawingml/2006/picture", false⟩]

/-- The name of a section's footer, by the number of the section. -/
def footerName (number : Nat) : String := "footer" ++ toString number ++ ".xml"

/-- The end of a section that is not the last: its last paragraph with the setup, or all of it
with a paragraph more. -/
def closedSectionXml (blocks : List Block) (setup : Xml) : StateM References (List Xml) := do
  match blocks.getLast? with
  | some (.paragraph p) =>
    let xs ← blocksXml blocks.dropLast
    let x ← p.xmlWith (some setup)
    return xs ++ [x]
  | _ =>
    let xs ← blocksXml blocks
    return xs ++ [.plain "w:p" [.plain "w:pPr" [setup]]]

/-- The elements of the sections, the first of which has the given number. -/
def sectionsXml (number : Nat) : List Section → StateM References (List Xml)
  | [] => return []
  | s :: rest => do
    let footerId ← References.add .footer (footerName number)
    let setup := s.setup.xml footerId
    if rest.isEmpty then
      let xs ← blocksXml s.blocks
      return xs ++ [setup]
    else
      let xs ← closedSectionXml s.blocks setup
      let more ← sectionsXml (number + 1) rest
      return xs ++ more

/-- The text of the document. -/
def bodyXml (d : Document) : StateM References Xml := do
  let body ← sectionsXml 1 d.sections
  return .element "w:document" namespaces [.plain "w:body" body]

/-- The footer of a section.  Its text refers to nothing outside it. -/
def footerXml (s : Section) : Xml :=
  let paragraphs := ((s.footer.mapM Paragraph.xml).run References.initial).1
  .element "w:ftr" namespaces (if s.footer.isEmpty then [.tag "w:p"] else paragraphs)

/-- The settings of the document. -/
def settingsXml (d : Document) : Xml :=
  .element "w:settings"
    [⟨"xmlns:w", "http://schemas.openxmlformats.org/wordprocessingml/2006/main", false⟩]
    ([.val "w:defaultTabStop" "708", .val "w:characterSpacingControl" "doNotCompress"] ++
      whenSet d.updateFields (.val "w:updateFields" "true") ++
      [.plain "w:compat" [.empty "w:compatSetting" [⟨"w:name", "compatibilityMode", false⟩,
        ⟨"w:uri", "http://schemas.microsoft.com/office/word", false⟩, .nat "w:val" 15]]])

/-- The footers of the sections as parts. -/
def addFooters (number : Nat) (p : Package) : List Section → Except DuplicateEntry Package
  | [] => .ok p
  | s :: rest => do
    let p ← p.addPart ("word/" ++ footerName number) PartType.footer.name (Xml.part (footerXml s))
    addFooters (number + 1) p rest

/-- The pictures as entries. -/
def addPictures (number : Nat) (p : Package) : List Media → Except DuplicateEntry Package
  | [] => .ok p
  | m :: rest => do
    let p ← p.addMedia ("word/media/" ++ mediaName number m.format) m.format m.data
    addPictures (number + 1) p rest

/-- The entries of the whole document. -/
def Document.package (d : Document) : Except DuplicateEntry (List Entry) := do
  let (body, references) := (bodyXml d).run .initial
  let p ← ({} : Package).addPart "word/document.xml" PartType.document.name (Xml.part body)
  let p ← p.addRelations "word/_rels/document.xml.rels" (Xml.part references.xml)
  let p ← p.addPart "word/styles.xml" PartType.styles.name (Xml.part (stylesXml d.styles))
  let p ← p.addPart "word/numbering.xml" PartType.numbering.name
    (Xml.part (numberingXml d.definitions))
  let p ← p.addPart "word/settings.xml" PartType.settings.name (Xml.part (settingsXml d))
  let p ← addFooters 1 p d.sections
  let p ← addPictures 1 p references.media
  let p ← p.addPart "docProps/core.xml" PartType.coreProperties.name
    (Xml.part d.properties.coreXml)
  let p ← p.addPart "docProps/app.xml" PartType.extendedProperties.name
    (Xml.part d.properties.appXml)
  p.finish

end ReportPress.Word
