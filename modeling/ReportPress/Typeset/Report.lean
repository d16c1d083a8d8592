import ReportPress.Code.Language
import ReportPress.Document.Basic
import ReportPress.Typeset.Flow
import ReportPress.Typeset.Inlines
import ReportPress.Typeset.ListLevels
import ReportPress.Typeset.Pictures
import ReportPress.Typeset.Placeholder
import ReportPress.Typeset.Sections
import ReportPress.Word.Document

/-!
# From a resolved report to a Word document

The nodes of a report are set one after another.  What lasts from one to the next is a ledger: the
bookmarks placed so far and the definitions of lists.  Pictures and other documents are looked up
in a file system, so a node can fail, and the first that does ends the work.

* `Ledger`, `Typesetter` — the state and the failures.
* `Tools` — what is left to others: the sizes of pictures, and the pieces of lines of code.
* `Surroundings` — where a report finds its files, whether its code is coloured, and the tools.
* `entryItems` — the items of a list.  Nested lists share the definition of the outermost one.
* `nodeItems` — a node of any kind, tables with their cells included.
* `typesetSection`, `typeset` — a section, and a whole report.
-/

namespace ReportPress.Typeset

open Word (Block ParagraphFormat)

/-! ## State and surroundings -/

/-- What lasts from one node to the next. -/
structure Ledger where
  bookmarks : Bookmarks := {}
  definitions : List Word.Definition := []

/-- Work on a report: it changes the ledger and can fail. -/
abbrev Typesetter := StateT Ledger (Except Failure)

/-- What is left to others. -/
structure Tools where
  /-- What reads the sizes of pictures. -/
  sizeOf? : Raster.SizeReader := Raster.pixelSize?
  /-- What cuts the lines of code in a language. -/
  tokenizerOf : String → Option Code.Tokenizer := Code.grammarOf

/-- Where a report finds its files, and how it sets its code. -/
structure Surroundings where
  files : Files
  directory : Path
  highlight : Bool
  tools : Tools

/-- The contents of a paragraph for runes. -/
def inlines (size : Option Nat) (runes : Runes) : Typesetter (List Word.Inline) := do
  let ledger ← get
  let (inlines, bookmarks) := (inlinesOf size runes).run ledger.bookmarks
  set { ledger with bookmarks }
  return inlines

/-- A paragraph of runes. -/
def paragraph (style : Option String) (format : ParagraphFormat) (runes : Runes) :
    Typesetter Word.Paragraph := do
  return { inlines := ← inlines none runes, style, format }

/-! ## Paragraphs and titles -/

/-- The spacing of single lines. -/
def singleLines : Int := Word.lineSpacing 1

/-- A paragraph whose first line is not indented. -/
def flush : ParagraphFormat := { indentFirstLine := some 0 }

/-- A paragraph in the middle of the page. -/
def centered : ParagraphFormat := { flush with alignment := some .center }

/-- The format of body text. -/
def textFormat (p : Paragraph Runes) : ParagraphFormat :=
  { indentFirstLine := if p.noIndent then some 0 else none
    spaceAfter := if p.noMargin then some 0 else none }

/-- The deepest heading that there is a style for. -/
def maxTitleLevel : Nat := 6

/-- The style of a heading. -/
def titleStyle (level : Nat) : String :=
  if level = 0 then "Title" else "Heading" ++ toString level

/-- A heading. -/
def titleItems (t : Title Runes) : Typesetter (List FlowItem) := do
  if maxTitleLevel < t.level then throw (.headingLevel t.level)
  let p ← paragraph (some (titleStyle t.level)) (if t.center then centered else {}) t.text
  return [.block (.paragraph p)]

/-! ## Lists -/

/-- A level of the definition with a number, unless that has it. -/
def registerLevel (number level : Nat) (style : ListStyle) : Typesetter Unit :=
  modify fun ledger =>
    { ledger with
      definitions := Word.updateDefinition ledger.definitions number (addLevel level style) }

/-- The number of a new definition.  There is one for each list that is not part of another, so it
never gets beyond the number of those (`number_le_of_typeset`). -/
def newDefinition : Typesetter Nat := do
  let ledger ← get
  set { ledger with definitions := ledger.definitions ++ [[]] }
  return ledger.definitions.length + 1

/-- An item of a list. -/
def itemBlock (number level : Nat) (runes : Runes) : Typesetter FlowItem := do
  let p ← paragraph (some "ListParagraph") { numbering := some (number, level) } runes
  return .block (.paragraph p)

mutual

/-- An entry of a list at a depth, by the number of the definition.  Whether the outermost list
has the alternate style decides for all lists in it. -/
def entryItems (alternate : Bool) (number level : Nat) : Entry Runes → Typesetter (List FlowItem)
  | .item text => do return [← itemBlock number level text]
  | .list style entries => do
    registerLevel number (level + 1) { style with alternate }
    entriesItems alternate number (level + 1) entries

/-- The entries of a list at a depth. -/
def entriesItems (alternate : Bool) (number level : Nat) :
    List (Entry Runes) → Typesetter (List FlowItem)
  | [] => return []
  | e :: entries => do
    let items ← entryItems alternate number level e
    let more ← entriesItems alternate number level entries
    return items ++ more

end

/-- A list that is not part of another. -/
def listItems (l : ItemList Runes) : Typesetter (List FlowItem) := do
  let number ← newDefinition
  registerLevel number 0 l.style
  entriesItems l.style.alternate number 0 l.entries

/-! ## Pictures, code and other documents -/

/-- A picture, and below it its caption if that says something. -/
def imageItems (s : Surroundings) (i : Image Runes) : Typesetter (List FlowItem) := do
  let loaded ← loadImage s.files s.directory i.source s.tools.sizeOf?
  let (width, height) := fit (loaded.width, loaded.height) i.width i.height
  let some picture := Word.Picture.ofBytes? loaded.data width height
    | throw (.unreadableImage (s.directory.join ⟨i.source⟩))
  let alt := plainText i.alt
  let shown : Word.Paragraph :=
    { inlines := [.picture { picture with description := alt }]
      format := { centered with keepNext := true } }
  if (Text.trimmed alt).isEmpty then return [.block (.paragraph shown)]
  let caption ← paragraph none { centered with line := some singleLines } i.alt
  return [.block (.paragraph shown), .block (.paragraph caption)]

/-- The run of a span of code. -/
def spanRun (span : Code.Span) : Word.Run where
  content := .text span.text
  format := { color := span.style.color, bold := span.style.bold, italic := span.style.italic }

/-- A line of code. -/
def lineItem (spans : List Code.Span) : FlowItem :=
  .block (.paragraph { inlines := spans.map fun span => .run (spanRun span), style := some "Code" })

/-- A block of code below its title. -/
def codeItems (s : Surroundings) (c : CodeBlock Runes) : Typesetter (List FlowItem) := do
  let title ← paragraph (some "CodeTitle") {} c.title
  let lines := Code.linesBy s.tools.tokenizerOf s.highlight c.language c.body
  return .block (.paragraph title) :: lines.map lineItem

/-- The paragraph that stands for another document. -/
def externalItems (s : Surroundings) (d : ExternalDocument) : Typesetter (List FlowItem) := do
  let text ← placeholder s.files s.directory d
  return [.block (.paragraph
    { inlines := [.run (.ofText text)], format := { flush with alignment := some .left } })]

/-- The label of the table of contents. -/
def contentsLabel : String := "Оглавление"

/-- The table of contents, on a page that ends with it. -/
def contentsItems : List FlowItem :=
  [.block (.contents { label := some contentsLabel }), .block (.paragraph breakParagraph)]

/-! ## Tables -/

/-- The width of tables in twips, that of the text. -/
def tableWidth : UInt32 := 9354

/-- The size of the text in tables, in half-points. -/
def tableFontSize : Nat := 24

/-- The caption above a table. -/
def captionItems : Option Runes → Typesetter (List FlowItem)
  | none => return []
  | some caption => do
    let p ← paragraph none { flush with line := some singleLines, keepNext := true } caption
    return [.block (.paragraph p)]

/-- Text in a cell; that of the first row is in the middle. -/
def cellText (normalFontSize isHeader : Bool) (p : Paragraph Runes) : Typesetter Block := do
  let inlines ← inlines (if normalFontSize then none else some tableFontSize) p.text
  return .paragraph
    { inlines
      format :=
        { alignment := some (if isHeader then .center else .left)
          indentFirstLine := some 0
          spaceAfter := some 0
          line := some (Word.lineSpacing (5 / 4)) } }

mutual

/-- A node of a section.  A break in a cell does not end a section and is left out. -/
def nodeItems (s : Surroundings) : Node Runes → Typesetter (List FlowItem)
  | .text p => do return [.text (← paragraph none (textFormat p) p.text)]
  | .title t => titleItems t
  | .pageBreak => return [.pageBreak]
  | .contents => return contentsItems
  | .table caption rows normalFontSize => do
    let above ← captionItems caption
    let rows ← rowsBlocks s normalFontSize true rows
    return above ++ [.block (.table tableWidth 1 rows)]
  | .list l => listItems l
  | .image i => imageItems s i
  | .code c => codeItems s c
  | .external d => externalItems s d
  | .sectionBreak _ => return []

/-- The cells of a row. -/
def cellsBlocks (s : Surroundings) (normalFontSize isHeader : Bool) :
    List (Node Runes) → Typesetter (List (List Block))
  | [] => return []
  | node :: nodes => do
    let cell ← match node with
      | .text p => do pure [← cellText normalFontSize isHeader p]
      | node => do pure (blocksOf (← nodeItems s node))
    let cells ← cellsBlocks s normalFontSize isHeader nodes
    return cell :: cells

/-- The rows of a table; the first of them may be its header. -/
def rowsBlocks (s : Surroundings) (normalFontSize isHeader : Bool) :
    List (List (Node Runes)) → Typesetter (List (List (List Block)))
  | [] => return []
  | row :: rows => do
    let cells ← cellsBlocks s normalFontSize isHeader row
    let more ← rowsBlocks s normalFontSize false rows
    return cells :: more

end

/-! ## Sections and reports -/

/-- The footer with the number of the page. -/
def numberFooter : Word.Paragraph where
  inlines := [.run .pageNumber]
  style := some "Footer"
  format := { centered with line := some singleLines }

/-- A section.  Pages are numbered in sections that say where to begin. -/
def typesetSection (s : Surroundings) (part : Section Runes) : Typesetter Word.Section := do
  let items ← part.nodes.mapM (nodeItems s)
  return {
    blocks := blocksOf items.flatten
    setup := { Word.PageSetup.report with pageStart := part.pageStart }
    footer := if part.pageStart.isSome then [numberFooter] else [] }

/-- The language of reports. -/
def reportLanguage : String := "ru-RU"

/-- What is recorded about the making of a document. -/
structure Making where
  /-- Seconds since the beginning of 1970. -/
  moment : Int
  /-- The time spent on the document. -/
  editMinutes : Nat := 0
deriving DecidableEq, Repr

/-- The facts that are recorded in a document. -/
def propertiesOf (making : Making) (settings : Settings) : Word.Properties where
  title := settings.title
  creator := settings.author
  language := some reportLanguage
  moment := some making.moment
  editMinutes := making.editMinutes

/-- The Word document for a report whose files are below a directory. -/
def typeset (files : Files) (directory : Path) (making : Making) (d : ResolvedDocument)
    (tools : Tools := {}) : Except Failure Word.Document := do
  let s : Surroundings := ⟨files, directory, d.settings.highlightCode, tools⟩
  let (sections, ledger) ← ((splitSections d.sections).mapM (typesetSection s)).run {}
  return ({ definitions := ledger.definitions
            properties := propertiesOf making d.settings
            updateFields := true : Word.Document }).withSections sections

end ReportPress.Typeset
