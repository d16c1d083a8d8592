import ReportPress.Word.Paragraph

/-!
# Styles

* `StyleKind`, `Style` — named formats of paragraphs and of runs.
* `Style.xml` — the element of a style.
* `Style.normal`, `Style.heading` and the others — the styles of a report.
* `stylesXml` — styles as a part of the package.
-/

namespace ReportPress.Word

/-- What a style is for. -/
inductive StyleKind where
  | paragraph
  | character
deriving DecidableEq, Repr

/-- The name of a kind in a document. -/
def StyleKind.name : StyleKind → String
  | paragraph => "paragraph"
  | character => "character"

/-- A named format; lengths are in twips. -/
structure Style where
  id : String
  name : String
  kind : StyleKind := .paragraph
  isDefault : Bool := false
  basedOn : Option String := none
  /-- The style of the paragraph that follows. -/
  next : Option String := none
  priority : Option Int := none
  isQuick : Bool := false
  keepNext : Bool := false
  /-- The level in the table of contents, from zero. -/
  outlineLevel : Option Nat := none
  font : Option String := none
  /-- In half-points. -/
  size : Option Int := none
  bold : Bool := false
  underline : Bool := false
  caps : Bool := false
  color : Option String := none
  /-- The name of an alignment, written as it is. -/
  alignment : Option String := none
  spaceBefore : Option Int := none
  spaceAfter : Option Int := none
  line : Option Int := none
  indentLeft : Option Int := none
  indentFirstLine : Option Int := none
deriving DecidableEq, Repr

namespace Style

/-! ## Printing -/

/-- What a style says about paragraphs. -/
def paragraphChildren (s : Style) : List Xml :=
  whenSet s.keepNext (.tag "w:keepNext") ++
  spacingXml s.spaceBefore s.spaceAfter s.line ++
  indentXml s.indentLeft s.indentFirstLine ++
  optional (fun a => [.empty "w:jc" [⟨"w:val", a, true⟩]]) s.alignment ++
  optional (fun n => [.val "w:outlineLvl" (toString (n : Nat))]) s.outlineLevel

/-- What a style says about runs. -/
def runChildren (s : Style) : List Xml :=
  optional (fun f => [fontXml f]) s.font ++
  whenSet s.bold (.tag "w:b") ++
  whenSet s.caps (.tag "w:caps") ++
  optional (fun c => [.val "w:color" c]) s.color ++
  optional sizeXml s.size ++
  whenSet s.underline (.val "w:u" "single")

/-- An element, unless it would have no children. -/
def unlessEmpty (name : String) (children : List Xml) : List Xml :=
  if children.isEmpty then [] else [.plain name children]

/-- The element of a style. -/
def xml (s : Style) : Xml :=
  .element "w:style"
    ([⟨"w:type", s.kind.name, false⟩, ⟨"w:styleId", s.id, false⟩] ++
      if s.isDefault then [.nat "w:default" 1] else [])
    (.val "w:name" s.name ::
      optional (fun b => [.val "w:basedOn" b]) s.basedOn ++
      optional (fun n => [.val "w:next" n]) s.next ++
      optional (fun p => [.val "w:uiPriority" (toString (p : Int))]) s.priority ++
      whenSet s.isQuick (.tag "w:qFormat") ++
      (if s.kind = .paragraph then unlessEmpty "w:pPr" s.paragraphChildren else []) ++
      unlessEmpty "w:rPr" s.runChildren)

/-! ## The styles of a report -/

/-- The font of code. -/
def codeFont : String := "Courier New"

/-- The font of everything else. -/
def bodyFont : String := "Times New Roman"

/-- Body text: justified, one and a half lines, the first line indented by 12.5 mm. -/
def normal : Style where
  id := "Normal"
  name := "Normal"
  isDefault := true
  isQuick := true
  alignment := some "both"
  spaceBefore := some 0
  spaceAfter := some 160
  line := some 360
  indentFirstLine := some (Length.mmToTwip (25 / 2))

/-- Headings of the front matter: centred, in bold capitals. -/
def title : Style where
  id := "Title"
  name := "Title"
  basedOn := some "Normal"
  next := some "Normal"
  priority := some 10
  isQuick := true
  keepNext := true
  outlineLevel := some 0
  alignment := some "center"
  spaceAfter := some 240
  indentFirstLine := some (Length.mmToTwip 0)
  bold := true
  caps := true

/-- Headings of the levels one to six. -/
def heading (level : Nat) : Style :=
  let level := max 1 (min level 6)
  { id := "Heading" ++ toString level
    name := "heading " ++ toString level
    basedOn := some "Normal"
    next := some "Normal"
    priority := some 9
    isQuick := true
    keepNext := true
    outlineLevel := some (level - 1)
    alignment := some "left"
    spaceBefore := some 240
    spaceAfter := some 240
    bold := true
    size := if level = 1 then some (Length.ptToHalfPoints 16) else none }

/-- Items of lists. -/
def listParagraph : Style where
  id := "ListParagraph"
  name := "List Paragraph"
  basedOn := some "Normal"
  priority := some 34
  isQuick := true
  indentFirstLine := some (Length.mmToTwip 0)

/-- The line above a block of code. -/
def codeTitle : Style where
  id := "CodeTitle"
  name := "Code Title"
  basedOn := some "Normal"
  next := some "Code"
  keepNext := true
  alignment := some "left"
  spaceBefore := some 120
  spaceAfter := some 0
  indentFirstLine := some (Length.mmToTwip 0)

/-- Lines of code. -/
def code : Style where
  id := "Code"
  name := "Code"
  basedOn := some "Normal"
  alignment := some "left"
  spaceBefore := some 0
  spaceAfter := some 0
  line := some 240
  indentFirstLine := some (Length.mmToTwip 0)
  font := some codeFont
  size := some (Length.ptToHalfPoints 10)

/-- The character style that others rest on. -/
def defaultParagraphFont : Style where
  id := "DefaultParagraphFont"
  name := "Default Paragraph Font"
  kind := .character
  isDefault := true
  priority := some 1

/-- Text under a link. -/
def hyperlink : Style where
  id := "Hyperlink"
  name := "Hyperlink"
  kind := .character
  basedOn := some "DefaultParagraphFont"
  priority := some 99
  color := some "0563C1"
  underline := true

/-- Footers. -/
def footer : Style where
  id := "Footer"
  name := "footer"
  basedOn := some "Normal"
  priority := some 99

/-- All styles that a report uses. -/
def report : List Style :=
  [normal, defaultParagraphFont, title] ++ [1, 2, 3, 4, 5, 6].map heading ++
    [listParagraph, codeTitle, code, hyperlink, footer]

end Style

/-- What holds where no style says otherwise: 14 points, and the language of the report. -/
def styleDefaults : Xml :=
  .plain "w:docDefaults" [
    .plain "w:rPrDefault" [.plain "w:rPr" (
      .empty "w:rFonts" [⟨"w:ascii", Style.bodyFont, false⟩, ⟨"w:eastAsia", Style.bodyFont, false⟩,
        ⟨"w:hAnsi", Style.bodyFont, false⟩, ⟨"w:cs", Style.bodyFont, false⟩] ::
      sizeXml (Length.ptToHalfPoints 14) ++
      [.empty "w:lang" [⟨"w:val", "ru-RU", false⟩, ⟨"w:eastAsia", "en-US", false⟩,
        ⟨"w:bidi", "ar-SA", false⟩]])],
    .tag "w:pPrDefault"]

/-- Styles as a part of the package. -/
def stylesXml (styles : List Style) : Xml :=
  .element "w:styles"
    [⟨"xmlns:w", "http://schemas.openxmlformats.org/wordprocessingml/2006/main", false⟩,
     ⟨"xmlns:r", "http://schemas.openxmlformats.org/officeDocument/2006/relationships", false⟩]
    (styleDefaults :: styles.map Style.xml)

end ReportPress.Word
