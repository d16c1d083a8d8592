import ReportPress.Length
import ReportPress.Xml.Tree

/-!
# Pages

* `PageSetup` — the size of the pages of a section, their margins and the number of the first.
* `PageSetup.textWidth` — the width between the margins.
* `PageSetup.xml` — the element; it names the footer of the section.
-/

namespace ReportPress.Word

open Length

/-- The pages of a section; lengths are in twips. -/
structure PageSetup where
  pageWidth : Int
  pageHeight : Int
  marginTop : Int
  marginBottom : Int
  marginLeft : Int
  marginRight : Int
  headerDistance : Int
  footerDistance : Int
  /-- The number of the first page; without one the numbering of the section before goes on. -/
  pageStart : Option UInt32
deriving DecidableEq, Repr

namespace PageSetup

/-- A4 upright: 20 mm above and below, 30 mm on the left and 15 mm on the right. -/
def report : PageSetup where
  pageWidth := mmToTwip 210
  pageHeight := mmToTwip 297
  marginTop := mmToTwip 20
  marginBottom := mmToTwip 20
  marginLeft := mmToTwip 30
  marginRight := mmToTwip 15
  headerDistance := 708
  footerDistance := 708
  pageStart := none

/-- The width between the margins, in 32 bits. -/
def textWidth (s : PageSetup) : Int := wrapSigned (s.pageWidth - s.marginLeft - s.marginRight)

/-- The element of a setup, with the identifier of the footer. -/
def xml (s : PageSetup) (footerId : String) : Xml :=
  .plain "w:sectPr" ([
    .empty "w:footerReference" [⟨"w:type", "default", false⟩, ⟨"r:id", footerId, false⟩],
    .val "w:type" "nextPage",
    .empty "w:pgSz" [.int "w:w" s.pageWidth, .int "w:h" s.pageHeight],
    .empty "w:pgMar" [.int "w:top" s.marginTop, .int "w:right" s.marginRight,
      .int "w:bottom" s.marginBottom, .int "w:left" s.marginLeft,
      .int "w:header" s.headerDistance, .int "w:footer" s.footerDistance, .nat "w:gutter" 0]] ++
    match s.pageStart with
    | none => []
    | some n => [.empty "w:pgNumType" [.nat "w:start" n.toNat]])

end PageSetup

end ReportPress.Word
