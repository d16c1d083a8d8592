import ReportPress.Calendar
import ReportPress.Xml.Tree

/-!
# Facts about a document

* `Properties` — title, author, dates and the time spent on a document.
* `Properties.coreXml`, `Properties.appXml` — the two parts that hold them.
-/

namespace ReportPress.Word

/-- Facts about a document. -/
structure Properties where
  title : Option String := none
  /-- The author, who is also recorded as the last to have changed the document. -/
  creator : Option String := none
  language : Option String := none
  /-- The moment of creation and of the last change. -/
  moment : Option Int := none
  /-- The time spent on the document. -/
  editMinutes : Nat := 0
deriving DecidableEq, Repr

namespace Properties

/-- An element with a text, if there is one. -/
def textElement (name : String) : Option String → List Xml
  | none => []
  | some s => [.plain name [.text s]]

/-- An element with a moment, if there is one. -/
def momentElement (name : String) : Option Int → List Xml
  | none => []
  | some t => [.element name [⟨"xsi:type", "dcterms:W3CDTF", false⟩]
      [.text (Calendar.timestamp t)]]

/-- Everything but the time spent. -/
def coreXml (p : Properties) : Xml :=
  .element "cp:coreProperties"
    [⟨"xmlns:cp", "http://schemas.openxmlformats.org/package/2006/metadata/core-properties", false⟩,
     ⟨"xmlns:dc", "http://purl.org/dc/elements/1.1/", false⟩,
     ⟨"xmlns:dcterms", "http://purl.org/dc/terms/", false⟩,
     ⟨"xmlns:dcmitype", "http://purl.org/dc/dcmitype/", false⟩,
     ⟨"xmlns:xsi", "http://www.w3.org/2001/XMLSchema-instance", false⟩]
    (textElement "dc:title" p.title ++ textElement "dc:creator" p.creator ++
      textElement "cp:lastModifiedBy" p.creator ++ textElement "dc:language" p.language ++
      momentElement "dcterms:created" p.moment ++ momentElement "dcterms:modified" p.moment)

/-- The time spent. -/
def appXml (p : Properties) : Xml :=
  .element "Properties"
    [⟨"xmlns", "http://schemas.openxmlformats.org/officeDocument/2006/extended-properties", false⟩,
     ⟨"xmlns:vt", "http://schemas.openxmlformats.org/officeDocument/2006/docPropsVTypes", false⟩]
    [.plain "Application" [.text "md2gost"],
     .plain "TotalTime" [.text (toString p.editMinutes)]]

end Properties

end ReportPress.Word
