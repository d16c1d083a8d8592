import ReportPress.Storage.Path

/-!
# What is written beside a source

* `outputStem` — the name of a source without its extension and its marks.
* `OutputPaths` — all paths that making a report touches.
* `OutputPaths.ofSource` — those for a source.
-/

namespace ReportPress.Press

/-- A name, read backwards, without the marks that sources end with before their extension. -/
def dropSourceMarks : List Char → List Char
  | 'g' :: '.' :: rest => dropSourceMarks rest
  | name => name

/-- The name of a source without its extension and its marks. -/
def outputStem (source : Path) : String :=
  String.ofList (dropSourceMarks source.stem.toList.reverse).reverse

/-- All paths that making a report touches. -/
structure OutputPaths where
  /-- Where the source is, and what it refers to is looked for. -/
  directory : Path
  stem : String
  /-- The document before the finishing touches. -/
  temp : Path
  docx : Path
  pdf : Path
  /-- Where the exported parts are put. -/
  pdfParts : Path
deriving DecidableEq, Repr

/-- The folder for exported parts. -/
def partsFolder : Path := ⟨".md2gost_out"⟩

/-- The paths for a source with an absolute path. -/
def OutputPaths.ofSource (source : Path) : OutputPaths :=
  let source := source.cleaned
  let directory := source.directory?.getD ⟨""⟩
  let stem := outputStem source
  { directory
    stem
    temp := directory.join ⟨stem ++ ".tmp.docx"⟩
    docx := directory.join ⟨stem ++ ".docx"⟩
    pdf := directory.join ⟨stem ++ ".pdf"⟩
    pdfParts := directory.join partsFolder }

end ReportPress.Press
