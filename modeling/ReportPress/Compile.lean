import ReportPress.Enrich.Conventions
import ReportPress.Inline.Resolve
import ReportPress.Typeset.Report

/-!
# From a source to a Word document

* `parseFile` — a source file as it is read.
* `Compiled` — a document and what was noticed on the way.
* `compile` — reading, the conventions for reports, runes and typesetting, one after another.
-/

namespace ReportPress

/-- A source file as it is read. -/
def parseFile (files : Files) (p : Path) : Except Failure Markup.Parsed := do
  unless files.isPresent p do throw (.missingFile p)
  let source ← (files.readText p).mapError .storage
  (Markup.parse source).mapError .parse

/-- A document and what was noticed on the way. -/
structure Compiled where
  document : Word.Document
  diagnostics : List Diagnostic

/-- A source as it is read, with the conventions for reports applied. -/
def readReport (source : String) : Except Failure (RawDocument × List Diagnostic) := do
  let parsed ← (Markup.parse source).mapError .parse
  let (document, found) := Enrich.enrich parsed.document
  return (document, parsed.diagnostics ++ found)

/-- The Word document for a report with raw texts; the rainbow begins with its first colour. -/
def typesetRaw (files : Files) (directory : Path) (making : Typeset.Making) (d : RawDocument)
    (tools : Typeset.Tools := {}) : Except Failure Word.Document :=
  Typeset.typeset files directory making ((Inline.resolveDocument d).run (.ofDegrees 0)).1 tools

/-- The Word document for a source whose files are below a directory. -/
def compile (files : Files) (directory : Path) (making : Typeset.Making) (source : String)
    (tools : Typeset.Tools := {}) : Except Failure Compiled := do
  let (report, diagnostics) ← readReport source
  return ⟨← typesetRaw files directory making report tools, diagnostics⟩

end ReportPress
