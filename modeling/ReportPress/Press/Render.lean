import ReportPress.Compile
import ReportPress.Press.Finishing
import ReportPress.Press.OutputPaths

/-!
# Making a report

A source is read, typeset and written beside itself: first under a name for the time being, then,
with or without the finishing touches, under its own.

* `Rendered` — what has been made.
* `draft` — from the source to the document under the name for the time being.
* `finished` — the finishing touches and the export.
* `renderFile` — a whole report.
* `render` — the same, one report at a time.
-/

namespace ReportPress.Press

/-- What has been made. -/
structure Rendered where
  output : Path
  diagnostics : List Diagnostic
deriving DecidableEq, Repr

/-- Fails if a file could not be written. -/
def ensureUnlocked (p : Path) : Work Unit := do
  if ← Work.look (·.isLocked p) then throw (.locked p)

/-- The text of a source. -/
def readSource (source : Path) : Work String := do
  unless (← get).files.isFile source do throw (.missingFile source)
  Work.look (·.readText source)

/-- The entries of the document for a report. -/
def documentEntries (files : Files) (directory : Path) (making : Typeset.Making)
    (d : RawDocument) (tools : Typeset.Tools := {}) : Except Failure (List Word.Entry) := do
  let document ← typesetRaw files directory making d tools
  document.package.mapError .package

/-- Writes the document for a source under its name for the time being.  The answer is what was
noticed, and whether the finishing touches are needed. -/
def draft (o : Options) (now : Int) (source : Path) (paths : OutputPaths)
    (tools : Typeset.Tools := {}) : Work (List Diagnostic × Bool) := do
  ensureUnlocked paths.temp
  ensureUnlocked paths.docx
  Work.report [.parsing]
  let text ← readSource source
  let parsed ← Work.ofExcept ((Markup.parse text).mapError .parse)
  Work.report [.enriching]
  let (document, found) := Enrich.enrich parsed.document
  Work.report [.writing]
  let entries ← Work.ofExcept
    (documentEntries (← get).files paths.directory ⟨now, o.editMinutes⟩ document tools)
  Work.change (·.write paths.temp (.archive entries))
  return (parsed.diagnostics ++ found, needsFinishing o document)

/-- Removes a directory, if it is there. -/
def removeFolder (folder : Path) : Work Unit :=
  Work.change fun files =>
    match files.removeTree folder with
    | .error .notFound => .ok files
    | result => result

/-- Removes a file; it does not matter if that fails. -/
def removeQuietly (p : Path) : Work Unit :=
  Work.change fun files => .ok ((files.remove p).toOption.getD files)

/-- The finishing touches, and the export of pages if these are wanted.  The document under the
name for the time being is removed whatever comes of it.  The answer is the path of what was
made. -/
def finished (programs : Programs) (o : Options) (paths : OutputPaths) : Work Path := do
  Work.report [.finishing]
  if o.renderPdf then removeFolder paths.pdfParts
  let result ← (finish programs o paths.directory paths.temp paths.docx).outcome
  removeQuietly paths.temp
  Work.ofExcept result
  if o.renderPdf then
    Work.report [.merging]
    let parts ← Work.ofExcept (exportedParts (← get).files paths.pdfParts)
    join programs o parts paths.pdf
    removeFolder paths.pdfParts
    return paths.pdf
  else return paths.docx

/-- Makes the report for a source. -/
def renderFile (programs : Programs) (o : Options) (now : Int) (source : Path)
    (tools : Typeset.Tools := {}) : Work Rendered := do
  let paths := OutputPaths.ofSource source
  let (diagnostics, finishing) ← draft o now source paths tools
  if finishing then
    return ⟨← finished programs o paths, diagnostics⟩
  else
    Work.change (·.rename paths.temp paths.docx)
    return ⟨paths.docx, diagnostics⟩

/-- Makes the report for a source, unless one is being made. -/
def render (programs : Programs) (o : Options) (now : Int) (source : Path)
    (tools : Typeset.Tools := {}) : Work Rendered :=
  Work.exclusive (renderFile programs o now source tools)

end ReportPress.Press
