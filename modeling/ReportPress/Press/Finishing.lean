import ReportPress.Options
import ReportPress.Press.Work

/-!
# Finishing touches and export

Two other programs can follow the writing of a document: a word processor with a script, which may
export parts, and a program that joins these.

* `finishingArgs` — what the first program is told.
* `needsFinishing` — whether it is needed at all.
* `exportedParts` — the parts in a folder, ordered by name.
* `finish`, `join` — running the programs.
-/

namespace ReportPress.Press

/-- What the program for the finishing touches is told. -/
def finishingArgs (o : Options) (input output : Path) (renderPdf : Bool) : List String :=
  ["-NoProfile", "-ExecutionPolicy", "Bypass", "-File", o.scriptPath.text,
    "-InputDoc", input.text, "-OutputDoc", output.text,
    "-MacroTemplate", o.scriptedTemplatePath.text, "-Template", o.templatePath.text] ++
    if renderPdf then ["-RenderPDF"] else []

/-- Whether the finishing touches are needed: for pages to export, and for code. -/
def needsFinishing (o : Options) (d : RawDocument) : Bool :=
  o.finishing.enabled && (o.renderPdf || d.hasCode)

/-- The parts in a folder, ordered by name. -/
def exportedParts (files : Files) (folder : Path) : Except Failure (List Path) :=
  if files.isDirectory folder then
    .ok ((files.fileNames folder).map fun name => folder.join ⟨name⟩)
  else .error (.stage (.noFolder folder))

/-- Runs the program for the finishing touches. -/
def finish (programs : Programs) (o : Options) (directory input output : Path) : Work Unit :=
  Work.call programs
    { program := o.finishing.program
      args := finishingArgs o input output o.renderPdf
      directory := some directory }

/-- Runs the program that joins parts.  Nothing that it prints is looked at. -/
def join (programs : Programs) (o : Options) (parts : List Path) (output : Path) : Work Unit :=
  Work.call (fun c files =>
      (programs c files).map fun outcome => { outcome with output := "", garbled := false })
    { program := o.joining.program
      args := o.joining.args ++ (parts ++ [output]).map Path.text }

end ReportPress.Press
