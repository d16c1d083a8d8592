import ReportPress.Document.References
import ReportPress.Press.Arguments
import ReportPress.Press.Render
import ReportPress.Word.Archive
import Std.Time.DateTime.Timestamp

/-!
# The program

Fetches the files that a report needs, makes the report, and writes what has been made.  Nothing
is decided here: the work itself is `Press.render`.  No other program is run, so a report that
needs the finishing touches cannot be made unless they are switched off.

* `fetch` — a file or directory, with the directories that lead to it.
* `fetchReport` — all that a report needs.
* `store` — the documents that have been made.
* `main` — the whole of it.
-/

namespace ReportPress

/-- What is at an absolute path; nothing, if it cannot be seen. -/
def storedAt (p : Path) : IO (Option Stored) := do
  let place := (← IO.currentDir) / p.text
  if ← place.isDir then return some .directory
  else if ← place.pathExists then
    let data ← IO.FS.readBinFile place
    let held ← try
        discard (IO.FS.Handle.mk place .readWrite)
        pure false
      catch _ => pure true
    return some (.file { content := .bytes data.toList, held })
  else return none

/-- The names that a path leads through, each step back taken at its word. -/
def settled (names : List String) : List String :=
  names.foldl (fun done name => if name = ".." then done.dropLast else done ++ [name]) []

/-- Files with what is at an absolute path and on the way to it. -/
def fetch (files : Files) (p : Path) : IO Files :=
  (List.range p.names.length).foldlM (fun files n => do
    let names := p.names.take (n + 1)
    match ← storedAt ⟨"/" ++ Text.joined "/" names⟩ with
    | some stored => return files.put (settled names) stored
    | none => return files) files

/-- All that a report needs, and what it is about to write. -/
def fetchReport (a : Press.Arguments) (here source : Path) : IO Files := do
  let paths := Press.OutputPaths.ofSource source
  let optionsFile := here.join (a.optionsFile.getD (paths.directory.join Options.fileName))
  let files ← [source, optionsFile, paths.temp, paths.docx, paths.pdf].foldlM fetch {}
  match files.readText source with
  | .error _ => return files
  | .ok text =>
    let references := match readReport text with
      | .ok (report, _) => report.references
      | .error _ => []
    (references.map fun reference => paths.directory.join ⟨reference⟩).foldlM fetch files

/-- Writes the documents that have been made. -/
def store (files : Files) : IO Unit :=
  files.places.forM fun (names, stored) =>
    match stored with
    | .file { content := .archive entries, .. } =>
      IO.FS.writeBinFile ("/" ++ Text.joined "/" names) ⟨(Word.archiveBytes entries).toArray⟩
    | _ => pure ()

/-- The wording of a failure on the screen. -/
def onScreen (failure : Failure) : String :=
  failure.message.getD <|
    match failure with
    | .unreadableImage path => "Unreadable image: " ++ path.text
    | .package fault => "Duplicate part: " ++ fault.name
    | .options => "Invalid options"
    | _ => "File cannot be read or written"

/-- Shows the stages that the work went through, with the part of it that is done. -/
def showStages (stages : List Press.Stage) : IO Unit :=
  discard <| stages.foldlM (fun (done : Nat) stage => do
    let done := min 100 (done + stage.increment)
    let percent := toString done
    IO.eprintln ("[" ++ "".pushn ' ' (3 - percent.length) ++ percent ++ "%] " ++
      stage.description)
    return done) 0

/-- Makes a report; the answer is the status of the program. -/
def press (a : Press.Arguments) : IO UInt32 := do
  let here : Path := ⟨(← IO.currentDir).toString⟩
  let source := here.join a.source
  let paths := Press.OutputPaths.ofSource source
  let files ← fetchReport a here source
  let now := (← Std.Time.Timestamp.now).toSecondsSinceUnixEpoch.val
  let work : Press.Work Press.Rendered := do
    let options ← Press.Work.ofExcept (a.options files here paths.directory)
    Press.render (fun _ _ => none) options now source
  let (result, world) := work.run.run { files }
  showStages world.stages
  store world.files
  if files.isPresent paths.temp && !world.files.isPresent paths.temp then
    IO.FS.removeFile paths.temp.text
  match result with
  | .error failure =>
    IO.eprintln ("Error: " ++ onScreen failure)
    return 1
  | .ok rendered =>
    rendered.diagnostics.forM fun d => IO.eprintln ("warning: " ++ d.message)
    IO.println ("File rendered to " ++ rendered.output.text)
    return 0

end ReportPress

/-- How the program is called. -/
def usage : String := "usage: reportpress [--pdf] [--no-macros] [--config FILE] FILE"

/-- Makes the report for the source that the arguments name. -/
def main (args : List String) : IO UInt32 := do
  match ReportPress.Press.Arguments.read args with
  | .ok a => ReportPress.press a
  | .error fault =>
    IO.eprintln ("Error: " ++ fault.message)
    IO.eprintln usage
    return 2
