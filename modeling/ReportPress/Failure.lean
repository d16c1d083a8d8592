import ReportPress.Markup.Reader
import ReportPress.Storage.Files

/-!
# Failures

Why a report could not be made.  The first failure ends the work.

* `StageFault` — what went wrong with another program.
* `Failure` — one constructor for each cause.
* `Failure.message` — its wording.
-/

namespace ReportPress

/-- What went wrong with another program. -/
inductive StageFault where
  | cannotStart (program : String)
  | exited (program : String) (status : Nat)
  /-- The folder that the pages should have been put into is not there. -/
  | noFolder (folder : Path)
deriving DecidableEq, Repr

/-- The wording of a fault of another program. -/
def StageFault.message : StageFault → String
  | .cannotStart program => "cannot start " ++ program
  | .exited program status => program ++ " exited with exit status: " ++ toString status
  | .noFolder folder => "PDF export produced no output folder " ++ folder.text

/-- Why a report could not be made. -/
inductive Failure where
  | parse (failure : Markup.ParseFailure)
  /-- No style goes with a heading of this level. -/
  | headingLevel (level : Nat)
  | unsupportedImage (extension : String) (path : Path)
  /-- The picture has no size that can be read, or none of the formats that a document may embed. -/
  | unreadableImage (path : Path)
  | missingFile (path : Path)
  /-- An external document is not a Word document by its name. -/
  | notWordDocument (path : Path)
  | locked (path : Path)
  /-- Another report is being made. -/
  | busy
  | stage (fault : StageFault)
  | storage (fault : Fault)
  /-- Two parts of a document have the same name. -/
  | package (fault : Word.DuplicateEntry)
  /-- The options are not what they should be. -/
  | options
deriving DecidableEq, Repr

/-- The wording of a failure.  Where a file system, a picture or a text of options is to blame,
the kind of the failure says all there is to say. -/
def Failure.message : Failure → Option String
  | .parse f => some ("Parse error at line " ++ toString f.line ++ ": " ++ f.cause.message)
  | .headingLevel level => some ("Wrong heading level: " ++ toString level)
  | .unsupportedImage extension path =>
    some ("Unsupported image format: \"" ++ extension ++ "\", file: " ++ path.text)
  | .missingFile path => some ("File not found: " ++ path.text)
  | .notWordDocument path => some ("External document must be a .docx file: " ++ path.text)
  | .locked path => some ("Output file is busy or locked: " ++ path.text)
  | .busy => some "Another render is already in progress"
  | .stage fault => some ("External stage failed: " ++ fault.message)
  | .unreadableImage _ => none
  | .storage _ => none
  | .package _ => none
  | .options => none

end ReportPress
