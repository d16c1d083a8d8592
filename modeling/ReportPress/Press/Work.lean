import ReportPress.Failure
import ReportPress.Press.Stage

/-!
# Work on files

Making a report changes files, reports stages, and runs other programs.  All of it is a value: what
there is before and after, and programs as functions on it, about which nothing is assumed.

* `Call`, `Outcome`, `Programs` — other programs.
* `World`, `Work` — what the work changes, and the work; what it has changed stays when it fails.
* `exclusive` — work that cannot be begun while other such work is going on.
-/

namespace ReportPress.Press

/-! ## Other programs -/

/-- What a program is called with. -/
structure Call where
  program : String
  args : List String
  /-- Where it runs, if not where its caller does. -/
  directory : Option Path := none
deriving DecidableEq, Repr

/-- What a program did. -/
structure Outcome where
  files : Files
  /-- What it printed, up to the first line that is no text. -/
  output : String := ""
  /-- There was such a line. -/
  garbled : Bool := false
  /-- Zero if it did its work. -/
  status : Nat := 0

/-- Other programs.  A call that has no outcome could not be begun. -/
abbrev Programs := Call → Files → Option Outcome

/-! ## Work -/

/-- What the work changes. -/
structure World where
  files : Files
  /-- The stages that were reported, in order. -/
  stages : List Stage := []
  /-- A report is being made. -/
  running : Bool := false

/-- Work that changes the world and can fail. -/
abbrev Work := ExceptT Failure (StateM World)

namespace Work

/-- Reports stages. -/
def report (stages : List Stage) : Work Unit :=
  modify fun w => { w with stages := w.stages ++ stages }

/-- A result that is there already. -/
def ofExcept {α : Type} : Except Failure α → Work α
  | .ok a => return a
  | .error failure => throw failure

/-- Looks at the files. -/
def look {α : Type} (f : Files → Except Fault α) : Work α := do
  ofExcept ((f (← get).files).mapError .storage)

/-- Changes the files. -/
def change (f : Files → Except Fault Files) : Work Unit := do
  let files ← look f
  modify fun w => { w with files }

/-- Runs a program to its end; stages that it announces are reported.  A line that is no text ends
the work, whatever the program does. -/
def call (programs : Programs) (c : Call) : Work Unit := do
  match programs c (← get).files with
  | none => throw (.stage (.cannotStart c.program))
  | some outcome => do
    modify fun w => { w with files := outcome.files }
    report (Stage.announced outcome.output)
    if outcome.garbled then throw (.storage .notText)
    if outcome.status ≠ 0 then throw (.stage (.exited c.program outcome.status))

/-- The outcome of work, failures included. -/
def outcome {α : Type} (work : Work α) : Work (Except Failure α) := ExceptT.lift work.run

/-- Begins work that goes on alone. -/
def start : Work Unit := do
  if (← get).running then throw .busy
  modify fun w => { w with running := true }

/-- Ends work that went on alone. -/
def stop : Work Unit := modify fun w => { w with running := false }

/-- Work that cannot be begun while other such work is going on. -/
def exclusive {α : Type} (work : Work α) : Work α := do
  start
  let result ← work.outcome
  stop
  ofExcept result

end Work

end ReportPress.Press
