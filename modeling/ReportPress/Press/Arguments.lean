import ReportPress.Options

/-!
# Arguments

What the program is told when it is called: the source of a report, and how to depart from the
options in the file beside it.

* `Arguments`, `ArgumentFault` — what was asked for, and why it cannot be understood.
* `Arguments.read` — the arguments in any order; of two that say the same thing the later counts,
  but there is one source only.
* `Arguments.adjust` — options with what the arguments say.
-/

namespace ReportPress.Press

/-- What the program is told. -/
structure Arguments where
  source : Path
  /-- The file with the options, if not the one beside the source. -/
  optionsFile : Option Path := none
  /-- The pages are exported, whatever the options say. -/
  exportPages : Bool := false
  /-- There are no finishing touches, whatever the options say. -/
  skipFinishing : Bool := false
deriving DecidableEq, Repr

/-- Why arguments cannot be understood. -/
inductive ArgumentFault where
  | noSource
  | noValue (argument : String)
  | unknown (argument : String)
  | secondSource (argument : String)
deriving DecidableEq, Repr

/-- The wording of a fault. -/
def ArgumentFault.message : ArgumentFault → String
  | .noSource => "no source file is given"
  | .noValue argument => argument ++ " needs a value"
  | .unknown argument => "unexpected argument " ++ argument
  | .secondSource argument => "a second source file is given: " ++ argument

namespace Arguments

/-- Reads on, with what has been read and the source if it has been named. -/
def readOn (so : Arguments) (named : Bool) : List String → Except ArgumentFault Arguments
  | [] => if named then .ok so else .error .noSource
  | "--pdf" :: rest => readOn { so with exportPages := true } named rest
  | "--no-macros" :: rest => readOn { so with skipFinishing := true } named rest
  | ["--config"] => .error (.noValue "--config")
  | "--config" :: path :: rest => readOn { so with optionsFile := some ⟨path⟩ } named rest
  | word :: rest =>
    if word.toList.head? = some '-' then .error (.unknown word)
    else if named then .error (.secondSource word)
    else readOn { so with source := ⟨word⟩ } true rest

/-- The arguments of the program. -/
def read (words : List String) : Except ArgumentFault Arguments :=
  readOn { source := ⟨""⟩ } false words

/-- Options with what the arguments say. -/
def adjust (a : Arguments) (o : Options) : Options :=
  { o with
    renderPdf := o.renderPdf || a.exportPages
    finishing := { o.finishing with enabled := o.finishing.enabled && !a.skipFinishing } }

/-- The options from the file that the arguments name, or from the one in the directory of the
source. -/
def options (a : Arguments) (files : Files) (here directory : Path) : Except Failure Options := do
  match a.optionsFile with
  | none => return a.adjust (← Options.discover files directory)
  | some path =>
    let text ← (files.readText (here.join path)).mapError .storage
    return a.adjust (← Options.read text)

end Arguments

end ReportPress.Press
