import ReportPress.Failure
import ReportPress.Yaml.Document
import ReportPress.Yaml.Members

/-!
# Options

How reports are made: where the scripts and templates are, what other programs are run, and
whether the pages are exported.  Options come from a text in YAML; whatever it does not say stays
as it is by default, and names that are not known are passed over.

* `FinishingOptions`, `JoiningOptions`, `Options` — the options with their defaults.
* `Options.ofYaml?`, `Options.read` — options from a value and from a text.
* `Options.discover` — options from the file beside the reports, if there is one.
-/

namespace ReportPress

/-- The program that a word processor does the finishing touches with. -/
structure FinishingOptions where
  enabled : Bool := true
  /-- What runs the script. -/
  program : String := "powershell"
  script : Path := ⟨"run.ps1"⟩
  /-- The template of documents. -/
  template : Path := ⟨"template.dotx"⟩
  /-- The template with what the script calls. -/
  scriptedTemplate : Path := ⟨"template.dotm"⟩
deriving DecidableEq, Repr

/-- The program that joins the exported parts. -/
structure JoiningOptions where
  program : String := "pdfunite"
  /-- What it is told before the parts. -/
  args : List String := []
deriving DecidableEq, Repr

/-- How reports are made. -/
structure Options where
  /-- Where the script and the templates are. -/
  assets : Path := ⟨"assets"⟩
  /-- The pages are exported as well. -/
  renderPdf : Bool := false
  finishing : FinishingOptions := {}
  joining : JoiningOptions := {}
  /-- The time recorded as spent on a document. -/
  editMinutes : Nat := 0
deriving DecidableEq, Repr

namespace Options

/-! ## Paths -/

/-- The path of the script. -/
def scriptPath (o : Options) : Path := o.assets.join o.finishing.script

/-- The path of the template of documents. -/
def templatePath (o : Options) : Path := o.assets.join o.finishing.template

/-- The path of the template with what the script calls. -/
def scriptedTemplatePath (o : Options) : Path := o.assets.join o.finishing.scriptedTemplate

/-! ## From a text -/

/-- A member as `read` understands it, or the default if there is none. -/
def member? {α : Type} (read : Yaml → Option α) (default : α) (name : String)
    (members : List (String × Yaml)) : Option α :=
  match members.lookup name with
  | none => some default
  | some y => read y

/-- The path that a scalar is. -/
def path? (y : Yaml) : Option Path := y.text?.map Path.mk

/-- The texts of a sequence; there are none where no value is. -/
def texts? (y : Yaml) : Option (List String) :=
  match y with
  | .sequence items => items.mapM Yaml.text?
  | y => if y.isNull then some [] else none

/-- The options for the finishing touches. -/
def finishing? (y : Yaml) : Option FinishingOptions := do
  let d : FinishingOptions := {}
  let ms ← y.named? ["enabled", "program", "script", "template", "macro_template"]
  return {
    enabled := ← member? Yaml.flag? d.enabled "enabled" ms
    program := ← member? Yaml.text? d.program "program" ms
    script := ← member? path? d.script "script" ms
    template := ← member? path? d.template "template" ms
    scriptedTemplate := ← member? path? d.scriptedTemplate "macro_template" ms }

/-- The options for joining parts. -/
def joining? (y : Yaml) : Option JoiningOptions := do
  let d : JoiningOptions := {}
  let ms ← y.named? ["program", "args"]
  return {
    program := ← member? Yaml.text? d.program "program" ms
    args := ← member? texts? d.args "args" ms }

/-- The options that a value stands for. -/
def ofYaml? (y : Yaml) : Option Options := do
  let d : Options := {}
  let ms ← y.named? ["assets", "render_pdf", "macros", "merge", "edit_minutes"]
  return {
    assets := ← member? path? d.assets "assets" ms
    renderPdf := ← member? Yaml.flag? d.renderPdf "render_pdf" ms
    finishing := ← member? finishing? d.finishing "macros" ms
    joining := ← member? joining? d.joining "merge" ms
    editMinutes := ← member? Yaml.count? d.editMinutes "edit_minutes" ms }

/-- The options that a text stands for. -/
def read (text : String) : Except Failure Options :=
  match (Yaml.read? text).bind ofYaml? with
  | some o => .ok o
  | none => .error .options

/-! ## From a file -/

/-- The name of the file with the options. -/
def fileName : Path := ⟨"md2gost.yaml"⟩

/-- The options in a directory; the default where no file has any. -/
def discover (files : Files) (directory : Path) : Except Failure Options := do
  let path := directory.join fileName
  if files.isFile path then
    let text ← (files.readText path).mapError .storage
    read text
  else return {}

end Options

end ReportPress
