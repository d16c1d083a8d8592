/-!
# Findings

What the reader or a rule noticed and did not stop for.  The rule in question is skipped, and the
finding is reported beside the document.

* `ShapeFault` — what is wrong with the list that a front matter heading announces.
* `Diagnostic` — one constructor for each kind of finding.
* `Diagnostic.message` — its wording.  It ends in the words of whoever reads dictionaries where one
  could not be read, if those are given.
-/

namespace ReportPress

/-- What is wrong with the list below a heading of the front matter. -/
inductive ShapeFault where
  | noList
  | noColon (item : String)
  | nestedList
deriving DecidableEq, Repr

/-- The wording of a fault. -/
def ShapeFault.message : ShapeFault → String
  | .noList => "no list follows the heading"
  | .noColon item => "item without a colon: \"" ++ item ++ "\""
  | .nestedList => "nested list skipped"

/-- Something noticed that does not stop the work. -/
inductive Diagnostic where
  /-- A rule directive with an unknown text. -/
  | unknownRule (text : String)
  /-- The text between the braces of an external document is no JSON object. -/
  | malformedDictionary (body : String)
  | glossaryShape (fault : ShapeFault)
  | abbreviationsShape (fault : ShapeFault)
  | referencesShape (fault : ShapeFault)
deriving DecidableEq, Repr

namespace Diagnostic

/-- The wording for a list of the wrong shape below the heading `heading`. -/
def shapeMessage (heading : String) (fault : ShapeFault) : String :=
  "wrong format of " ++ heading ++ ": " ++ fault.message

/-- A text on one line. -/
def onOneLine (s : String) : String :=
  String.ofList (s.toList.map fun c => if c = '\n' then ' ' else c)

/-- The wording of a finding.  What is wrong with the text of a dictionary is said in the words that
the reader of JSON has for it. -/
def message (d : Diagnostic) (words? : String → Option String := fun _ => none) : String :=
  match d with
  | .unknownRule text => "unknown rule: \"" ++ text ++ "\""
  | .malformedDictionary body =>
    "cannot parse document dictionary \x7b" ++ onOneLine body ++ "\x7d" ++
      ((words? ("\x7b" ++ body ++ "\x7d")).map (": " ++ ·)).getD ""
  | .glossaryShape fault => shapeMessage "ТЕРМИНЫ И ОПРЕДЕЛЕНИЯ" fault
  | .abbreviationsShape fault => shapeMessage "ПЕРЕЧЕНЬ СОКРАЩЕНИЙ И ОБОЗНАЧЕНИЙ" fault
  | .referencesShape fault => shapeMessage "СПИСОК ИСПОЛЬЗОВАННЫХ ИСТОЧНИКОВ" fault

end Diagnostic

end ReportPress
