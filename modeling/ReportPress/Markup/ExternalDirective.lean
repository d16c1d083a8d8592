import ReportPress.Diagnostic
import ReportPress.Document.Node
import ReportPress.Json.Parser
import ReportPress.Json.Printer

/-!
# Directives for external documents

A paragraph `!!(path){…}` stands for another document.  The braces and what is between them are a
JSON object with the values for the placeholders of that document.

* `dropTrailingCommas` — commas before a closing bracket or brace are forgiven.
* `directive?` — the path and the text between the braces.
* `dictionary?` — the values; those that are no strings are written as compact JSON.
* `ofText?` — the external document that a paragraph stands for, with a finding if there is no
  reading the dictionary.
* `externals` — all paragraphs of a sequence of nodes.
-/

namespace ReportPress.Markup

open Text

/-- The text without the commas that only white space separates from a closing bracket or
brace. -/
def dropTrailingCommas : List Char → List Char
  | [] => []
  | c :: cs =>
    let next := (cs.dropWhile isBlank).head?
    if c = ',' ∧ (next = some '\x7d' ∨ next = some ']') then dropTrailingCommas cs
    else c :: dropTrailingCommas cs

/-- The text before the last closing parenthesis that an opening brace follows, with nothing but
white space between them, and the text after that brace. -/
def splitAtBrace? : List Char → Option (List Char × List Char)
  | [] => none
  | c :: cs =>
    match splitAtBrace? cs with
    | some (before, after) => some (c :: before, after)
    | none =>
      if c = ')' then
        match cs.dropWhile isBlank with
        | '\x7b' :: after => some ([], after)
        | _ => none
      else none

/-- The path and the text between the braces of a directive. -/
def directive? (text : List Char) : Option (List Char × List Char) := do
  let rest ← dropLead? "!!(".toList text
  if rest.getLast? = some '\x7d' then splitAtBrace? rest.dropLast else none

/-- The text that a value stands for. -/
def valueText : Json → String
  | .string s => s
  | v => String.ofList v.render

/-- Adds a name with its value to a dictionary in ascending order of names. -/
def insertSorted (name value : String) : List (String × String) → List (String × String)
  | [] => [(name, value)]
  | (n, v) :: rest =>
    if name < n then (name, value) :: (n, v) :: rest
    else if name = n then (name, value) :: rest
    else (n, v) :: insertSorted name value rest

/-- A dictionary in ascending order of names; the last value of a name counts. -/
def sortedDictionary (members : List (String × String)) : List (String × String) :=
  members.foldl (fun d m => insertSorted m.1 m.2 d) []

/-- The values of a dictionary without its braces. -/
def dictionary? (body : List Char) : Option (List (String × String)) :=
  (Json.object? ('\x7b' :: body ++ ['\x7d'])).map fun members =>
    sortedDictionary (members.map fun m => (m.1, valueText m.2))

/-- The external document that a paragraph stands for, and the findings on the way. -/
def external? (text : String) : Option (ExternalDocument × List Diagnostic) :=
  (directive? (dropTrailingCommas text.toList)).map fun (path, body) =>
    match dictionary? body with
    | some values => (⟨String.ofList path, values⟩, [])
    | none => (⟨String.ofList path, []⟩, [.malformedDictionary (String.ofList body)])

/-- A paragraph that is a directive becomes the external document. -/
def externalNode (node : Node String) : Node String × List Diagnostic :=
  match node with
  | .text p =>
    match external? p.text with
    | some (document, found) => (.external document, found)
    | none => (node, [])
  | node => (node, [])

/-- Every paragraph that is a directive replaced by the external document. -/
def externals (nodes : List (Node String)) : List (Node String) × List Diagnostic :=
  (nodes.map fun n => (externalNode n).1, nodes.flatMap fun n => (externalNode n).2)

end ReportPress.Markup
