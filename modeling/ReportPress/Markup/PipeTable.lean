import ReportPress.Document.Node
import ReportPress.Text.Words

/-!
# Tables drawn with pipes

A paragraph whose second line is a row of dashes is a table: the first line is its header and the
lines after the dashes are its rows, as long as they have as many cells as the dashes have columns.
Lines after the last such row stay behind as a paragraph of their own, and the paragraph before a
table is its caption.

* `rowText`, `cells` — a line without its outer pipes, and the texts between the others.
* `isSeparator` — whether a line is a row of dashes.
* `splitTable?` — the rows of a table and the lines that are left over.
* `tables` — all paragraphs of a sequence of nodes.
-/

namespace ReportPress.Markup

open Text

/-- Whether a trimmed line consists of pipes and white space alone. -/
def isEmptyRow (line : List Char) : Bool :=
  line.head? = some '|' && line.all fun c => c = '|' || isBlank c

/-- A line without white space and pipes at its ends; a row of nothing but pipes stays whole. -/
def rowText (line : List Char) : List Char :=
  let line := trim line
  if isEmptyRow line then line else trim (dropEnd '|' (dropStart '|' line))

/-- The trimmed texts between the inner pipes of a line. -/
def cells (line : List Char) : List (List Char) := (splitOn '|' (rowText line)).map trim

/-- Whether a cell of a separator is a run of dashes, with a colon at either end or not. -/
def isDashes (cell : List Char) : Bool :=
  let dashes := dropEnd ':' (dropStart ':' (trim cell))
  !dashes.isEmpty && dashes.all (· = '-')

/-- The number of columns that a separator line announces, if it is one. -/
def separatorColumns? (line : List Char) : Option Nat :=
  let columns := splitOn '|' (rowText line)
  if 2 ≤ columns.length ∧ columns.all isDashes then some columns.length else none

/-- A row of text cells. -/
def tableRow (line : List Char) : List (Node String) :=
  Node.textRow ((cells line).map String.ofList)

/-- The rows of a paragraph that is a table, and the lines left over after them. -/
def splitTable? (text : String) : Option (List (List (Node String)) × Option String) :=
  match splitOn '\n' text.toList with
  | header :: separator :: body =>
    match separatorColumns? separator with
    | none => none
    | some columns =>
      let fits := fun line => (cells line).length == columns
      let rows := body.takeWhile fits
      let rest := body.dropWhile fits
      if fits header ∧ rows ≠ [] then
        some (tableRow header :: rows.map tableRow,
          if rest.isEmpty then none else some (String.ofList (joinWith ['\n'] rest)))
      else none
  | _ => none

/-- The nodes before a table, newest first, with the caption taken from them. -/
def takeCaption : List (Node String) → Option String × List (Node String)
  | .text p :: before => (some p.text, before)
  | before => (none, before)

/-- The nodes with one more, newest first. -/
def pushNode (before : List (Node String)) (node : Node String) : List (Node String) :=
  match node with
  | .text p =>
    match splitTable? p.text with
    | none => node :: before
    | some (rows, rest) =>
      let (caption, before) := takeCaption before
      let before := .table caption rows false :: before
      match rest with
      | none => before
      | some text => .ofText text :: before
  | node => node :: before

/-- Every paragraph that is a table replaced by the table. -/
def tables (nodes : List (Node String)) : List (Node String) :=
  (nodes.foldl pushNode []).reverse

end ReportPress.Markup
