import ReportPress.Diagnostic
import ReportPress.Document.Basic
import ReportPress.Text.LetterCase
import ReportPress.Text.Words

/-!
# The headings of the front matter

Eight headings have a conventional place in a report, and a rule goes with each: one puts the
abstract on a page of its own, one turns a list of terms into a table, and so on.

* `Heading`, `Heading.recognize` — the headings; letter case and white space around them do not
  matter.
* `glossary`, `abbreviations` — what becomes of the list below those two headings.
* `Ruling`, `rule` — what becomes of a title.  A rule looks at its heading and at the node behind
  it, which it may take.
* `Pending`, `arrange` — one pass over the nodes.  A page break that belongs before the *next* title
  is carried along until that title, or the end, is reached.
* `applyHeadings` — the pass over a whole sequence of nodes.
-/

namespace ReportPress.Enrich

open Text

/-- A conventional part of a report. -/
inductive Heading where
  | cover
  | abstract
  | contents
  | glossary
  | abbreviations
  | introduction
  | conclusion
  | references
deriving DecidableEq, Repr

namespace Heading

/-- The headings with their texts in capitals. -/
def texts : List (String × Heading) := [
  ("ТИТУЛЬНИК", cover),
  ("РЕФЕРАТ", .abstract),
  ("ОГЛАВЛЕНИЕ", contents),
  ("ТЕРМИНЫ И ОПРЕДЕЛЕНИЯ", glossary),
  ("ПЕРЕЧЕНЬ СОКРАЩЕНИЙ И ОБОЗНАЧЕНИЙ", abbreviations),
  ("ВВЕДЕНИЕ", introduction),
  ("ЗАКЛЮЧЕНИЕ", conclusion),
  ("СПИСОК ИСПОЛЬЗОВАННЫХ ИСТОЧНИКОВ", references)]

/-- The part that a title announces. -/
def recognize (text : String) : Option Heading := texts.lookup (upper (trimmed text))

end Heading

/-! ## Fixed texts -/

/-- The line of statistics below the heading of the abstract, to be filled in later. -/
def abstractStatistics : String := "Отчет x с., x рис., x табл., x лист., x источн."

/-- The sentence before the table of terms. -/
def glossaryLeadIn : String :=
  "В настоящем отчете применяются следующие термины с соответствующими определениями."

/-- The sentence before the abbreviations. -/
def abbreviationsLeadIn : String :=
  "В настоящем отчете применяют следующие сокращения и обозначения."

/-- The header row of the table of terms. -/
def glossaryHeader : List (Node String) := Node.textRow ["Термин", "Определение"]

/-! ## Lists below a heading -/

/-- A text before its first colon and the text behind that, both trimmed. -/
def splitColon? (text : String) : Option (String × String) :=
  let cs := text.toList
  if cs.contains ':' then
    some (String.ofList (trim (cs.takeWhile (· ≠ ':'))),
      String.ofList (trim ((cs.dropWhile (· ≠ ':')).drop 1)))
  else none

/-- The row of a term with its definition. -/
def glossaryRow : Entry String → Except Diagnostic (List (Node String))
  | .list _ _ => .error (.glossaryShape .nestedList)
  | .item text =>
    match splitColon? text with
    | some (term, definition) => .ok (Node.textRow [term, definition])
    | none => .error (.glossaryShape (.noColon text))

/-- The paragraph of an abbreviation. -/
def abbreviationLine : Entry String → Except Diagnostic (Node String)
  | .list _ _ => .error (.abbreviationsShape .nestedList)
  | .item text =>
    .ok (.text { text := String.ofList (trimEndOf ['.'] text.toList), noIndent := true,
                 noMargin := true })

/-- What could be made of the entries, in order, and the findings about the others. -/
def gather {α β : Type} (make : α → Except Diagnostic β) (entries : List α) :
    List β × List Diagnostic :=
  (entries.filterMap fun e => (make e).toOption,
    entries.filterMap fun e =>
      match make e with
      | .ok _ => none
      | .error d => some d)

/-- The table of terms that a list becomes, with its lead-in and a page break. -/
def glossary (list : ItemList String) : List (Node String) × List Diagnostic :=
  let (rows, found) := gather glossaryRow list.entries
  ([.ofText glossaryLeadIn, .table none (glossaryHeader :: rows) true, .pageBreak], found)

/-- The paragraphs that a list of abbreviations becomes, with their lead-in and a page break. -/
def abbreviations (list : ItemList String) : List (Node String) × List Diagnostic :=
  let (lines, found) := gather abbreviationLine list.entries
  (.ofText abbreviationsLeadIn :: lines ++ [.pageBreak], found)

/-! ## The pass -/

/-- A centred title in capitals. -/
def emphasize (t : Title String) : Node String :=
  .title { t with text := upper t.text, center := true }

/-- The keywords of the abstract: in capitals, without periods at the end and without indent. -/
def keywords (p : Paragraph String) : Node String :=
  .text { p with text := upper (String.ofList (trimEndOf ['.'] p.text.toList)), noIndent := true }

/-- A page break that is still to come. -/
inductive Pending where
  | nothing
  /-- Before the next title, if there is one. -/
  | beforeTitle
  /-- Before the next title, or else at the end. -/
  | beforeTitleOrEnd
deriving DecidableEq, Repr

/-- The page break that comes before a title. -/
def Pending.atTitle : Pending → List (Node String)
  | nothing => []
  | beforeTitle | beforeTitleOrEnd => [.pageBreak]

/-- The page break that comes at the end. -/
def Pending.atEnd : Pending → List (Node String)
  | nothing | beforeTitle => []
  | beforeTitleOrEnd => [.pageBreak]

/-- What becomes of a title by the rule for it. -/
structure Ruling where
  nodes : List (Node String)
  found : List Diagnostic := []
  /-- The page break that is still to come. -/
  pending : Pending := .nothing
  /-- The node behind the title has been made part of the nodes. -/
  taken : Bool := false

/-- The rule for a title, given the node behind it. -/
def rule (t : Title String) (next : Option (Node String)) : Ruling :=
  match Heading.recognize t.text with
  | none => { nodes := [.title t] }
  | some .cover => { nodes := [.ofText (upper t.text), .pageBreak] }
  | some .abstract =>
    let nodes := [.title { t with text := upper t.text, level := 0 }, .ofText abstractStatistics]
    match next with
    | some (.text p) =>
      { nodes := nodes ++ [keywords p], pending := .beforeTitleOrEnd, taken := true }
    | _ => { nodes, pending := .beforeTitleOrEnd }
  | some .contents => { nodes := [.title { t with level := 0 }, .contents] }
  | some .glossary =>
    match next with
    | some (.list l) =>
      { nodes := emphasize t :: (glossary l).1, found := (glossary l).2, taken := true }
    | _ => { nodes := [emphasize t], found := [.glossaryShape .noList] }
  | some .abbreviations =>
    match next with
    | some (.list l) =>
      { nodes := emphasize t :: (abbreviations l).1, found := (abbreviations l).2, taken := true }
    | _ => { nodes := [emphasize t], found := [.abbreviationsShape .noList] }
  | some .introduction => { nodes := [emphasize t], pending := .beforeTitle }
  | some .conclusion => { nodes := [.pageBreak, emphasize t] }
  | some .references =>
    match next with
    | some (.list l) =>
      { nodes := [.pageBreak, emphasize t, .list { l with style.alternate := true }]
        taken := true }
    | _ => { nodes := [.pageBreak, emphasize t], found := [.referencesShape .noList] }

/-- Puts nodes and findings in front of those of the rest. -/
def andThen (nodes : List (Node String)) (found : List Diagnostic)
    (rest : List (Node String) × List Diagnostic) : List (Node String) × List Diagnostic :=
  (nodes ++ rest.1, found ++ rest.2)

/-- The pass over the nodes, with the page break that is still to come and whether the first of the
nodes was taken by the title before it. -/
def arrange : Pending → Bool → List (Node String) → List (Node String) × List Diagnostic
  | pending, _, [] => (pending.atEnd, [])
  | pending, true, _ :: rest => arrange pending false rest
  | pending, false, .title t :: rest =>
    let ruling := rule t rest.head?
    andThen (pending.atTitle ++ ruling.nodes) ruling.found
      (arrange ruling.pending ruling.taken rest)
  | pending, false, node :: rest => andThen [node] [] (arrange pending false rest)

/-- Every rule applied at its heading, in one pass. -/
def applyHeadings (nodes : List (Node String)) : List (Node String) × List Diagnostic :=
  arrange .nothing false nodes

end ReportPress.Enrich
