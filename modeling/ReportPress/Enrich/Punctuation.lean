import ReportPress.Document.Node
import ReportPress.Text.LetterCase
import ReportPress.Text.Words

/-!
# Punctuation of lists

Every item of a list begins with a small letter and ends with exactly one mark: a colon before a
nested list, a period at the very end of the outermost list, and otherwise a comma, or a
semicolon in lists that are nested, hold a nested list or have a long item.

* `terminators` — the marks that are taken off an item before its own is put on.
* `terminate` — one item.
* `ending` — the mark of the items of a list.
* `punctuate` — a list; `lastItem` tells whether its last item is that of the outermost list.
* `punctuateNodes` — every list of a sequence of nodes, also those in table cells.  Lists of
  sources keep their punctuation.
-/

namespace ReportPress.Enrich

open Text

/-- The marks that are taken off the end of an item. -/
def terminators : List Char := ['.', ',', ';', ':', '!']

/-- More words than this make an item long. -/
def longItemWords : Nat := 5

/-- An item with a small first letter and the given mark at its end, in place of others. -/
def terminate (text : String) (mark : Char) : String :=
  lowerFirst (String.ofList (trimEndOf terminators (trimEnd text.toList))) ++ String.ofList [mark]

/-- Whether an entry is a nested list. -/
def isNested : Entry String → Bool
  | .item _ => false
  | .list _ _ => true

/-- Whether an entry is an item of many words. -/
def isLong : Entry String → Bool
  | .item text => decide (longItemWords < wordCount text)
  | .list _ _ => false

/-- The mark of the items of a list that no other rule gives one. -/
def ending (nested : Bool) (entries : List (Entry String)) : Char :=
  if nested || entries.any isNested || entries.any isLong then ';' else ','

mutual

/-- An entry, given the mark of its list, whether it is the last of the outermost list and
whether a nested list follows it. -/
def punctuateEntry (mark : Char) (lastItem beforeList : Bool) : Entry String → Entry String
  | .item text =>
    .item (terminate text (if beforeList then ':' else if lastItem then '.' else mark))
  | .list style entries => .list style (punctuateEntries (ending true entries) lastItem entries)

/-- Entries with the mark of their list. -/
def punctuateEntries (mark : Char) (lastItem : Bool) : List (Entry String) → List (Entry String)
  | [] => []
  | e :: rest =>
    punctuateEntry mark (lastItem && rest.isEmpty) (rest.head?.any isNested) e ::
      punctuateEntries mark lastItem rest

end

/-- A list with its punctuation. -/
def punctuate (lastItem nested : Bool) (l : ItemList String) : ItemList String :=
  { l with entries := punctuateEntries (ending nested l.entries) lastItem l.entries }

mutual

/-- A node with the lists in it punctuated. -/
def punctuateNode : Node String → Node String
  | .list l => .list (if l.style.alternate then l else punctuate true false l)
  | .table caption rows normal => .table caption (punctuateRows rows) normal
  | node => node

/-- Nodes with the lists in them punctuated. -/
def punctuateNodes : List (Node String) → List (Node String)
  | [] => []
  | n :: ns => punctuateNode n :: punctuateNodes ns

/-- Rows of cells with the lists in them punctuated. -/
def punctuateRows : List (List (Node String)) → List (List (Node String))
  | [] => []
  | r :: rs => punctuateNodes r :: punctuateRows rs

end

end ReportPress.Enrich
