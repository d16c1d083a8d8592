import ReportPress.Document.Node
import ReportPress.Document.Rune

/-!
# Reports

* `Settings` — what the rules in a source ask for.
* `Section` — nodes whose pages are numbered together.
* `Document` — a report: sections and settings.  `RawDocument` holds text as it is read,
  `ResolvedDocument` runes.
-/

namespace ReportPress

variable {T U : Type}

/-- What the rules of a source ask for. -/
structure Settings where
  /-- Blocks of code are coloured. -/
  highlightCode : Bool := false
  /-- Every character gets the next colour of the rainbow. -/
  rainbow : Bool := false
  title : Option String := none
  author : Option String := none
deriving DecidableEq, Repr

/-- Nodes whose pages are numbered together. -/
structure Section (T : Type) where
  /-- The number of the first page; without one the numbering of the section before goes on. -/
  pageStart : Option UInt32
  nodes : List (Node T)
deriving Repr

/-- A report. -/
structure Document (T : Type) where
  sections : List (Section T)
  settings : Settings
deriving Repr

/-- A report with text as it is read. -/
abbrev RawDocument := Document String

/-- A report whose texts are resolved. -/
abbrev ResolvedDocument := Document Runes

namespace Document

/-- Replaces every text in document order. -/
def traverse {m : Type → Type} [Monad m] (f : T → m U) (d : Document T) : m (Document U) := do
  let sections ← d.sections.mapM fun s => do
    let nodes ← traverseNodes f s.nodes
    return { pageStart := s.pageStart, nodes := nodes : Section U }
  return { sections, settings := d.settings }

/-- Whether some section holds a block of code, in a table cell or by itself. -/
def hasCode (d : Document T) : Bool := d.sections.any fun s => nodesHaveCode s.nodes

end Document

end ReportPress
