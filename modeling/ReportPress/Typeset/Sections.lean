import ReportPress.Document.Basic

/-!
# Sections between breaks

A break among the nodes of a section ends it: the nodes after it are a section of their own, whose
pages are numbered as the break says.  Breaks in the cells of tables are no such breaks.

* `cutSection` — the sections that nodes make up; always one more than there are breaks.
* `splitSections` — those of a whole report that hold something.
-/

namespace ReportPress.Typeset

variable {T : Type}

/-- The sections that nodes make up, the first of which has the given page number. -/
def cutSection (pageStart : Option UInt32) : List (Node T) → List (Section T)
  | [] => [⟨pageStart, []⟩]
  | .sectionBreak next :: nodes => ⟨pageStart, []⟩ :: cutSection next nodes
  | node :: nodes =>
    match cutSection pageStart nodes with
    | [] => [⟨pageStart, [node]⟩]
    | s :: sections => { s with nodes := node :: s.nodes } :: sections

/-- The sections between breaks that hold something. -/
def splitSections (sections : List (Section T)) : List (Section T) :=
  (sections.flatMap fun s => cutSection s.pageStart s.nodes).filter fun s => !s.nodes.isEmpty

end ReportPress.Typeset
