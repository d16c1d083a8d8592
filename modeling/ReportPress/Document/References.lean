import ReportPress.Document.Basic

/-!
# The files that a report refers to

* `Node.references` — the paths of the pictures and documents in a node, those in the cells of a
  table included.
* `Document.references` — those of a whole report, in document order.
-/

namespace ReportPress

variable {T : Type}

mutual

/-- The paths of the pictures and documents in a node. -/
def Node.references : Node T → List String
  | .image i => [i.source]
  | .external d => [d.path]
  | .table _ rows _ => rowReferences rows
  | _ => []

/-- The paths in a sequence of nodes. -/
def nodeReferences : List (Node T) → List String
  | [] => []
  | n :: ns => n.references ++ nodeReferences ns

/-- The paths in rows, from top to bottom. -/
def rowReferences : List (List (Node T)) → List String
  | [] => []
  | r :: rs => nodeReferences r ++ rowReferences rs

end

/-- The paths of the pictures and documents in a report. -/
def Document.references (d : Document T) : List String :=
  d.sections.flatMap fun s => nodeReferences s.nodes

end ReportPress
