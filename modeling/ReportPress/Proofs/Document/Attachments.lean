import ReportPress.Proofs.Document.Traversal

/-!
# What a report takes from elsewhere

Pictures and other documents stand in files of their own.  Whether a report can be set depends on
them and on the levels of its titles, and on nothing else.

* `seenIn` — what is seen in nodes, those in their cells included.
* `Attachment` — a picture or another document, by where it is found.
* `Node.attachments`, `Document.attachments` — those of a node, not counting the nodes in its cells,
  and those of a report in document order.
* `Node.levels`, `Document.levels` — the levels of titles, in the same way.

`attachments_traverse` and `levels_traverse` — both are kept where texts are replaced.
-/

namespace ReportPress

variable {T U V σ : Type}

/-! ## What is seen in nodes -/

/-- What is seen in nodes, those in their cells included. -/
def seenIn (look : Node T → List V) (ns : List (Node T)) : List V := (nodesParts ns).flatMap look

section SeenIn

variable {look : Node T → List V}

@[simp] lemma seenIn_nil : seenIn look [] = [] := rfl

@[simp] lemma seenIn_append (ms ns : List (Node T)) :
    seenIn look (ms ++ ns) = seenIn look ms ++ seenIn look ns := by
  rw [seenIn, nodesParts_append, List.flatMap_append, seenIn, seenIn]

lemma seenIn_cons (n : Node T) (ns : List (Node T)) :
    seenIn look (n :: ns) = seenIn look [n] ++ seenIn look ns := by
  rw [← List.singleton_append, seenIn_append]

lemma seenIn_eq_flatMap (ns : List (Node T)) :
    seenIn look ns = ns.flatMap fun n => seenIn look [n] := by
  induction ns with
  | nil => rfl
  | cons n ns ih => rw [seenIn_cons, ih, List.flatMap_cons]

lemma mem_seenIn {v : V} {ns : List (Node T)} :
    v ∈ seenIn look ns ↔ ∃ n ∈ ns, v ∈ seenIn look [n] := by
  rw [seenIn_eq_flatMap, List.mem_flatMap]

/-- A node without others in it is seen by itself. -/
lemma seenIn_singleton {n : Node T} (h : n.parts = [n]) : seenIn look [n] = look n := by
  simp [seenIn, nodesParts, h]

/-- In a table, what is in its cells is seen as well. -/
lemma seenIn_table (caption : Option T) (rows : List (List (Node T))) (normal : Bool) :
    seenIn look [.table caption rows normal]
      = look (.table caption rows normal) ++ rows.flatMap (seenIn look) := by
  have hrows : ∀ rows : List (List (Node T)),
      (rowsParts rows).flatMap look = rows.flatMap (seenIn look) := by
    intro rows
    induction rows with
    | nil => rfl
    | cons row rows ih => rw [rowsParts, List.flatMap_append, ih, List.flatMap_cons, seenIn]
  rw [← hrows]
  simp [seenIn, nodesParts, Node.parts]

end SeenIn

/-! ## Attachments and titles -/

/-- Something that a report takes from elsewhere. -/
inductive Attachment where
  | picture (source : String)
  | document (path : String)
deriving DecidableEq, Repr

/-- The attachments of a node, not counting those in its cells. -/
def Node.attachments : Node T → List Attachment
  | .image i => [.picture i.source]
  | .external d => [.document d.path]
  | _ => []

/-- The level of a title. -/
def Node.levels : Node T → List Nat
  | .title t => [t.level]
  | _ => []

/-- The attachments of a report, in document order. -/
def Document.attachments (d : Document T) : List Attachment := d.parts.flatMap Node.attachments

/-- The levels of the titles of a report. -/
def Document.levels (d : Document T) : List Nat := d.parts.flatMap Node.levels

lemma Document.attachments_eq (d : Document T) :
    d.attachments = d.sections.flatMap fun part => seenIn Node.attachments part.nodes :=
  List.flatMap_assoc

lemma Document.levels_eq (d : Document T) :
    d.levels = d.sections.flatMap fun part => seenIn Node.levels part.nodes :=
  List.flatMap_assoc

/-- Replacing texts keeps the attachments. -/
theorem attachments_traverse (f : T → StateM σ U) (d : Document T) (s : σ) :
    ((d.traverse f).run s).1.attachments = d.attachments := by
  refine flatMap_parts_traverse (fun n s => ?_) d s
  cases n with
  | table caption rows normal => cases caption <;> rfl
  | _ => rfl

/-- Replacing texts keeps the levels of titles. -/
theorem levels_traverse (f : T → StateM σ U) (d : Document T) (s : σ) :
    ((d.traverse f).run s).1.levels = d.levels := by
  refine flatMap_parts_traverse (fun n s => ?_) d s
  cases n with
  | table caption rows normal => cases caption <;> rfl
  | _ => rfl

end ReportPress
