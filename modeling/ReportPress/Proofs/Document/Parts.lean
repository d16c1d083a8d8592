import ReportPress.Document.Basic
import ReportPress.Proofs.Text.Words

/-!
# The parts and the texts of a report

A table holds nodes in its cells, so a node can have nodes inside it.

* `Node.parts`, `Document.parts` — a node with all nodes in its cells, at whatever depth, and all
  nodes of a report.
* `Node.ownTexts`, `Document.texts` — the texts of a node, not counting those in its cells, and
  all texts of a report in document order.
* `Node.strings`, `nodesStrings`, `Document.strings` — all that a raw node can show: its texts, its
  code, the path of another document; all that raw nodes and a raw report can.
* `Node.values`, `Document.values` — the values that are given to other documents.

**Characters.**  `NodesConsistOf` — nodes that show characters with a property only.  A node does so
exactly if its own strings and the nodes in its cells do.

**Replacing texts.**  `exists_part_of_traverse` and `exists_text_of_traverse` — a report whose texts
are replaced has the parts of the report with their texts replaced, and each of their texts comes
from one of those.
-/

namespace ReportPress

open Text

variable {T U σ : Type}

mutual

/-- The texts of an entry, depth first. -/
def Entry.texts : Entry T → List T
  | .item text => [text]
  | .list _ entries => entriesTexts entries

/-- The texts of entries in order. -/
def entriesTexts : List (Entry T) → List T
  | [] => []
  | e :: es => e.texts ++ entriesTexts es

end

namespace Node

/-- The texts of a node, not counting those in its cells. -/
def ownTexts : Node T → List T
  | .text p => [p.text]
  | .title t => [t.text]
  | .table caption _ _ => caption.toList
  | .list l => entriesTexts l.entries
  | .image i => [i.alt]
  | .code c => [c.title]
  | .pageBreak | .contents | .external _ | .sectionBreak _ => []

/-- What a raw node shows: its texts, the body of its code, the path of another document. -/
def strings : Node String → List String
  | .code c => [c.title, c.body]
  | .external d => [d.path]
  | n => n.ownTexts

/-- The values that a node gives to another document. -/
def values : Node T → List (String × String)
  | .external d => d.values
  | _ => []

lemma ownTexts_subset_strings (n : Node String) : n.ownTexts ⊆ n.strings := by
  cases n <;> simp [ownTexts, strings]

end Node

mutual

/-- A node with all nodes in its cells. -/
def Node.parts : Node T → List (Node T)
  | .table caption rows normal => .table caption rows normal :: rowsParts rows
  | .text p => [.text p]
  | .title t => [.title t]
  | .pageBreak => [.pageBreak]
  | .contents => [.contents]
  | .list l => [.list l]
  | .image i => [.image i]
  | .code c => [.code c]
  | .external d => [.external d]
  | .sectionBreak pageStart => [.sectionBreak pageStart]

/-- Nodes with all nodes in their cells. -/
def nodesParts : List (Node T) → List (Node T)
  | [] => []
  | n :: ns => n.parts ++ nodesParts ns

/-- The nodes in rows of cells, with all in theirs. -/
def rowsParts : List (List (Node T)) → List (Node T)
  | [] => []
  | r :: rs => nodesParts r ++ rowsParts rs

end

/-- All nodes of a report, those in cells included. -/
def Document.parts (d : Document T) : List (Node T) :=
  d.sections.flatMap fun s => nodesParts s.nodes

/-- All texts of a report, in document order. -/
def Document.texts (d : Document T) : List T := d.parts.flatMap Node.ownTexts

lemma Node.mem_parts (n : Node T) : n ∈ n.parts := by
  cases n <;> simp [parts]

lemma mem_nodesParts {n m : Node T} : ∀ {ns : List (Node T)}, n ∈ ns → m ∈ n.parts →
    m ∈ nodesParts ns
  | k :: ns, hn, hm => by
      rw [nodesParts, List.mem_append]
      rcases List.mem_cons.mp hn with rfl | hn
      · exact Or.inl hm
      · exact Or.inr (mem_nodesParts hn hm)

@[simp] lemma nodesParts_append : ∀ ms ns : List (Node T),
    nodesParts (ms ++ ns) = nodesParts ms ++ nodesParts ns
  | [], ns => rfl
  | m :: ms, ns => by
      rw [List.cons_append, nodesParts, nodesParts, nodesParts_append, List.append_assoc]

@[simp] lemma entriesTexts_append (es : List (Entry T)) : ∀ ds : List (Entry T),
    entriesTexts (ds ++ es) = entriesTexts ds ++ entriesTexts es
  | [] => rfl
  | d :: ds => by
      rw [List.cons_append, entriesTexts, entriesTexts_append es ds, entriesTexts,
        List.append_assoc]

/-- All that raw nodes can show. -/
def nodesStrings (ns : List (Node String)) : List String := (nodesParts ns).flatMap Node.strings

/-- All that a raw report says, in its nodes or about itself. -/
def Document.strings (d : RawDocument) : List String :=
  d.parts.flatMap Node.strings ++ (d.settings.title.toList ++ d.settings.author.toList)

/-- The values that a report gives to other documents. -/
def Document.values (d : Document T) : List (String × String) := d.parts.flatMap Node.values

/-! ## Characters -/

/-- Nodes that show characters with a property only. -/
def NodesConsistOf (P : Char → Prop) (ns : List (Node String)) : Prop :=
  ∀ s ∈ nodesStrings ns, ConsistsOf P s

section NodesConsistOf

variable {P : Char → Prop} {n m : Node String} {ns ms : List (Node String)}

@[simp] lemma nodesConsistOf_nil : NodesConsistOf P [] := by
  simp [NodesConsistOf, nodesStrings, nodesParts]

@[simp] lemma nodesConsistOf_append :
    NodesConsistOf P (ms ++ ns) ↔ NodesConsistOf P ms ∧ NodesConsistOf P ns := by
  simp only [NodesConsistOf, nodesStrings, nodesParts_append, List.flatMap_append,
    List.forall_mem_append]

lemma nodesConsistOf_cons :
    NodesConsistOf P (n :: ns) ↔ NodesConsistOf P [n] ∧ NodesConsistOf P ns := by
  rw [← List.singleton_append, nodesConsistOf_append]

@[simp] lemma nodesConsistOf_cons_cons :
    NodesConsistOf P (n :: m :: ns) ↔ NodesConsistOf P [n] ∧ NodesConsistOf P (m :: ns) :=
  nodesConsistOf_cons

lemma nodesConsistOf_iff_forall : NodesConsistOf P ns ↔ ∀ n ∈ ns, NodesConsistOf P [n] := by
  induction ns with
  | nil => simp
  | cons n ns ih => rw [nodesConsistOf_cons, ih, List.forall_mem_cons]

/-- A node without others in it shows its own strings. -/
lemma nodesConsistOf_singleton (h : n.parts = [n]) :
    NodesConsistOf P [n] ↔ ∀ s ∈ n.strings, ConsistsOf P s := by
  simp [NodesConsistOf, nodesStrings, nodesParts, h]

@[simp] lemma nodesConsistOf_text {p : Paragraph String} :
    NodesConsistOf P [.text p] ↔ ConsistsOf P p.text := by
  rw [nodesConsistOf_singleton (by rw [Node.parts])]
  simp [Node.strings, Node.ownTexts]

@[simp] lemma nodesConsistOf_ofText {text : String} :
    NodesConsistOf P [.ofText text] ↔ ConsistsOf P text := nodesConsistOf_text

@[simp] lemma nodesConsistOf_textRow {cells : List String} :
    NodesConsistOf P (Node.textRow cells) ↔ ∀ s ∈ cells, ConsistsOf P s := by
  rw [nodesConsistOf_iff_forall, Node.textRow, List.forall_mem_map]
  exact forall₂_congr fun _ _ => nodesConsistOf_ofText

@[simp] lemma nodesConsistOf_title {t : Title String} :
    NodesConsistOf P [.title t] ↔ ConsistsOf P t.text := by
  rw [nodesConsistOf_singleton (by rw [Node.parts])]
  simp [Node.strings, Node.ownTexts]

@[simp] lemma nodesConsistOf_list {l : ItemList String} :
    NodesConsistOf P [.list l] ↔ ∀ s ∈ entriesTexts l.entries, ConsistsOf P s := by
  rw [nodesConsistOf_singleton (by rw [Node.parts])]
  simp [Node.strings, Node.ownTexts]

@[simp] lemma nodesConsistOf_image {i : Image String} :
    NodesConsistOf P [.image i] ↔ ConsistsOf P i.alt := by
  rw [nodesConsistOf_singleton (by rw [Node.parts])]
  simp [Node.strings, Node.ownTexts]

@[simp] lemma nodesConsistOf_code {c : CodeBlock String} :
    NodesConsistOf P [.code c] ↔ ConsistsOf P c.title ∧ ConsistsOf P c.body := by
  rw [nodesConsistOf_singleton (by rw [Node.parts])]
  simp [Node.strings]

@[simp] lemma nodesConsistOf_external {d : ExternalDocument} :
    NodesConsistOf P [.external d] ↔ ConsistsOf P d.path := by
  rw [nodesConsistOf_singleton (by rw [Node.parts])]
  simp [Node.strings]

@[simp] lemma nodesConsistOf_pageBreak : NodesConsistOf P [.pageBreak] := by
  rw [nodesConsistOf_singleton (by rw [Node.parts])]
  simp [Node.strings, Node.ownTexts]

@[simp] lemma nodesConsistOf_contents : NodesConsistOf P [.contents] := by
  rw [nodesConsistOf_singleton (by rw [Node.parts])]
  simp [Node.strings, Node.ownTexts]

@[simp] lemma nodesConsistOf_sectionBreak {pageStart : Option UInt32} :
    NodesConsistOf P [.sectionBreak pageStart] := by
  rw [nodesConsistOf_singleton (by rw [Node.parts])]
  simp [Node.strings, Node.ownTexts]

/-- A table shows its caption and what is in its cells. -/
lemma nodesConsistOf_table {caption : Option String} {rows : List (List (Node String))}
    {normal : Bool} : NodesConsistOf P [.table caption rows normal] ↔
      (∀ s ∈ caption, ConsistsOf P s) ∧ ∀ row ∈ rows, NodesConsistOf P row := by
  have hrows : (∀ s ∈ (rowsParts rows).flatMap Node.strings, ConsistsOf P s) ↔
      ∀ row ∈ rows, NodesConsistOf P row := by
    induction rows with
    | nil => simp [rowsParts]
    | cons row rows ih =>
        rw [rowsParts, List.flatMap_append, List.forall_mem_append, ih, List.forall_mem_cons]
        rfl
  have htable : nodesStrings [.table caption rows normal]
      = caption.toList ++ (rowsParts rows).flatMap Node.strings := by
    simp [nodesStrings, nodesParts, Node.parts, Node.strings, Node.ownTexts]
  rw [NodesConsistOf, htable, List.forall_mem_append, hrows]
  simp

/-- A report says what is in its sections, and something about itself. -/
lemma strings_consistOf_iff {d : RawDocument} : (∀ s ∈ d.strings, ConsistsOf P s) ↔
    (∀ part ∈ d.sections, NodesConsistOf P part.nodes) ∧
      ∀ s ∈ d.settings.title.toList ++ d.settings.author.toList, ConsistsOf P s := by
  have hparts : (∀ s ∈ d.parts.flatMap Node.strings, ConsistsOf P s) ↔
      ∀ part ∈ d.sections, NodesConsistOf P part.nodes := by
    simp only [Document.parts, NodesConsistOf, nodesStrings, List.flatMap_assoc,
      List.forall_mem_flatMap]
  rw [Document.strings, List.forall_mem_append, hparts]

end NodesConsistOf

/-! ## Replacing texts -/

/-- An action for the items of a list is done for the first item, and then for the rest. -/
lemma run_mapM_cons (f : T → StateM σ U) (a : T) (as : List T) (s : σ) :
    ((a :: as).mapM f).run s =
      (((f a).run s).1 :: ((as.mapM f).run ((f a).run s).2).1,
        ((as.mapM f).run ((f a).run s).2).2) := by
  rw [List.mapM_cons]
  rfl

/-- What an action yields for the items of a list, it yields for one of them. -/
lemma exists_of_mem_mapM {f : T → StateM σ U} : ∀ {as : List T} {s : σ} {b : U},
    b ∈ ((as.mapM f).run s).1 → ∃ a ∈ as, ∃ s', b = ((f a).run s').1
  | [], s, b, h => nomatch h
  | a :: as, s, b, h => by
      rw [run_mapM_cons] at h
      rcases List.mem_cons.mp h with h | h
      · exact ⟨a, List.mem_cons_self, s, h⟩
      · obtain ⟨a', ha, s', hb⟩ := exists_of_mem_mapM h
        exact ⟨a', List.mem_cons_of_mem _ ha, s', hb⟩

section Traverse

variable {f : T → StateM σ U}

mutual

lemma exists_text_of_traverse_entry : ∀ {e : Entry T} {s : σ} {u : U},
    u ∈ ((e.traverse f).run s).1.texts → ∃ t ∈ e.texts, ∃ s', u = ((f t).run s').1
  | .item text, s, u, h => ⟨text, by simp [Entry.texts], s, List.mem_singleton.mp h⟩
  | .list style entries, s, u, h => exists_text_of_traverseEntries h

lemma exists_text_of_traverseEntries : ∀ {es : List (Entry T)} {s : σ} {u : U},
    u ∈ entriesTexts ((traverseEntries f es).run s).1 →
      ∃ t ∈ entriesTexts es, ∃ s', u = ((f t).run s').1
  | [], s, u, h => nomatch h
  | e :: es, s, u, h => by
      have hmem : u ∈ ((e.traverse f).run s).1.texts ++
          entriesTexts ((traverseEntries f es).run ((e.traverse f).run s).2).1 := h
      rw [entriesTexts]
      rcases List.mem_append.mp hmem with h | h
      · obtain ⟨t, ht, s', hu⟩ := exists_text_of_traverse_entry h
        exact ⟨t, List.mem_append_left _ ht, s', hu⟩
      · obtain ⟨t, ht, s', hu⟩ := exists_text_of_traverseEntries h
        exact ⟨t, List.mem_append_right _ ht, s', hu⟩

end

/-- A text of a node whose texts are replaced comes from one of its texts. -/
lemma Node.exists_text_of_traverse {n : Node T} {s : σ} {u : U}
    (h : u ∈ ((n.traverse f).run s).1.ownTexts) : ∃ t ∈ n.ownTexts, ∃ s', u = ((f t).run s').1 := by
  cases n with
  | text p => exact ⟨p.text, by simp [ownTexts], s, List.mem_singleton.mp h⟩
  | title t => exact ⟨t.text, by simp [ownTexts], s, List.mem_singleton.mp h⟩
  | list l => exact exists_text_of_traverseEntries h
  | image i => exact ⟨i.alt, by simp [ownTexts], s, List.mem_singleton.mp h⟩
  | code c => exact ⟨c.title, by simp [ownTexts], s, List.mem_singleton.mp h⟩
  | table caption rows normal =>
      cases caption with
      | none => exact nomatch h
      | some text => exact ⟨text, by simp [ownTexts], s, List.mem_singleton.mp h⟩
  | pageBreak => exact nomatch h
  | contents => exact nomatch h
  | external d => exact nomatch h
  | sectionBreak pageStart => exact nomatch h

mutual

/-- A part of a node whose texts are replaced is one of its parts with the texts replaced. -/
lemma Node.exists_part_of_traverse : ∀ {n : Node T} {s : σ} {m : Node U},
    m ∈ ((n.traverse f).run s).1.parts → ∃ k ∈ n.parts, ∃ s', m = ((k.traverse f).run s').1
  | .table caption rows normal, s, m, h => by
      have hrun : ∃ s', ((Node.table caption rows normal).traverse f).run s
          = (.table ((((Node.table caption rows normal).traverse f).run s).1.ownTexts.head?)
              ((traverseRows f rows).run s').1 normal, ((traverseRows f rows).run s').2) := by
        cases caption with
        | none => exact ⟨s, rfl⟩
        | some text => exact ⟨((f text).run s).2, rfl⟩
      obtain ⟨s', hrun⟩ := hrun
      by_cases hself : m = (((Node.table caption rows normal).traverse f).run s).1
      · exact ⟨_, Node.mem_parts _, s, hself⟩
      · rw [hrun, Node.parts] at h
        rcases List.mem_cons.mp h with h | h
        · exact absurd (h.trans (congrArg Prod.fst hrun).symm) hself
        · obtain ⟨k, hk, s'', hm⟩ := exists_part_of_traverseRows h
          exact ⟨k, List.mem_cons_of_mem _ hk, s'', hm⟩
  | .text p, s, m, h => ⟨_, Node.mem_parts _, s, List.mem_singleton.mp h⟩
  | .title t, s, m, h => ⟨_, Node.mem_parts _, s, List.mem_singleton.mp h⟩
  | .pageBreak, s, m, h => ⟨_, Node.mem_parts _, s, List.mem_singleton.mp h⟩
  | .contents, s, m, h => ⟨_, Node.mem_parts _, s, List.mem_singleton.mp h⟩
  | .list l, s, m, h => ⟨_, Node.mem_parts _, s, List.mem_singleton.mp h⟩
  | .image i, s, m, h => ⟨_, Node.mem_parts _, s, List.mem_singleton.mp h⟩
  | .code c, s, m, h => ⟨_, Node.mem_parts _, s, List.mem_singleton.mp h⟩
  | .external d, s, m, h => ⟨_, Node.mem_parts _, s, List.mem_singleton.mp h⟩
  | .sectionBreak pageStart, s, m, h => ⟨_, Node.mem_parts _, s, List.mem_singleton.mp h⟩

lemma exists_part_of_traverseNodes : ∀ {ns : List (Node T)} {s : σ} {m : Node U},
    m ∈ nodesParts ((traverseNodes f ns).run s).1 →
      ∃ k ∈ nodesParts ns, ∃ s', m = ((k.traverse f).run s').1
  | [], s, m, h => nomatch h
  | n :: ns, s, m, h => by
      have hmem : m ∈ ((n.traverse f).run s).1.parts ++
          nodesParts ((traverseNodes f ns).run ((n.traverse f).run s).2).1 := h
      rw [nodesParts]
      rcases List.mem_append.mp hmem with h | h
      · obtain ⟨k, hk, s', hm⟩ := Node.exists_part_of_traverse h
        exact ⟨k, List.mem_append_left _ hk, s', hm⟩
      · obtain ⟨k, hk, s', hm⟩ := exists_part_of_traverseNodes h
        exact ⟨k, List.mem_append_right _ hk, s', hm⟩

lemma exists_part_of_traverseRows : ∀ {rs : List (List (Node T))} {s : σ} {m : Node U},
    m ∈ rowsParts ((traverseRows f rs).run s).1 →
      ∃ k ∈ rowsParts rs, ∃ s', m = ((k.traverse f).run s').1
  | [], s, m, h => nomatch h
  | r :: rs, s, m, h => by
      have hmem : m ∈ nodesParts ((traverseNodes f r).run s).1 ++
          rowsParts ((traverseRows f rs).run ((traverseNodes f r).run s).2).1 := h
      rw [rowsParts]
      rcases List.mem_append.mp hmem with h | h
      · obtain ⟨k, hk, s', hm⟩ := exists_part_of_traverseNodes h
        exact ⟨k, List.mem_append_left _ hk, s', hm⟩
      · obtain ⟨k, hk, s', hm⟩ := exists_part_of_traverseRows h
        exact ⟨k, List.mem_append_right _ hk, s', hm⟩

end

/-- The parts of a report whose texts are replaced are its parts with the texts replaced. -/
theorem Document.exists_part_of_traverse {d : Document T} {s : σ} {m : Node U}
    (h : m ∈ ((d.traverse f).run s).1.parts) :
    ∃ k ∈ d.parts, ∃ s', m = ((k.traverse f).run s').1 := by
  let ofPart (part : Section T) : StateM σ (Section U) := do
    let nodes ← traverseNodes f part.nodes
    return { pageStart := part.pageStart, nodes := nodes }
  obtain ⟨replaced, hreplaced, hm⟩ := List.mem_flatMap.mp h
  obtain ⟨part, hpart, s', rfl⟩ : ∃ part ∈ d.sections, ∃ s', replaced = ((ofPart part).run s').1 :=
    exists_of_mem_mapM hreplaced
  obtain ⟨k, hk, s'', hm⟩ := exists_part_of_traverseNodes hm
  exact ⟨k, List.mem_flatMap.mpr ⟨part, hpart, hk⟩, s'', hm⟩

end Traverse

end ReportPress
