import Mathlib.Data.List.Forall2
import ReportPress.Proofs.Typeset.Acts
import ReportPress.Proofs.Typeset.Inlines
import ReportPress.Proofs.Typeset.ListLevels

/-!
# The numbering of items

The paragraph of an item names a definition and a level in it.  The definition is that of the
outermost list, and the level is shared by all lists at the depth of the item in it.

* `Document.lists` — the lists of a report that are not part of others, those in cells included.
* `PlacedItem`, `Document.placedItems` — the items of these lists, each with its outermost list and
  the number of that among the lists of the report.
* `IsNumbered` — what is true of the paragraph of an item: its level counts as the first list at
  its depth does, which need not be the list that it is in.

**Acts of lists.**  `Covers` says which lists there are in a sequence of acts, and
`Covers.numbered` what they come to: a definition for each of them, and a numbered paragraph for
each item.

**Reports.**  `forall₂_isNumbered` — the numbered paragraphs of a document are those of the items
of the report, in their order.
-/

namespace ReportPress

variable {T : Type}

/-! ## Lists of a report -/

mutual

/-- The lists of a node that are not part of other lists. -/
def Node.lists : Node T → List (ItemList T)
  | .list l => [l]
  | .table _ rows _ => rowsLists rows
  | _ => []

/-- The lists of nodes, or of the cells of a row. -/
def nodesLists : List (Node T) → List (ItemList T)
  | [] => []
  | n :: ns => n.lists ++ nodesLists ns

/-- The lists in the rows of a table. -/
def rowsLists : List (List (Node T)) → List (ItemList T)
  | [] => []
  | r :: rs => nodesLists r ++ rowsLists rs

end

/-- The lists of a report that are not part of other lists, in order. -/
def Document.lists (d : Document T) : List (ItemList T) :=
  d.sections.flatMap fun s => nodesLists s.nodes

/-- An item with its outermost list, and the number of that among the lists of a report. -/
structure PlacedItem (T : Type) where
  list : ItemList T
  number : Nat
  item : ListItem T

/-- The items of lists, the first of which has the given number. -/
def placedItems (number : Nat) : List (ItemList T) → List (PlacedItem T)
  | [] => []
  | l :: lists => l.items.map (⟨l, number, ·⟩) ++ placedItems (number + 1) lists

/-- The items of a report, in order. -/
def Document.placedItems (d : Document T) : List (PlacedItem T) := ReportPress.placedItems 1 d.lists

/-- The number of a list says where it stands among the lists. -/
lemma getElem?_of_mem_placedItems {i : PlacedItem T} : ∀ {number : Nat} {lists : List (ItemList T)},
    i ∈ placedItems number lists →
      i.item ∈ i.list.items ∧ ∃ k, i.number = number + k ∧ lists[k]? = some i.list
  | number, [], h => by simp [placedItems] at h
  | number, l :: lists, h => by
      rcases List.mem_append.mp h with h | h
      · obtain ⟨item, hitem, rfl⟩ := List.mem_map.mp h
        exact ⟨hitem, 0, rfl, rfl⟩
      · obtain ⟨hitem, k, hk, hlist⟩ := getElem?_of_mem_placedItems h
        exact ⟨hitem, k + 1, by omega, hlist⟩

namespace Typeset

/-! ## Looking at numbered paragraphs -/

/-- The contents of a paragraph without page breaks. -/
def withoutBreaks (inlines : List Word.Inline) : List Word.Inline :=
  inlines.filter fun i => !isPageBreak i

/-- Looking at the number and the contents of numbered paragraphs. -/
def numbered : Observation ((Nat × Nat) × List Word.Inline) where
  of inlines numbering := numbering.toList.map fun n => (n, withoutBreaks inlines)
  of_pageBreak inlines numbering := by simp [withoutBreaks, isPageBreak, Word.Run.pageBreak]
  of_picture picture := rfl
  of_runs runs := rfl

/-- Some contents are those of runes, whatever has been marked before. -/
def ShowsRunes (inlines : List Word.Inline) (runes : Runes) : Prop :=
  ∃ marks : Bookmarks, inlines = ((inlinesOf none runes).run marks).1

/-- What is seen of an item: its number, its depth and its runes. -/
def IsSeen (number : Nat) (i : ListItem Runes) (seen : (Nat × Nat) × List Word.Inline) : Prop :=
  seen.1 = (number, i.depth) ∧ ShowsRunes seen.2 i.text

lemma withoutBreaks_inlinesOf (size : Option Nat) (runes : Runes) (marks : Bookmarks) :
    withoutBreaks ((inlinesOf size runes).run marks).1 = ((inlinesOf size runes).run marks).1 := by
  rw [withoutBreaks, List.filter_eq_self]
  intro i hi
  rw [(inlinesOf_marks size runes marks).noBreaks i hi]
  rfl

/-! ## Acts of lists -/

mutual

lemma entryActs_seen (alternate : Bool) (style : ListStyle) : ∀ (depth : Nat) (e : Entry Runes)
    (l : Ledger), List.Forall₂ (IsSeen l.definitions.length) (itemsOfEntry style depth e)
      (numbered.acts l (entryActs alternate depth e))
  | depth, .item text, l => by
      refine .cons ⟨rfl, l.bookmarks, ?_⟩ .nil
      exact withoutBreaks_inlinesOf none text l.bookmarks
  | depth, .list inner entries, l => by
      have hlength :
          (Act.next l (.register (depth + 1) { inner with alternate })).definitions.length
            = l.definitions.length := Act.length_definitions_next (by simp) l
      have ih := entriesActs_seen alternate inner (depth + 1) entries
        (Act.next l (.register (depth + 1) { inner with alternate }))
      rw [hlength] at ih
      exact ih

lemma entriesActs_seen (alternate : Bool) (style : ListStyle) : ∀ (depth : Nat)
    (entries : List (Entry Runes)) (l : Ledger),
      List.Forall₂ (IsSeen l.definitions.length) (itemsOfEntries style depth entries)
        (numbered.acts l (entriesActs alternate depth entries))
  | depth, [], l => .nil
  | depth, e :: entries, l => by
      have hlength : (after l (entryActs alternate depth e)).definitions.length
          = l.definitions.length := length_definitions_entryActs l
      have ih := entriesActs_seen alternate style depth entries
        (after l (entryActs alternate depth e))
      rw [hlength] at ih
      rw [itemsOfEntries, entriesActs, Observation.acts_append]
      exact List.rel_append (entryActs_seen alternate style depth e l) ih

end

/-- Adding a level to the definition that was made last. -/
lemma definitions_next_register {l : Ledger} {ds : List Word.Definition} {d : Word.Definition}
    (h : l.definitions = ds ++ [d]) (level : Nat) (style : ListStyle) :
    (Act.next l (.register level style)).definitions = ds ++ [addLevel level style d] := by
  have hlast : ∀ ds : List Word.Definition,
      (ds ++ [d]).modify ds.length (addLevel level style) = ds ++ [addLevel level style d] := by
    intro ds
    induction ds with
    | nil => rfl
    | cons other ds ih => exact congrArg (other :: ·) ih
  simp only [Act.next, h, List.length_append, List.length_singleton, Word.updateDefinition]
  exact hlast ds

mutual

lemma entryActs_definitions {alternate : Bool} : ∀ (depth : Nat) (e : Entry Runes) {l : Ledger}
    {ds : List Word.Definition} {d : Word.Definition}, l.definitions = ds ++ [d] →
      (after l (entryActs alternate depth e)).definitions
        = ds ++ [addLevels alternate d (stylesOfEntry depth e)]
  | depth, .item text, l, ds, d, h => h
  | depth, .list inner entries, l, ds, d, h => by
      have hnext := definitions_next_register h (depth + 1) { inner with alternate }
      rw [entryActs, after_cons, entriesActs_definitions (depth + 1) entries hnext]
      rfl

lemma entriesActs_definitions {alternate : Bool} : ∀ (depth : Nat) (entries : List (Entry Runes))
    {l : Ledger} {ds : List Word.Definition} {d : Word.Definition}, l.definitions = ds ++ [d] →
      (after l (entriesActs alternate depth entries)).definitions
        = ds ++ [addLevels alternate d (stylesOfEntries depth entries)]
  | depth, [], l, ds, d, h => h
  | depth, e :: entries, l, ds, d, h => by
      rw [entriesActs, after_append, entriesActs_definitions depth entries
        (entryActs_definitions depth e h), stylesOfEntries, addLevels_append]

end

/-- A list makes one definition, with the levels that its nested lists ask for. -/
lemma listActs_definitions (list : ItemList Runes) (l : Ledger) :
    (after l (listActs list)).definitions = l.definitions ++ [levelsOf list] := by
  have hdefine : (Act.next l .define).definitions = l.definitions ++ [[]] := rfl
  have hfirst := definitions_next_register hdefine 0 list.style
  rw [listActs, after_cons, after_cons, entriesActs_definitions 0 list.entries hfirst]
  rfl

/-- The items of a list are numbered with its definition. -/
lemma listActs_seen (list : ItemList Runes) (l : Ledger) :
    List.Forall₂ (IsSeen (l.definitions.length + 1)) list.items
      (numbered.acts l (listActs list)) := by
  have hlength : (Act.next (Act.next l .define) (.register 0 list.style)).definitions.length
      = l.definitions.length + 1 := by
    rw [Act.length_definitions_next (by simp)]
    simp [Act.next]
  have hentries := entriesActs_seen list.style.alternate list.style 0 list.entries
    (Act.next (Act.next l .define) (.register 0 list.style))
  rw [hlength] at hentries
  exact hentries

/-- A sequence of acts with the lists that begin in it. -/
inductive Covers : List Act → List (ItemList Runes) → Prop
  | nil : Covers [] []
  | paragraph {size : Option Nat} {runes : Runes} {acts : List Act}
      {lists : List (ItemList Runes)} :
      Covers acts lists → Covers (.paragraph size runes :: acts) lists
  | list {l : ItemList Runes} {acts : List Act} {lists : List (ItemList Runes)} :
      Covers acts lists → Covers (listActs l ++ acts) (l :: lists)

lemma Covers.append {acts more : List Act} {lists others : List (ItemList Runes)}
    (h : Covers acts lists) (hmore : Covers more others) :
    Covers (acts ++ more) (lists ++ others) := by
  induction h with
  | nil => exact hmore
  | paragraph _ ih => exact ih.paragraph
  | list _ ih =>
      rw [List.append_assoc]
      exact ih.list

/-- Acts make a definition for each list, and each item is seen with the number of its list. -/
theorem Covers.numbered {acts : List Act} {lists : List (ItemList Runes)} (h : Covers acts lists) :
    ∀ l : Ledger, (after l acts).definitions = l.definitions ++ lists.map levelsOf ∧
      List.Forall₂ (fun i => IsSeen i.number i.item)
        (placedItems (l.definitions.length + 1) lists) (Typeset.numbered.acts l acts) := by
  induction h with
  | nil => exact fun l => ⟨by simp, .nil⟩
  | paragraph _ ih => exact fun l => ih _
  | @list list acts lists _ ih =>
      intro l
      obtain ⟨hdefinitions, hseen⟩ := ih (after l (listActs list))
      rw [listActs_definitions] at hdefinitions hseen
      rw [after_append, Observation.acts_append, placedItems]
      constructor
      · rw [hdefinitions, List.map_cons, List.append_assoc, List.singleton_append]
      · refine List.rel_append ?_ ?_
        · rw [List.forall₂_map_left_iff]
          exact listActs_seen list l
        · simpa using hseen

/-! ## Acts of reports -/

lemma captionActs_covers : ∀ caption : Option Runes, Covers (captionActs caption) []
  | none => .nil
  | some _ => .paragraph .nil

lemma imageActs_covers (i : Image Runes) : Covers (imageActs i) [] := by
  unfold imageActs
  split
  · exact .nil
  · exact .paragraph .nil

/-- A cell with text shows a paragraph, any other what its node does. -/
lemma cellsActs_cons_covers {normalFontSize : Bool} {node : Node Runes}
    {nodes : List (Node Runes)} (hnode : Covers (nodeActs node) node.lists)
    (hnodes : Covers (cellsActs normalFontSize nodes) (nodesLists nodes)) :
    Covers (cellsActs normalFontSize (node :: nodes)) (nodesLists (node :: nodes)) := by
  cases node with
  | text p => exact hnodes.paragraph
  | _ =>
      rw [cellsActs, nodesLists]
      · exact hnode.append hnodes
      · simp

mutual

lemma nodeActs_covers : ∀ n : Node Runes, Covers (nodeActs n) n.lists
  | .text _ => .paragraph .nil
  | .title _ => .paragraph .nil
  | .pageBreak => .nil
  | .contents => .nil
  | .table caption rows normalFontSize =>
      (captionActs_covers caption).append (rowsActs_covers normalFontSize rows)
  | .list l => by
      have h : Covers (listActs l ++ []) [l] := .list .nil
      rwa [List.append_nil] at h
  | .image i => imageActs_covers i
  | .code _ => .paragraph .nil
  | .external _ => .nil
  | .sectionBreak _ => .nil

lemma cellsActs_covers (normalFontSize : Bool) : ∀ nodes : List (Node Runes),
    Covers (cellsActs normalFontSize nodes) (nodesLists nodes)
  | [] => .nil
  | n :: ns => cellsActs_cons_covers (nodeActs_covers n) (cellsActs_covers normalFontSize ns)

lemma rowsActs_covers (normalFontSize : Bool) : ∀ rows : List (List (Node Runes)),
    Covers (rowsActs normalFontSize rows) (rowsLists rows)
  | [] => .nil
  | r :: rs => (cellsActs_covers normalFontSize r).append (rowsActs_covers normalFontSize rs)

end

lemma nodesActs_covers : ∀ nodes : List (Node Runes),
    Covers (nodes.flatMap nodeActs) (nodesLists nodes)
  | [] => .nil
  | n :: ns => (nodeActs_covers n).append (nodesActs_covers ns)

lemma documentActs_covers (d : ResolvedDocument) : Covers (documentActs d) d.lists := by
  have hsections : ∀ sections : List (Section Runes),
      Covers (sections.flatMap fun s => s.nodes.flatMap nodeActs)
        (sections.flatMap fun s => nodesLists s.nodes) := by
    intro sections
    induction sections with
    | nil => exact .nil
    | cons s sections ih => exact (nodesActs_covers s.nodes).append ih
  exact hsections d.sections

/-- What is true of the paragraph of an item: it is numbered with the definition of the outermost
list at the depth of the item, shows the text of the item, and its level counts as the first list
at that depth asks for. -/
structure IsNumbered (definitions : List Word.Definition) (i : PlacedItem Runes)
    (p : Word.Paragraph) : Prop where
  numbering : p.format.numbering = some (i.number, i.item.depth)
  shows : ShowsRunes (withoutBreaks p.inlines) i.item.text
  level : ∃ definition level first, Word.definition? definitions i.number = some definition ∧
    levelAt? definition i.item.depth = some level ∧
    i.list.firstStyle? i.item.depth = some first ∧
    level.format = formatOf first ∧ level.start = first.start

/-- Numbered paragraphs are those in which something is seen. -/
lemma forall₂_of_numbered {α : Type} {R : α → (Nat × Nat) × List Word.Inline → Prop} :
    ∀ {as : List α} {ps : List Word.Paragraph},
      List.Forall₂ R as (ps.flatMap numbered.paragraph) →
        List.Forall₂
          (fun a p => ∃ n, p.format.numbering = some n ∧ R a (n, withoutBreaks p.inlines))
          as (ps.filter fun p => p.format.numbering.isSome)
  | as, [], h => by
      rw [List.flatMap_nil, List.forall₂_nil_right_iff] at h
      rw [h]
      exact .nil
  | as, p :: ps, h => by
      rw [List.flatMap_cons] at h
      cases hn : p.format.numbering with
      | none =>
          have hnothing : numbered.paragraph p = [] := by
            rw [Observation.paragraph, hn]
            rfl
          rw [hnothing, List.nil_append] at h
          rw [List.filter_cons_of_neg (by simp [hn])]
          exact forall₂_of_numbered h
      | some n =>
          have hseen : numbered.paragraph p = [(n, withoutBreaks p.inlines)] := by
            rw [Observation.paragraph, hn]
            rfl
          rw [hseen, List.singleton_append, List.forall₂_cons_right_iff] at h
          obtain ⟨a, as, ha, has, rfl⟩ := h
          rw [List.filter_cons_of_pos (by simp [hn])]
          exact .cons ⟨n, hn, ha⟩ (forall₂_of_numbered has)

/-- The definition with the number of a list has its levels. -/
lemma isNumbered_of_isSeen {lists : List (ItemList Runes)} {i : PlacedItem Runes}
    (hi : i ∈ placedItems 1 lists) {p : Word.Paragraph} {n : Nat × Nat}
    (hn : p.format.numbering = some n)
    (hseen : IsSeen i.number i.item (n, withoutBreaks p.inlines)) :
    IsNumbered (lists.map levelsOf) i p := by
  obtain ⟨hitem, k, hk, hlist⟩ := getElem?_of_mem_placedItems hi
  obtain ⟨first, hfirst⟩ := ItemList.exists_firstStyle? hitem
  have hdefinition : Word.definition? (lists.map levelsOf) i.number = some (levelsOf i.list) := by
    rw [hk, Nat.add_comm, Word.definition?, List.getElem?_map, hlist]
    rfl
  have hlevel := levelAt?_levelsOf i.list i.item.depth
  rw [hfirst, Option.map_some, Option.map_eq_some_iff] at hlevel
  obtain ⟨level, hlevel, hcounting⟩ := hlevel
  obtain ⟨hformat, hstart⟩ := Prod.mk.inj hcounting
  exact ⟨hn.trans (congrArg some hseen.1), hseen.2,
    _, level, first, hdefinition, hlevel, hfirst, hformat, hstart⟩

/-- The numbered paragraphs of a document are those of the items of the report, in their order. -/
theorem forall₂_isNumbered {files : Files} {directory : Path} {making : Making} {tools : Tools}
    {d : ResolvedDocument} {doc : Word.Document}
    (h : typeset files directory making d tools = .ok doc) :
    List.Forall₂ (IsNumbered doc.definitions) d.placedItems
      (doc.paragraphs.filter fun p => p.format.numbering.isSome) := by
  obtain ⟨hdefinitions, hparagraphs⟩ := typeset_follows numbered h
  obtain ⟨hmade, hseen⟩ := (documentActs_covers d).numbered {}
  rw [hmade] at hdefinitions
  rw [← hparagraphs] at hseen
  have hpairs := (List.forall₂_and_left _ _).mpr ⟨fun i hi => hi, forall₂_of_numbered hseen⟩
  refine hpairs.imp fun i p hip => ?_
  obtain ⟨hi, n, hn, hip⟩ := hip
  rw [hdefinitions]
  exact isNumbered_of_isSeen hi hn hip

/-- A list with bullets in which a nested list with bullets and a nested ordered list stand at the
same depth. -/
def mixedList : ItemList Runes :=
  ⟨{ ordered := false },
    [.item [.plain "a"], .list { ordered := false } [.item [.plain "b"]],
      .item [.plain "c"], .list { ordered := true } [.item [.plain "d"]]]⟩

/-- A report that is this list. -/
def mixedReport : ResolvedDocument :=
  { sections := [{ pageStart := some 1, nodes := [.list mixedList] }], settings := {} }

lemma exists_typeset_mixedReport : ∃ doc, typeset {} ⟨"/"⟩ ⟨0, 0⟩ mixedReport = .ok doc :=
  ⟨_, rfl⟩

/-- The statement for the report with the mixed list: its level at depth one counts with bullets,
as the first of the two nested lists asks for. -/
theorem forall₂_isNumbered_mixedReport :
    ∃ doc, typeset {} ⟨"/"⟩ ⟨0, 0⟩ mixedReport = .ok doc ∧
      List.Forall₂ (IsNumbered doc.definitions) mixedReport.placedItems
        (doc.paragraphs.filter fun p => p.format.numbering.isSome) ∧
      mixedList.firstStyle? 1 = some { ordered := false } := by
  obtain ⟨doc, h⟩ := exists_typeset_mixedReport
  exact ⟨doc, h, forall₂_isNumbered h, rfl⟩

/-- The level that a paragraph names counts as the list asks for that the item is in. -/
def IsNumberedAsOwn (definitions : List Word.Definition) (i : PlacedItem Runes)
    (p : Word.Paragraph) : Prop :=
  ∃ n definition level, p.format.numbering = some n ∧
    Word.definition? definitions n.1 = some definition ∧ levelAt? definition n.2 = some level ∧
    level.format = formatOf i.item.style ∧
    (i.item.style.ordered = true → level.start = i.item.style.start)

/-- Items of the two nested lists name the same level, which cannot count in both ways. -/
theorem not_isNumberedAsOwn_mixedReport :
    ∃ doc, typeset {} ⟨"/"⟩ ⟨0, 0⟩ mixedReport = .ok doc ∧
      ¬ List.Forall₂ (IsNumberedAsOwn doc.definitions) mixedReport.placedItems
        (doc.paragraphs.filter fun p => p.format.numbering.isSome) := by
  obtain ⟨doc, h⟩ := exists_typeset_mixedReport
  refine ⟨doc, h, fun hown => ?_⟩
  obtain ⟨-, hparagraphs⟩ := typeset_follows numbered h
  obtain ⟨-, hseen⟩ := (documentActs_covers mixedReport).numbered {}
  rw [← hparagraphs] at hseen
  have hnumbered := forall₂_of_numbered hseen
  generalize doc.paragraphs.filter (fun p => p.format.numbering.isSome) = ps at hown hnumbered
  obtain _ | ⟨-, hown⟩ := hown
  obtain _ | ⟨⟨n, definition, level, hn, hdefinition, hlevel, hformat, -⟩, hown⟩ := hown
  obtain _ | ⟨-, hown⟩ := hown
  obtain _ | ⟨⟨n', definition', level', hn', hdefinition', hlevel', hformat', -⟩, hown⟩ := hown
  obtain _ | ⟨-, hnumbered⟩ := hnumbered
  obtain _ | ⟨⟨m, hm, hmseen, -⟩, hnumbered⟩ := hnumbered
  obtain _ | ⟨-, hnumbered⟩ := hnumbered
  obtain _ | ⟨⟨m', hm', hmseen', -⟩, hnumbered⟩ := hnumbered
  have hfirst : n = (1, 1) := (Option.some.inj (hn.symm.trans hm)).trans hmseen
  have hsecond : n' = (1, 1) := (Option.some.inj (hn'.symm.trans hm')).trans hmseen'
  have hsame : n' = n := hsecond.trans hfirst.symm
  rw [hsame, hdefinition, Option.some.injEq] at hdefinition'
  rw [hsame, ← hdefinition', hlevel, Option.some.injEq] at hlevel'
  rw [← hlevel', hformat] at hformat'
  exact absurd hformat' (by decide)

end Typeset

end ReportPress
