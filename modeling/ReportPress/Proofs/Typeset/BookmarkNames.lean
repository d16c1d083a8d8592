import Mathlib.Data.List.Nodup
import ReportPress.Proofs.Typeset.Acts
import ReportPress.Proofs.Typeset.Inlines
import ReportPress.Proofs.Typeset.ListLevels
import ReportPress.Proofs.Word.Elements

/-!
# The names of bookmarks

Places are kept apart by the anchors that runes name, but what is written are names that are made
of the anchors, and different anchors can have the same name.

* `documentRunes` — the runes of a report that are shown, in order.
* `places` — looking at the places that are marked in paragraphs.

**Every place once.**  `acts_places` — over a whole sequence of acts, the places that are marked
are the anchors of the runes, each at its first occurrence.

**Names.**  `nodup_bookmarkNames_iff` — the bookmarks of a document have different names if and
only if no two different anchors of the report are given the same name.
-/

namespace ReportPress.Typeset

open Word (bookmarkName bookmarkNames bodyXml placesOf)

/-! ## Runes that are shown -/

/-- The runes of the caption of a picture, if it says something. -/
def shownCaption (alt : Runes) : Runes :=
  if (Text.trimmed (plainText alt)).isEmpty then [] else alt

mutual

/-- The runes of a node that are shown. -/
def nodeRunes : Node Runes → Runes
  | .text p => p.text
  | .title t => t.text
  | .table caption rows _ => caption.getD [] ++ rowsRunes rows
  | .list l => l.items.flatMap ListItem.text
  | .image i => shownCaption i.alt
  | .code c => c.title
  | .pageBreak | .contents | .external _ | .sectionBreak _ => []

/-- The runes of nodes. -/
def nodesRunes : List (Node Runes) → Runes
  | [] => []
  | n :: ns => nodeRunes n ++ nodesRunes ns

/-- The runes in the rows of a table. -/
def rowsRunes : List (List (Node Runes)) → Runes
  | [] => []
  | r :: rs => nodesRunes r ++ rowsRunes rs

end

/-- The runes of a report that are shown, in order. -/
def documentRunes (d : ResolvedDocument) : Runes := d.sections.flatMap fun s => nodesRunes s.nodes

/-- The runes that an act shows. -/
def Act.runes : Act → Runes
  | .define | .register _ _ => []
  | .item _ runes => runes
  | .paragraph _ runes => runes

/-- The runes that acts show. -/
def actsRunes (acts : List Act) : Runes := acts.flatMap Act.runes

@[simp] lemma actsRunes_append (before acts : List Act) :
    actsRunes (before ++ acts) = actsRunes before ++ actsRunes acts :=
  List.flatMap_append

@[simp] lemma actsRunes_cons (a : Act) (acts : List Act) :
    actsRunes (a :: acts) = a.runes ++ actsRunes acts :=
  List.flatMap_cons

@[simp] lemma actsRunes_nil : actsRunes [] = [] := rfl

mutual

lemma actsRunes_entryActs {alternate : Bool} (style : ListStyle) : ∀ (depth : Nat)
    (e : Entry Runes),
      actsRunes (entryActs alternate depth e) = (itemsOfEntry style depth e).flatMap ListItem.text
  | depth, .item text => rfl
  | depth, .list inner entries => by
      rw [entryActs, itemsOfEntry, actsRunes_cons]
      exact actsRunes_entriesActs inner (depth + 1) entries

lemma actsRunes_entriesActs {alternate : Bool} (style : ListStyle) : ∀ (depth : Nat)
    (entries : List (Entry Runes)),
      actsRunes (entriesActs alternate depth entries)
        = (itemsOfEntries style depth entries).flatMap ListItem.text
  | depth, [] => rfl
  | depth, e :: entries => by
      rw [entriesActs, itemsOfEntries, actsRunes_append, List.flatMap_append,
        actsRunes_entryActs style, actsRunes_entriesActs style]

end

lemma actsRunes_listActs (l : ItemList Runes) :
    actsRunes (listActs l) = l.items.flatMap ListItem.text :=
  actsRunes_entriesActs l.style 0 l.entries

lemma actsRunes_imageActs (i : Image Runes) : actsRunes (imageActs i) = shownCaption i.alt := by
  unfold imageActs shownCaption
  split
  · rfl
  · simp [Act.runes]

/-- The runes of a cell do not depend on whether it is set as a text or as a node. -/
lemma actsRunes_cellsActs_cons {normalFontSize : Bool} {node : Node Runes}
    {nodes : List (Node Runes)} (hnode : actsRunes (nodeActs node) = nodeRunes node)
    (hnodes : actsRunes (cellsActs normalFontSize nodes) = nodesRunes nodes) :
    actsRunes (cellsActs normalFontSize (node :: nodes)) = nodesRunes (node :: nodes) := by
  cases node with
  | text p =>
      rw [cellsActs, nodesRunes, actsRunes_cons, hnodes]
      rfl
  | _ =>
      rw [cellsActs, nodesRunes, actsRunes_append, hnode, hnodes]
      simp

mutual

lemma actsRunes_nodeActs : ∀ n : Node Runes, actsRunes (nodeActs n) = nodeRunes n
  | .text p => by simp [nodeActs, nodeRunes, Act.runes]
  | .title t => by simp [nodeActs, nodeRunes, Act.runes]
  | .pageBreak => rfl
  | .contents => rfl
  | .table caption rows normalFontSize => by
      have hcaption : actsRunes (captionActs caption) = caption.getD [] := by
        cases caption <;> simp [captionActs, Act.runes]
      rw [nodeActs, nodeRunes, actsRunes_append, hcaption, actsRunes_rowsActs rows]
  | .list l => actsRunes_listActs l
  | .image i => actsRunes_imageActs i
  | .code c => by simp [nodeActs, nodeRunes, Act.runes]
  | .external _ => rfl
  | .sectionBreak _ => rfl

lemma actsRunes_cellsActs {normalFontSize : Bool} : ∀ nodes : List (Node Runes),
    actsRunes (cellsActs normalFontSize nodes) = nodesRunes nodes
  | [] => rfl
  | n :: ns => actsRunes_cellsActs_cons (actsRunes_nodeActs n) (actsRunes_cellsActs ns)

lemma actsRunes_rowsActs {normalFontSize : Bool} : ∀ rows : List (List (Node Runes)),
    actsRunes (rowsActs normalFontSize rows) = rowsRunes rows
  | [] => rfl
  | r :: rs => by
      rw [rowsActs, rowsRunes, actsRunes_append, actsRunes_cellsActs r, actsRunes_rowsActs rs]

end

lemma actsRunes_nodesActs : ∀ nodes : List (Node Runes),
    actsRunes (nodes.flatMap nodeActs) = nodesRunes nodes
  | [] => rfl
  | n :: ns => by
      rw [List.flatMap_cons, actsRunes_append, actsRunes_nodeActs, actsRunes_nodesActs ns,
        nodesRunes]

lemma actsRunes_documentActs (d : ResolvedDocument) :
    actsRunes (documentActs d) = documentRunes d := by
  have hsections : ∀ sections : List (Section Runes),
      actsRunes (sections.flatMap fun s => s.nodes.flatMap nodeActs)
        = sections.flatMap fun s => nodesRunes s.nodes := by
    intro sections
    induction sections with
    | nil => rfl
    | cons s sections ih =>
        rw [List.flatMap_cons, List.flatMap_cons, actsRunes_append, actsRunes_nodesActs, ih]
  exact hsections d.sections

/-! ## Places -/

/-- Looking at the places that are marked in paragraphs. -/
def places : Observation String where
  of inlines _ := placesOf inlines
  of_pageBreak inlines numbering := by simp [placesOf]
  of_picture picture := rfl
  of_runs runs := by simp [placesOf]

/-- Acts mark the places of their runes that are new, each once. -/
theorem acts_places : ∀ (acts : List Act) (l : Ledger),
    places.acts l acts = fresh l.bookmarks.anchors (anchorsOf (actsRunes acts))
  | [], l => rfl
  | a :: acts, l => by
      have hshown : ∀ (size : Option Nat) (runes : Runes),
          placesOf ((inlinesOf size runes).run l.bookmarks).1 ++
            fresh ((inlinesOf size runes).run l.bookmarks).2.anchors (anchorsOf (actsRunes acts))
              = fresh l.bookmarks.anchors (anchorsOf (runes ++ actsRunes acts)) := by
        intro size runes
        have hmarks := inlinesOf_marks size runes l.bookmarks
        rw [anchorsOf_append, fresh_append, ← hmarks.places, fresh_congr hmarks.mem_anchors]
      rw [Observation.acts, acts_places acts, actsRunes_cons]
      cases a with
      | define => rfl
      | register level style => rfl
      | item level runes => exact hshown none runes
      | paragraph size runes => exact hshown size runes

/-! ## Names -/

section Names

variable {files : Files} {directory : Path} {making : Making} {tools : Tools}
  {d : ResolvedDocument} {doc : Word.Document}

/-- The places that are marked in a document are the anchors of the report, each once. -/
lemma places_typeset (h : typeset files directory making d tools = .ok doc) :
    doc.paragraphs.flatMap (fun p => placesOf p.inlines)
      = fresh [] (anchorsOf (documentRunes d)) := by
  obtain ⟨-, hplaces⟩ := typeset_follows places h
  rw [acts_places, actsRunes_documentActs] at hplaces
  exact hplaces

/-- Their bookmarks are named after them. -/
lemma bookmarkNames_typeset (h : typeset files directory making d tools = .ok doc) :
    bookmarkNames [((bodyXml doc).run .initial).1]
      = (fresh [] (anchorsOf (documentRunes d))).map bookmarkName := by
  rw [Word.bookmarkNames_body, ← places_typeset h, List.map_flatMap]
  rfl

/-- In the text of a document every anchor of the report is marked once, by a bookmark with the
name for it.  The names differ if and only if no two anchors have the same. -/
theorem nodup_bookmarkNames_iff (h : typeset files directory making d tools = .ok doc) :
    doc.paragraphs.flatMap (fun p => placesOf p.inlines)
        = fresh [] (anchorsOf (documentRunes d)) ∧
      bookmarkNames [((bodyXml doc).run .initial).1]
        = (fresh [] (anchorsOf (documentRunes d))).map bookmarkName ∧
      ((bookmarkNames [((bodyXml doc).run .initial).1]).Nodup ↔
        ∀ a ∈ anchorsOf (documentRunes d), ∀ b ∈ anchorsOf (documentRunes d),
          bookmarkName a = bookmarkName b → a = b) := by
  refine ⟨places_typeset h, bookmarkNames_typeset h, ?_⟩
  rw [bookmarkNames_typeset h, List.nodup_map_iff_inj_on nodup_fresh]
  have hmem : ∀ a,
      a ∈ fresh [] (anchorsOf (documentRunes d)) ↔ a ∈ anchorsOf (documentRunes d) := by
    intro a
    rw [mem_fresh]
    exact and_iff_left List.not_mem_nil
  simp only [hmem]

end Names

/-- A report with two runes that name places. -/
def anchoredReport (a b : String) : ResolvedDocument :=
  let text : Runes := [{ text := "x", anchor := some a }, { text := "y", anchor := some b }]
  { sections := [{ pageStart := some 1, nodes := [.text { text }] }], settings := {} }

lemma exists_typeset_anchoredReport (a b : String) :
    ∃ doc, typeset {} ⟨"/"⟩ ⟨0, 0⟩ (anchoredReport a b) = .ok doc :=
  ⟨_, rfl⟩

/-- The statement for a report with two places whose names differ. -/
theorem nodup_bookmarkNames_iff_anchoredReport :
    ∃ doc, typeset {} ⟨"/"⟩ ⟨0, 0⟩ (anchoredReport "start" "end") = .ok doc ∧
      (bookmarkNames [((bodyXml doc).run .initial).1]).Nodup := by
  obtain ⟨doc, h⟩ := exists_typeset_anchoredReport "start" "end"
  obtain ⟨-, -, hnodup⟩ := nodup_bookmarkNames_iff h
  exact ⟨doc, h, hnodup.mpr (by decide)⟩

/-- Two anchors that differ in a mark of punctuation have bookmarks of the same name. -/
theorem not_nodup_bookmarkNames :
    ∃ doc, typeset {} ⟨"/"⟩ ⟨0, 0⟩ (anchoredReport "a-b" "a_b") = .ok doc ∧
      ¬ (bookmarkNames [((bodyXml doc).run .initial).1]).Nodup := by
  obtain ⟨doc, h⟩ := exists_typeset_anchoredReport "a-b" "a_b"
  refine ⟨doc, h, ?_⟩
  rw [bookmarkNames_typeset h]
  decide

end ReportPress.Typeset
