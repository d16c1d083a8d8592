import Mathlib.Tactic.Common
import ReportPress.Word.Document

/-!
# The paragraphs of a document

Blocks nest: a cell of a table holds blocks.  What is said about paragraphs is often said about all
of them, wherever they stand, in the order in which they are read.

* `Block.paragraphs` — the paragraphs of a block, those of a table cell by cell.
* `Document.paragraphs` — those of a document.
* `placesOf` — the places that are marked in the contents of a paragraph.
-/

namespace ReportPress.Word

mutual

/-- The paragraphs of a block, in order. -/
def Block.paragraphs : Block → List Paragraph
  | .paragraph p => [p]
  | .table _ _ rows => rowsParagraphs rows
  | .contents _ => []

/-- The paragraphs of blocks. -/
def blocksParagraphs : List Block → List Paragraph
  | [] => []
  | b :: bs => b.paragraphs ++ blocksParagraphs bs

/-- The paragraphs of cells. -/
def cellsParagraphs : List (List Block) → List Paragraph
  | [] => []
  | c :: cs => blocksParagraphs c ++ cellsParagraphs cs

/-- The paragraphs of rows. -/
def rowsParagraphs : List (List (List Block)) → List Paragraph
  | [] => []
  | r :: rs => cellsParagraphs r ++ rowsParagraphs rs

end

/-- The paragraphs of a document, in order. -/
def Document.paragraphs (d : Document) : List Paragraph :=
  d.sections.flatMap fun s => blocksParagraphs s.blocks

/-- The places that are marked in the contents of a paragraph. -/
def placesOf (inlines : List Inline) : List String :=
  inlines.filterMap fun
    | .bookmarkStart _ anchor => some anchor
    | _ => none

@[simp] lemma placesOf_append (before inlines : List Inline) :
    placesOf (before ++ inlines) = placesOf before ++ placesOf inlines :=
  List.filterMap_append

@[simp] lemma blocksParagraphs_append : ∀ before after : List Block,
    blocksParagraphs (before ++ after) = blocksParagraphs before ++ blocksParagraphs after
  | [], _ => by simp [blocksParagraphs]
  | b :: before, after => by
      rw [List.cons_append, blocksParagraphs, blocksParagraphs, blocksParagraphs_append before,
        List.append_assoc]

@[simp] lemma blocksParagraphs_singleton (b : Block) : blocksParagraphs [b] = b.paragraphs := by
  simp [blocksParagraphs]

/-- The sections that a document is given are its sections. -/
lemma Document.sections_withSections {d : Document} {sections : List Section}
    (h : sections ≠ []) : (d.withSections sections).sections = sections := by
  rw [withSections]
  cases hr : sections.reverse with
  | nil => exact absurd (List.reverse_eq_nil_iff.mp hr) h
  | cons last before =>
      have hs : sections = before.reverse ++ [last] := by
        rw [← List.reverse_reverse sections, hr, List.reverse_cons]
      rw [hs]
      rfl

/-- A document without paragraphs has those of the sections that it is given. -/
lemma Document.paragraphs_withSections {d : Document} (hd : d.paragraphs = [])
    (sections : List Section) :
    (d.withSections sections).paragraphs = sections.flatMap fun s => blocksParagraphs s.blocks := by
  cases sections with
  | nil => exact hd
  | cons s rest => rw [paragraphs, sections_withSections (by simp)]

lemma Document.definitions_withSections (d : Document) (sections : List Section) :
    (d.withSections sections).definitions = d.definitions := by
  unfold withSections
  split <;> rfl

end ReportPress.Word
