import ReportPress.Proofs.Word.Writing
import ReportPress.Proofs.Xml.Tags

/-!
# The elements of paragraphs

Wherever a paragraph stands in a document, between other blocks or in a cell of a table inside
another, at the end of a section or not, it has an element of its own.

* `HasElement` — some elements hold that of a paragraph: its properties first, then its contents.

**Blocks.**  `hasElement_blocks` is the recursion over blocks, cells and rows.

**The document.**  `hasElement_body` — every paragraph of a document has its element in the text.
-/

namespace ReportPress.Word

/-- Some elements hold that of a paragraph, which ends with what is written for its contents. -/
def HasElement (p : Paragraph) (xs : List Xml) : Prop :=
  ∃ properties refs,
    properties ++ ((p.inlines.mapM Inline.xml).run refs).1.flatten ∈ contentsOf "w:p" xs

section HasElement

variable {p : Paragraph} {xs ys : List Xml}

lemma HasElement.before (h : HasElement p xs) (ys : List Xml) : HasElement p (xs ++ ys) := by
  obtain ⟨properties, refs, hmem⟩ := h
  refine ⟨properties, refs, ?_⟩
  rw [contentsOf_append]
  exact List.mem_append_left _ hmem

lemma HasElement.behind (h : HasElement p xs) (ys : List Xml) : HasElement p (ys ++ xs) := by
  obtain ⟨properties, refs, hmem⟩ := h
  refine ⟨properties, refs, ?_⟩
  rw [contentsOf_append]
  exact List.mem_append_right _ hmem

lemma HasElement.element {name : String} {attributes : List Attribute} (h : HasElement p xs) :
    HasElement p [.element name attributes xs] := by
  obtain ⟨properties, refs, hmem⟩ := h
  refine ⟨properties, refs, ?_⟩
  rw [contentsOf_element]
  exact List.mem_append_right _ hmem

/-- A paragraph has the element that is written for it. -/
lemma hasElement_xmlWith (p : Paragraph) (setup : Option Xml) (refs : References) :
    HasElement p [((p.xmlWith setup).run refs).1] := by
  have hrun : ((p.xmlWith setup).run refs).1
      = .plain "w:p" (p.properties setup ++ ((p.inlines.mapM Inline.xml).run refs).1.flatten) := rfl
  refine ⟨p.properties setup, refs, ?_⟩
  rw [hrun, Xml.plain, contentsOf_element, if_pos rfl]
  exact List.mem_cons_self

end HasElement

/-! ## Blocks -/

mutual

lemma hasElement_block : ∀ (b : Block) (refs : References), ∀ p ∈ b.paragraphs,
    HasElement p [(b.xml.run refs).1]
  | .paragraph q, refs, p, hp => by
      rw [Block.paragraphs] at hp
      rw [List.mem_singleton.mp hp, Block.xml]
      exact hasElement_xmlWith q none refs
  | .table width headerRows rows, refs, p, hp => by
      rw [Block.paragraphs] at hp
      rw [run_xml_table]
      exact (((hasElement_rows rows refs p hp).behind _).behind _).element
  | .contents field, refs, p, hp => by
      rw [Block.paragraphs] at hp
      exact absurd hp List.not_mem_nil

/-- The paragraphs of blocks have their elements in those of the blocks. -/
lemma hasElement_blocks : ∀ (bs : List Block) (refs : References), ∀ p ∈ blocksParagraphs bs,
    HasElement p ((blocksXml bs).run refs).1
  | [], refs, p, hp => by
      rw [blocksParagraphs] at hp
      exact absurd hp List.not_mem_nil
  | b :: bs, refs, p, hp => by
      rw [blocksParagraphs, List.mem_append] at hp
      rw [run_blocksXml_cons]
      rcases hp with hp | hp
      · exact (hasElement_block b refs p hp).before _
      · exact (hasElement_blocks bs _ p hp).behind _

lemma hasElement_cells {width : Nat} : ∀ (cs : List (List Block)) (refs : References),
    ∀ p ∈ cellsParagraphs cs, HasElement p ((cellsXml width cs).run refs).1
  | [], refs, p, hp => by
      rw [cellsParagraphs] at hp
      exact absurd hp List.not_mem_nil
  | c :: cs, refs, p, hp => by
      rw [cellsParagraphs, List.mem_append] at hp
      rw [run_cellsXml_cons]
      rcases hp with hp | hp
      · have hblocks := (hasElement_blocks c refs p hp).before (cellEnd c)
        exact (hblocks.behind [cellWidthXml width]).element.before _
      · exact (hasElement_cells cs _ p hp).behind _

lemma hasElement_rows {width : Nat} : ∀ {headers : Nat} (rs : List (List (List Block)))
    (refs : References), ∀ p ∈ rowsParagraphs rs,
      HasElement p ((rowsXml width headers rs).run refs).1
  | headers, [], refs, p, hp => by
      rw [rowsParagraphs] at hp
      exact absurd hp List.not_mem_nil
  | headers, r :: rs, refs, p, hp => by
      rw [rowsParagraphs, List.mem_append] at hp
      rw [run_rowsXml_cons]
      rcases hp with hp | hp
      · exact ((hasElement_cells r refs p hp).behind _).element.before _
      · exact (hasElement_rows rs _ p hp).behind _

end

/-! ## Sections -/

/-- So do those of a section whose last paragraph holds the setup of its pages. -/
lemma hasElement_closedSection (bs : List Block) (setup : Xml) (refs : References) :
    ∀ p ∈ blocksParagraphs bs, HasElement p ((closedSectionXml bs setup).run refs).1 := by
  intro p hp
  unfold closedSectionXml
  split
  case h_1 last hlast =>
    rw [(List.dropLast_append_getLast? _ hlast).symm, blocksParagraphs_append,
      blocksParagraphs_singleton, Block.paragraphs, List.mem_append, List.mem_singleton] at hp
    rcases hp with hp | rfl
    · exact (hasElement_blocks bs.dropLast refs p hp).before _
    · exact (hasElement_xmlWith p (some setup) _).behind _
  case h_2 => exact (hasElement_blocks bs refs p hp).before _

lemma hasElement_sections : ∀ (number : Nat) (sections : List Section) (refs : References),
    ∀ p ∈ sections.flatMap (fun s => blocksParagraphs s.blocks),
      HasElement p ((sectionsXml number sections).run refs).1
  | number, [], refs, p, hp => absurd hp List.not_mem_nil
  | number, s :: rest, refs, p, hp => by
      let footer := (References.add .footer (footerName number)).run refs
      rw [List.flatMap_cons, List.mem_append] at hp
      cases rest with
      | nil =>
          have hblocks := hp.resolve_right List.not_mem_nil
          exact (hasElement_blocks s.blocks footer.2 p hblocks).before _
      | cons next rest =>
          rcases hp with hp | hp
          · exact (hasElement_closedSection s.blocks (s.setup.xml footer.1) footer.2 p hp).before _
          · exact (hasElement_sections (number + 1) (next :: rest) _ p hp).behind _

/-- Every paragraph of a document has its element in the text. -/
theorem hasElement_body (d : Document) (refs : References) :
    ∀ p ∈ d.paragraphs, HasElement p [((bodyXml d).run refs).1] := by
  intro p hp
  exact (hasElement_sections 1 d.sections refs p hp).element.element

end ReportPress.Word
