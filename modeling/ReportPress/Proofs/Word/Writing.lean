import Mathlib.Data.List.Infix
import ReportPress.Proofs.Word.Paragraphs

/-!
# How the text of a document is put together

The elements of a document are written by a recursion over sections, tables, rows, cells and
paragraphs, and links, pictures and footers are given their identifiers on the way.  Most facts
about the result do not depend on how these are nested.

* `inlinesIn`, `Document.inlines` — what the paragraphs of a document hold, in order.
* `Block.names`, `Document.names` — the names of styles and labels in it.
* `IsFixed` — elements that are written without a look at what is referred to.
* `frameNames` — the elements that hold others and have no attributes.
* `Writes` — some contents of paragraphs, and the elements that are written for them between two
  states of the references.  This is all that writing a document can do, whatever its shape.

**The document.**  `writes_body` is the induction over blocks, cells, rows and sections.  A fact
about documents is proved by induction over `Writes`, which knows no nesting but frames.

**References only grow.**  `Writes.prefix`: what has an identifier keeps it.
-/

namespace ReportPress.Word

/-- What some paragraphs hold. -/
def inlinesIn (ps : List Paragraph) : List Inline := ps.flatMap fun p => p.inlines

/-- What the paragraphs of a document hold. -/
def Document.inlines (d : Document) : List Inline := inlinesIn d.paragraphs

@[simp] lemma inlinesIn_nil : inlinesIn [] = [] := rfl

@[simp] lemma inlinesIn_append (before ps : List Paragraph) :
    inlinesIn (before ++ ps) = inlinesIn before ++ inlinesIn ps :=
  List.flatMap_append

@[simp] lemma inlinesIn_singleton (p : Paragraph) : inlinesIn [p] = p.inlines := by
  simp [inlinesIn]

mutual

/-- The names of styles and labels in a block. -/
def Block.names : Block → List String
  | .paragraph p => p.style.toList
  | .table _ _ rows => rowsNames rows
  | .contents field => field.label.toList

/-- The names in blocks. -/
def blocksNames : List Block → List String
  | [] => []
  | b :: bs => b.names ++ blocksNames bs

/-- The names in cells. -/
def cellsNames : List (List Block) → List String
  | [] => []
  | c :: cs => blocksNames c ++ cellsNames cs

/-- The names in rows. -/
def rowsNames : List (List (List Block)) → List String
  | [] => []
  | r :: rs => cellsNames r ++ rowsNames rs

end

/-- The names of styles and labels in a document. -/
def Document.names (d : Document) : List String := d.sections.flatMap fun s => blocksNames s.blocks

lemma blocksNames_append : ∀ before after : List Block,
    blocksNames (before ++ after) = blocksNames before ++ blocksNames after
  | [], _ => by simp [blocksNames]
  | b :: before, after => by
      rw [List.cons_append, blocksNames, blocksNames, blocksNames_append before, List.append_assoc]

/-! ## What is written -/

/-- Elements that are written whatever a document refers to; `S` holds of the names in them. -/
inductive IsFixed (S : String → Prop) : List Xml → Prop
  | style {style : String} : S style → IsFixed S [.val "w:pStyle" style]
  | format (format : ParagraphFormat) : IsFixed S format.children
  | tableProperties (width : UInt32) : IsFixed S [tableProperties width]
  | grid (columns width : Nat) : IsFixed S [gridXml columns width]
  | cellWidth (width : Nat) : IsFixed S [cellWidthXml width]
  | cellEnd : IsFixed S [.tag "w:p"]
  | headerMark : IsFixed S [headerMark]
  | contents {field : ContentsField} : (∀ s ∈ field.label.toList, S s) → IsFixed S [field.xml]

/-- Elements that hold others and have no attributes. -/
def frameNames : List String := ["w:p", "w:pPr", "w:tbl", "w:tr", "w:tc", "w:body"]

/-- The elements that are written for the contents of paragraphs, with what is referred to before
and after; `S` holds of the names of styles and labels, `F` of those of footers. -/
inductive Writes (S F : String → Prop) : List Inline → References → List Xml → References → Prop
  | nil (refs : References) : Writes S F [] refs [] refs
  | append {is js : List Inline} {refs middle refs' : References} {xs ys : List Xml} :
      Writes S F is refs xs middle → Writes S F js middle ys refs' →
        Writes S F (is ++ js) refs (xs ++ ys) refs'
  | inline (i : Inline) (refs : References) :
      Writes S F [i] refs (i.xml.run refs).1 (i.xml.run refs).2
  | fixed {xs : List Xml} (refs : References) : IsFixed S xs → Writes S F [] refs xs refs
  | frame {name : String} {is : List Inline} {refs refs' : References} {xs : List Xml} :
      name ∈ frameNames → Writes S F is refs xs refs' → Writes S F is refs [.plain name xs] refs'
  | footer {target : String} (refs : References) : F target →
      Writes S F [] refs [] ((References.add .footer target).run refs).2
  /-- The setup of the pages of a section refers to a footer. -/
  | setup (setup : PageSetup) {n : Nat} {target : String} {refs : References} :
      refs.relations[n]? = some ⟨.footer, target⟩ →
        Writes S F [] refs [setup.xml (relationId (n + 1))] refs

variable {S F : String → Prop} {is : List Inline} {refs refs' : References} {xs : List Xml}

/-! ## References only grow -/

lemma prefix_add (kind : RelationKind) (target : String) (refs : References) :
    refs.relations <+: ((References.add kind target).run refs).2.relations :=
  List.prefix_append _ _

lemma prefix_inline (i : Inline) (refs : References) :
    refs.relations <+: (i.xml.run refs).2.relations := by
  cases i with
  | run r => exact List.prefix_rfl
  | link target runs =>
      cases target with
      | anchor name => exact List.prefix_rfl
      | external address => exact prefix_add .hyperlink address refs
  | picture p => exact List.prefix_append _ _
  | bookmarkStart id anchor => exact List.prefix_rfl
  | bookmarkEnd id => exact List.prefix_rfl

/-- What has an identifier keeps it. -/
theorem Writes.prefix (h : Writes S F is refs xs refs') : refs.relations <+: refs'.relations := by
  induction h with
  | nil refs => exact List.prefix_rfl
  | append _ _ ih ih' => exact ih.trans ih'
  | inline i refs => exact prefix_inline i refs
  | fixed refs _ => exact List.prefix_rfl
  | frame _ _ ih => exact ih
  | @footer target refs _ => exact prefix_add .footer target refs
  | setup setup _ => exact List.prefix_rfl

/-! ## Paragraphs -/

/-- Elements that are written for nothing, in front of or behind others. -/
lemma Writes.behind {ys : List Xml} (h : Writes S F [] refs ys refs)
    (hx : Writes S F is refs xs refs') :
    Writes S F is refs (ys ++ xs) refs' := by
  simpa using h.append hx

lemma Writes.before {ys : List Xml} (h : Writes S F is refs xs refs')
    (hy : Writes S F [] refs' ys refs') :
    Writes S F is refs (xs ++ ys) refs' := by
  simpa using h.append hy

lemma writes_inlines : ∀ (is : List Inline) (refs : References),
    Writes S F is refs ((is.mapM Inline.xml).run refs).1.flatten ((is.mapM Inline.xml).run refs).2
  | [], refs => .nil refs
  | i :: is, refs => by
      have hrun : ((i :: is).mapM Inline.xml).run refs =
          ((i.xml.run refs).1 :: ((is.mapM Inline.xml).run (i.xml.run refs).2).1,
            ((is.mapM Inline.xml).run (i.xml.run refs).2).2) := by
        rw [List.mapM_cons]
        rfl
      rw [hrun, List.flatten_cons]
      exact (Writes.inline i refs).append (writes_inlines is _)

/-- The properties of a paragraph say nothing about its contents. -/
lemma writes_properties (p : Paragraph) {setup : Option Xml} (hs : ∀ s ∈ p.style.toList, S s)
    (h : Writes S F [] refs setup.toList refs) : Writes S F [] refs (p.properties setup) refs := by
  have hstyle : Writes S F [] refs (optional (fun s => [.val "w:pStyle" s]) p.style) refs := by
    cases hp : p.style with
    | none => exact .nil refs
    | some s => exact .fixed refs (.style (hs s (by simp [hp])))
  unfold Paragraph.properties
  extract_lets children
  split_ifs
  · exact .nil refs
  · exact .frame (by simp [frameNames]) ((hstyle.before (.fixed refs (.format p.format))).before h)

lemma writes_paragraph (p : Paragraph) {setup : Option Xml} (hs : ∀ s ∈ p.style.toList, S s)
    (h : Writes S F [] refs setup.toList refs) :
    Writes S F p.inlines refs [((p.xmlWith setup).run refs).1] ((p.xmlWith setup).run refs).2 :=
  .frame (by simp [frameNames]) ((writes_properties p hs h).behind (writes_inlines p.inlines refs))

/-! ## Blocks -/

section Runs

variable (width : Nat) (refs : References)

lemma run_xml_table (width : UInt32) (headerRows : Nat) (rows : List (List (List Block))) :
    (Block.table width headerRows rows).xml.run refs =
      (.plain "w:tbl" ([tableProperties width] ++
        ([gridXml (columnCount rows) (columnWidth width rows)] ++
        ((rowsXml (columnWidth width rows) headerRows rows).run refs).1)),
        ((rowsXml (columnWidth width rows) headerRows rows).run refs).2) := by
  rw [Block.xml]
  rfl

lemma run_blocksXml_cons (b : Block) (bs : List Block) :
    (blocksXml (b :: bs)).run refs =
      ([(b.xml.run refs).1] ++ ((blocksXml bs).run (b.xml.run refs).2).1,
        ((blocksXml bs).run (b.xml.run refs).2).2) := by
  rw [blocksXml]
  rfl

lemma run_cellsXml_cons (c : List Block) (cs : List (List Block)) :
    (cellsXml width (c :: cs)).run refs =
      ([.plain "w:tc" ([cellWidthXml width] ++ (((blocksXml c).run refs).1 ++ cellEnd c))] ++
        ((cellsXml width cs).run ((blocksXml c).run refs).2).1,
        ((cellsXml width cs).run ((blocksXml c).run refs).2).2) := by
  rw [cellsXml]
  rfl

lemma run_rowsXml_cons (headers : Nat) (r : List (List Block)) (rs : List (List (List Block))) :
    (rowsXml width headers (r :: rs)).run refs =
      ([.plain "w:tr" (whenSet (0 < headers) headerMark ++ ((cellsXml width r).run refs).1)] ++
        ((rowsXml width (headers - 1) rs).run ((cellsXml width r).run refs).2).1,
        ((rowsXml width (headers - 1) rs).run ((cellsXml width r).run refs).2).2) := by
  rw [rowsXml]
  rfl

end Runs

mutual

/-- A block is written by writing what its paragraphs hold. -/
lemma writes_block : ∀ (b : Block) (refs : References), (∀ s ∈ b.names, S s) →
    Writes S F (inlinesIn b.paragraphs) refs [(b.xml.run refs).1] (b.xml.run refs).2
  | .paragraph p, refs, hs => by
      rw [Block.names] at hs
      rw [Block.xml, Block.paragraphs, inlinesIn_singleton]
      exact writes_paragraph p hs (.nil refs)
  | .table width headerRows rows, refs, hs => by
      have hproperties : Writes S F [] refs [tableProperties width] refs :=
        .fixed refs (.tableProperties _)
      have hgrid : Writes S F [] refs [gridXml (columnCount rows) (columnWidth width rows)] refs :=
        .fixed refs (.grid _ _)
      rw [Block.names] at hs
      rw [run_xml_table, Block.paragraphs]
      exact .frame (by simp [frameNames])
        (hproperties.behind (hgrid.behind (writes_rows rows refs hs)))
  | .contents field, refs, hs => by
      rw [Block.names] at hs
      rw [Block.xml, Block.paragraphs]
      exact .fixed refs (.contents hs)

lemma writes_blocks : ∀ (bs : List Block) (refs : References), (∀ s ∈ blocksNames bs, S s) →
    Writes S F (inlinesIn (blocksParagraphs bs)) refs ((blocksXml bs).run refs).1
      ((blocksXml bs).run refs).2
  | [], refs, _ => by
      rw [blocksXml, blocksParagraphs]
      exact .nil refs
  | b :: bs, refs, hs => by
      rw [blocksNames] at hs
      rw [run_blocksXml_cons, blocksParagraphs, inlinesIn_append]
      exact (writes_block b refs fun s h => hs s (List.mem_append_left _ h)).append
        (writes_blocks bs _ fun s h => hs s (List.mem_append_right _ h))

lemma writes_cells {width : Nat} : ∀ (cs : List (List Block)) (refs : References),
    (∀ s ∈ cellsNames cs, S s) →
      Writes S F (inlinesIn (cellsParagraphs cs)) refs ((cellsXml width cs).run refs).1
        ((cellsXml width cs).run refs).2
  | [], refs, _ => by
      rw [cellsXml, cellsParagraphs]
      exact .nil refs
  | c :: cs, refs, hs => by
      have hend (refs : References) : Writes S F [] refs (cellEnd c) refs := by
        unfold cellEnd
        split_ifs
        · exact .nil refs
        · exact .fixed refs .cellEnd
      have hwidth : Writes S F [] refs [cellWidthXml width] refs := .fixed refs (.cellWidth _)
      rw [cellsNames] at hs
      have hblocks := writes_blocks c refs fun s h => hs s (List.mem_append_left _ h)
      have hcell := hwidth.behind (hblocks.before (hend _))
      rw [run_cellsXml_cons, cellsParagraphs, inlinesIn_append]
      exact (Writes.frame (by simp [frameNames]) hcell).append
        (writes_cells cs _ fun s h => hs s (List.mem_append_right _ h))

lemma writes_rows {width : Nat} : ∀ {headers : Nat} (rs : List (List (List Block)))
    (refs : References), (∀ s ∈ rowsNames rs, S s) → Writes S F (inlinesIn (rowsParagraphs rs)) refs
      ((rowsXml width headers rs).run refs).1 ((rowsXml width headers rs).run refs).2
  | headers, [], refs, _ => by
      rw [rowsXml, rowsParagraphs]
      exact .nil refs
  | headers, r :: rs, refs, hs => by
      have hmark : Writes S F [] refs (whenSet (0 < headers) headerMark) refs := by
        unfold whenSet
        split_ifs
        · exact .fixed refs .headerMark
        · exact .nil refs
      rw [rowsNames] at hs
      have hcells : Writes S F _ refs ((cellsXml width r).run refs).1 _ :=
        writes_cells r refs fun s h => hs s (List.mem_append_left _ h)
      rw [run_rowsXml_cons, rowsParagraphs, inlinesIn_append]
      exact (Writes.frame (by simp [frameNames]) (hmark.behind hcells)).append
        (writes_rows rs _ fun s h => hs s (List.mem_append_right _ h))

end

/-! ## Sections -/

/-- The setup of a section can be written as soon as its footer is referred to. -/
lemma writes_setup_of_prefix (setup : PageSetup) {number : Nat} {middle : References}
    (h : ((References.add .footer (footerName number)).run refs).2.relations <+: middle.relations) :
    Writes S F [] middle [setup.xml ((References.add .footer (footerName number)).run refs).1]
      middle := by
  obtain ⟨more, hmore⟩ := h
  have hadd : ((References.add .footer (footerName number)).run refs).2.relations
      = refs.relations ++ [⟨.footer, footerName number⟩] := rfl
  have hfooter : middle.relations[refs.relations.length]? = some ⟨.footer, footerName number⟩ := by
    rw [← hmore, hadd]
    simp
  exact .setup setup hfooter

/-- A section that is not the last is written with its setup at its end. -/
lemma writes_closedSection (bs : List Block) {setup : Xml} (hs : ∀ s ∈ blocksNames bs, S s)
    (h : ∀ middle, refs.relations <+: middle.relations → Writes S F [] middle [setup] middle) :
    Writes S F (inlinesIn (blocksParagraphs bs)) refs ((closedSectionXml bs setup).run refs).1
      ((closedSectionXml bs setup).run refs).2 := by
  unfold closedSectionXml
  split
  case h_1 p hlast =>
    have hbs : bs = bs.dropLast ++ [.paragraph p] := (List.dropLast_append_getLast? _ hlast).symm
    have hinlines : inlinesIn (blocksParagraphs bs)
        = inlinesIn (blocksParagraphs bs.dropLast) ++ p.inlines := by
      conv_lhs => rw [hbs, blocksParagraphs_append, blocksParagraphs_singleton, Block.paragraphs,
        inlinesIn_append, inlinesIn_singleton]
    rw [hbs, blocksNames_append] at hs
    have hfirst : Writes S F _ refs _ _ :=
      writes_blocks bs.dropLast refs fun s h => hs s (List.mem_append_left _ h)
    have hstyle : ∀ s ∈ p.style.toList, S s := fun s h =>
      hs s (List.mem_append_right _ (by simpa [blocksNames, Block.names] using h))
    rw [hinlines]
    have hsetup : Writes S F [] _ (some setup).toList _ := h _ hfirst.prefix
    exact hfirst.append (writes_paragraph p hstyle hsetup)
  case h_2 =>
    have hblocks : Writes S F _ refs _ _ := writes_blocks bs refs hs
    have hsetup := h _ hblocks.prefix
    exact hblocks.before (.frame (by simp [frameNames]) (.frame (by simp [frameNames]) hsetup))

lemma writes_sections : ∀ (number : Nat) (sections : List Section) (refs : References),
    (∀ s ∈ sections.flatMap (fun s => blocksNames s.blocks), S s) →
    (∀ n, number ≤ n → n < number + sections.length → F (footerName n)) →
    Writes S F (inlinesIn (sections.flatMap fun s => blocksParagraphs s.blocks)) refs
      ((sectionsXml number sections).run refs).1 ((sectionsXml number sections).run refs).2
  | number, [], refs, _, _ => .nil refs
  | number, s :: rest, refs, hs, hf => by
      let footer := (References.add .footer (footerName number)).run refs
      have hfooter : Writes S F [] refs [] footer.2 :=
        .footer refs (hf number (Nat.le_refl number) (by simp))
      have hsetup (middle : References) (h : footer.2.relations <+: middle.relations) :
          Writes S F [] middle [s.setup.xml footer.1] middle := writes_setup_of_prefix s.setup h
      rw [List.flatMap_cons] at hs
      have hs' : ∀ name ∈ blocksNames s.blocks, S name := fun name h =>
        hs name (List.mem_append_left _ h)
      rw [List.flatMap_cons, inlinesIn_append]
      cases rest with
      | nil =>
          have hrun : (sectionsXml number [s]).run refs =
              ([] ++ (((blocksXml s.blocks).run footer.2).1 ++ [s.setup.xml footer.1]),
                ((blocksXml s.blocks).run footer.2).2) := rfl
          have hblocks : Writes S F _ footer.2 _ _ := writes_blocks s.blocks footer.2 hs'
          rw [hrun, List.flatMap_nil, inlinesIn_nil, List.append_nil]
          exact hfooter.append (hblocks.before (hsetup _ hblocks.prefix))
      | cons next rest =>
          let closed := (closedSectionXml s.blocks (s.setup.xml footer.1)).run footer.2
          have hrun : (sectionsXml number (s :: next :: rest)).run refs =
              ([] ++ (closed.1 ++ ((sectionsXml (number + 1) (next :: rest)).run closed.2).1),
                ((sectionsXml (number + 1) (next :: rest)).run closed.2).2) := rfl
          rw [hrun]
          have hrest := writes_sections (number + 1) (next :: rest) closed.2
            (fun name h => hs name (List.mem_append_right _ h))
            (fun n hn hlt => hf n (by omega) (by simp at hlt ⊢; omega))
          exact hfooter.append ((writes_closedSection s.blocks hs' hsetup).append hrest)

/-- The body of a document is written by writing what its paragraphs hold. -/
theorem writes_body {d : Document} (hs : ∀ s ∈ d.names, S s)
    (hf : ∀ n, 1 ≤ n → n ≤ d.sections.length → F (footerName n)) (refs : References) :
    ∃ xs, ((bodyXml d).run refs).1 = .element "w:document" namespaces xs ∧
      Writes S F d.inlines refs xs ((bodyXml d).run refs).2 := by
  refine ⟨[.plain "w:body" ((sectionsXml 1 d.sections).run refs).1], rfl, ?_⟩
  exact .frame (by simp [frameNames])
    (writes_sections 1 d.sections refs hs fun n hn hlt => hf n hn (by omega))

lemma Document.exists_writes_body (d : Document) (refs : References) :
    ∃ xs, ((bodyXml d).run refs).1 = .element "w:document" namespaces xs ∧
      Writes (fun _ => True) (fun _ => True) d.inlines refs xs ((bodyXml d).run refs).2 :=
  writes_body (fun _ _ => trivial) (fun _ _ _ => trivial) refs

end ReportPress.Word
