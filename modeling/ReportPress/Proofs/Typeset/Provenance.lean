import ReportPress.Proofs.Document.Parts
import ReportPress.Proofs.Typeset.Acts
import ReportPress.Proofs.Word.Writing

/-!
# Where the contents of a typeset document come from

* `reportNames` — the names of the styles and labels that reports use.
* `Shows` — what a node itself can put into a paragraph: contents made of one of its runes, a
  picture described by its caption, a span of its code, a placeholder.
* `ComesFrom` — contents that some node shows, or a page break.
* `OfReport` — blocks that use no other names, and hold no other contents.

**Provenance.**  `nodeItems_ofReport` is the induction over nodes, cells and rows, and
`ofReport_typeset` says of a whole document that its names are those of reports, and that whatever
its paragraphs hold comes from a node of the report.
-/

namespace ReportPress.Typeset

open Word (Block ParagraphFormat blocksNames blocksParagraphs inlinesIn)

/-- The names of the styles and labels that reports use. -/
def reportNames : List String :=
  ["Title", "Heading1", "Heading2", "Heading3", "Heading4", "Heading5", "Heading6",
    "ListParagraph", "Code", "CodeTitle", contentsLabel]

/-- What a node itself can put into a paragraph. -/
inductive Shows (s : Surroundings) : Node Runes → Word.Inline → Prop
  | runes {n : Node Runes} {runes : Runes} {size : Option Nat} {marks : Bookmarks}
      {i : Word.Inline} :
      runes ∈ n.ownTexts → i ∈ ((inlinesOf size runes).run marks).1 → Shows s n i
  | picture (image : Image Runes) (picture : Word.Picture) :
      Shows s (.image image) (.picture { picture with description := plainText image.alt })
  | code {c : CodeBlock Runes} {line : List Code.Span} {span : Code.Span} :
      line ∈ Code.linesBy s.tools.tokenizerOf s.highlight c.language c.body → span ∈ line →
        Shows s (.code c) (.run (spanRun span))
  | placeholder {d : ExternalDocument} {text : String} :
      placeholder s.files s.directory d = .ok text → Shows s (.external d) (.run (.ofText text))

/-- Contents of a paragraph that one of the nodes shows, or a page break. -/
def ComesFrom (s : Surroundings) (ns : List (Node Runes)) (i : Word.Inline) : Prop :=
  i = .run .pageBreak ∨ ∃ n ∈ ns, Shows s n i

/-- Blocks with names and contents that come from reports and from the nodes. -/
structure OfReport (s : Surroundings) (ns : List (Node Runes)) (bs : List Block) : Prop where
  names : ∀ name ∈ blocksNames bs, name ∈ reportNames
  inlines : ∀ i ∈ inlinesIn (blocksParagraphs bs), ComesFrom s ns i

section OfReport

variable {s : Surroundings} {ns : List (Node Runes)} {bs cs : List Block} {l l' : Ledger}

lemma ofReport_nil : OfReport s ns [] :=
  ⟨by simp [blocksNames], by simp [blocksParagraphs]⟩

lemma ofReport_append : OfReport s ns (bs ++ cs) ↔ OfReport s ns bs ∧ OfReport s ns cs := by
  constructor
  · rintro ⟨hnames, hinlines⟩
    rw [Word.blocksNames_append] at hnames
    rw [Word.blocksParagraphs_append, Word.inlinesIn_append] at hinlines
    exact ⟨⟨fun n h => hnames n (List.mem_append_left _ h),
        fun i h => hinlines i (List.mem_append_left _ h)⟩,
      ⟨fun n h => hnames n (List.mem_append_right _ h),
        fun i h => hinlines i (List.mem_append_right _ h)⟩⟩
  · rintro ⟨⟨hb, hbi⟩, hc, hci⟩
    refine ⟨fun n h => ?_, fun i h => ?_⟩
    · rw [Word.blocksNames_append] at h
      exact (List.mem_append.mp h).elim (hb n) (hc n)
    · rw [Word.blocksParagraphs_append, Word.inlinesIn_append] at h
      exact (List.mem_append.mp h).elim (hbi i) (hci i)

lemma ofReport_cons {b : Block} :
    OfReport s ns (b :: bs) ↔ OfReport s ns [b] ∧ OfReport s ns bs := by
  rw [← List.singleton_append, ofReport_append]

lemma OfReport.mono {more : List (Node Runes)} (h : OfReport s ns bs) (hmore : ns ⊆ more) :
    OfReport s more bs :=
  ⟨h.names, fun i hi => (h.inlines i hi).imp id fun ⟨n, hn, hshows⟩ => ⟨n, hmore hn, hshows⟩⟩

/-! ## Paragraphs -/

lemma ofReport_paragraph {p : Word.Paragraph} :
    OfReport s ns [.paragraph p] ↔
      (∀ name ∈ p.style.toList, name ∈ reportNames) ∧ ∀ i ∈ p.inlines, ComesFrom s ns i := by
  constructor
  · rintro ⟨hnames, hinlines⟩
    exact ⟨by simpa [blocksNames, Block.names] using hnames,
      by simpa [Block.paragraphs] using hinlines⟩
  · rintro ⟨hnames, hinlines⟩
    exact ⟨by simpa [blocksNames, Block.names] using hnames,
      by simpa [Block.paragraphs] using hinlines⟩

lemma ofReport_breakParagraph : OfReport s ns [.paragraph breakParagraph] :=
  ofReport_paragraph.mpr ⟨by simp [breakParagraph], fun i hi => Or.inl (List.mem_singleton.mp hi)⟩

/-- A paragraph that is set from runes of a node. -/
lemma ofReport_runes {n : Node Runes} {size : Option Nat} {runes : Runes} {marks : Bookmarks}
    {style : Option String} {format : ParagraphFormat} (hruns : runes ∈ n.ownTexts) (hn : n ∈ ns)
    (hstyle : ∀ name ∈ style.toList, name ∈ reportNames) :
    OfReport s ns [.paragraph ⟨((inlinesOf size runes).run marks).1, style, format⟩] :=
  ofReport_paragraph.mpr ⟨hstyle, fun _ hi => Or.inr ⟨n, hn, .runes hruns hi⟩⟩

/-! ## Flows -/

/-- The blocks of an item of a flow. -/
def FlowItem.blocks : FlowItem → List Block
  | .text p => [.paragraph p]
  | .block b => [b]
  | .pageBreak => []

/-- Putting an item below others adds nothing but page breaks. -/
lemma ofReport_placeBelow {i : FlowItem} (h : OfReport s ns bs) (hi : OfReport s ns i.blocks) :
    OfReport s ns (placeBelow bs i) := by
  cases i with
  | text p =>
      rw [placeBelow, ofReport_append]
      refine ⟨h, ?_⟩
      obtain ⟨hstyle, hinlines⟩ := ofReport_paragraph.mp hi
      split_ifs
      · exact ofReport_paragraph.mpr ⟨hstyle, hinlines⟩
      · exact hi
  | block b => exact ofReport_append.mpr ⟨h, hi⟩
  | pageBreak =>
      rw [placeBelow]
      unfold breakBelow
      split
      case h_1 p hlast =>
        have hbs : bs = bs.dropLast ++ [.paragraph p] :=
          (List.dropLast_append_getLast? _ hlast).symm
        rw [hbs, ofReport_append, ofReport_paragraph] at h
        obtain ⟨hfirst, hstyle, hinlines⟩ := h
        refine ofReport_append.mpr ⟨hfirst, ofReport_paragraph.mpr ⟨hstyle, fun i hi => ?_⟩⟩
        rcases List.mem_append.mp hi with hi | hi
        · exact hinlines i hi
        · exact Or.inl (List.mem_singleton.mp hi)
      case h_2 => exact ofReport_append.mpr ⟨h, ofReport_breakParagraph⟩

lemma ofReport_blocksOf {is : List FlowItem} (h : OfReport s ns (is.flatMap FlowItem.blocks)) :
    OfReport s ns (blocksOf is) := by
  have hfold : ∀ (is : List FlowItem) (bs : List Block), OfReport s ns bs →
      OfReport s ns (is.flatMap FlowItem.blocks) → OfReport s ns (is.foldl placeBelow bs) := by
    intro is
    induction is with
    | nil => exact fun bs hbs _ => hbs
    | cons i is ih =>
        intro bs hbs his
        rw [List.flatMap_cons, ofReport_append] at his
        exact ih _ (ofReport_placeBelow hbs his.1) his.2
  exact hfold is [] ofReport_nil h

/-! ## Nodes -/

/-- The style of a heading that is not too deep is one of those of reports. -/
lemma titleStyle_mem_reportNames {level : Nat} (h : level ≤ maxTitleLevel) :
    titleStyle level ∈ reportNames := by
  have hall : ∀ level : Fin 7, titleStyle level.val ∈ reportNames := by decide
  exact hall ⟨level, Nat.lt_succ_of_le h⟩

lemma titleItems_ofReport {t : Title Runes} {is : List FlowItem}
    (h : Yields (titleItems t) l is l') :
    OfReport s [.title t] (is.flatMap FlowItem.blocks) := by
  unfold titleItems at h
  by_cases hlevel : maxTitleLevel < t.level
  · rw [if_pos hlevel, yields_bind] at h
    obtain ⟨u, middle, h, -⟩ := h
    exact absurd h not_yields_throw
  · rw [if_neg hlevel] at h
    simp only [yields_bind, yields_paragraph, yields_pure] at h
    obtain ⟨p, middle, ⟨rfl, rfl⟩, rfl, rfl⟩ := h
    refine ofReport_runes (n := .title t) (by simp [Node.ownTexts]) (by simp) ?_
    simpa using titleStyle_mem_reportNames (Nat.le_of_not_lt hlevel)

lemma captionItems_ofReport {caption : Option Runes} {rows : List (List (Node Runes))}
    {normal : Bool} {is : List FlowItem} (h : Yields (captionItems caption) l is l') :
    OfReport s [.table caption rows normal] (is.flatMap FlowItem.blocks) := by
  cases caption with
  | none =>
      obtain ⟨rfl, rfl⟩ := yields_pure.mp h
      exact ofReport_nil
  | some caption =>
      simp only [captionItems, yields_bind, yields_paragraph, yields_pure] at h
      obtain ⟨p, middle, ⟨rfl, rfl⟩, rfl, rfl⟩ := h
      exact ofReport_runes (n := .table (some caption) rows normal) (by simp [Node.ownTexts])
        (by simp) (by simp)

lemma imageItems_ofReport {i : Image Runes} {is : List FlowItem}
    (h : Yields (imageItems s i) l is l') :
    OfReport s [.image i] (is.flatMap FlowItem.blocks) := by
  have hpicture (picture : Word.Picture) (format : ParagraphFormat) :
      OfReport s [.image i] [.paragraph
        { inlines := [.picture { picture with description := plainText i.alt }], format }] := by
    refine ofReport_paragraph.mpr ⟨by simp, fun shown hshown => Or.inr ?_⟩
    rw [List.mem_singleton.mp hshown]
    exact ⟨.image i, by simp, .picture i picture⟩
  unfold imageItems at h
  rw [yields_bind] at h
  obtain ⟨loaded, middle, hloaded, h⟩ := h
  obtain ⟨-, rfl⟩ := yields_lift.mp hloaded
  dsimp only at h
  split at h
  case h_2 => exact absurd h not_yields_throw
  case h_1 picture hbytes =>
    split_ifs at h with halt
    · obtain ⟨rfl, rfl⟩ := yields_pure.mp h
      exact hpicture picture _
    · simp only [yields_bind, yields_paragraph, yields_pure] at h
      obtain ⟨p, middle, ⟨rfl, rfl⟩, rfl, rfl⟩ := h
      refine ofReport_cons.mpr ⟨hpicture picture _, ?_⟩
      exact ofReport_runes (n := .image i) (by simp [Node.ownTexts]) (by simp) (by simp)

lemma codeItems_ofReport {c : CodeBlock Runes} {is : List FlowItem}
    (h : Yields (codeItems s c) l is l') :
    OfReport s [.code c] (is.flatMap FlowItem.blocks) := by
  have hlines : ∀ lines : List (List Code.Span),
      (∀ line ∈ lines, line ∈ Code.linesBy s.tools.tokenizerOf s.highlight c.language c.body) →
        OfReport s [.code c] ((lines.map lineItem).flatMap FlowItem.blocks) := by
    intro lines
    induction lines with
    | nil => exact fun _ => ofReport_nil
    | cons spans lines ih =>
        intro hmem
        rw [List.map_cons, List.flatMap_cons]
        refine ofReport_append.mpr ⟨?_, ih fun line hl => hmem line (List.mem_cons_of_mem _ hl)⟩
        refine ofReport_paragraph.mpr ⟨by simp [reportNames], fun i hi => Or.inr ?_⟩
        obtain ⟨span, hspan, rfl⟩ := List.mem_map.mp hi
        exact ⟨.code c, by simp, .code (hmem spans List.mem_cons_self) hspan⟩
  simp only [codeItems, yields_bind, yields_paragraph, yields_pure] at h
  obtain ⟨p, middle, ⟨rfl, rfl⟩, rfl, rfl⟩ := h
  refine ofReport_cons.mpr ⟨?_, hlines _ fun _ => id⟩
  exact ofReport_runes (n := .code c) (by simp [Node.ownTexts]) (by simp) (by simp [reportNames])

lemma externalItems_ofReport {d : ExternalDocument} {is : List FlowItem}
    (h : Yields (externalItems s d) l is l') :
    OfReport s [.external d] (is.flatMap FlowItem.blocks) := by
  unfold externalItems at h
  rw [yields_bind] at h
  obtain ⟨text, middle, hplaceholder, h⟩ := h
  obtain ⟨htext, rfl⟩ := yields_lift.mp hplaceholder
  obtain ⟨rfl, rfl⟩ := yields_pure.mp h
  refine ofReport_paragraph.mpr ⟨by simp, fun i hi => Or.inr ?_⟩
  rw [List.mem_singleton.mp hi]
  exact ⟨.external d, by simp, .placeholder htext⟩

lemma contentsItems_ofReport : OfReport s ns (contentsItems.flatMap FlowItem.blocks) := by
  refine ofReport_cons.mpr ⟨⟨?_, by simp [blocksParagraphs, Block.paragraphs]⟩, ?_⟩
  · simp [blocksNames, Block.names, reportNames]
  · exact ofReport_breakParagraph

mutual

lemma entryItems_ofReport {list : ItemList Runes} {alternate : Bool} {number : Nat} :
    ∀ {level : Nat} {e : Entry Runes} {l l' : Ledger} {is : List FlowItem},
      (∀ runes ∈ e.texts, runes ∈ entriesTexts list.entries) →
        Yields (entryItems alternate number level e) l is l' →
          OfReport s [.list list] (is.flatMap FlowItem.blocks)
  | level, .item text, l, l', is, he, h => by
      simp only [entryItems, itemBlock, yields_bind, yields_paragraph, yields_pure] at h
      obtain ⟨item, middle, ⟨p, middle', ⟨rfl, rfl⟩, rfl, rfl⟩, rfl, rfl⟩ := h
      have hmem : text ∈ (Node.list list).ownTexts := he text (by simp [Entry.texts])
      exact ofReport_runes hmem (by simp) (by simp [reportNames])
  | level, .list style entries, l, l', is, he, h => by
      simp only [entryItems, yields_bind, yields_registerLevel] at h
      obtain ⟨u, middle, rfl, h⟩ := h
      exact entriesItems_ofReport he h

lemma entriesItems_ofReport {list : ItemList Runes} {alternate : Bool} {number : Nat} :
    ∀ {level : Nat} {es : List (Entry Runes)} {l l' : Ledger} {is : List FlowItem},
      (∀ runes ∈ entriesTexts es, runes ∈ entriesTexts list.entries) →
        Yields (entriesItems alternate number level es) l is l' →
          OfReport s [.list list] (is.flatMap FlowItem.blocks)
  | level, [], l, l', is, he, h => by
      rw [entriesItems] at h
      obtain ⟨rfl, rfl⟩ := yields_pure.mp h
      exact ofReport_nil
  | level, e :: es, l, l', is, he, h => by
      simp only [entriesItems, yields_bind, yields_pure] at h
      obtain ⟨items, middle, hfirst, more, middle', hmore, rfl, rfl⟩ := h
      rw [entriesTexts] at he
      rw [List.flatMap_append]
      exact ofReport_append.mpr
        ⟨entryItems_ofReport (fun r hr => he r (List.mem_append_left _ hr)) hfirst,
          entriesItems_ofReport (fun r hr => he r (List.mem_append_right _ hr)) hmore⟩

end

lemma listItems_ofReport {list : ItemList Runes} {is : List FlowItem}
    (h : Yields (listItems list) l is l') :
    OfReport s [.list list] (is.flatMap FlowItem.blocks) := by
  simp only [listItems, yields_bind, yields_newDefinition, yields_registerLevel] at h
  obtain ⟨number, middle, ⟨rfl, rfl⟩, u, middle', rfl, h⟩ := h
  exact entriesItems_ofReport (fun _ => id) h

/-! ## Tables -/

/-- What cells hold, their blocks hold. -/
lemma cells_eq_flatten : ∀ cs : List (List Block),
    Word.cellsNames cs = blocksNames cs.flatten ∧
      Word.cellsParagraphs cs = blocksParagraphs cs.flatten
  | [] => ⟨rfl, rfl⟩
  | c :: cs => by
      obtain ⟨hnames, hparagraphs⟩ := cells_eq_flatten cs
      rw [Word.cellsNames, Word.cellsParagraphs, List.flatten_cons, Word.blocksNames_append,
        Word.blocksParagraphs_append, hnames, hparagraphs]
      exact ⟨rfl, rfl⟩

lemma rows_eq_flatten : ∀ rs : List (List (List Block)),
    Word.rowsNames rs = blocksNames rs.flatten.flatten ∧
      Word.rowsParagraphs rs = blocksParagraphs rs.flatten.flatten
  | [] => ⟨rfl, rfl⟩
  | r :: rs => by
      obtain ⟨hnames, hparagraphs⟩ := rows_eq_flatten rs
      obtain ⟨hcells, hcells'⟩ := cells_eq_flatten r
      rw [Word.rowsNames, Word.rowsParagraphs, List.flatten_cons, List.flatten_append,
        Word.blocksNames_append, Word.blocksParagraphs_append, hnames, hparagraphs, hcells, hcells']
      exact ⟨rfl, rfl⟩

/-- A table holds what its cells hold. -/
lemma ofReport_table {width : UInt32} {headerRows : Nat} {rows : List (List (List Block))}
    (h : OfReport s ns rows.flatten.flatten) : OfReport s ns [.table width headerRows rows] := by
  obtain ⟨hnames, hparagraphs⟩ := rows_eq_flatten rows
  refine ⟨?_, ?_⟩
  · simpa [blocksNames, Block.names, hnames] using h.names
  · simpa [Block.paragraphs, hparagraphs] using h.inlines

lemma cellText_ofReport {normalFontSize isHeader : Bool} {p : Paragraph Runes} {b : Block}
    (h : Yields (cellText normalFontSize isHeader p) l b l') : OfReport s [.text p] [b] := by
  simp only [cellText, yields_bind, yields_inlines, yields_pure] at h
  obtain ⟨shown, middle, ⟨rfl, rfl⟩, rfl, rfl⟩ := h
  exact ofReport_runes (n := .text p) (by simp [Node.ownTexts]) (by simp) (by simp)

/-- A cell with text is set in a way of its own, all others as their node is. -/
lemma cells_cons_ofReport {normalFontSize isHeader : Bool} {node : Node Runes}
    {nodes : List (Node Runes)}
    (hnode : ∀ (l l' : Ledger) (is : List FlowItem), Yields (nodeItems s node) l is l' →
      OfReport s node.parts (is.flatMap FlowItem.blocks))
    (hnodes : ∀ (l l' : Ledger) (cs : List (List Block)),
      Yields (cellsBlocks s normalFontSize isHeader nodes) l cs l' →
        OfReport s (nodesParts nodes) cs.flatten)
    (l l' : Ledger) (cs : List (List Block))
    (h : Yields (cellsBlocks s normalFontSize isHeader (node :: nodes)) l cs l') :
    OfReport s (nodesParts (node :: nodes)) cs.flatten := by
  have hcons {c : List Block} {cs : List (List Block)} (hc : OfReport s node.parts c)
      (hcs : OfReport s (nodesParts nodes) cs.flatten) :
      OfReport s (nodesParts (node :: nodes)) (c :: cs).flatten := by
    rw [List.flatten_cons, nodesParts]
    exact ofReport_append.mpr ⟨hc.mono (List.subset_append_left _ _),
      hcs.mono (List.subset_append_right _ _)⟩
  cases node with
  | text p =>
      rw [cellsBlocks] at h
      simp only [yields_bind, yields_pure] at h
      obtain ⟨b, middle, hb, c, middle', ⟨rfl, rfl⟩, more, middle'', hmore, rfl, rfl⟩ := h
      exact hcons (by rw [Node.parts]; exact cellText_ofReport hb) (hnodes _ _ _ hmore)
  | _ =>
      rw [cellsBlocks] at h
      · simp only [yields_bind, yields_pure] at h
        obtain ⟨is, middle, his, c, middle', ⟨rfl, rfl⟩, more, middle'', hmore, rfl, rfl⟩ := h
        exact hcons (ofReport_blocksOf (hnode _ _ _ his)) (hnodes _ _ _ hmore)
      · simp

mutual

/-- What is set for a node comes from the node and from those in its cells. -/
theorem nodeItems_ofReport : ∀ (n : Node Runes) (l l' : Ledger) (is : List FlowItem),
    Yields (nodeItems s n) l is l' → OfReport s n.parts (is.flatMap FlowItem.blocks)
  | .text p => by
      intro l l' is h
      simp only [nodeItems, yields_bind, yields_paragraph, yields_pure] at h
      obtain ⟨q, middle, ⟨rfl, rfl⟩, rfl, rfl⟩ := h
      exact ofReport_runes (n := .text p) (by simp [Node.ownTexts]) (by simp [Node.parts]) (by simp)
  | .title t => by
      intro l l' is h
      rw [nodeItems] at h
      rw [Node.parts]
      exact titleItems_ofReport h
  | .pageBreak => by
      intro l l' is h
      rw [nodeItems] at h
      obtain ⟨rfl, rfl⟩ := yields_pure.mp h
      exact ofReport_nil
  | .contents => by
      intro l l' is h
      rw [nodeItems] at h
      obtain ⟨rfl, rfl⟩ := yields_pure.mp h
      exact contentsItems_ofReport
  | .table caption rows normal => by
      intro l l' is h
      simp only [nodeItems, yields_bind, yields_pure] at h
      obtain ⟨above, middle, habove, body, middle', hbody, rfl, rfl⟩ := h
      have hcaption : OfReport s [.table caption rows normal] (above.flatMap FlowItem.blocks) :=
        captionItems_ofReport habove
      have hrows := rowsBlocks_ofReport rows _ _ _ hbody
      rw [List.flatMap_append, Node.parts]
      refine ofReport_append.mpr ⟨hcaption.mono (by simp), ofReport_table (hrows.mono ?_)⟩
      exact List.subset_cons_self _ _
  | .list list => by
      intro l l' is h
      rw [nodeItems] at h
      rw [Node.parts]
      exact listItems_ofReport h
  | .image i => by
      intro l l' is h
      rw [nodeItems] at h
      rw [Node.parts]
      exact imageItems_ofReport h
  | .code c => by
      intro l l' is h
      rw [nodeItems] at h
      rw [Node.parts]
      exact codeItems_ofReport h
  | .external d => by
      intro l l' is h
      rw [nodeItems] at h
      rw [Node.parts]
      exact externalItems_ofReport h
  | .sectionBreak pageStart => by
      intro l l' is h
      rw [nodeItems] at h
      obtain ⟨rfl, rfl⟩ := yields_pure.mp h
      exact ofReport_nil

lemma cellsBlocks_ofReport {normalFontSize isHeader : Bool} :
    ∀ (nodes : List (Node Runes)) (l l' : Ledger) (cs : List (List Block)),
      Yields (cellsBlocks s normalFontSize isHeader nodes) l cs l' →
        OfReport s (nodesParts nodes) cs.flatten
  | [] => by
      intro l l' cs h
      rw [cellsBlocks] at h
      obtain ⟨rfl, rfl⟩ := yields_pure.mp h
      exact ofReport_nil
  | node :: nodes => cells_cons_ofReport (nodeItems_ofReport node) (cellsBlocks_ofReport nodes)

lemma rowsBlocks_ofReport {normalFontSize isHeader : Bool} :
    ∀ (rows : List (List (Node Runes))) (l l' : Ledger) (rs : List (List (List Block))),
      Yields (rowsBlocks s normalFontSize isHeader rows) l rs l' →
        OfReport s (rowsParts rows) rs.flatten.flatten
  | [] => by
      intro l l' rs h
      rw [rowsBlocks] at h
      obtain ⟨rfl, rfl⟩ := yields_pure.mp h
      exact ofReport_nil
  | row :: rows => by
      intro l l' rs h
      simp only [rowsBlocks, yields_bind, yields_pure] at h
      obtain ⟨cells, middle, hcells, more, middle', hmore, rfl, rfl⟩ := h
      have hrow := cellsBlocks_ofReport row _ _ _ hcells
      have hrows := rowsBlocks_ofReport rows _ _ _ hmore
      rw [List.flatten_cons, List.flatten_append, rowsParts]
      exact ofReport_append.mpr ⟨hrow.mono (List.subset_append_left _ _),
        hrows.mono (List.subset_append_right _ _)⟩

end

/-! ## Sections and reports -/

lemma mapM_nodeItems_ofReport : ∀ {nodes : List (Node Runes)} {l l' : Ledger}
    {iss : List (List FlowItem)}, Yields (nodes.mapM (nodeItems s)) l iss l' →
      OfReport s (nodesParts nodes) (iss.flatten.flatMap FlowItem.blocks)
  | [], l, l', iss, h => by
      rw [List.mapM_nil] at h
      obtain ⟨rfl, rfl⟩ := yields_pure.mp h
      exact ofReport_nil
  | n :: nodes, l, l', iss, h => by
      simp only [List.mapM_cons, yields_bind, yields_pure] at h
      obtain ⟨is, middle, his, more, middle', hmore, rfl, rfl⟩ := h
      have hfirst := nodeItems_ofReport n _ _ _ his
      have hrest := mapM_nodeItems_ofReport hmore
      rw [List.flatten_cons, List.flatMap_append, nodesParts]
      exact ofReport_append.mpr ⟨hfirst.mono (List.subset_append_left _ _),
        hrest.mono (List.subset_append_right _ _)⟩

lemma mapM_typesetSection_ofReport : ∀ {parts : List (Section Runes)} {l l' : Ledger}
    {sets : List Word.Section}, Yields (parts.mapM (typesetSection s)) l sets l' →
      OfReport s (parts.flatMap fun part => nodesParts part.nodes)
        (sets.flatMap fun set => set.blocks)
  | [], l, l', sets, h => by
      rw [List.mapM_nil] at h
      obtain ⟨rfl, rfl⟩ := yields_pure.mp h
      exact ofReport_nil
  | part :: parts, l, l', sets, h => by
      simp only [List.mapM_cons, typesetSection, yields_bind, yields_pure] at h
      obtain ⟨set, middle, ⟨iss, middle', hiss, rfl, rfl⟩, more, middle'', hmore, rfl, rfl⟩ := h
      have hfirst := ofReport_blocksOf (mapM_nodeItems_ofReport hiss)
      have hrest := mapM_typesetSection_ofReport hmore
      rw [List.flatMap_cons, List.flatMap_cons]
      exact ofReport_append.mpr ⟨hfirst.mono (List.subset_append_left _ _),
        hrest.mono (List.subset_append_right _ _)⟩

end OfReport

/-- Cutting sections at breaks brings in no nodes. -/
lemma mem_cutSection {T : Type} {n : Node T} : ∀ {nodes : List (Node T)} {start : Option UInt32}
    {part : Section T}, part ∈ cutSection start nodes → n ∈ part.nodes → n ∈ nodes := by
  intro nodes start
  fun_induction cutSection start nodes with
  | case1 start => simp
  | case2 start next nodes ih =>
      intro part hpart hn
      rcases List.mem_cons.mp hpart with rfl | hpart
      · simp at hn
      · exact List.mem_cons_of_mem _ (ih hpart hn)
  | case3 start node nodes hbreak hcut ih =>
      intro part hpart hn
      rw [List.mem_singleton.mp hpart] at hn
      simp [List.mem_singleton.mp hn]
  | case4 start node nodes hbreak part parts hcut ih =>
      intro other hother hn
      rw [hcut] at ih
      rcases List.mem_cons.mp hother with rfl | hother
      · rcases List.mem_cons.mp hn with rfl | hn
        · exact List.mem_cons_self
        · exact List.mem_cons_of_mem _ (ih List.mem_cons_self hn)
      · exact List.mem_cons_of_mem _ (ih (List.mem_cons_of_mem _ hother) hn)

lemma mem_nodesParts_iff {T : Type} {m : Node T} : ∀ {ns : List (Node T)},
    m ∈ nodesParts ns ↔ ∃ n ∈ ns, m ∈ n.parts
  | [] => by simp [nodesParts]
  | n :: ns => by simp [nodesParts, mem_nodesParts_iff]

/-- The parts of the sections that are set are parts of the report. -/
lemma parts_splitSections_subset (d : ResolvedDocument) :
    ((splitSections d.sections).flatMap fun part => nodesParts part.nodes) ⊆ d.parts := by
  intro m hm
  obtain ⟨part, hpart, hm⟩ := List.mem_flatMap.mp hm
  obtain ⟨n, hn, hm⟩ := mem_nodesParts_iff.mp hm
  obtain ⟨s, hs, hpart⟩ := List.mem_flatMap.mp (List.mem_filter.mp hpart).1
  exact List.mem_flatMap.mpr ⟨s, hs, mem_nodesParts (mem_cutSection hpart hn) hm⟩

/-- The names in a document that is set are those of reports, and what its paragraphs hold comes
from the nodes of the report. -/
theorem ofReport_typeset {files : Files} {directory : Path} {making : Making} {tools : Tools}
    {d : ResolvedDocument} {doc : Word.Document}
    (h : typeset files directory making d tools = .ok doc) :
    (∀ name ∈ doc.names, name ∈ reportNames) ∧
      ∀ i ∈ doc.inlines,
        ComesFrom ⟨files, directory, d.settings.highlightCode, tools⟩ d.parts i := by
  obtain ⟨sets, ledger, hsets, rfl⟩ := typeset_eq_ok h
  have hof := (mapM_typesetSection_ofReport hsets).mono (parts_splitSections_subset d)
  have hnames : ∀ sets : List Word.Section, (sets.flatMap fun set => blocksNames set.blocks)
      = blocksNames (sets.flatMap fun set => set.blocks) := by
    intro sets
    induction sets with
    | nil => rfl
    | cons set sets ih => rw [List.flatMap_cons, List.flatMap_cons, Word.blocksNames_append, ih]
  have hparagraphs : ∀ sets : List Word.Section,
      (sets.flatMap fun set => blocksParagraphs set.blocks)
        = blocksParagraphs (sets.flatMap fun set => set.blocks) := by
    intro sets
    induction sets with
    | nil => rfl
    | cons set sets ih =>
        rw [List.flatMap_cons, List.flatMap_cons, Word.blocksParagraphs_append, ih]
  constructor
  · intro name hname
    cases sets with
    | nil => exact nomatch hname
    | cons set sets =>
        rw [Word.Document.names, Word.Document.sections_withSections (by simp), hnames] at hname
        exact hof.names name hname
  · intro i hi
    rw [Word.Document.inlines, Word.Document.paragraphs_withSections rfl, hparagraphs] at hi
    exact hof.inlines i hi

end ReportPress.Typeset
