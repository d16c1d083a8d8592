import ReportPress.Proofs.Typeset.Acts
import ReportPress.Proofs.Typeset.ParagraphText

/-!
# What is read in a report, and in what order

Whoever reads a document from the beginning to the end comes across texts and page breaks.  Those of
a typeset document are those of the report, in the same order.

* `Passage` — a text that says something, or a page break.
* `Word.Document.passages` — what is read in a document: paragraph by paragraph, each with its text
  and then its page breaks, tables cell by cell.
* `nodePassages`, `documentPassages` — what is to be read in a report: the texts of its nodes with
  their white space collapsed, the lines of its code and the placeholders of other documents.  A
  break between sections says nothing to the reader.

**Flows.**  `passages_blocksOf` — putting items below each other keeps what is read in them.  A page
break joins the paragraph above it, but there it stands behind all else.

**From nodes to paragraphs.**  `passages_nodeItems` is the induction over nodes, cells and rows.

**The result.**  `passages_typeset` — a document that is set without colouring of code loses no text
of its report, adds none, and keeps the order.
-/

namespace ReportPress

open Word (Block blocksParagraphs cellsParagraphs rowsParagraphs)

/-! ## What is read in a document -/

/-- What a reader of a document comes across. -/
inductive Passage where
  /-- A text that is not empty. -/
  | text (s : String)
  | pageBreak
deriving DecidableEq, Repr

/-- What is read where a text stands: nothing if it is empty. -/
def Passage.ofText (s : String) : List Passage := if s = "" then [] else [.text s]

/-- The page breaks among the contents of runs. -/
def breaksIn (contents : List Word.RunContent) : List Passage :=
  contents.filterMap fun
    | .pageBreak => some .pageBreak
    | _ => none

lemma breaksIn_append (before contents : List Word.RunContent) :
    breaksIn (before ++ contents) = breaksIn before ++ breaksIn contents :=
  List.filterMap_append

/-- What is read in a paragraph: its text, and then its page breaks. -/
def Word.Paragraph.passages (p : Word.Paragraph) : List Passage :=
  Passage.ofText p.text ++ breaksIn (Typeset.runContents p.inlines)

/-- What is read in paragraphs. -/
def passagesIn (ps : List Word.Paragraph) : List Passage := ps.flatMap Word.Paragraph.passages

/-- What is read in a document. -/
def Word.Document.passages (d : Word.Document) : List Passage := passagesIn d.paragraphs

@[simp] lemma passagesIn_nil : passagesIn [] = [] := rfl

@[simp] lemma passagesIn_cons (p : Word.Paragraph) (ps : List Word.Paragraph) :
    passagesIn (p :: ps) = p.passages ++ passagesIn ps :=
  List.flatMap_cons

@[simp] lemma passagesIn_append (before ps : List Word.Paragraph) :
    passagesIn (before ++ ps) = passagesIn before ++ passagesIn ps :=
  List.flatMap_append

/-- A page break at the end of a paragraph is read after all that stands there. -/
lemma Word.Paragraph.passages_push_pageBreak (p : Word.Paragraph) :
    (p.push (.run .pageBreak)).passages = p.passages ++ [.pageBreak] := by
  have htext : (p.push (.run .pageBreak)).text = p.text := by
    simp [push, text, Word.Inline.text, Word.Run.text, Word.Run.pageBreak]
  have hbreaks : breaksIn (Typeset.runContents (p.push (.run .pageBreak)).inlines)
      = breaksIn (Typeset.runContents p.inlines) ++ [.pageBreak] := by
    rw [push, Typeset.runContents_append, breaksIn_append]
    rfl
  rw [passages, passages, htext, hbreaks, List.append_assoc]

lemma passages_breakParagraph : Typeset.breakParagraph.passages = [.pageBreak] := by
  have hempty : ({} : Word.Paragraph).passages = [] := by decide
  have hpush := Word.Paragraph.passages_push_pageBreak {}
  rw [hempty] at hpush
  exact hpush

/-! ## What is to be read in a report -/

namespace Typeset

open Text

/-- What is to be read in runes. -/
def runesPassages (runes : Runes) : List Passage := Passage.ofText (runesText runes)

mutual

/-- What is to be read in an entry of a list. -/
def entryPassages : Entry Runes → List Passage
  | .item text => runesPassages text
  | .list _ entries => entriesPassages entries

/-- What is to be read in entries, depth first. -/
def entriesPassages : List (Entry Runes) → List Passage
  | [] => []
  | e :: entries => entryPassages e ++ entriesPassages entries

end

/-- What is to be read below a picture: its caption, unless that is blank. -/
def imagePassages (i : Image Runes) : List Passage :=
  if (trimmed (plainText i.alt)).isEmpty then [] else runesPassages i.alt

/-- What is to be read in the body of a block of code: its lines, each without a carriage return
at its end. -/
def bodyPassages (body : String) : List Passage :=
  (splitOn '\n' body.toList).flatMap fun line => Passage.ofText (String.ofList (dropEnd '\r' line))

mutual

/-- What is to be read in a node of a report below a directory. -/
def nodePassages (directory : Path) : Node Runes → List Passage
  | .text p => runesPassages p.text
  | .title t => runesPassages t.text
  | .pageBreak | .contents => [.pageBreak]
  | .table caption rows _ =>
    caption.toList.flatMap runesPassages ++ rowsPassages directory rows
  | .list l => entriesPassages l.entries
  | .image i => imagePassages i
  | .code c => runesPassages c.title ++ bodyPassages c.body
  | .external d => Passage.ofText (placeholderText directory d)
  | .sectionBreak _ => []

/-- What is to be read in the cells of a row. -/
def cellsPassages (directory : Path) : List (Node Runes) → List Passage
  | [] => []
  | node :: nodes => nodePassages directory node ++ cellsPassages directory nodes

/-- What is to be read in the rows of a table. -/
def rowsPassages (directory : Path) : List (List (Node Runes)) → List Passage
  | [] => []
  | row :: rows => cellsPassages directory row ++ rowsPassages directory rows

end

/-- What is to be read in a report below a directory. -/
def documentPassages (directory : Path) (d : ResolvedDocument) : List Passage :=
  d.sections.flatMap fun s => s.nodes.flatMap (nodePassages directory)

/-! ## Flows -/

/-- What is read in an item of a flow. -/
def FlowItem.passages : FlowItem → List Passage
  | .text p => p.passages
  | .block b => passagesIn b.paragraphs
  | .pageBreak => [.pageBreak]

/-- What is read in items. -/
def itemsPassages (is : List FlowItem) : List Passage := is.flatMap FlowItem.passages

@[simp] lemma itemsPassages_nil : itemsPassages [] = [] := rfl

@[simp] lemma itemsPassages_cons (i : FlowItem) (is : List FlowItem) :
    itemsPassages (i :: is) = i.passages ++ itemsPassages is :=
  List.flatMap_cons

@[simp] lemma itemsPassages_append (before is : List FlowItem) :
    itemsPassages (before ++ is) = itemsPassages before ++ itemsPassages is :=
  List.flatMap_append

@[simp] lemma passages_block_paragraph (p : Word.Paragraph) :
    (FlowItem.block (.paragraph p)).passages = p.passages := by
  simp [FlowItem.passages, Block.paragraphs]

/-- A page break below blocks is read after them, in whichever paragraph it stands. -/
lemma passages_breakBelow (bs : List Block) :
    passagesIn (blocksParagraphs (breakBelow bs))
      = passagesIn (blocksParagraphs bs) ++ [.pageBreak] := by
  unfold breakBelow
  split
  case h_1 p hlast =>
    have hbs : bs = bs.dropLast ++ [.paragraph p] := (List.dropLast_append_getLast? _ hlast).symm
    conv_rhs => rw [hbs]
    simp [Block.paragraphs, Word.Paragraph.passages_push_pageBreak]
  case h_2 => simp [Block.paragraphs, passages_breakParagraph]

lemma passages_placeBelow (bs : List Block) (i : FlowItem) :
    passagesIn (blocksParagraphs (placeBelow bs i))
      = passagesIn (blocksParagraphs bs) ++ i.passages := by
  cases i with
  | text p =>
      -- Space above the paragraph is a matter of its format.
      have hspace : (if endsWithTable bs then
          { p with format :=
            { p.format with spaceBefore := some (Length.ptToTwip spaceBelowTable) } }
        else p).passages = p.passages := by
        split <;> rfl
      rw [placeBelow, Word.blocksParagraphs_append, passagesIn_append,
        Word.blocksParagraphs_singleton, Block.paragraphs, passagesIn_cons, hspace]
      simp [FlowItem.passages]
  | block b => simp [placeBelow, FlowItem.passages]
  | pageBreak => exact passages_breakBelow bs

/-- Putting items below each other keeps what is read in them. -/
theorem passages_blocksOf (is : List FlowItem) :
    passagesIn (blocksParagraphs (blocksOf is)) = itemsPassages is := by
  have hfold : ∀ (is : List FlowItem) (bs : List Block),
      passagesIn (blocksParagraphs (is.foldl placeBelow bs))
        = passagesIn (blocksParagraphs bs) ++ itemsPassages is := by
    intro is
    induction is with
    | nil => simp
    | cons i is ih =>
        intro bs
        rw [List.foldl_cons, ih, passages_placeBelow, List.append_assoc, itemsPassages_cons]
  rw [blocksOf, hfold]
  rfl

/-! ## Paragraphs, pictures, code and placeholders -/

variable {s : Surroundings} {l l' : Ledger} {is : List FlowItem}

/-- In a paragraph of runes these are read, and no page break. -/
lemma passages_of_inlinesOf {size : Option Nat} {runes : Runes} {marks : Bookmarks}
    {p : Word.Paragraph} (hp : p.inlines = ((inlinesOf size runes).run marks).1) :
    p.passages = runesPassages runes := by
  have hbreaks : breaksIn (runContents p.inlines) = [] := by
    rw [hp, runContents_inlinesOf, shownContents, breaksIn, List.filterMap_map]
    exact List.filterMap_eq_nil_iff.mpr fun r _ => rfl
  rw [Word.Paragraph.passages, text_inlinesOf hp, hbreaks, List.append_nil, runesPassages]

lemma passages_titleItems {t : Title Runes} (h : Yields (titleItems t) l is l') :
    itemsPassages is = runesPassages t.text := by
  unfold titleItems at h
  by_cases hlevel : maxTitleLevel < t.level
  · rw [if_pos hlevel, yields_bind] at h
    obtain ⟨u, middle, h, -⟩ := h
    exact absurd h not_yields_throw
  · rw [if_neg hlevel] at h
    simp only [yields_bind, yields_paragraph, yields_pure] at h
    obtain ⟨p, middle, ⟨rfl, rfl⟩, rfl, rfl⟩ := h
    simpa using passages_of_inlinesOf rfl

lemma passages_captionItems {caption : Option Runes} (h : Yields (captionItems caption) l is l') :
    itemsPassages is = caption.toList.flatMap runesPassages := by
  cases caption with
  | none =>
      obtain ⟨rfl, rfl⟩ := yields_pure.mp h
      rfl
  | some caption =>
      simp only [captionItems, yields_bind, yields_paragraph, yields_pure] at h
      obtain ⟨p, middle, ⟨rfl, rfl⟩, rfl, rfl⟩ := h
      simpa using passages_of_inlinesOf rfl

/-- Nothing is read in a picture, but its caption is. -/
lemma passages_imageItems {i : Image Runes} (h : Yields (imageItems s i) l is l') :
    itemsPassages is = imagePassages i := by
  have hpicture (picture : Word.Picture) : ({
      inlines := [.picture picture]
      format := { centered with keepNext := true } } : Word.Paragraph).passages = [] := by
    rfl
  unfold imageItems at h
  rw [yields_bind] at h
  obtain ⟨loaded, middle, hloaded, h⟩ := h
  dsimp only at h
  split at h
  case h_2 => exact absurd h not_yields_throw
  case h_1 picture hbytes =>
    rw [imagePassages]
    split_ifs at h ⊢ with halt
    · obtain ⟨rfl, rfl⟩ := yields_pure.mp h
      rw [itemsPassages_cons, passages_block_paragraph, hpicture]
      rfl
    · simp only [yields_bind, yields_paragraph, yields_pure] at h
      obtain ⟨p, middle', ⟨rfl, rfl⟩, rfl, rfl⟩ := h
      rw [itemsPassages_cons, passages_block_paragraph, hpicture]
      simpa using passages_of_inlinesOf rfl

/-- A line of code that is not coloured is read as it is. -/
lemma passages_lineItem (line : List Char) :
    (lineItem (Code.plainLine line)).passages = Passage.ofText (String.ofList line) := by
  unfold Code.plainLine
  split_ifs with hline
  · rw [hline]
    rfl
  · simp [lineItem, Word.Paragraph.passages, Word.Paragraph.text, Word.Inline.text, Word.Run.text,
      spanRun, runContents, Word.Inline.runs, breaksIn]

lemma passages_codeItems {c : CodeBlock Runes} (hs : s.highlight = false)
    (h : Yields (codeItems s c) l is l') :
    itemsPassages is = runesPassages c.title ++ bodyPassages c.body := by
  have hlines : itemsPassages
      ((Code.linesBy s.tools.tokenizerOf s.highlight c.language c.body).map lineItem)
        = bodyPassages c.body := by
    have hcode : Code.linesBy s.tools.tokenizerOf false c.language c.body
        = Code.plainLines c.body := rfl
    rw [hs, hcode, Code.plainLines, List.map_map, itemsPassages, List.flatMap_map, bodyPassages]
    congr 1
    funext line
    exact passages_lineItem (dropEnd '\r' line)
  simp only [codeItems, yields_bind, yields_paragraph, yields_pure] at h
  obtain ⟨p, middle, ⟨rfl, rfl⟩, rfl, rfl⟩ := h
  rw [itemsPassages_cons, passages_block_paragraph, hlines, passages_of_inlinesOf rfl]

lemma passages_externalItems {d : ExternalDocument} (h : Yields (externalItems s d) l is l') :
    itemsPassages is = Passage.ofText (placeholderText s.directory d) := by
  unfold externalItems at h
  rw [yields_bind] at h
  obtain ⟨text, middle, htext, h⟩ := h
  obtain ⟨hplaceholder, rfl⟩ := yields_lift.mp htext
  obtain ⟨rfl, rfl⟩ := yields_pure.mp h
  rw [← placeholder_eq_ok hplaceholder]
  simp [Word.Paragraph.passages, Word.Paragraph.text, Word.Inline.text, Word.Run.text,
    Word.Run.ofText, runContents, Word.Inline.runs, breaksIn]

lemma passages_contentsItems : itemsPassages contentsItems = [.pageBreak] := by
  simp [contentsItems, FlowItem.passages, Block.paragraphs, passages_breakParagraph]

/-! ## Lists -/

mutual

lemma passages_entryItems {alternate : Bool} {number : Nat} : ∀ {level : Nat} {e : Entry Runes}
    {l l' : Ledger} {is : List FlowItem}, Yields (entryItems alternate number level e) l is l' →
      itemsPassages is = entryPassages e
  | level, .item text, l, l', is, h => by
      simp only [entryItems, itemBlock, yields_bind, yields_paragraph, yields_pure] at h
      obtain ⟨item, middle, ⟨p, middle', ⟨rfl, rfl⟩, rfl, rfl⟩, rfl, rfl⟩ := h
      rw [entryPassages]
      simpa using passages_of_inlinesOf rfl
  | level, .list style entries, l, l', is, h => by
      simp only [entryItems, yields_bind] at h
      obtain ⟨u, middle, -, h⟩ := h
      rw [entryPassages]
      exact passages_entriesItems h

lemma passages_entriesItems {alternate : Bool} {number : Nat} : ∀ {level : Nat}
    {entries : List (Entry Runes)} {l l' : Ledger} {is : List FlowItem},
      Yields (entriesItems alternate number level entries) l is l' →
        itemsPassages is = entriesPassages entries
  | level, [], l, l', is, h => by
      rw [entriesItems] at h
      obtain ⟨rfl, rfl⟩ := yields_pure.mp h
      rfl
  | level, e :: entries, l, l', is, h => by
      simp only [entriesItems, yields_bind, yields_pure] at h
      obtain ⟨items, middle, he, more, middle', hentries, rfl, rfl⟩ := h
      rw [itemsPassages_append, entriesPassages, passages_entryItems he,
        passages_entriesItems hentries]

end

lemma passages_listItems {list : ItemList Runes} (h : Yields (listItems list) l is l') :
    itemsPassages is = entriesPassages list.entries := by
  simp only [listItems, yields_bind] at h
  obtain ⟨number, middle, -, u, middle', -, h⟩ := h
  exact passages_entriesItems h

/-! ## Nodes -/

/-- A cell with text is set in a way of its own, all others as their node is. -/
lemma passages_cells_cons {normalFontSize isHeader : Bool} {node : Node Runes}
    {nodes : List (Node Runes)}
    (hnode : ∀ (l l' : Ledger) (is : List FlowItem), Yields (nodeItems s node) l is l' →
      itemsPassages is = nodePassages s.directory node)
    (hnodes : ∀ (l l' : Ledger) (cs : List (List Block)),
      Yields (cellsBlocks s normalFontSize isHeader nodes) l cs l' →
        passagesIn (cellsParagraphs cs) = cellsPassages s.directory nodes)
    (l l' : Ledger) (cs : List (List Block))
    (h : Yields (cellsBlocks s normalFontSize isHeader (node :: nodes)) l cs l') :
    passagesIn (cellsParagraphs cs) = cellsPassages s.directory (node :: nodes) := by
  cases node with
  | text p =>
      rw [cellsBlocks] at h
      simp only [cellText, yields_bind, yields_inlines, yields_pure] at h
      obtain ⟨b, middle, ⟨shown, middle', ⟨rfl, rfl⟩, rfl, rfl⟩, c, middle'', ⟨rfl, rfl⟩, more,
        final, hmore, rfl, rfl⟩ := h
      rw [cellsParagraphs, passagesIn_append, hnodes _ _ _ hmore, cellsPassages, nodePassages,
        Word.blocksParagraphs_singleton, Block.paragraphs, passagesIn_cons, passagesIn_nil,
        List.append_nil, passages_of_inlinesOf rfl]
  | _ =>
      rw [cellsBlocks] at h
      · simp only [yields_bind, yields_pure] at h
        obtain ⟨is, middle, his, c, middle', ⟨rfl, rfl⟩, more, middle'', hmore, rfl, rfl⟩ := h
        rw [cellsParagraphs, passagesIn_append, passages_blocksOf, hnode _ _ _ his,
          hnodes _ _ _ hmore, cellsPassages]
      · simp

mutual

/-- What is to be read in a node is read in its items. -/
theorem passages_nodeItems (hs : s.highlight = false) : ∀ (n : Node Runes) (l l' : Ledger)
    (is : List FlowItem), Yields (nodeItems s n) l is l' →
      itemsPassages is = nodePassages s.directory n
  | .text p => by
      intro l l' is h
      simp only [nodeItems, yields_bind, yields_paragraph, yields_pure] at h
      obtain ⟨q, middle, ⟨rfl, rfl⟩, rfl, rfl⟩ := h
      rw [nodePassages, itemsPassages_cons, itemsPassages_nil, List.append_nil]
      exact passages_of_inlinesOf rfl
  | .title t => by
      intro l l' is h
      rw [nodeItems] at h
      rw [nodePassages, passages_titleItems h]
  | .pageBreak => by
      intro l l' is h
      rw [nodeItems] at h
      obtain ⟨rfl, rfl⟩ := yields_pure.mp h
      rw [nodePassages]
      rfl
  | .contents => by
      intro l l' is h
      rw [nodeItems] at h
      obtain ⟨rfl, rfl⟩ := yields_pure.mp h
      rw [nodePassages, passages_contentsItems]
  | .table caption rows normalFontSize => by
      intro l l' is h
      simp only [nodeItems, yields_bind, yields_pure] at h
      obtain ⟨above, middle, habove, body, middle', hbody, rfl, rfl⟩ := h
      have hrows := passages_rowsBlocks hs rows _ _ _ hbody
      rw [itemsPassages_append, passages_captionItems habove, nodePassages, ← hrows]
      simp [FlowItem.passages, Block.paragraphs]
  | .list list => by
      intro l l' is h
      rw [nodeItems] at h
      rw [nodePassages, passages_listItems h]
  | .image i => by
      intro l l' is h
      rw [nodeItems] at h
      rw [nodePassages, passages_imageItems h]
  | .code c => by
      intro l l' is h
      rw [nodeItems] at h
      rw [nodePassages, passages_codeItems hs h]
  | .external d => by
      intro l l' is h
      rw [nodeItems] at h
      rw [nodePassages, passages_externalItems h]
  | .sectionBreak pageStart => by
      intro l l' is h
      rw [nodeItems] at h
      obtain ⟨rfl, rfl⟩ := yields_pure.mp h
      rw [nodePassages]
      rfl

/-- What is to be read in the nodes of a row is read in its cells. -/
theorem passages_cellsBlocks (hs : s.highlight = false) {normalFontSize isHeader : Bool} :
    ∀ (nodes : List (Node Runes)) (l l' : Ledger) (cs : List (List Block)),
      Yields (cellsBlocks s normalFontSize isHeader nodes) l cs l' →
        passagesIn (cellsParagraphs cs) = cellsPassages s.directory nodes
  | [] => by
      intro l l' cs h
      rw [cellsBlocks] at h
      obtain ⟨rfl, rfl⟩ := yields_pure.mp h
      rfl
  | node :: nodes =>
      passages_cells_cons (passages_nodeItems hs node) (passages_cellsBlocks hs nodes)

/-- What is to be read in the rows of a table is read in what they become. -/
theorem passages_rowsBlocks (hs : s.highlight = false) {normalFontSize isHeader : Bool} :
    ∀ (rows : List (List (Node Runes))) (l l' : Ledger) (rs : List (List (List Block))),
      Yields (rowsBlocks s normalFontSize isHeader rows) l rs l' →
        passagesIn (rowsParagraphs rs) = rowsPassages s.directory rows
  | [] => by
      intro l l' rs h
      rw [rowsBlocks] at h
      obtain ⟨rfl, rfl⟩ := yields_pure.mp h
      rfl
  | row :: rows => by
      intro l l' rs h
      simp only [rowsBlocks, yields_bind, yields_pure] at h
      obtain ⟨cells, middle, hcells, more, middle', hmore, rfl, rfl⟩ := h
      rw [rowsParagraphs, passagesIn_append, rowsPassages,
        passages_cellsBlocks hs row _ _ _ hcells, passages_rowsBlocks hs rows _ _ _ hmore]

end

/-! ## Sections and reports -/

lemma passages_mapM_nodeItems (hs : s.highlight = false) : ∀ {nodes : List (Node Runes)}
    {l l' : Ledger} {iss : List (List FlowItem)}, Yields (nodes.mapM (nodeItems s)) l iss l' →
      itemsPassages iss.flatten = nodes.flatMap (nodePassages s.directory)
  | [], l, l', iss, h => by
      rw [List.mapM_nil] at h
      obtain ⟨rfl, rfl⟩ := yields_pure.mp h
      rfl
  | n :: nodes, l, l', iss, h => by
      simp only [List.mapM_cons, yields_bind, yields_pure] at h
      obtain ⟨is, middle, his, more, middle', hmore, rfl, rfl⟩ := h
      rw [List.flatten_cons, itemsPassages_append, List.flatMap_cons,
        passages_nodeItems hs n _ _ _ his, passages_mapM_nodeItems hs hmore]

lemma passages_mapM_typesetSection (hs : s.highlight = false) : ∀ {parts : List (Section Runes)}
    {l l' : Ledger} {sets : List Word.Section},
      Yields (parts.mapM (typesetSection s)) l sets l' →
        passagesIn (sets.flatMap fun set => blocksParagraphs set.blocks)
          = parts.flatMap fun part => part.nodes.flatMap (nodePassages s.directory)
  | [], l, l', sets, h => by
      rw [List.mapM_nil] at h
      obtain ⟨rfl, rfl⟩ := yields_pure.mp h
      rfl
  | part :: parts, l, l', sets, h => by
      simp only [List.mapM_cons, typesetSection, yields_bind, yields_pure] at h
      obtain ⟨set, middle, ⟨iss, middle', hiss, rfl, rfl⟩, more, middle'', hmore, rfl, rfl⟩ := h
      rw [List.flatMap_cons, passagesIn_append, List.flatMap_cons, passages_blocksOf,
        passages_mapM_nodeItems hs hiss, passages_mapM_typesetSection hs hmore]

/-- A report whose code is not coloured loses none of its texts and page breaks when it is set, gets
no others, and keeps them in order. -/
theorem passages_typeset {files : Files} {directory : Path} {making : Making} {tools : Tools}
    {d : ResolvedDocument} {doc : Word.Document} (hcode : d.settings.highlightCode = false)
    (h : typeset files directory making d tools = .ok doc) :
    doc.passages = documentPassages directory d := by
  obtain ⟨sets, ledger, hsets, rfl⟩ := typeset_eq_ok h
  have hsections := passages_mapM_typesetSection hcode hsets
  have hsplit := flatMap_splitSections (f := nodePassages directory) (fun next => by
    rw [nodePassages]) d.sections
  rw [Word.Document.passages, Word.Document.paragraphs_withSections rfl, hsections, hsplit,
    documentPassages]

/-- A report with a break that joins a title, a table with a break and lists in its cells, words of
two alphabets, code, a picture and another document. -/
def manifoldReport : ResolvedDocument :=
  let inner : Entry Runes := .list { ordered := true } [.item [.plain "inner"]]
  let list : ItemList Runes := ⟨{ ordered := false }, [.item [.plain "outer"], inner]⟩
  let first : List (Node Runes) :=
    [.title { text := [.plain "Title"], level := 1 }, .pageBreak,
      .table (some [.plain "Caption"])
        [[.ofText [.plain "x"], .pageBreak], [.list list, .ofText []]] false,
      .sectionBreak none]
  let second : List (Node Runes) :=
    [.contents, .ofText [.plain "two  ", .plain "слова  words"],
      .code { language := "", title := [.plain "Code"], body := "a = 1\r\n\nb  = 2\n" },
      .image { alt := [.plain "Figure"], source := "dot.gif" },
      .external { path := "part.docx", values := [("k", "v")] }]
  { sections := [{ pageStart := some 1, nodes := first ++ second }], settings := {} }

/-- The beginning of a GIF file with a picture of one pixel. -/
def dotBytes : Bytes :=
  [0x47, 0x49, 0x46, 0x38, 0x39, 0x61, 1, 0, 1, 0, 0, 0, 0, 0x2C, 0]

/-- The files that this report asks for: a picture and an empty document. -/
def manifoldFiles : Files :=
  ⟨[(["dot.gif"], .file { content := .bytes dotBytes }),
    (["part.docx"], .file { content := .archive [] })]⟩

/-- The statement for this report. -/
theorem passages_typeset_manifoldReport :
    ∃ doc, typeset manifoldFiles ⟨"/"⟩ ⟨0, 0⟩ manifoldReport = .ok doc ∧
      doc.passages = [.text "Title", .pageBreak, .text "Caption", .text "x", .pageBreak,
        .text "outer", .text "inner", .pageBreak, .text "two слова words", .text "Code",
        .text "a = 1", .text "b  = 2", .text "Figure",
        .text "!!(/part.docx)\x7b\"k\":\"v\"\x7d"] := by
  have hset : (typeset manifoldFiles ⟨"/"⟩ ⟨0, 0⟩ manifoldReport).isOk = true := by
    decide +kernel
  cases h : typeset manifoldFiles ⟨"/"⟩ ⟨0, 0⟩ manifoldReport with
  | error failure =>
      rw [h] at hset
      exact nomatch hset
  | ok doc =>
      refine ⟨doc, rfl, ?_⟩
      rw [passages_typeset rfl h]
      decide +kernel

end Typeset

end ReportPress
