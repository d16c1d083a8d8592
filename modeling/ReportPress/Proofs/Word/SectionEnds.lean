import Mathlib.Data.List.SplitBy
import ReportPress.Proofs.Word.Integrity

/-!
# Where sections end in the text of a document

The text of a document has no elements for sections.  What ends a section is the setup of its
pages: it stands in the last paragraph of the section, in a paragraph of its own if there is none,
and the last one by itself at the end of the body.

* `addSetup` — the contents of a paragraph with a setup at the end of the properties.
* `IsClosed` — the elements of a section that is not the last are those of its blocks with the
  setup in them.
* `AreDelimited` — so are those of all sections, one after another; the last has its setup behind
  the elements of its blocks.
* `ownXml` — the elements of the blocks of each section, with the identifiers that are given out
  for footers on the way.
* `IsSetupOf` — a setup leads to the footer of a section and has its page number.
* `IsDivided` — the elements of a body can be cut into sections by their setups alone.

**Blocks have no setups.**  `isMadeOf_blocks`, along blocks, cells and rows.

**Cutting.**  Every piece ends with the one element that holds a setup, and the pieces are what
`splitBy` cuts (`cutBehindSetups_flatten`).

**The package.**  `package_isDivided` says so of the text in the package as it is read.
-/

namespace ReportPress.Word

/-! ## Closing a section -/

/-- The contents of a paragraph with one more property at the end of its properties. -/
def addSetup (setup : Xml) : List Xml → List Xml
  | .element name attributes properties :: inlines =>
    if name = "w:pPr" then .element name attributes (properties ++ [setup]) :: inlines
    else .plain "w:pPr" [setup] :: .element name attributes properties :: inlines
  | inlines => .plain "w:pPr" [setup] :: inlines

/-- The elements of a section that is not the last, by its blocks and the elements of these. -/
inductive IsClosed (setup : Xml) : List Block → List Xml → List Xml → Prop
  /-- The last paragraph of the section holds the setup. -/
  | paragraph {front : List Block} {p : Paragraph} {before children : List Xml} :
      IsClosed setup (front ++ [.paragraph p]) (before ++ [.plain "w:p" children])
        (before ++ [.plain "w:p" (addSetup setup children)])
  /-- A paragraph that is added holds it. -/
  | added {blocks : List Block} {own : List Xml}
      (h : blocks.getLast?.any Block.isParagraph = false) :
      IsClosed setup blocks own (own ++ [.plain "w:p" [.plain "w:pPr" [setup]]])

/-- The elements of sections in order, by the elements of their blocks and by their setups. -/
inductive AreDelimited : List Section → List (List Xml) → List Xml → List (List Xml) → Prop
  | last {s : Section} {own : List Xml} {setup : Xml} :
      AreDelimited [s] [own] [setup] [own ++ [setup]]
  | closed {s : Section} {rest : List Section} {own group : List Xml} {setup : Xml}
      {owns groups : List (List Xml)} {setups : List Xml} (h : IsClosed setup s.blocks own group)
      (more : AreDelimited rest owns setups groups) :
      AreDelimited (s :: rest) (own :: owns) (setup :: setups) (group :: groups)

/-- The elements of the blocks of each section as they are read, the first of which has the given
number; each footer is referred to before the blocks of its section. -/
def ownXml (number : Nat) (refs : References) : List Section → List (List Xml)
  | [] => []
  | s :: rest =>
    let footer := ((References.add .footer (footerName number)).run refs).2
    let own := (blocksXml s.blocks).run footer
    allAsRead own.1 :: ownXml (number + 1) own.2 rest

/-! ## Cutting -/

/-- Whether an element is the setup of pages, or holds one. -/
def holdsSetup (x : Xml) : Bool := x.tags.any fun t => t.name = "w:sectPr"

/-- Elements in pieces that end with an element that holds a setup. -/
def cutBehindSetups (xs : List Xml) : List (List Xml) := xs.splitBy fun x _ => !holdsSetup x

/-- The setup of a section, with the number of that, in a package. -/
structure IsSetupOf (entries : List Entry) (rels : Xml) (s : Section × Nat) (setup : Xml) :
    Prop where
  /-- It refers to the footer of the section. -/
  footer : ∃ id, [setup] = allAsRead [s.1.setup.xml id] ∧
    valuesIn "w:footerReference" "r:id" [setup] = [id] ∧
    RelatesIn rels id .footer (footerName s.2) ∧
    ⟨"word/" ++ footerName s.2, .text (Xml.part (footerXml s.1))⟩ ∈ entries
  pageStart : valuesIn "w:pgNumType" "w:start" [setup]
    = (s.1.setup.pageStart.map fun n => toString n.toNat).toList

/-- The elements of a body are those of the sections of a document, which can be told by their
setups. -/
structure IsDivided (d : Document) (entries : List Entry) (rels : Xml) (children setups : List Xml)
    (groups : List (List Xml)) : Prop where
  own : List.Forall₂ (IsSetupOf entries rels) (d.sections.zipIdx 1) setups
  /-- There are no other setups anywhere. -/
  all : (contentsOf "w:sectPr" children).map (.plain "w:sectPr") = setups
  last : children.getLast? = setups.getLast?
  cut : cutBehindSetups children = groups
  delimited : AreDelimited d.sections (ownXml 1 .initial d.sections) setups groups

/-! ## Blocks have no setups -/

section Names

variable {names : List String} {name : String}

mutual

lemma contents_of_isMadeOf (hn : name ∉ names) : ∀ x : Xml, IsMadeOf names [x] →
    x.contents name = []
  | .text _, _ => rfl
  | .element n attributes children, h => by
      rw [isMadeOf_element] at h
      have hne : n ≠ name := fun e => hn (e ▸ h.1)
      rw [Xml.contents, if_neg hne, contentsOf_of_isMadeOf hn children h.2, List.nil_append]
  | .empty n attributes, h => by
      rw [isMadeOf_empty] at h
      have hne : n ≠ name := fun e => hn (e ▸ h)
      rw [Xml.contents, if_neg hne]

/-- Nothing stands in elements with a name where there are none. -/
lemma contentsOf_of_isMadeOf (hn : name ∉ names) : ∀ xs : List Xml, IsMadeOf names xs →
    contentsOf name xs = []
  | [], _ => rfl
  | x :: xs, h => by
      rw [isMadeOf_cons] at h
      rw [contentsOf, contents_of_isMadeOf hn x h.1, contentsOf_of_isMadeOf hn xs h.2,
        List.nil_append]

end

lemma isMadeOf_allAsRead {xs : List Xml} : IsMadeOf names (allAsRead xs) ↔ IsMadeOf names xs := by
  simp [IsMadeOf, tagsOf_allAsRead, Tag.asRead]

lemma holdsSetup_of_isMadeOf {xs : List Xml} (h : IsMadeOf names xs) (hn : "w:sectPr" ∉ names) :
    ∀ x ∈ xs, holdsSetup x = false := by
  intro x hx
  rw [holdsSetup, List.any_eq_false]
  intro t ht
  rw [decide_eq_true_eq]
  intro hname
  exact hn (hname ▸ h t (mem_tagsOf.mpr ⟨x, hx, ht⟩))

/-- The elements of what paragraphs hold. -/
def inlineNames : List String :=
  runNames ++ pictureNames ++ ["w:hyperlink", "w:bookmarkStart", "w:bookmarkEnd"]

lemma isMadeOf_inline (i : Inline) (refs : References) :
    IsMadeOf inlineNames (i.xml.run refs).1 := by
  have hrun (r : Run) : IsMadeOf inlineNames r.xml :=
    (isMadeOf_run r).mono fun name hname => by simp [inlineNames, hname]
  have hlink (attributes : List Attribute) (runs : List Run) :
      IsMadeOf inlineNames [.element "w:hyperlink" attributes (runs.flatMap Run.xml)] :=
    isMadeOf_element.mpr ⟨by simp [inlineNames], isMadeOf_flatMap fun r _ => hrun r⟩
  cases i with
  | run r => exact hrun r
  | link target runs =>
      cases target with
      | external address => exact hlink _ runs
      | anchor name => exact hlink _ runs
  | picture p =>
      exact (isMadeOf_picture p refs).mono fun name hname => by simp [inlineNames, hname]
  | bookmarkStart id anchor => exact isMadeOf_empty.mpr (by simp [inlineNames])
  | bookmarkEnd id => exact isMadeOf_empty.mpr (by simp [inlineNames])

lemma isMadeOf_inlines : ∀ (is : List Inline) (refs : References),
    IsMadeOf inlineNames ((is.mapM Inline.xml).run refs).1.flatten
  | [], _ => isMadeOf_nil
  | i :: is, refs => by
      have hrun : ((i :: is).mapM Inline.xml).run refs =
          ((i.xml.run refs).1 :: ((is.mapM Inline.xml).run (i.xml.run refs).2).1,
            ((is.mapM Inline.xml).run (i.xml.run refs).2).2) := by
        rw [List.mapM_cons]
        rfl
      rw [hrun, List.flatten_cons, isMadeOf_append]
      exact ⟨isMadeOf_inline i refs, isMadeOf_inlines is _⟩

/-- The elements of paragraphs. -/
def paragraphElements : List String := ["w:p", "w:pPr"] ++ formatNames ++ inlineNames

lemma isMadeOf_paragraph (p : Paragraph) (refs : References) :
    IsMadeOf paragraphElements [(p.xml.run refs).1] := by
  have hformat {xs : List Xml} (h : IsMadeOf formatNames xs) : IsMadeOf paragraphElements xs :=
    h.mono fun name hname => by simp [paragraphElements, hname]
  have hstyle : IsMadeOf formatNames (optional (fun s => [.val "w:pStyle" s]) p.style) :=
    isMadeOf_optional (by simp [formatNames]) _
  have hproperties : IsMadeOf paragraphElements (p.properties none) := by
    unfold Paragraph.properties
    extract_lets children
    split_ifs
    · exact isMadeOf_nil
    · refine isMadeOf_plain.mpr ⟨by simp [paragraphElements], ?_⟩
      exact isMadeOf_append.mpr
        ⟨isMadeOf_append.mpr ⟨hformat hstyle, hformat (isMadeOf_format p.format)⟩, isMadeOf_nil⟩
  have hinlines := (isMadeOf_inlines p.inlines refs).mono
    fun name (hname : name ∈ inlineNames) =>
      (by simp [paragraphElements, hname] : name ∈ paragraphElements)
  exact isMadeOf_plain.mpr
    ⟨by simp [paragraphElements], isMadeOf_append.mpr ⟨hproperties, hinlines⟩⟩

/-- The elements of blocks. -/
def blockNames : List String := inlineNames ++ fixedNames ++ frameNames

lemma mem_blockNames {name : String} (h : name ∈ paragraphElements) : name ∈ blockNames := by
  simp only [paragraphElements, List.mem_append] at h
  rcases h with (h | h) | h
  · have hframe : name ∈ frameNames := by
      rcases (by simpa using h : name = "w:p" ∨ name = "w:pPr") with rfl | rfl <;>
        simp [frameNames]
    simp [blockNames, hframe]
  · simp [blockNames, fixedNames, h]
  · simp [blockNames, h]

lemma isMadeOf_blockNames_of_fixed {xs : List Xml} (h : IsFixed (fun _ => True) xs) :
    IsMadeOf blockNames xs :=
  (isMadeOf_fixed h).mono fun name hname => by simp [blockNames, hname]

lemma isMadeOf_frame {name : String} {xs : List Xml} (hname : name ∈ frameNames)
    (h : IsMadeOf blockNames xs) : IsMadeOf blockNames [.plain name xs] :=
  isMadeOf_plain.mpr ⟨by simp [blockNames, hname], h⟩

mutual

lemma isMadeOf_block : ∀ (b : Block) (refs : References),
    IsMadeOf blockNames [(b.xml.run refs).1]
  | .paragraph p, refs => by
      rw [Block.xml]
      exact (isMadeOf_paragraph p refs).mono fun _ => mem_blockNames
  | .table width headerRows rows, refs => by
      rw [run_xml_table]
      refine isMadeOf_frame (by simp [frameNames]) (isMadeOf_append.mpr ⟨?_, ?_⟩)
      · exact isMadeOf_blockNames_of_fixed (.tableProperties _)
      · refine isMadeOf_append.mpr ⟨?_, isMadeOf_rows rows refs⟩
        exact isMadeOf_blockNames_of_fixed (.grid _ _)
  | .contents field, refs => by
      rw [Block.xml]
      exact isMadeOf_blockNames_of_fixed (.contents fun _ _ => trivial)

/-- The elements of blocks have other names than setups. -/
lemma isMadeOf_blocks : ∀ (bs : List Block) (refs : References),
    IsMadeOf blockNames ((blocksXml bs).run refs).1
  | [], _ => by
      rw [blocksXml]
      exact isMadeOf_nil
  | b :: bs, refs => by
      rw [run_blocksXml_cons, isMadeOf_append]
      exact ⟨isMadeOf_block b refs, isMadeOf_blocks bs _⟩

lemma isMadeOf_cells {width : Nat} : ∀ (cs : List (List Block)) (refs : References),
    IsMadeOf blockNames ((cellsXml width cs).run refs).1
  | [], _ => by
      rw [cellsXml]
      exact isMadeOf_nil
  | c :: cs, refs => by
      have hend : IsMadeOf blockNames (cellEnd c) := by
        unfold cellEnd
        split_ifs
        · exact isMadeOf_nil
        · exact isMadeOf_blockNames_of_fixed .cellEnd
      have hwidth : IsMadeOf blockNames [cellWidthXml width] :=
        isMadeOf_blockNames_of_fixed (.cellWidth _)
      rw [run_cellsXml_cons, isMadeOf_append]
      refine ⟨isMadeOf_frame (by simp [frameNames]) ?_, isMadeOf_cells cs _⟩
      exact isMadeOf_append.mpr ⟨hwidth, isMadeOf_append.mpr ⟨isMadeOf_blocks c refs, hend⟩⟩

lemma isMadeOf_rows {width : Nat} : ∀ {headers : Nat} (rs : List (List (List Block)))
    (refs : References), IsMadeOf blockNames ((rowsXml width headers rs).run refs).1
  | _, [], _ => by
      rw [rowsXml]
      exact isMadeOf_nil
  | headers, r :: rs, refs => by
      have hmark : IsMadeOf blockNames (whenSet (0 < headers) headerMark) :=
        isMadeOf_whenSet (isMadeOf_blockNames_of_fixed .headerMark) _
      rw [run_rowsXml_cons, isMadeOf_append]
      refine ⟨isMadeOf_frame (by simp [frameNames]) ?_, isMadeOf_rows rs _⟩
      exact isMadeOf_append.mpr ⟨hmark, isMadeOf_cells r refs⟩

end

end Names

/-! ## How sections are written -/

section Writing

variable {refs : References} {setup read : Xml}

lemma allAsRead_append : ∀ xs ys : List Xml, allAsRead (xs ++ ys) = allAsRead xs ++ allAsRead ys
  | [], _ => rfl
  | x :: xs, ys => by
      rw [List.cons_append, allAsRead, allAsRead, allAsRead_append xs, List.append_assoc]

lemma allAsRead_plain (name : String) (xs : List Xml) :
    allAsRead [.plain name xs] = [.plain name (allAsRead xs)] := rfl

lemma addSetup_of_isMadeOf {names : List String} {xs : List Xml} (h : IsMadeOf names xs)
    (hn : "w:pPr" ∉ names) : addSetup setup xs = .plain "w:pPr" [setup] :: xs := by
  cases xs with
  | nil => rfl
  | cons x xs =>
      cases x with
      | element name attributes children =>
          have hname : name ∈ names := (isMadeOf_element.mp (isMadeOf_cons.mp h).1).1
          have hne : name ≠ "w:pPr" := fun e => hn (e ▸ hname)
          rw [addSetup, if_neg hne]
      | text s => rfl
      | empty name attributes => rfl

/-- The properties of a paragraph with a setup are those without it, and the setup behind them. -/
lemma allAsRead_properties (hread : [read] = allAsRead [setup]) (p : Paragraph)
    {inlines : List Xml} (hinlines : IsMadeOf inlineNames inlines) :
    allAsRead (p.properties (some setup) ++ inlines)
      = addSetup read (allAsRead (p.properties none ++ inlines)) := by
  obtain ⟨base, hbase⟩ : ∃ base : List Xml,
      base = optional (fun s => [.val "w:pStyle" s]) p.style ++ p.format.children := ⟨_, rfl⟩
  have hsome : p.properties (some setup) = [.plain "w:pPr" (base ++ [setup])] := by
    rw [Paragraph.properties, ← hbase]
    exact if_neg (by simp)
  have hnone : p.properties none = if base.isEmpty then [] else [.plain "w:pPr" base] := by
    rw [Paragraph.properties, ← hbase]
    simp
  rw [hsome, hnone, allAsRead_append, allAsRead_append, allAsRead_plain, allAsRead_append, ← hread]
  split_ifs with h
  · rw [List.isEmpty_iff.mp h]
    exact (addSetup_of_isMadeOf (isMadeOf_allAsRead.mpr hinlines) (by decide)).symm
  · rfl

/-- A paragraph is written with a setup as it is without, but for its properties. -/
lemma exists_xmlWith_eq (hread : [read] = allAsRead [setup]) (p : Paragraph) (refs : References) :
    ∃ children, allAsRead [(p.xml.run refs).1] = [.plain "w:p" children] ∧
      allAsRead [((p.xmlWith (some setup)).run refs).1]
        = [.plain "w:p" (addSetup read children)] ∧
      ((p.xmlWith (some setup)).run refs).2 = (p.xml.run refs).2 := by
  have hrun (setup : Option Xml) : ((p.xmlWith setup).run refs).1
      = .plain "w:p" (p.properties setup ++ ((p.inlines.mapM Inline.xml).run refs).1.flatten) := rfl
  refine ⟨_, by rw [Paragraph.xml, hrun, allAsRead_plain], ?_, rfl⟩
  rw [hrun, allAsRead_plain, allAsRead_properties hread p (isMadeOf_inlines p.inlines refs)]

lemma run_blocksXml_concat : ∀ (front : List Block) (b : Block) (refs : References),
    (blocksXml (front ++ [b])).run refs =
      (((blocksXml front).run refs).1 ++ [(b.xml.run ((blocksXml front).run refs).2).1],
        (b.xml.run ((blocksXml front).run refs).2).2)
  | [], b, refs => by
      rw [List.nil_append, run_blocksXml_cons, blocksXml]
      rfl
  | c :: front, b, refs => by
      rw [List.cons_append, run_blocksXml_cons, run_blocksXml_cons, run_blocksXml_concat front,
        List.append_assoc]

lemma run_closedSectionXml_concat (front : List Block) (p : Paragraph) (setup : Xml)
    (refs : References) :
    (closedSectionXml (front ++ [.paragraph p]) setup).run refs =
      (((blocksXml front).run refs).1 ++
          [((p.xmlWith (some setup)).run ((blocksXml front).run refs).2).1],
        ((p.xmlWith (some setup)).run ((blocksXml front).run refs).2).2) := by
  rw [closedSectionXml, List.getLast?_concat, List.dropLast_concat]
  rfl

lemma run_closedSectionXml_of_not {bs : List Block} (h : bs.getLast?.any Block.isParagraph = false)
    (setup : Xml) (refs : References) :
    (closedSectionXml bs setup).run refs =
      (((blocksXml bs).run refs).1 ++ [.plain "w:p" [.plain "w:pPr" [setup]]],
        ((blocksXml bs).run refs).2) := by
  unfold closedSectionXml
  split
  case h_1 p hlast =>
    rw [hlast] at h
    exact absurd h (by simp [Block.isParagraph])
  case h_2 => rfl

/-- A section that is not the last is written as its blocks are, with the setup in it; it refers to
nothing more than these. -/
lemma isClosed_closedSection (hread : [read] = allAsRead [setup]) (bs : List Block)
    (refs : References) :
    IsClosed read bs (allAsRead ((blocksXml bs).run refs).1)
        (allAsRead ((closedSectionXml bs setup).run refs).1) ∧
      ((closedSectionXml bs setup).run refs).2 = ((blocksXml bs).run refs).2 := by
  cases hlast : bs.getLast?.any Block.isParagraph with
  | false =>
      rw [run_closedSectionXml_of_not hlast, allAsRead_append, allAsRead_plain, allAsRead_plain,
        ← hread]
      exact ⟨.added hlast, rfl⟩
  | true =>
      obtain ⟨front, p, rfl⟩ : ∃ front p, bs = front ++ [.paragraph p] := by
        obtain rfl | ⟨front, b, rfl⟩ := bs.eq_nil_or_concat'
        · exact absurd hlast (by simp)
        · rw [List.getLast?_concat, Option.any_some] at hlast
          cases b with
          | paragraph p => exact ⟨front, p, rfl⟩
          | _ => exact absurd hlast (by simp [Block.isParagraph])
      obtain ⟨children, hown, hclosed, hrefs⟩ :=
        exists_xmlWith_eq hread p ((blocksXml front).run refs).2
      rw [run_closedSectionXml_concat, run_blocksXml_concat, Block.xml, allAsRead_append,
        allAsRead_append, hown, hclosed]
      exact ⟨.paragraph, hrefs⟩

end Writing

/-! ## Cutting behind setups -/

section Cutting

variable {x setup : Xml} {blocks : List Block} {sections : List Section}
  {own group content setups : List Xml} {owns groups inside : List (List Xml)}

/-- A setup, by what stands in it; that is no other setup. -/
structure IsSetup (content : List Xml) (setup : Xml) : Prop where
  eq : setup = .plain "w:sectPr" content
  inner : contentsOf "w:sectPr" content = []

/-- Elements of which the last is or holds a setup, and no other does. -/
structure EndsWith (content : List Xml) (group : List Xml) : Prop where
  contents : contentsOf "w:sectPr" group = [content]
  exists_concat : ∃ front x, group = front ++ [x] ∧ (∀ y ∈ front, holdsSetup y = false) ∧
    holdsSetup x = true

lemma IsSetup.contents (h : IsSetup content setup) :
    contentsOf "w:sectPr" [setup] = [content] := by
  rw [h.eq, Xml.plain, contentsOf_element, if_pos rfl, h.inner, List.append_nil]

lemma contentsOf_plain {name : String} {xs : List Xml} (h : name ≠ "w:sectPr") :
    contentsOf "w:sectPr" [.plain name xs] = contentsOf "w:sectPr" xs := by
  rw [Xml.plain, contentsOf_element, if_neg h, List.nil_append]

lemma holdsSetup_of_contents (h : contentsOf "w:sectPr" [x] = [content]) :
    holdsSetup x = true := by
  by_contra hnot
  have hnames : "w:sectPr" ∉ x.tags.map Tag.name := by
    rw [holdsSetup, List.any_eq_true, not_exists] at hnot
    intro hmem
    obtain ⟨t, ht, hname⟩ := List.mem_map.mp hmem
    exact hnot t ⟨ht, decide_eq_true hname⟩
  have hmade : IsMadeOf (x.tags.map Tag.name) [x] := fun t ht =>
    List.mem_map_of_mem (by simpa [tagsOf] using ht)
  rw [contentsOf_of_isMadeOf hnames [x] hmade] at h
  exact absurd h (by simp)

lemma endsWith_concat (hown : IsMadeOf blockNames own)
    (hx : contentsOf "w:sectPr" [x] = [content]) : EndsWith content (own ++ [x]) := by
  refine ⟨?_, own, x, rfl, holdsSetup_of_isMadeOf hown (by decide), holdsSetup_of_contents hx⟩
  rw [contentsOf_append, contentsOf_of_isMadeOf (by decide) own hown, hx, List.nil_append]

/-- A setup among the properties of a paragraph is the only one in it. -/
lemma contentsOf_addSetup {children : List Xml} (h : IsSetup content setup)
    (hchildren : IsMadeOf blockNames children) :
    contentsOf "w:sectPr" (addSetup setup children) = [content] := by
  have hnone {xs : List Xml} (hxs : IsMadeOf blockNames xs) : contentsOf "w:sectPr" xs = [] :=
    contentsOf_of_isMadeOf (by decide) xs hxs
  have hadded : contentsOf "w:sectPr" (.plain "w:pPr" [setup] :: children) = [content] := by
    rw [← List.singleton_append, contentsOf_append, contentsOf_plain (by decide), h.contents,
      hnone hchildren]
    rfl
  cases children with
  | nil => exact hadded
  | cons first inlines =>
      cases first with
      | text s => exact hadded
      | empty name attributes => exact hadded
      | element name attributes properties =>
          rw [addSetup]
          split_ifs with hname
          · obtain ⟨hfirst, hinlines⟩ := isMadeOf_cons.mp hchildren
            rw [← List.singleton_append, contentsOf_append, contentsOf_element,
              if_neg (by rw [hname]; decide), contentsOf_append, h.contents, hnone hinlines,
              hnone (isMadeOf_element.mp hfirst).2]
            rfl
          · exact hadded

lemma IsClosed.endsWith (hclosed : IsClosed setup blocks own group) (h : IsSetup content setup)
    (hown : IsMadeOf blockNames own) : EndsWith content group := by
  cases hclosed with
  | paragraph =>
      obtain ⟨hbefore, hparagraph⟩ := isMadeOf_append.mp hown
      refine endsWith_concat hbefore ?_
      rw [contentsOf_plain (by decide)]
      exact contentsOf_addSetup h (isMadeOf_plain.mp hparagraph).2
  | added =>
      refine endsWith_concat hown ?_
      rw [contentsOf_plain (by decide), contentsOf_plain (by decide), h.contents]

/-- The elements of each section end with the one that holds its setup. -/
lemma AreDelimited.endWith (h : AreDelimited sections owns setups groups)
    (howns : ∀ own ∈ owns, IsMadeOf blockNames own)
    (hsetups : List.Forall₂ IsSetup inside setups) : List.Forall₂ EndsWith inside groups := by
  induction h generalizing inside with
  | last =>
      rw [List.forall₂_cons_right_iff] at hsetups
      obtain ⟨content, _, hsetup, hnil, rfl⟩ := hsetups
      rw [List.forall₂_nil_right_iff] at hnil
      obtain rfl := hnil
      have hown := howns _ (List.mem_singleton_self _)
      exact .cons (endsWith_concat hown hsetup.contents) .nil
  | closed hclosed _ ih =>
      rw [List.forall₂_cons_right_iff] at hsetups
      obtain ⟨content, _, hsetup, hmore, rfl⟩ := hsetups
      have hown := howns _ List.mem_cons_self
      exact .cons (hclosed.endsWith hsetup hown)
        (ih (fun own hmem => howns own (List.mem_cons_of_mem _ hmem)) hmore)

/-- The setup of the last section stands behind everything else. -/
lemma AreDelimited.getLast?_flatten (h : AreDelimited sections owns setups groups) :
    groups.flatten.getLast? = setups.getLast? ∧ setups ≠ [] := by
  induction h with
  | last => simp
  | @closed _ _ _ _ setup _ _ setups _ _ ih =>
      obtain ⟨hlast, hne⟩ := ih
      obtain ⟨last, hsome⟩ := Option.isSome_iff_exists.mp (List.getLast?_isSome.mpr hne)
      rw [List.flatten_cons, List.getLast?_append, hlast, List.getLast?_cons, hsome]
      simp

lemma contentsOf_flatten (h : List.Forall₂ EndsWith inside groups) :
    contentsOf "w:sectPr" groups.flatten = inside := by
  induction h with
  | nil => rfl
  | cons hgroup _ ih =>
      rw [List.flatten_cons, contentsOf_append, hgroup.contents, ih, List.singleton_append]

/-- Cutting behind the elements that hold setups takes the sections apart again. -/
theorem cutBehindSetups_flatten (h : List.Forall₂ EndsWith inside groups) :
    cutBehindSetups groups.flatten = groups := by
  induction h with
  | nil => rfl
  | @cons _ _ _ groups hgroup _ ih =>
      obtain ⟨front, x, rfl, hfront, hx⟩ := hgroup.exists_concat
      have hplain : front.IsChain fun y _ => !holdsSetup y :=
        (List.pairwise_of_forall_mem_list fun y hy _ _ => by simp [hfront y hy]).isChain
      have hchain : (front ++ [x]).IsChain fun y _ => !holdsSetup y :=
        List.isChain_append.mpr ⟨hplain, List.isChain_singleton x,
          fun y hy _ _ => by simp [hfront y (List.mem_of_mem_getLast? hy)]⟩
      have hbehind : ∀ y ∈ (front ++ [x]).getLast?, ∀ z ∈ groups.flatten.head?,
          (!holdsSetup y) = false := by
        simp [hx]
      rw [List.flatten_cons, cutBehindSetups, List.splitBy_append hbehind,
        List.splitBy_of_isChain (by simp) hchain, ← cutBehindSetups, ih]
      rfl

end Cutting

/-! ## The sections of a document -/

section Sections

variable {refs : References}

/-- The setup of a section as it is read. -/
lemma exists_isSetup (setup : PageSetup) (id : String) :
    ∃ content read, [read] = allAsRead [setup.xml id] ∧ IsSetup content read := by
  refine ⟨_, _, rfl, rfl, ?_⟩
  cases setup.pageStart <;> rfl

lemma valuesIn_setup (setup : PageSetup) (id : String) :
    valuesIn "w:footerReference" "r:id" [setup.xml id] = [id] ∧
      valuesIn "w:pgNumType" "w:start" [setup.xml id]
        = (setup.pageStart.map fun n => toString n.toNat).toList := by
  unfold PageSetup.xml
  cases setup.pageStart <;> exact ⟨rfl, rfl⟩

lemma isMadeOf_ownXml : ∀ (number : Nat) (refs : References) (sections : List Section),
    ∀ own ∈ ownXml number refs sections, IsMadeOf blockNames own
  | _, _, [], own, h => absurd h List.not_mem_nil
  | number, refs, s :: rest, own, h => by
      rw [ownXml, List.mem_cons] at h
      rcases h with rfl | h
      · exact isMadeOf_allAsRead.mpr (isMadeOf_blocks s.blocks _)
      · exact isMadeOf_ownXml (number + 1) _ rest own h

/-- The references that sections make only add to those there are. -/
lemma prefix_sections (number : Nat) (sections : List Section) (refs : References) :
    refs.relations <+: ((sectionsXml number sections).run refs).2.relations :=
  have hwrites := writes_sections (S := fun _ => True) (F := fun _ => True) number sections refs
    (fun _ _ => trivial) fun _ _ _ => trivial
  hwrites.prefix

lemma prefix_blocks (bs : List Block) (refs : References) :
    refs.relations <+: ((blocksXml bs).run refs).2.relations :=
  have hwrites := writes_blocks (S := fun _ => True) (F := fun _ => True) bs refs fun _ _ => trivial
  hwrites.prefix

/-- A setup is that of a section as it is read, and its footer is among some references. -/
def IsReadFrom (refs : References) (s : Section × Nat) (setup : Xml) : Prop :=
  ∃ id, [setup] = allAsRead [s.1.setup.xml id] ∧ refs.Leads id .footer (footerName s.2)

/-- Sections are written as their blocks are, each with its setup at its end. -/
lemma exists_areDelimited : ∀ (number : Nat) (s : Section) (rest : List Section)
    (refs : References), ∃ setups inside groups,
      allAsRead ((sectionsXml number (s :: rest)).run refs).1 = groups.flatten ∧
      AreDelimited (s :: rest) (ownXml number refs (s :: rest)) setups groups ∧
      List.Forall₂ IsSetup inside setups ∧
      List.Forall₂ (IsReadFrom ((sectionsXml number (s :: rest)).run refs).2)
        ((s :: rest).zipIdx number) setups
  | number, s, rest, refs => by
      let footer := (References.add .footer (footerName number)).run refs
      have hleads : footer.2.Leads footer.1 .footer (footerName number) := leads_add _ _ refs
      obtain ⟨content, setup, hread, hsetup⟩ := exists_isSetup s.setup footer.1
      cases rest with
      | nil =>
          have hrun : (sectionsXml number [s]).run refs =
              (((blocksXml s.blocks).run footer.2).1 ++ [s.setup.xml footer.1],
                ((blocksXml s.blocks).run footer.2).2) := rfl
          rw [hrun]
          refine ⟨[setup], [content], [_], ?_, .last, .cons hsetup .nil, .cons ?_ .nil⟩
          · rw [allAsRead_append, ← hread, List.flatten_singleton]
          · exact ⟨footer.1, hread, hleads.mono (prefix_blocks s.blocks footer.2)⟩
      | cons next rest =>
          obtain ⟨hclosed, hrefs⟩ := isClosed_closedSection hread s.blocks footer.2
          let closed := (closedSectionXml s.blocks (s.setup.xml footer.1)).run footer.2
          have hrun : (sectionsXml number (s :: next :: rest)).run refs =
              (closed.1 ++ ((sectionsXml (number + 1) (next :: rest)).run closed.2).1,
                ((sectionsXml (number + 1) (next :: rest)).run closed.2).2) := rfl
          rw [show closed.2 = ((blocksXml s.blocks).run footer.2).2 from hrefs] at hrun
          obtain ⟨setups, inside, groups, hgroups, hmore, hsetups, hreads⟩ :=
            exists_areDelimited (number + 1) next rest ((blocksXml s.blocks).run footer.2).2
          rw [hrun]
          refine ⟨setup :: setups, content :: inside, _ :: groups, ?_, .closed hclosed hmore,
            .cons hsetup hsetups, .cons ?_ hreads⟩
          · rw [allAsRead_append, hgroups, List.flatten_cons]
          · exact ⟨footer.1, hread, hleads.mono ((prefix_blocks s.blocks footer.2).trans
              (prefix_sections (number + 1) (next :: rest) _))⟩

lemma isSetupOf_of_isReadFrom {entries : List Entry} {rels setup : Xml} {s : Section × Nat}
    (h : IsReadFrom refs s setup) (hrels : [rels] = allAsRead [refs.xml])
    (hfooter : ⟨"word/" ++ footerName s.2, .text (Xml.part (footerXml s.1))⟩ ∈ entries) :
    IsSetupOf entries rels s setup := by
  obtain ⟨id, hread, hleads⟩ := h
  obtain ⟨hreference, hstart⟩ := valuesIn_setup s.1.setup id
  constructor
  case footer =>
    refine ⟨id, hread, ?_, relatesIn_of_leads hrels hleads, hfooter⟩
    rw [hread, valuesIn_allAsRead, hreference]
  case pageStart => rw [hread, valuesIn_allAsRead, hstart]

/-- The sections of every document whose runs are safe can be told from the text in its package. -/
theorem package_isDivided (d : Document) (hsafe : ∀ i ∈ d.inlines, i.IsSafe) :
    ∃ entries attributes children rels setups groups, d.package = .ok entries ∧
      IsPart entries "word/document.xml"
        (.element "w:document" attributes [.plain "w:body" children]) ∧
      IsPart entries "word/_rels/document.xml.rels" rels ∧
      IsDivided d entries rels children setups groups := by
  obtain ⟨xs, hxs⟩ : ∃ xs, xs = ((sectionsXml 1 d.sections).run .initial).1 := ⟨_, rfl⟩
  obtain ⟨refs, hrefs⟩ : ∃ refs, refs = ((sectionsXml 1 d.sections).run .initial).2 := ⟨_, rfl⟩
  have hrun : (bodyXml d).run .initial
      = (.element "w:document" namespaces [.plain "w:body" xs], refs) := by
    rw [hxs, hrefs]
    rfl
  obtain ⟨p, hpackage, -⟩ := exists_package d hrun
  -- The text and the relations are read as they were printed.
  have hwrites : Writes (fun _ => True) (fun _ => True) d.inlines .initial xs refs := by
    rw [hxs, hrefs]
    exact writes_sections 1 d.sections .initial (fun _ _ => trivial) fun _ _ _ => trivial
  have hsound : AreSound bodyRule [.element "w:document" namespaces [.plain "w:body" xs]] :=
    areSound_element.mpr ⟨by simp [namespaces]; decide,
      areSound_plain.mpr ⟨by decide, areSound_of_writes hwrites hsafe⟩⟩
  obtain ⟨body, hread, htree⟩ := exists_readPart? hsound fun _ _ => areNames_of_bodyRule
  obtain ⟨rels, hreadRels, hrels⟩ := exists_readPart? (areSound_relations refs) fun _ _ => id
  obtain rfl : body = .element "w:document" (namespaces.map Attribute.asRead)
      [.plain "w:body" (allAsRead xs)] := (List.cons_eq_cons.mp htree).1
  obtain ⟨first, rest, hsections⟩ : ∃ first rest, d.sections = first :: rest :=
    List.exists_cons_of_ne_nil (by simp [Document.sections])
  obtain ⟨setups, inside, groups, hgroups, hdelimited, hsetups, hreads⟩ :=
    exists_areDelimited 1 first rest .initial
  rw [← hsections, ← hxs] at hgroups
  rw [← hsections] at hdelimited
  rw [← hsections, ← hrefs] at hreads
  have hends := hdelimited.endWith (isMadeOf_ownXml 1 .initial d.sections) hsetups
  refine ⟨_, namespaces.map Attribute.asRead, allAsRead xs, rels, setups, groups, hpackage, ?_, ?_,
    ?_⟩
  · exact ⟨_, by simp [Document.entries], hread⟩
  · exact ⟨Xml.part refs.xml, by simp [Document.entries], hreadRels⟩
  constructor
  case own =>
    have hfooters : ∀ s ∈ d.sections.zipIdx 1, (⟨"word/" ++ footerName s.2,
        .text (Xml.part (footerXml s.1))⟩ : Entry) ∈ footerEntries 1 d.sections :=
      fun s hs => List.mem_map_of_mem hs
    refine ((List.forall₂_and_left _ _).mpr ⟨hfooters, hreads⟩).imp fun s setup h => ?_
    exact isSetupOf_of_isReadFrom h.2 hrels (by simp [Document.entries, h.1])
  case all =>
    rw [hgroups, contentsOf_flatten hends, ← List.forall₂_eq_eq_eq, List.forall₂_map_left_iff]
    exact hsetups.imp fun _ _ h => h.eq.symm
  case last =>
    rw [hgroups]
    exact hdelimited.getLast?_flatten.1
  case cut => rw [hgroups, cutBehindSetups_flatten hends]
  case delimited => exact hdelimited

end Sections

/-- Sections that end with a paragraph, with a table, with nothing and with the table of contents,
before one that begins at page three. -/
def sectionedDocument : Document :=
  let run : Run := { content := .text "a" }
  let text : Block := .paragraph { inlines := [.run run], style := some "Code" }
  { before :=
      [{ blocks := [text, .contents {}] }, {}, { blocks := [.table 9354 1 [[[text]]]] },
        { blocks := [text, text] }]
    current :=
      { blocks := [text]
        setup := { PageSetup.report with pageStart := some 3 }
        footer := [{ inlines := [.run .pageNumber] }] } }

/-- The sections of this document can be told from the text. -/
theorem package_isDivided_sectionedDocument :
    sectionedDocument.sections.length = 5 ∧
      ∃ entries attributes children rels setups groups, sectionedDocument.package = .ok entries ∧
        IsPart entries "word/document.xml"
          (.element "w:document" attributes [.plain "w:body" children]) ∧
        IsPart entries "word/_rels/document.xml.rels" rels ∧
        IsDivided sectionedDocument entries rels children setups groups := by
  refine ⟨rfl, package_isDivided sectionedDocument fun i hi r hr => ?_⟩
  have hruns : ∀ r ∈ sectionedDocument.inlines.flatMap Inline.runs, r.format = {} := by decide
  have hformat := hruns r (List.mem_flatMap.mpr ⟨i, hi, hr⟩)
  constructor
  · intro color hcolor
    rw [hformat] at hcolor
    exact nomatch hcolor
  · intro language hlanguage
    rw [hformat] at hlanguage
    exact nomatch hlanguage

end ReportPress.Word
