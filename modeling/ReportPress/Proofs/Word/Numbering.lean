import ReportPress.Proofs.Word.SectionEnds

/-!
# Numbers in the parts of a document

The text of a document says which number and level a paragraph has, and a part of its own says what
the numbers are.  What is said here of the two parts is said of their elements.

* `numbersOf` — the numbers and levels of paragraphs, in order.
* `numberChildren` — what stands in the element that names them.
* `SeesNumbers` — a look at elements that sees these names and nothing else.
* `HasLevel` — the other part has one instance and one definition with a number, and one level in
  the definition.
* `NamesNumbers`, `DefinesNumbers` — the two parts, for some numbers and levels.

**The text.**  `look_body` — such a look sees the numbers of the paragraphs of a document, wherever
these stand: the recursion is the one over blocks, cells, rows and sections.

**The definitions.**  `hasLevel_of_getElem?` — a definition that is there has its levels.

**The package.**  `exists_numberedParts` finds the two parts, of a document whose paragraphs have no
numbers that it does not define.
-/

namespace ReportPress.Word

/-! ## Numbers in the text -/

/-- The elements that name the number and the level of a paragraph. -/
def numberingNames : List String := ["w:numPr", "w:ilvl", "w:numId"]

/-- What stands in the first of them, by the number and the level. -/
def numberChildren (n : Nat × Nat) : List Xml :=
  [.val "w:ilvl" (toString n.2), .val "w:numId" (toString n.1)]

/-- The numbers and levels of paragraphs, in order. -/
def numbersOf (ps : List Paragraph) : List (Nat × Nat) := ps.filterMap fun p => p.format.numbering

lemma numbersOf_append (before ps : List Paragraph) :
    numbersOf (before ++ ps) = numbersOf before ++ numbersOf ps := List.filterMap_append

variable {V : Type} {look : List Xml → List V} {seen : Nat × Nat → List V}

/-- A look at elements that sees something of numbers and levels where they are named, and nothing
anywhere else. -/
structure SeesNumbers (look : List Xml → List V) (seen : Nat × Nat → List V) : Prop where
  append : ∀ xs ys, look (xs ++ ys) = look xs ++ look ys
  element : ∀ {name : String} (attributes : List Attribute) (xs : List Xml),
    name ∉ numberingNames → look [.element name attributes xs] = look xs
  nothing : ∀ (names : List String) {xs : List Xml},
    (∀ name ∈ numberingNames, name ∉ names) → IsMadeOf names xs → look xs = []
  number : ∀ n, look [.plain "w:numPr" (numberChildren n)] = seen n

lemma seesNumbers_contents :
    SeesNumbers (contentsOf "w:numPr") fun n => [numberChildren n] where
  append := contentsOf_append
  element {name} attributes xs h := by
    have hname : name ≠ "w:numPr" := fun e => h (by simp [e, numberingNames])
    rw [contentsOf_element, if_neg hname, List.nil_append]
  nothing _ _ hnames h := contentsOf_of_isMadeOf (hnames _ (by simp [numberingNames])) _ h
  number n := rfl

lemma seesNumbers_values : SeesNumbers (valuesIn "w:numId" "w:val") fun n => [toString n.1] where
  append _ _ := valuesIn_append
  element attributes xs h := valuesIn_element fun e => h (by simp [e, numberingNames])
  nothing _ _ hnames h := valuesIn_of_isMadeOf h (hnames _ (by simp [numberingNames]))
  number n := rfl

namespace SeesNumbers

variable (h : SeesNumbers look seen)

include h

lemma nil : look [] = [] := h.nothing [] (by simp) isMadeOf_nil

lemma plain {name : String} (hname : name ∉ numberingNames) (xs : List Xml) :
    look [.plain name xs] = look xs := h.element [] xs hname

/-- In a format there is nothing to be seen but the number. -/
lemma look_format (f : ParagraphFormat) :
    look f.children = f.numbering.toList.flatMap seen := by
  have hkeep : look (whenSet f.keepNext (.tag "w:keepNext")) = [] :=
    h.nothing ["w:keepNext"] (by decide) (isMadeOf_whenSet (by simp) _)
  have hspacing : look (spacingXml f.spaceBefore f.spaceAfter f.line) = [] := by
    refine h.nothing ["w:spacing"] (by decide) ?_
    unfold spacingXml
    extract_lets attributes
    split_ifs <;> simp
  have hindent : look (indentXml f.indentLeft f.indentFirstLine) = [] := by
    refine h.nothing ["w:ind"] (by decide) ?_
    unfold indentXml
    extract_lets attributes
    split_ifs <;> simp
  have halignment : look (optional (fun a => [.val "w:jc" a.name]) f.alignment) = [] :=
    h.nothing ["w:jc"] (by decide) (isMadeOf_optional (by simp) _)
  simp only [ParagraphFormat.children, h.append, hkeep, hspacing, hindent, halignment,
    List.nil_append, List.append_nil]
  cases f.numbering with
  | none => exact h.nil
  | some n => simpa [optional, numberChildren] using h.number n

/-- The number of a paragraph stands in its properties, also where these hold the setup of pages. -/
lemma look_paragraph (p : Paragraph) (setup : Option Xml)
    (hsetup : look setup.toList = []) (refs : References) :
    look [((p.xmlWith setup).run refs).1] = (numbersOf [p]).flatMap seen := by
  have hrun : ((p.xmlWith setup).run refs).1
      = .plain "w:p" (p.properties setup ++ ((p.inlines.mapM Inline.xml).run refs).1.flatten) := rfl
  have hinlines : look ((p.inlines.mapM Inline.xml).run refs).1.flatten = [] :=
    h.nothing _ (by decide) (isMadeOf_inlines p.inlines refs)
  have hstyle : look (optional (fun s => [.val "w:pStyle" s]) p.style) = [] :=
    h.nothing ["w:pStyle"] (by decide) (isMadeOf_optional (by simp) _)
  have hproperties : look (p.properties setup) = p.format.numbering.toList.flatMap seen := by
    have hchildren : look (optional (fun s => [.val "w:pStyle" s]) p.style ++ p.format.children ++
        setup.toList) = p.format.numbering.toList.flatMap seen := by
      rw [h.append, h.append, hstyle, h.look_format, hsetup, List.nil_append, List.append_nil]
    unfold Paragraph.properties
    extract_lets children
    split_ifs with hempty
    · rw [h.nil, ← hchildren]
      exact (congrArg look (List.isEmpty_iff.mp hempty)).trans h.nil |>.symm
    · rw [h.plain (by decide)]
      exact hchildren
  rw [hrun, h.plain (by decide), h.append, hinlines, hproperties, List.append_nil]
  cases hn : p.format.numbering <;> simp [numbersOf, hn]

mutual

lemma look_block : ∀ (b : Block) (refs : References),
    look [(b.xml.run refs).1] = (numbersOf b.paragraphs).flatMap seen
  | .paragraph p, refs => by
      rw [Block.xml, Block.paragraphs]
      exact h.look_paragraph p none h.nil refs
  | .table width headerRows rows, refs => by
      have hproperties : look [tableProperties width] = [] :=
        h.nothing _ (by decide) (isMadeOf_tableProperties width)
      have hgrid : look [gridXml (columnCount rows) (columnWidth width rows)] = [] :=
        h.nothing _ (by decide) (isMadeOf_grid _ _)
      rw [run_xml_table, Block.paragraphs, h.plain (by decide), h.append, h.append, hproperties,
        hgrid, look_rows rows refs, List.nil_append, List.nil_append]
  | .contents field, refs => by
      rw [Block.xml, Block.paragraphs]
      exact h.nothing _ (by decide) (isMadeOf_contents field)

/-- The numbers in the elements of blocks are those of their paragraphs. -/
lemma look_blocks : ∀ (bs : List Block) (refs : References),
    look ((blocksXml bs).run refs).1 = (numbersOf (blocksParagraphs bs)).flatMap seen
  | [], refs => by
      rw [blocksXml, blocksParagraphs]
      exact h.nil
  | b :: bs, refs => by
      rw [run_blocksXml_cons]
      show look ([_] ++ _) = _
      rw [h.append, look_block b refs, look_blocks bs, blocksParagraphs, numbersOf_append,
        List.flatMap_append]

lemma look_cells {width : Nat} : ∀ (cs : List (List Block)) (refs : References),
    look ((cellsXml width cs).run refs).1 = (numbersOf (cellsParagraphs cs)).flatMap seen
  | [], refs => by
      rw [cellsXml, cellsParagraphs]
      exact h.nil
  | c :: cs, refs => by
      have hwidth : look [cellWidthXml width] = [] :=
        h.nothing _ (by decide) (isMadeOf_cellWidth width)
      have hend : look (cellEnd c) = [] := by
        refine h.nothing ["w:p"] (by decide) ?_
        unfold cellEnd
        split_ifs <;> simp
      rw [run_cellsXml_cons]
      show look ([_] ++ _) = _
      rw [h.append, h.plain (by decide), h.append, h.append, hwidth, hend, look_blocks c refs,
        look_cells cs, cellsParagraphs, numbersOf_append, List.flatMap_append, List.nil_append,
        List.append_nil]

lemma look_rows {width : Nat} : ∀ {headers : Nat} (rs : List (List (List Block)))
    (refs : References),
      look ((rowsXml width headers rs).run refs).1 = (numbersOf (rowsParagraphs rs)).flatMap seen
  | headers, [], refs => by
      rw [rowsXml, rowsParagraphs]
      exact h.nil
  | headers, r :: rs, refs => by
      have hmark : look (whenSet (0 < headers) headerMark) = [] :=
        h.nothing _ (by decide) (isMadeOf_whenSet isMadeOf_headerMark _)
      rw [run_rowsXml_cons]
      show look ([_] ++ _) = _
      rw [h.append, h.plain (by decide), h.append, hmark, look_cells r refs, look_rows rs,
        rowsParagraphs, numbersOf_append, List.flatMap_append, List.nil_append]

end

/-- A section whose last paragraph holds the setup of its pages shows the same numbers. -/
lemma look_closedSection (bs : List Block) {setup : Xml} (hsetup : look [setup] = [])
    (refs : References) :
    look ((closedSectionXml bs setup).run refs).1 = (numbersOf (blocksParagraphs bs)).flatMap seen
    := by
  unfold closedSectionXml
  split
  case h_1 last hlast =>
    have hbs := List.dropLast_append_getLast? _ hlast
    let before := (blocksXml bs.dropLast).run refs
    show look (before.1 ++ [((last.xmlWith (some setup)).run before.2).1]) = _
    rw [h.append, h.look_blocks, h.look_paragraph last (some setup) hsetup,
      ← List.flatMap_append, ← numbersOf_append]
    conv_rhs => rw [← hbs, blocksParagraphs_append, blocksParagraphs_singleton, Block.paragraphs]
  case h_2 =>
    show look (((blocksXml bs).run refs).1 ++ [.plain "w:p" [.plain "w:pPr" [setup]]]) = _
    rw [h.append, h.look_blocks, h.plain (by decide), h.plain (by decide), hsetup, List.append_nil]

lemma look_sections : ∀ (number : Nat) (sections : List Section) (refs : References),
    look ((sectionsXml number sections).run refs).1
      = (numbersOf (sections.flatMap fun s => blocksParagraphs s.blocks)).flatMap seen
  | number, [], refs => h.nil
  | number, s :: rest, refs => by
      let footer := (References.add .footer (footerName number)).run refs
      have hsetup : look [s.setup.xml footer.1] = [] :=
        h.nothing _ (by decide) (isMadeOf_setup s.setup footer.1)
      rw [List.flatMap_cons, numbersOf_append, List.flatMap_append]
      cases rest with
      | nil =>
          show look (((blocksXml s.blocks).run footer.2).1 ++ [s.setup.xml footer.1]) = _
          rw [h.append, h.look_blocks, hsetup]
          rfl
      | cons next rest =>
          let closed := (closedSectionXml s.blocks (s.setup.xml footer.1)).run footer.2
          show look (closed.1 ++ ((sectionsXml (number + 1) (next :: rest)).run closed.2).1) = _
          rw [h.append, h.look_closedSection s.blocks hsetup,
            look_sections (number + 1) (next :: rest)]

/-- The numbers in the text of a document are those of its paragraphs. -/
theorem look_body (d : Document) (refs : References) :
    look [((bodyXml d).run refs).1] = (numbersOf d.paragraphs).flatMap seen := by
  have hrun : ((bodyXml d).run refs).1 = .element "w:document" namespaces
      [.plain "w:body" ((sectionsXml 1 d.sections).run refs).1] := rfl
  rw [hrun, h.element _ _ (by decide), h.plain (by decide), h.look_sections]
  rfl

end SeesNumbers

/-- The elements that name numbers in the text of a document. -/
theorem numbers_body (d : Document) (refs : References) :
    contentsOf "w:numPr" [((bodyXml d).run refs).1]
        = (numbersOf d.paragraphs).map numberChildren ∧
      valuesIn "w:numId" "w:val" [((bodyXml d).run refs).1]
        = (numbersOf d.paragraphs).map fun n => toString n.1 := by
  rw [seesNumbers_contents.look_body, seesNumbers_values.look_body, ← List.map_eq_flatMap,
    ← List.map_eq_flatMap]
  exact ⟨rfl, rfl⟩

/-! ## Definitions and instances -/

/-- Some elements have one instance and one definition with a number, the instance is that of the
definition, and this has one level with the given depth. -/
structure HasLevel (xs : List Xml) (n : Nat × Nat) : Prop where
  oneInstance : (valuesIn "w:num" "w:numId" xs).count (toString n.1) = 1
  oneDefinition : (valuesIn "w:abstractNum" "w:abstractNumId" xs).count (toString n.1) = 1
  leads : ∃ x ∈ xs, valuesIn "w:num" "w:numId" [x] = [toString n.1] ∧
    valuesIn "w:abstractNumId" "w:val" [x] = [toString n.1]
  oneLevel : ∃ x ∈ xs, valuesIn "w:abstractNum" "w:abstractNumId" [x] = [toString n.1] ∧
    (valuesIn "w:lvl" "w:ilvl" [x]).count (toString n.2) = 1

/-- The elements in a definition. -/
def levelNames : List String :=
  ["w:multiLevelType", "w:lvl", "w:start", "w:numFmt", "w:lvlText", "w:lvlJc", "w:pPr", "w:ind"]

/-- The elements of the definitions in order. -/
def definitionElements (definitions : List Definition) : List Xml :=
  definitions.mapIdx fun i d => definitionXml (i + 1) d

/-- The elements of their instances. -/
def instanceElements (definitions : List Definition) : List Xml :=
  (List.range definitions.length).map fun i => instanceXml (i + 1)

variable {definitions : List Definition} {d : Definition} {k depth : Nat}

lemma isMadeOf_of_forall {names : List String} {xs : List Xml}
    (h : ∀ x ∈ xs, IsMadeOf names [x]) : IsMadeOf names xs := by
  intro t ht
  obtain ⟨x, hx, ht⟩ := mem_tagsOf.mp ht
  exact h x hx t (mem_tagsOf.mpr ⟨x, List.mem_singleton_self x, ht⟩)

lemma isMadeOf_level (l : NumberLevel) : IsMadeOf levelNames [l.xml] := by
  simp [NumberLevel.xml, levelNames]

lemma isMadeOf_levels (d : Definition) : IsMadeOf levelNames
    (.val "w:multiLevelType" "hybridMultilevel" :: d.map NumberLevel.xml) := by
  refine isMadeOf_cons.mpr ⟨by simp [levelNames], isMadeOf_of_forall fun x hx => ?_⟩
  obtain ⟨l, -, rfl⟩ := List.mem_map.mp hx
  exact isMadeOf_level l

lemma isMadeOf_definitionElements (definitions : List Definition) :
    IsMadeOf ("w:abstractNum" :: levelNames) (definitionElements definitions) := by
  refine isMadeOf_of_forall fun x hx => ?_
  obtain ⟨i, hi, rfl⟩ := List.mem_mapIdx.mp hx
  refine isMadeOf_element.mpr ⟨List.mem_cons_self, ?_⟩
  exact (isMadeOf_levels definitions[i]).mono fun name hname => List.mem_cons_of_mem _ hname

lemma isMadeOf_instanceElements (definitions : List Definition) :
    IsMadeOf ["w:num", "w:abstractNumId"] (instanceElements definitions) := by
  refine isMadeOf_of_forall fun x hx => ?_
  obtain ⟨i, -, rfl⟩ := List.mem_map.mp hx
  simp [instanceXml]

/-- The number of a definition is the only one in it. -/
lemma valuesIn_definitionXml (number : Nat) (d : Definition) :
    valuesIn "w:abstractNum" "w:abstractNumId" [definitionXml number d] = [toString number] := by
  rw [definitionXml, valuesIn_element_self, valuesIn_of_isMadeOf (isMadeOf_levels d) (by decide)]
  rfl

/-- Its levels are those that it has. -/
lemma levels_definitionXml (number : Nat) (d : Definition) :
    valuesIn "w:lvl" "w:ilvl" [definitionXml number d] = d.map fun l => toString l.level := by
  have hlevel (l : NumberLevel) : valuesIn "w:lvl" "w:ilvl" [l.xml] = [toString l.level] := rfl
  have htype : valuesIn "w:lvl" "w:ilvl" [.val "w:multiLevelType" "hybridMultilevel"] = [] := rfl
  rw [definitionXml, valuesIn_element (by decide), valuesIn_cons, htype, List.nil_append,
    valuesIn_map hlevel]

/-- The numbers of definitions, or of instances: the numbers from one. -/
def numerals (count : Nat) : List String := (List.range count).map fun i => toString (i + 1)

lemma count_numerals {count : Nat} (h : k < count) :
    (numerals count).count (toString (k + 1)) = 1 := by
  refine List.count_eq_one_of_mem (List.Nodup.map (fun m n heq => ?_) List.nodup_range) ?_
  · exact Nat.succ_inj.mp (toString_inj.mp heq)
  · exact List.mem_map.mpr ⟨k, List.mem_range.mpr h, rfl⟩

lemma valuesIn_definitionElements (definitions : List Definition) :
    valuesIn "w:abstractNum" "w:abstractNumId" (definitionElements definitions)
      = numerals definitions.length := by
  have hone (d : Definition × Nat) : valuesIn "w:abstractNum" "w:abstractNumId"
      [definitionXml (d.2 + 1) d.1] = [toString (d.2 + 1)] := valuesIn_definitionXml _ _
  rw [definitionElements, List.mapIdx_eq_zipIdx_map, valuesIn_map hone, numerals,
    List.range_eq_range', ← List.zipIdx_map_snd 0 definitions, List.map_map]
  rfl

lemma valuesIn_instanceElements (definitions : List Definition) :
    valuesIn "w:num" "w:numId" (instanceElements definitions) = numerals definitions.length :=
  valuesIn_map (fun _ => rfl) _

/-- A definition that is there has each of its levels once, and so are its number and its
instance. -/
theorem hasLevel_of_getElem? (h : definitions[k]? = some d)
    (hlevels : (d.map NumberLevel.level).Nodup) (hdepth : depth ∈ d.map NumberLevel.level) :
    HasLevel (definitionElements definitions ++ instanceElements definitions) (k + 1, depth) := by
  obtain ⟨hk, hd⟩ := List.getElem?_eq_some_iff.mp h
  have hnumbers :
      valuesIn "w:num" "w:numId" (definitionElements definitions) = [] ∧
        valuesIn "w:abstractNum" "w:abstractNumId" (instanceElements definitions) = [] :=
    ⟨valuesIn_of_isMadeOf (isMadeOf_definitionElements definitions) (by decide),
      valuesIn_of_isMadeOf (isMadeOf_instanceElements definitions) (by decide)⟩
  constructor
  case oneInstance =>
    rw [valuesIn_append, hnumbers.1, valuesIn_instanceElements, List.nil_append]
    exact count_numerals hk
  case oneDefinition =>
    rw [valuesIn_append, hnumbers.2, valuesIn_definitionElements, List.append_nil]
    exact count_numerals hk
  case leads =>
    refine ⟨instanceXml (k + 1), List.mem_append_right _ ?_, rfl, rfl⟩
    exact List.mem_map.mpr ⟨k, List.mem_range.mpr hk, rfl⟩
  case oneLevel =>
    refine ⟨definitionXml (k + 1) d, List.mem_append_left _ ?_, valuesIn_definitionXml _ _, ?_⟩
    · exact List.mem_mapIdx.mpr ⟨k, hk, by rw [hd]⟩
    · have hnodup := hlevels.map fun m n => toString_inj.mp
      have hmem := List.mem_map_of_mem (f := fun n : Nat => toString n) hdepth
      rw [List.map_map] at hnodup hmem
      rw [levels_definitionXml]
      exact List.count_eq_one_of_mem hnodup hmem

/-! ## The parts as they are read -/

mutual

lemma contentsOf_asRead (name : String) : ∀ x : Xml,
    contentsOf name x.asRead = (x.contents name).map allAsRead
  | .text s => by
      have hmap (cs : List Char) :
          contentsOf name (cs.map fun c => .text (String.singleton c)) = [] := by
        induction cs with
        | nil => rfl
        | cons c cs ih => simpa [contentsOf, Xml.contents] using ih
      exact hmap s.toList
  | .element n attributes children => by
      rw [Xml.asRead, contentsOf_element, contentsOf_allAsRead name children, Xml.contents,
        List.map_append]
      split_ifs <;> rfl
  | .empty n attributes => by
      rw [Xml.asRead, contentsOf, contentsOf, Xml.contents, Xml.contents, List.append_nil]
      split_ifs <;> rfl

/-- What stands in elements is read as it was written. -/
lemma contentsOf_allAsRead (name : String) : ∀ xs : List Xml,
    contentsOf name (allAsRead xs) = (contentsOf name xs).map allAsRead
  | [] => rfl
  | x :: xs => by
      rw [allAsRead, contentsOf_append, contentsOf_asRead name x, contentsOf_allAsRead name xs,
        contentsOf, List.map_append]

end

lemma asRead_level (l : NumberLevel) : l.xml.asRead = [l.xml] := by
  unfold NumberLevel.xml firstLineAttribute
  split_ifs <;> rfl

lemma allAsRead_eq_self {xs : List Xml} (h : ∀ x ∈ xs, x.asRead = [x]) : allAsRead xs = xs := by
  induction xs with
  | nil => rfl
  | cons x xs ih =>
      rw [allAsRead, h x List.mem_cons_self, ih fun y hy => h y (List.mem_cons_of_mem x hy),
        List.singleton_append]

lemma asRead_definitionXml (number : Nat) (d : Definition) :
    (definitionXml number d).asRead = [definitionXml number d] := by
  have hlevels : allAsRead (d.map NumberLevel.xml) = d.map NumberLevel.xml := by
    refine allAsRead_eq_self fun x hx => ?_
    obtain ⟨l, -, rfl⟩ := List.mem_map.mp hx
    exact asRead_level l
  rw [definitionXml, Xml.asRead, allAsRead, hlevels]
  rfl

lemma areSound_numberingXml (definitions : List Definition) :
    AreSound areNames [numberingXml definitions] := by
  have hlevel (l : NumberLevel) : AreSound areNames [l.xml] := by
    unfold NumberLevel.xml firstLineAttribute
    split_ifs <;> simp <;> decide
  refine areSound_element.mpr ⟨by simp; decide, areSound_append.mpr ⟨?_, ?_⟩⟩
  · refine areSound_iff_forall.mpr fun x hx => ?_
    obtain ⟨i, hi, rfl⟩ := List.mem_mapIdx.mp hx
    refine areSound_element.mpr ⟨by simp; decide, areSound_cons.mpr ⟨by simp; decide, ?_⟩⟩
    refine areSound_iff_forall.mpr fun y hy => ?_
    obtain ⟨l, -, rfl⟩ := List.mem_map.mp hy
    exact hlevel l
  · refine areSound_iff_forall.mpr fun x hx => ?_
    obtain ⟨i, -, rfl⟩ := List.mem_map.mp hx
    simp [instanceXml]
    decide

/-- The definitions are read as they are. -/
lemma readPart?_numberingXml (definitions : List Definition) :
    readPart? (Xml.part (numberingXml definitions)) = some (numberingXml definitions) := by
  have hself : allAsRead (definitionElements definitions ++ instanceElements definitions)
      = definitionElements definitions ++ instanceElements definitions := by
    refine allAsRead_eq_self fun x hx => ?_
    rcases List.mem_append.mp hx with hx | hx
    · obtain ⟨i, hi, rfl⟩ := List.mem_mapIdx.mp hx
      exact asRead_definitionXml _ _
    · obtain ⟨i, -, rfl⟩ := List.mem_map.mp hx
      rfl
  obtain ⟨x, hread, htree⟩ := exists_readPart? (areSound_numberingXml definitions) fun _ _ => id
  have hx : [x] = [numberingXml definitions] := by
    rw [htree, allAsRead, numberingXml, Xml.asRead]
    exact congrArg (fun children => [Xml.element "w:numbering" _ children]) hself
  rw [numberingXml, hread, List.singleton_inj.mp hx, numberingXml]

/-- The text of a document names numbers and levels: these ones, in this order. -/
structure NamesNumbers (numbers : List (Nat × Nat)) (body : Xml) : Prop where
  paragraphs : contentsOf "w:numPr" [body] = numbers.map numberChildren
  all : valuesIn "w:numId" "w:val" [body] = numbers.map fun n => toString n.1

/-- Definitions and the instances behind them say what numbers and levels are. -/
structure DefinesNumbers (numbers : List (Nat × Nat)) (definitions instances : List Xml) :
    Prop where
  levels : ∀ n ∈ numbers, HasLevel (definitions ++ instances) n
  noInstance : ∀ t ∈ tagsOf definitions, t.name ≠ "w:num"
  noDefinition : ∀ t ∈ tagsOf instances, t.name ≠ "w:abstractNum"

/-- A number and a level that some definitions have. -/
def IsDefined (definitions : List Definition) (n : Nat × Nat) : Prop :=
  ∃ k d, n.1 = k + 1 ∧ definitions[k]? = some d ∧ (d.map NumberLevel.level).Nodup ∧
    n.2 ∈ d.map NumberLevel.level

/-- A document whose paragraphs have numbers that it defines has two parts that fit together.  One
names the numbers, also as it is read if the runs are safe, and the other says what they are. -/
theorem exists_numberedParts (d : Document)
    (h : ∀ n ∈ numbersOf d.paragraphs, IsDefined d.definitions n) :
    ∃ entries body attributes definitions instances, d.package = .ok entries ∧
      ⟨"word/document.xml", .text (Xml.part body)⟩ ∈ entries ∧
      NamesNumbers (numbersOf d.paragraphs) body ∧
      ((∀ i ∈ d.inlines, i.IsSafe) → ∃ read, IsPart entries "word/document.xml" read ∧
        NamesNumbers (numbersOf d.paragraphs) read) ∧
      IsPart entries "word/numbering.xml"
        (.element "w:numbering" attributes (definitions ++ instances)) ∧
      DefinesNumbers (numbersOf d.paragraphs) definitions instances := by
  obtain ⟨xs, hbody, hwrites⟩ := d.exists_writes_body .initial
  obtain ⟨p, hpackage, -⟩ := exists_package d (Prod.ext hbody rfl)
  obtain ⟨hparagraphs, hall⟩ := numbers_body d .initial
  rw [hbody] at hparagraphs hall
  refine ⟨_, .element "w:document" namespaces xs, _, definitionElements d.definitions,
    instanceElements d.definitions, hpackage, by simp [Document.entries], ⟨hparagraphs, hall⟩,
    fun hsafe => ?_, ⟨_, by simp [Document.entries], readPart?_numberingXml d.definitions⟩, ?_⟩
  · have hsound : AreSound bodyRule [.element "w:document" namespaces xs] :=
      areSound_element.mpr ⟨by simp [namespaces]; decide, areSound_of_writes hwrites hsafe⟩
    obtain ⟨read, hread, htree⟩ := exists_readPart? hsound fun _ _ => areNames_of_bodyRule
    refine ⟨read, ⟨_, by simp [Document.entries], hread⟩, ?_, ?_⟩
    · rw [htree, contentsOf_allAsRead, hparagraphs, List.map_map]
      rfl
    · rw [htree, valuesIn_allAsRead, hall]
  · constructor
    case levels =>
      intro n hn
      obtain ⟨k, definition, hnumber, hk, hnodup, hlevel⟩ := h n hn
      have hhas := hasLevel_of_getElem? hk hnodup hlevel
      rwa [← hnumber] at hhas
    case noInstance =>
      intro t ht hname
      exact absurd (hname ▸ isMadeOf_definitionElements d.definitions t ht) (by decide)
    case noDefinition =>
      intro t ht hname
      exact absurd (hname ▸ isMadeOf_instanceElements d.definitions t ht) (by decide)

end ReportPress.Word
