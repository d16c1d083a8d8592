import Mathlib.Data.List.Basic
import ReportPress.Proofs.Word.Writing
import ReportPress.Proofs.Xml.Tags

/-!
# The elements of a document

Which elements the parts of a document are made of, and where its bookmarks are.

**What parts are made of.**  Runs, pictures, formats, setups of pages and tables have their own
lists of names: `runNames`, `pictureNames`, `formatNames`, `setupNames`, `tableNames` and
`contentsNames`.  None of these parts holds a bookmark.

**Around the contents of paragraphs.**  `flatMap_tagsOf_of_writes` and `valuesIn_of_writes` — what
is seen in no element around the contents of paragraphs is seen in these contents only, in order.

**Bookmarks.**  `bookmarkNames_of_writes` — what is written for some contents of paragraphs has
their bookmarks, in order, and no others; `bookmarkNames_body` says so of a document.
-/

namespace ReportPress.Word

variable {names : List String}

/-! ## Names of elements -/

/-- The elements of the format of a run. -/
def runFormatNames : List String :=
  ["w:rPr", "w:rStyle", "w:rFonts", "w:b", "w:i", "w:color", "w:sz", "w:szCs", "w:lang"]

/-- The elements of runs. -/
def runNames : List String :=
  ["w:r", "w:t", "w:br", "w:fldChar", "w:instrText"] ++ runFormatNames

/-- The elements of pictures. -/
def pictureNames : List String :=
  ["w:r", "w:drawing", "wp:inline", "wp:extent", "wp:effectExtent", "wp:docPr",
    "wp:cNvGraphicFramePr", "a:graphicFrameLocks", "a:graphic", "a:graphicData", "pic:pic",
    "pic:nvPicPr", "pic:cNvPr", "pic:cNvPicPr", "pic:blipFill", "a:blip", "a:stretch",
    "a:fillRect", "pic:spPr", "a:xfrm", "a:off", "a:ext", "a:prstGeom", "a:avLst"]

/-- The elements of the format of a paragraph. -/
def formatNames : List String :=
  ["w:pStyle", "w:keepNext", "w:numPr", "w:ilvl", "w:numId", "w:spacing", "w:ind", "w:jc"]

/-- The elements of the setup of pages. -/
def setupNames : List String :=
  ["w:sectPr", "w:footerReference", "w:type", "w:pgSz", "w:pgMar", "w:pgNumType"]

/-- The elements of tables, apart from what their cells hold. -/
def tableNames : List String :=
  ["w:tbl", "w:tblPr", "w:tblW", "w:tblBorders", "w:top", "w:left", "w:bottom", "w:right",
    "w:insideH", "w:insideV", "w:tblLayout", "w:tblLook", "w:tblGrid", "w:gridCol", "w:tr",
    "w:trPr", "w:tblHeader", "w:tc", "w:tcPr", "w:tcW", "w:p"]

/-- The elements of the table of contents. -/
def contentsNames : List String :=
  ["w:sdt", "w:sdtPr", "w:alias", "w:docPartObj", "w:docPartGallery", "w:docPartUnique",
    "w:sdtContent", "w:p", "w:r", "w:fldChar", "w:instrText", "w:t"]

/-! ## What parts are made of -/

lemma isMadeOf_optional {α : Type} {make : α → List Xml} (h : ∀ a, IsMadeOf names (make a))
    (o : Option α) : IsMadeOf names (optional make o) := by
  cases o with
  | none => exact isMadeOf_nil
  | some a => exact h a

lemma isMadeOf_whenSet {x : Xml} (h : IsMadeOf names [x]) (flag : Bool) :
    IsMadeOf names (whenSet flag x) := by
  cases flag with
  | false => exact isMadeOf_nil
  | true => exact h

lemma isMadeOf_runFormat (f : RunFormat) : IsMadeOf runFormatNames f.xml := by
  have hchildren : IsMadeOf runFormatNames f.children := by
    simp only [RunFormat.children, isMadeOf_append]
    refine ⟨⟨⟨⟨⟨⟨?_, ?_⟩, ?_⟩, ?_⟩, ?_⟩, ?_⟩, ?_⟩
    · exact isMadeOf_optional (by simp [runFormatNames]) _
    · exact isMadeOf_optional (by simp [runFormatNames, fontXml]) _
    · exact isMadeOf_whenSet (by simp [runFormatNames]) _
    · exact isMadeOf_whenSet (by simp [runFormatNames]) _
    · exact isMadeOf_optional (by simp [runFormatNames]) _
    · exact isMadeOf_optional
        (fun n => isMadeOf_cons.mpr ⟨by simp [runFormatNames], by simp [runFormatNames]⟩) _
    · exact isMadeOf_optional (by simp [runFormatNames]) _
  rw [RunFormat.xml]
  split_ifs
  · exact isMadeOf_nil
  · simpa [runFormatNames] using hchildren

lemma isMadeOf_run (r : Run) : IsMadeOf runNames r.xml := by
  have hformat : IsMadeOf runNames r.format.xml :=
    (isMadeOf_runFormat r.format).mono fun name => List.mem_append_right _
  have hmark (kind : String) : IsMadeOf runNames [Run.fieldMark kind] := by
    simp [Run.fieldMark, runNames]
  have hcontent (c : RunContent) : IsMadeOf runNames (Run.contentXml c) := by
    cases c with
    | text s =>
        rw [Run.contentXml]
        split_ifs <;> simp [Run.preserved, runNames]
    | pageNumber => exact isMadeOf_nil
    | pageBreak => simp [Run.contentXml, runNames]
  have hrun {children : List Xml} (h : IsMadeOf runNames children) :
      IsMadeOf runNames [.plain "w:r" (r.format.xml ++ children)] := by
    rw [isMadeOf_plain, isMadeOf_append]
    exact ⟨by simp [runNames], hformat, h⟩
  rw [Run.xml]
  split
  · have hinstruction : IsMadeOf runNames [Run.preserved "w:instrText" " PAGE "] := by
      simp [Run.preserved, runNames]
    have hnumber : IsMadeOf runNames [.plain "w:t" [.text "1"]] := by simp [runNames]
    exact isMadeOf_cons.mpr ⟨hmark _, isMadeOf_cons.mpr ⟨hrun hinstruction,
      isMadeOf_cons.mpr ⟨hmark _, isMadeOf_cons.mpr ⟨hrun hnumber, hmark _⟩⟩⟩⟩
  · rw [List.append_assoc]
    refine hrun (isMadeOf_append.mpr ⟨?_, hcontent _⟩)
    exact isMadeOf_whenSet (by simp [runNames]) _

lemma isMadeOf_picture (p : Picture) (refs : References) :
    IsMadeOf pictureNames [(p.xml.run refs).1] := by
  have hgraphic (id : String) (number : Nat) : IsMadeOf pictureNames [p.graphic id number] := by
    simp [Picture.graphic, Picture.extent, Picture.identity, pictureNames]
  refine isMadeOf_plain.mpr ⟨by simp [pictureNames], ?_⟩
  refine isMadeOf_plain.mpr ⟨by simp [pictureNames], ?_⟩
  refine isMadeOf_element.mpr ⟨by simp [pictureNames], ?_⟩
  simp only [isMadeOf_cons_cons]
  refine ⟨?_, ?_, ?_, ?_, hgraphic _ _⟩
  all_goals simp [Picture.extent, Picture.identity, pictureNames]

lemma isMadeOf_format (f : ParagraphFormat) : IsMadeOf formatNames f.children := by
  simp only [ParagraphFormat.children, isMadeOf_append]
  refine ⟨⟨⟨⟨?_, ?_⟩, ?_⟩, ?_⟩, ?_⟩
  · exact isMadeOf_whenSet (by simp [formatNames]) _
  · exact isMadeOf_optional (by simp [formatNames]) _
  · unfold spacingXml
    extract_lets attributes
    split_ifs <;> simp [formatNames]
  · unfold indentXml
    extract_lets attributes
    split_ifs <;> simp [formatNames]
  · exact isMadeOf_optional (by simp [formatNames]) _

lemma isMadeOf_setup (s : PageSetup) (footerId : String) :
    IsMadeOf setupNames [s.xml footerId] := by
  rw [PageSetup.xml, isMadeOf_plain, isMadeOf_append]
  refine ⟨by simp [setupNames], by simp [setupNames], ?_⟩
  cases s.pageStart <;> simp [setupNames]

lemma isMadeOf_contents (field : ContentsField) : IsMadeOf contentsNames [field.xml] := by
  have hlabel : IsMadeOf contentsNames (optional (fun a => [.val "w:alias" a]) field.label) :=
    isMadeOf_optional (by simp [contentsNames]) _
  rw [contentsNames] at hlabel ⊢
  simp [ContentsField.xml, Run.fieldMark, Run.preserved, hlabel]

lemma isMadeOf_tableProperties (width : UInt32) :
    IsMadeOf tableNames [tableProperties width] := by
  simp [tableProperties, borderXml, tableNames]

lemma isMadeOf_grid (columns width : Nat) : IsMadeOf tableNames [gridXml columns width] := by
  have hcolumns : ∀ n, IsMadeOf tableNames
      (List.replicate n (.empty "w:gridCol" [.nat "w:w" width])) := by
    intro n
    induction n with
    | zero => exact isMadeOf_nil
    | succ n ih => exact isMadeOf_cons.mpr ⟨by simp [tableNames], ih⟩
  rw [gridXml, isMadeOf_plain]
  exact ⟨by simp [tableNames], hcolumns columns⟩

lemma isMadeOf_cellWidth (width : Nat) : IsMadeOf tableNames [cellWidthXml width] := by
  simp [cellWidthXml, tableNames]

lemma isMadeOf_headerMark : IsMadeOf tableNames [headerMark] := by
  simp [headerMark, tableNames]

/-- All elements that are written without a look at what is referred to. -/
def fixedNames : List String := formatNames ++ tableNames ++ contentsNames

lemma isMadeOf_fixed {S : String → Prop} {xs : List Xml} (h : IsFixed S xs) :
    IsMadeOf fixedNames xs := by
  have hformat {ys : List Xml} (h : IsMadeOf formatNames ys) : IsMadeOf fixedNames ys :=
    h.mono fun name hname => by simp [fixedNames, hname]
  have htable {ys : List Xml} (h : IsMadeOf tableNames ys) : IsMadeOf fixedNames ys :=
    h.mono fun name hname => by simp [fixedNames, hname]
  cases h with
  | style _ => exact hformat (by simp [formatNames])
  | format f => exact hformat (isMadeOf_format f)
  | tableProperties width => exact htable (isMadeOf_tableProperties width)
  | grid columns width => exact htable (isMadeOf_grid columns width)
  | cellWidth width => exact htable (isMadeOf_cellWidth width)
  | cellEnd => exact htable (by simp [tableNames])
  | headerMark => exact htable isMadeOf_headerMark
  | @contents field _ =>
      exact (isMadeOf_contents field).mono fun name hname => by simp [fixedNames, hname]

/-! ## What is written for the contents of paragraphs -/

/-- All elements that are written for anything but the contents of paragraphs. -/
def outerNames : List String := fixedNames ++ setupNames ++ frameNames

section Outer

variable {S F : String → Prop} {is : List Inline} {refs refs' : References} {xs : List Xml}

/-- A look at elements that sees nothing in those around the contents of paragraphs sees what it
sees in each of these contents. -/
theorem flatMap_tagsOf_of_writes {V : Type} {look : Tag → List V} {f : Inline → List V}
    (houter : ∀ t, t.name ∈ outerNames → look t = [])
    (hinline : ∀ i refs, (tagsOf (i.xml.run refs).1).flatMap look = f i)
    (h : Writes S F is refs xs refs') : (tagsOf xs).flatMap look = is.flatMap f := by
  have hnothing {xs : List Xml} (hxs : IsMadeOf outerNames xs) : (tagsOf xs).flatMap look = [] :=
    List.flatMap_eq_nil_iff.mpr fun t ht => houter t (hxs t ht)
  induction h with
  | nil refs => rfl
  | append _ _ ih ih' => rw [tagsOf_append, List.flatMap_append, List.flatMap_append, ih, ih']
  | inline i refs => rw [hinline, List.flatMap_singleton]
  | fixed refs h =>
      exact hnothing ((isMadeOf_fixed h).mono fun name hname => by simp [outerNames, hname])
  | @frame name is refs refs' xs hname _ ih =>
      have hframe : look ⟨name, []⟩ = [] := houter _ (by simp [outerNames, hname])
      rw [Xml.plain, tagsOf, tagsOf, List.append_nil, Xml.tags, List.flatMap_cons, hframe, ih,
        List.nil_append]
  | footer refs _ => rfl
  | setup setup _ =>
      exact hnothing ((isMadeOf_setup setup _).mono fun name hname => by simp [outerNames, hname])

/-- The values of an attribute are those in the contents of paragraphs, if only these have elements
with the name. -/
theorem valuesIn_of_writes {element key : String} {f : Inline → List String}
    (houter : element ∉ outerNames)
    (hinline : ∀ i refs, valuesIn element key (i.xml.run refs).1 = f i)
    (h : Writes S F is refs xs refs') : valuesIn element key xs = is.flatMap f := by
  rw [valuesIn_eq_flatMap]
  refine flatMap_tagsOf_of_writes (fun t ht => if_neg ?_) (fun i refs => ?_) h
  · rintro rfl
    exact houter ht
  · rw [← hinline i refs, valuesIn_eq_flatMap]

end Outer

/-! ## Bookmarks -/

/-- The names of the bookmarks in some elements. -/
def bookmarkNames (xs : List Xml) : List String := valuesIn "w:bookmarkStart" "w:name" xs

section Bookmarks

variable {name : String} {attributes : List Attribute} {xs ys : List Xml}

@[simp] lemma bookmarkNames_append :
    bookmarkNames (xs ++ ys) = bookmarkNames xs ++ bookmarkNames ys :=
  valuesIn_append

lemma bookmarkNames_element (h : name ≠ "w:bookmarkStart") :
    bookmarkNames [.element name attributes xs] = bookmarkNames xs :=
  valuesIn_element h

lemma bookmarkNames_eq_nil (h : IsMadeOf names xs) (hn : "w:bookmarkStart" ∉ names) :
    bookmarkNames xs = [] :=
  valuesIn_of_isMadeOf h hn

end Bookmarks

/-- The names of the bookmarks in the contents of paragraphs. -/
def namesOf (inlines : List Inline) : List String := (placesOf inlines).map bookmarkName

/-- The start of a bookmark is a bookmark, nothing else in a paragraph is. -/
lemma bookmarkNames_inline (i : Inline) (refs : References) :
    bookmarkNames (i.xml.run refs).1 = namesOf [i] := by
  have hrun (r : Run) : bookmarkNames r.xml = [] :=
    bookmarkNames_eq_nil (isMadeOf_run r) (by decide)
  have hruns (runs : List Run) : bookmarkNames (runs.flatMap Run.xml) = [] :=
    bookmarkNames_eq_nil (isMadeOf_flatMap fun r _ => isMadeOf_run r) (by decide)
  cases i with
  | run r => exact hrun r
  | link target runs =>
      cases target with
      | external address => exact (bookmarkNames_element (by decide)).trans (hruns runs)
      | anchor name => exact (bookmarkNames_element (by decide)).trans (hruns runs)
  | picture p => exact bookmarkNames_eq_nil (isMadeOf_picture p refs) (by decide)
  | bookmarkStart id anchor => rfl
  | bookmarkEnd id => rfl

/-- There are no bookmarks but those in the contents of paragraphs. -/
lemma bookmarkNames_of_writes {S F : String → Prop} {is : List Inline}
    {refs refs' : References} {xs : List Xml} (h : Writes S F is refs xs refs') :
    bookmarkNames xs = namesOf is := by
  have hnames (is : List Inline) : is.flatMap (fun i => namesOf [i]) = namesOf is := by
    induction is with
    | nil => rfl
    | cons i is ih =>
        have hcons : namesOf ([i] ++ is) = namesOf [i] ++ namesOf is := by
          rw [namesOf, placesOf_append, List.map_append]
          rfl
        rw [List.flatMap_cons, ih, ← hcons, List.singleton_append]
  rw [bookmarkNames, valuesIn_of_writes (by decide) bookmarkNames_inline h, hnames]

/-- The names of the bookmarks in paragraphs. -/
def paragraphNames (ps : List Paragraph) : List String := ps.flatMap fun p => namesOf p.inlines

/-- The bookmarks in the text of a document are those of its paragraphs, in order. -/
theorem bookmarkNames_body (d : Document) (refs : References) :
    bookmarkNames [((bodyXml d).run refs).1] = paragraphNames d.paragraphs := by
  obtain ⟨xs, hbody, hwrites⟩ := d.exists_writes_body refs
  rw [hbody, bookmarkNames_element (by decide), bookmarkNames_of_writes hwrites]
  simp [namesOf, placesOf, Document.inlines, inlinesIn, paragraphNames, List.filterMap_flatMap,
    List.map_flatMap]

end ReportPress.Word
