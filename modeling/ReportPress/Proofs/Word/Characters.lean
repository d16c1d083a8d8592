import ReportPress.Proofs.Word.Package
import ReportPress.Proofs.Xml.Strings

/-!
# The characters of a document

Which characters get into the parts of a document, and where they come from.

* `Inline.strings` — what the contents of a paragraph bring into the text of a document: the texts
  of their runs, and the descriptions of pictures.
* `Inline.addresses` — what they bring into the relations: the addresses of links.

**The text.**  `areXmlText_iff_of_writes` — all else that is written consists of characters that XML
allows, so what is written does if and only if the contents do.

**The relations and the facts.**  `areXmlText_relations_iff` and `areXmlText_coreXml_iff` say so of
the other two parts that hold texts of a report.

**The package.**  `exists_readsAs` — which of these parts can be read, by what a document holds.
-/

namespace ReportPress.Word

variable {S F : String → Prop} {xs : List Xml}

/-! ## Contents of paragraphs -/

/-- What the contents of a paragraph bring into the text of a document. -/
def Inline.strings : Inline → List String
  | .picture p => [p.description]
  | i => i.runs.map Run.text

/-- What the contents of a paragraph bring into the relations. -/
def Inline.addresses : Inline → List String
  | .link (.external address) _ => [address]
  | _ => []

/-- Contents whose formats have names that can be written. -/
def Inline.HasXmlNames (i : Inline) : Prop := ∀ r ∈ i.runs, ∀ s ∈ r.format.names, IsXmlText s

/-! ## Names of bookmarks -/

lemma isXmlChar_of_isAlphanumeric {c : Char} (h : Text.isAlphanumeric c = true) :
    isXmlChar c = true := by
  have hletters : ∀ r ∈ Text.letters, ∃ x ∈ xmlRanges, x.first ≤ r.first ∧ r.last ≤ x.last := by
    decide +kernel
  have hrecent : ∀ r ∈ Text.recentLetters,
      ∃ x ∈ xmlRanges, x.first ≤ r.first ∧ r.last ≤ x.last := by decide +kernel
  have hnumerals : ∀ r ∈ Text.numerals, ∃ x ∈ xmlRanges, x.first ≤ r.first ∧ r.last ≤ x.last := by
    decide +kernel
  unfold Text.isAlphanumeric Text.isLetter at h
  split_ifs at h
  · exact isXmlChar_of_isAlphanum h
  · simp only [Bool.or_eq_true] at h
    rcases h with (h | h) | h
    · exact isXmlChar_of_inRanges h hletters
    · exact isXmlChar_of_inRanges h hrecent
    · exact isXmlChar_of_inRanges h hnumerals

lemma isXmlText_bookmarkName (anchor : String) : IsXmlText (bookmarkName anchor) := by
  have hname : ∀ c ∈ (anchor.toList.map bookmarkChar).take maxBookmarkName, isXmlChar c = true := by
    intro c hc
    obtain ⟨d, -, rfl⟩ := List.mem_map.mp (List.mem_of_mem_take hc)
    unfold bookmarkChar
    split_ifs with h
    · exact isXmlChar_of_isAlphanumeric h
    · decide
  intro c hc
  rw [bookmarkName] at hc
  split_ifs at hc
  · exact hname c (by simpa using hc)
  · rw [String.toList_ofList] at hc
    rcases List.mem_cons.mp (List.mem_of_mem_take hc) with rfl | hc
    · decide
    · exact hname c hc

/-! ## Runs -/

lemma areXmlText_optional {α : Type} {make : α → List Xml} {o : Option α}
    (h : ∀ a ∈ o, AreXmlText (make a)) : AreXmlText (optional make o) := by
  cases o with
  | none => exact areXmlText_nil
  | some a => exact h a rfl

lemma areXmlText_whenSet {x : Xml} (h : AreXmlText [x]) (flag : Bool) :
    AreXmlText (whenSet flag x) := by
  cases flag with
  | false => exact areXmlText_nil
  | true => exact h

lemma areXmlText_runFormat {f : RunFormat} (h : ∀ s ∈ f.names, IsXmlText s) : AreXmlText f.xml := by
  have hname {o : Option String} (ho : o.toList ⊆ f.names) : ∀ s ∈ o, IsXmlText s :=
    fun s hs => h s (ho (Option.mem_toList.mpr hs))
  have hchildren : AreXmlText f.children := by
    simp only [RunFormat.children, areXmlText_append]
    refine ⟨⟨⟨⟨⟨⟨?_, ?_⟩, ?_⟩, ?_⟩, ?_⟩, ?_⟩, ?_⟩
    · refine areXmlText_optional fun s hs => areXmlText_val.mpr ⟨by decide, ?_⟩
      exact hname (fun s hs => by simp_all [RunFormat.names]) s hs
    · refine areXmlText_optional fun s hs => ?_
      have hs : IsXmlText s := hname (fun s hs => by simp_all [RunFormat.names]) s hs
      simp [fontXml, hs]
      decide
    · exact areXmlText_whenSet (areXmlText_tag.mpr (by decide)) _
    · exact areXmlText_whenSet (areXmlText_tag.mpr (by decide)) _
    · refine areXmlText_optional fun s hs => ?_
      have hs : IsXmlText s := hname (fun s hs => by simp_all [RunFormat.names]) s hs
      simp [hs]
      decide
    · refine areXmlText_optional fun n _ => ?_
      simp [sizeXml]
      decide
    · refine areXmlText_optional fun s hs => ?_
      have hs : IsXmlText s := hname (fun s hs => by simp_all [RunFormat.names]) s hs
      simp [hs]
      decide
  rw [RunFormat.xml]
  split_ifs
  · exact areXmlText_nil
  · exact areXmlText_plain.mpr ⟨by decide, hchildren⟩

lemma areXmlText_preserved {name s : String} :
    AreXmlText [Run.preserved name s] ↔ IsXmlText name ∧ IsXmlText s := by
  have hspace : IsXmlText "xml:space" ∧ IsXmlText "preserve" := by decide
  simp [Run.preserved, hspace]

lemma areXmlText_fieldMark {kind : String} : AreXmlText [Run.fieldMark kind] ↔ IsXmlText kind := by
  have hmark : IsXmlText "w:r" ∧ IsXmlText "w:fldChar" ∧ IsXmlText "w:fldCharType" := by decide
  simp [Run.fieldMark, hmark]

/-- A run consists of allowed characters if and only if its text does. -/
lemma areXmlText_run_iff {r : Run} (h : ∀ s ∈ r.format.names, IsXmlText s) :
    AreXmlText r.xml ↔ IsXmlText r.text := by
  have hformat := areXmlText_runFormat h
  have hr : IsXmlText "w:r" := by decide
  have hbreak : AreXmlText (whenSet r.breakBefore (.tag "w:br")) :=
    areXmlText_whenSet (areXmlText_tag.mpr (by decide)) _
  have hempty : IsXmlText "" := by decide
  cases hc : r.content with
  | text s =>
      have hcontent : AreXmlText (Run.contentXml (.text s)) ↔ IsXmlText s := by
        have ht : IsXmlText "w:t" := by decide
        rw [Run.contentXml]
        split_ifs with hs
        · rw [String.isEmpty_iff.mp hs]
          simp [hempty]
        · simp [areXmlText_preserved, ht]
      simp [Run.xml, Run.text, hc, hr, hformat, hbreak, hcontent]
  | pageNumber =>
      have hnumber : IsXmlText "w:t" ∧ IsXmlText "1" ∧ IsXmlText "w:instrText" ∧
          IsXmlText " PAGE " ∧ IsXmlText "begin" ∧ IsXmlText "separate" ∧ IsXmlText "end" := by
        decide
      simp [Run.xml, Run.text, hc, hr, hformat, hempty, areXmlText_preserved,
        areXmlText_fieldMark, hnumber]
  | pageBreak =>
      have hbr : IsXmlText "w:br" ∧ IsXmlText "w:type" ∧ IsXmlText "page" := by decide
      simp [Run.xml, Run.text, hc, hr, hformat, hbreak, hempty, Run.contentXml, hbr]

lemma areXmlText_runs_iff {runs : List Run}
    (h : ∀ r ∈ runs, ∀ s ∈ r.format.names, IsXmlText s) :
    AreXmlText (runs.flatMap Run.xml) ↔ ∀ s ∈ runs.map Run.text, IsXmlText s := by
  induction runs with
  | nil => simp
  | cons r runs ih =>
      rw [List.flatMap_cons, areXmlText_append, areXmlText_run_iff (h r List.mem_cons_self),
        ih fun s hs => h s (List.mem_cons_of_mem _ hs), List.map_cons, List.forall_mem_cons]

/-! ## Pictures and links -/

lemma isXmlText_relationId (n : Nat) : IsXmlText (relationId n) := by
  have hid : IsXmlText "rId" := by decide
  simp [relationId, hid]

/-- A picture consists of allowed characters if and only if its description does. -/
lemma areXmlText_picture_iff (p : Picture) (refs : References) :
    AreXmlText [(p.xml.run refs).1] ↔ IsXmlText p.description := by
  have hidentity {name : String} (number : Nat) (hname : IsXmlText name) :
      AreXmlText [Picture.identity name number p.description] ↔ IsXmlText p.description := by
    have hkeys : IsXmlText "id" ∧ IsXmlText "name" ∧ IsXmlText "Picture " ∧ IsXmlText "descr" := by
      decide
    simp [Picture.identity, hkeys, hname]
  have hextent {name : String} (hname : IsXmlText name) : AreXmlText [p.extent name] := by
    have hkeys : IsXmlText "cx" ∧ IsXmlText "cy" := by decide
    simp [Picture.extent, hkeys, hname]
  have hgraphic (number : Nat) :
      AreXmlText [p.graphic (relationId (refs.relations.length + 1)) number]
        ↔ IsXmlText p.description := by
    have haround : IsXmlText Picture.address ∧ ∀ s ∈ ["a:graphic", "a:graphicData", "uri",
        "pic:pic", "pic:nvPicPr", "pic:cNvPicPr", "pic:blipFill", "a:blip", "r:embed", "a:stretch",
        "a:fillRect", "pic:spPr", "a:xfrm", "a:off", "x", "y", "a:prstGeom", "prst", "rect",
        "a:avLst"], IsXmlText s := by decide
    simp only [List.forall_mem_cons] at haround
    simp [Picture.graphic, hidentity number (show IsXmlText "pic:cNvPr" by decide),
      hextent (show IsXmlText "a:ext" by decide), isXmlText_relationId, haround]
  have haround : ∀ s ∈ ["w:r", "w:drawing", "wp:inline", "distT", "distB", "distL", "distR",
      "wp:effectExtent", "l", "t", "r", "b", "wp:cNvGraphicFramePr", "a:graphicFrameLocks",
      "noChangeAspect"], IsXmlText s := by decide
  simp only [List.forall_mem_cons] at haround
  have hrun : (p.xml.run refs).1 = .plain "w:r" [.plain "w:drawing" [
      .element "wp:inline" [.nat "distT" 0, .nat "distB" 0, .nat "distL" 0, .nat "distR" 0] [
        p.extent "wp:extent",
        .empty "wp:effectExtent" [.nat "l" 0, .nat "t" 0, .nat "r" 0, .nat "b" 0],
        Picture.identity "wp:docPr" (refs.media.length + 1) p.description,
        .plain "wp:cNvGraphicFramePr" [.empty "a:graphicFrameLocks" [.nat "noChangeAspect" 1]],
        p.graphic (relationId (refs.relations.length + 1)) (refs.media.length + 1)]]] := rfl
  rw [hrun]
  simp [hidentity _ (show IsXmlText "wp:docPr" by decide), hgraphic,
    hextent (show IsXmlText "wp:extent" by decide), haround]

/-- What is written for the contents of a paragraph consists of allowed characters if and only if
the contents do. -/
lemma areXmlText_inline_iff {i : Inline} (h : i.HasXmlNames) (refs : References) :
    AreXmlText (i.xml.run refs).1 ↔ ∀ s ∈ i.strings, IsXmlText s := by
  have hlink {key value : String} {runs : List Run}
      (hruns : ∀ r ∈ runs, ∀ s ∈ r.format.names, IsXmlText s) (hkey : IsXmlText key)
      (hvalue : IsXmlText value) :
      AreXmlText [.element "w:hyperlink" [⟨key, value, false⟩, .nat "w:history" 1]
        (runs.flatMap Run.xml)] ↔ ∀ s ∈ runs.map Run.text, IsXmlText s := by
    have hnames : IsXmlText "w:hyperlink" ∧ IsXmlText "w:history" := by decide
    rw [areXmlText_element, areXmlText_runs_iff hruns]
    simp [hnames, hkey, hvalue]
  have hbookmark : ∀ s ∈ ["w:bookmarkStart", "w:bookmarkEnd", "w:id", "w:name"], IsXmlText s := by
    decide
  simp only [List.forall_mem_cons] at hbookmark
  cases i with
  | run r =>
      show AreXmlText r.xml ↔ _
      rw [areXmlText_run_iff (h r (by simp [Inline.runs]))]
      simp [Inline.strings, Inline.runs]
  | link target runs =>
      cases target with
      | external address => exact hlink h (by decide) (isXmlText_relationId _)
      | anchor name => exact hlink h (by decide) (isXmlText_bookmarkName name)
  | picture p =>
      show AreXmlText [(p.xml.run refs).1] ↔ _
      rw [areXmlText_picture_iff]
      simp [Inline.strings]
  | bookmarkStart id anchor =>
      show AreXmlText [.empty "w:bookmarkStart"
        [.nat "w:id" id, ⟨"w:name", bookmarkName anchor, false⟩]] ↔ _
      simp [hbookmark, isXmlText_bookmarkName, Inline.strings, Inline.runs]
  | bookmarkEnd id =>
      show AreXmlText [.empty "w:bookmarkEnd" [.nat "w:id" id]] ↔ _
      simp [hbookmark, Inline.strings, Inline.runs]

/-! ## Formats, tables and pages -/

lemma areXmlText_format (f : ParagraphFormat) : AreXmlText f.children := by
  have hspacing : ∀ s ∈ ["w:spacing", "w:before", "w:after", "w:line", "w:lineRule", "auto"],
      IsXmlText s := by decide
  have hindent : ∀ s ∈ ["w:ind", "w:left", "w:firstLine", "w:hanging"], IsXmlText s := by decide
  simp only [List.forall_mem_cons] at hspacing hindent
  simp only [ParagraphFormat.children, areXmlText_append]
  refine ⟨⟨⟨⟨?_, ?_⟩, ?_⟩, ?_⟩, ?_⟩
  · exact areXmlText_whenSet (areXmlText_tag.mpr (by decide)) _
  · refine areXmlText_optional fun n _ => ?_
    have hnames : IsXmlText "w:numPr" ∧ IsXmlText "w:ilvl" ∧ IsXmlText "w:numId" := by decide
    simp [hnames]
  · cases f.spaceBefore <;> cases f.spaceAfter <;> cases f.line <;> simp [spacingXml, hspacing]
  · have hfirst (n : Int) : IsXmlText (firstLineAttribute n).name ∧
        IsXmlText (firstLineAttribute n).value := by
      unfold firstLineAttribute
      split_ifs <;> simp [hindent]
    cases f.indentLeft <;> cases f.indentFirstLine <;> simp [indentXml, hindent, hfirst]
  · refine areXmlText_optional fun a _ => areXmlText_val.mpr ⟨by decide, ?_⟩
    cases a <;> decide

lemma areXmlText_fixed (hS : ∀ s, S s → IsXmlText s) (h : IsFixed S xs) : AreXmlText xs := by
  cases h with
  | style hs => exact areXmlText_val.mpr ⟨by decide, hS _ hs⟩
  | format f => exact areXmlText_format f
  | tableProperties width =>
      simp [tableProperties, borderXml]
      decide
  | grid columns width =>
      have hcolumn : AreXmlText [.empty "w:gridCol" [.nat "w:w" width]] := by
        have hnames : IsXmlText "w:gridCol" ∧ IsXmlText "w:w" := by decide
        simp [hnames]
      refine areXmlText_plain.mpr ⟨by decide, areXmlText_iff_forall.mpr fun x hx => ?_⟩
      exact List.eq_of_mem_replicate hx ▸ hcolumn
  | cellWidth width =>
      simp [cellWidthXml]
      decide
  | cellEnd => exact areXmlText_tag.mpr (by decide)
  | headerMark =>
      simp [headerMark]
      decide
  | @contents field hs =>
      have hlabel : AreXmlText (optional (fun a => [.val "w:alias" a]) field.label) :=
        areXmlText_optional fun s h =>
          areXmlText_val.mpr ⟨by decide, hS s (hs s (Option.mem_toList.mpr h))⟩
      simp [ContentsField.xml, ContentsField.instruction, areXmlText_fieldMark,
        areXmlText_preserved, hlabel]
      decide

lemma areXmlText_setup (s : PageSetup) (n : Nat) : AreXmlText [s.xml (relationId n)] := by
  rw [PageSetup.xml]
  cases s.pageStart <;> simp [isXmlText_relationId] <;> decide

/-! ## The text -/

/-- What is written consists of allowed characters if and only if the contents of the paragraphs
do. -/
theorem areXmlText_iff_of_writes {is : List Inline} {refs refs' : References}
    (h : Writes S F is refs xs refs') (hS : ∀ s, S s → IsXmlText s)
    (hnames : ∀ i ∈ is, i.HasXmlNames) :
    AreXmlText xs ↔ ∀ s ∈ is.flatMap Inline.strings, IsXmlText s := by
  induction h with
  | nil refs => simp
  | append _ _ ih ih' =>
      rw [areXmlText_append, ih fun i hi => hnames i (List.mem_append_left _ hi),
        ih' fun i hi => hnames i (List.mem_append_right _ hi), List.flatMap_append,
        List.forall_mem_append]
  | inline i refs => simpa using areXmlText_inline_iff (hnames i (by simp)) refs
  | fixed refs h => simpa using areXmlText_fixed hS h
  | @frame name _ _ _ _ hname _ ih =>
      have hframe : ∀ name ∈ frameNames, IsXmlText name := by decide
      rw [areXmlText_plain, ih hnames]
      simp [hframe name hname]
  | footer refs _ => simp
  | setup setup _ => simpa using areXmlText_setup setup _

/-! ## The relations -/

/-- The relations consist of allowed characters if and only if their targets do. -/
lemma areXmlText_relations_iff {refs : References} :
    AreXmlText [refs.xml] ↔ ∀ r ∈ refs.relations, IsXmlText r.target := by
  have hnames : ∀ s ∈ ["Relationships", "Relationship", "xmlns", "Id", "Type", "Target",
      "TargetMode", "External",
      "http://schemas.openxmlformats.org/package/2006/relationships"], IsXmlText s := by decide
  simp only [List.forall_mem_cons] at hnames
  have hkind (k : RelationKind) : IsXmlText k.address := by cases k <;> decide
  have hone (n : Nat) (r : Relation) :
      AreXmlText [References.relationXml n r] ↔ IsXmlText r.target := by
    rw [References.relationXml]
    split_ifs <;> simp [hnames, hkind, isXmlText_relationId]
  have hall : AreXmlText (refs.relations.mapIdx fun i r => References.relationXml (i + 1) r) ↔
      ∀ r ∈ refs.relations, IsXmlText r.target := by
    rw [areXmlText_iff_forall]
    constructor
    · intro h r hr
      obtain ⟨n, hn, rfl⟩ := List.getElem_of_mem hr
      exact (hone (n + 1) _).mp (h _ (List.mem_mapIdx.mpr ⟨n, hn, rfl⟩))
    · intro h x hx
      obtain ⟨n, hn, rfl⟩ := List.mem_mapIdx.mp hx
      exact (hone (n + 1) _).mpr (h _ (List.getElem_mem hn))
  rw [References.xml, areXmlText_element, hall]
  simp [hnames]

/-- The text adds the addresses of its links to the targets, and nothing that is not allowed. -/
theorem targets_iff_of_writes {is : List Inline} {refs refs' : References}
    (h : Writes S F is refs xs refs') (hF : ∀ s, F s → IsXmlText s) :
    (∀ r ∈ refs'.relations, IsXmlText r.target) ↔
      (∀ r ∈ refs.relations, IsXmlText r.target) ∧
        ∀ s ∈ is.flatMap Inline.addresses, IsXmlText s := by
  have hadd {relations : List Relation} {r : Relation} :
      (∀ s ∈ relations ++ [r], IsXmlText s.target) ↔
        (∀ s ∈ relations, IsXmlText s.target) ∧ IsXmlText r.target := by
    simp [or_imp, forall_and]
  induction h with
  | nil refs => simp
  | append _ _ ih ih' =>
      refine ih'.trans ((and_congr_left' ih).trans ?_)
      rw [List.flatMap_append, List.forall_mem_append, and_assoc]
  | inline i refs =>
      cases i with
      | link target runs =>
          cases target with
          | external address => exact hadd.trans (by simp [Inline.addresses])
          | anchor name => simp [Inline.addresses]; rfl
      | picture p =>
          have hmedia (n : Nat) (f : ImageFormat) : IsXmlText (mediaTarget n f) := by
            have hparts : IsXmlText "media/" ∧ IsXmlText "image" ∧ IsXmlText "." ∧
                IsXmlText f.extension := by cases f <;> decide
            simp [mediaTarget, mediaName, hparts]
          refine hadd.trans (and_congr_right' ?_)
          exact iff_of_true (hmedia _ _) (by simp [Inline.addresses])
      | run r => simp [Inline.addresses]; rfl
      | bookmarkStart id anchor => simp [Inline.addresses]; rfl
      | bookmarkEnd id => simp [Inline.addresses]; rfl
  | fixed refs _ => simp
  | frame _ _ ih => exact ih
  | footer refs htarget => exact hadd.trans (by simp [hF _ htarget])
  | setup setup _ => simp

/-! ## Facts about the document -/

lemma isXmlText_padded (width n : Nat) : IsXmlText (Calendar.padded width n) := by
  intro c hc
  rw [Calendar.padded, String.toList_ofList, List.mem_append] at hc
  rcases hc with hc | hc
  · rw [List.eq_of_mem_replicate hc]
    decide
  · have hdigit := Nat.isDigit_of_mem_toDigits (by omega) (by omega) hc
    exact isXmlChar_of_isAlphanum (by simp [Char.isAlphanum, hdigit])

lemma isXmlText_timestamp (seconds : Int) : IsXmlText (Calendar.timestamp seconds) := by
  have hmarks : ∀ s ∈ ["-", "+", "T", ":", "Z"], IsXmlText s := by decide
  simp only [List.forall_mem_cons] at hmarks
  have hyear (year : Int) : IsXmlText (Calendar.yearText year) := by
    unfold Calendar.yearText
    split_ifs <;> simp [hmarks, isXmlText_padded]
  simp [Calendar.timestamp, hmarks, hyear, isXmlText_padded]

/-- The facts about a document consist of allowed characters if and only if its title and its author
do. -/
theorem areXmlText_coreXml_iff {p : Properties} (h : ∀ s ∈ p.language, IsXmlText s) :
    AreXmlText [p.coreXml] ↔ ∀ s ∈ p.title.toList ++ p.creator.toList, IsXmlText s := by
  have htext {name : String} (hname : IsXmlText name) (o : Option String) :
      AreXmlText (Properties.textElement name o) ↔ ∀ s ∈ o.toList, IsXmlText s := by
    cases o <;> simp [Properties.textElement, hname]
  have hmoment {name : String} (hname : IsXmlText name) (o : Option Int) :
      AreXmlText (Properties.momentElement name o) := by
    have hkeys : IsXmlText "xsi:type" ∧ IsXmlText "dcterms:W3CDTF" := by decide
    cases o <;> simp [Properties.momentElement, hname, hkeys, isXmlText_timestamp]
  have hnames : ∀ s ∈ ["dc:title", "dc:creator", "cp:lastModifiedBy", "dc:language",
      "dcterms:created", "dcterms:modified"], IsXmlText s := by decide
  simp only [List.forall_mem_cons] at hnames
  have hlanguage : AreXmlText (Properties.textElement "dc:language" p.language) := by
    rw [htext hnames.2.2.2.1]
    exact fun s hs => h s (Option.mem_toList.mp hs)
  rw [Properties.coreXml, areXmlText_element]
  refine (and_iff_right (by decide)).trans ((and_iff_right (by decide)).trans ?_)
  simp only [areXmlText_append, hlanguage, htext hnames.1, htext hnames.2.1, htext hnames.2.2.1,
    hmoment hnames.2.2.2.2.1, hmoment hnames.2.2.2.2.2.1, List.forall_mem_append]
  tauto

/-! ## The package -/

/-- A package has an entry with a text of characters that XML allows. -/
def IsReadable (entries : List Entry) (name : String) : Prop :=
  ∃ text, ⟨name, .text text⟩ ∈ entries ∧ IsXmlText text

/-- The parts of a package that hold texts of a document can be read if and only if the texts can be
written. -/
structure ReadsAs (d : Document) (entries : List Entry) : Prop where
  text : IsReadable entries "word/document.xml" ↔
    ∀ s ∈ d.inlines.flatMap Inline.strings, IsXmlText s
  relations : IsReadable entries "word/_rels/document.xml.rels" ↔
    ∀ s ∈ d.inlines.flatMap Inline.addresses, IsXmlText s
  facts : IsReadable entries "docProps/core.xml" ↔
    ∀ s ∈ d.properties.title.toList ++ d.properties.creator.toList, IsXmlText s

lemma isXmlText_footerName (number : Nat) : IsXmlText (footerName number) := by
  have haround : IsXmlText "footer" ∧ IsXmlText ".xml" := by decide
  simp [footerName, haround]

/-- The package of a document whose names can be written. -/
theorem exists_readsAs {d : Document} (hnames : ∀ s ∈ d.names, IsXmlText s)
    (hformats : ∀ i ∈ d.inlines, i.HasXmlNames)
    (hlanguage : ∀ s ∈ d.properties.language, IsXmlText s) :
    ∃ entries, d.package = .ok entries ∧ ReadsAs d entries := by
  obtain ⟨xs, hbody, hwrites⟩ :=
    writes_body (F := IsXmlText) hnames (fun number _ _ => isXmlText_footerName number) .initial
  obtain ⟨p, hpackage, -⟩ := exists_package d (Prod.ext hbody rfl)
  refine ⟨_, hpackage, ?_⟩
  set refs := ((bodyXml d).run .initial).2
  set entries := d.entries (.element "w:document" namespaces xs) refs ++ lastEntries p with hentries
  have hread (name : String) (x : Xml) (hmem : ⟨name, .text (Xml.part x)⟩ ∈ entries) :
      IsReadable entries name ↔ AreXmlText [x] := by
    rw [← isXmlText_part_iff]
    refine ⟨?_, fun h => ⟨_, hmem, h⟩⟩
    rintro ⟨text, htext, h⟩
    have heq := List.inj_on_of_nodup_map (nodup_entryNames d _ refs p) htext hmem rfl
    rw [Entry.mk.injEq, Content.text.injEq] at heq
    exact heq.2 ▸ h
  constructor
  case text =>
    have hnamespaces : AreXmlText [.element "w:document" namespaces xs] ↔ AreXmlText xs := by
      rw [areXmlText_element]
      exact (and_iff_right (by decide)).trans (and_iff_right (by decide))
    rw [hread _ (.element "w:document" namespaces xs) (by simp [hentries, Document.entries]),
      hnamespaces]
    exact areXmlText_iff_of_writes hwrites (fun _ => id) hformats
  case relations =>
    have hinitial : ∀ r ∈ References.initial.relations, IsXmlText r.target := by decide
    rw [hread _ refs.xml (by simp [hentries, Document.entries]), areXmlText_relations_iff,
      targets_iff_of_writes hwrites fun _ => id]
    exact and_iff_right hinitial
  case facts =>
    rw [hread _ d.properties.coreXml (by simp [hentries, Document.entries])]
    exact areXmlText_coreXml_iff hlanguage

end ReportPress.Word
