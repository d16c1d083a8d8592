import ReportPress.Proofs.Word.Writing
import ReportPress.Proofs.Xml.Reading

/-!
# The elements of a body

* `Run.IsSafe` — runs whose colour and language, which are written as they are, hold no markup.
* `referenceKind?` — what an attribute of an element refers to.
* `bodyRule` — the elements of a body: they can be read, and a reference stands nowhere but where
  its kind is known.

**Soundness.**  `areSound_of_writes` — whatever is written for safe runs is of this kind.
-/

namespace ReportPress.Word

/-! ## Runs -/

/-- The runs in the contents of a paragraph. -/
def Inline.runs : Inline → List Run
  | .run r => [r]
  | .link _ runs => runs
  | _ => []

/-- The names in a format. -/
def RunFormat.names (f : RunFormat) : List String :=
  f.style.toList ++ f.font.toList ++ f.color.toList ++ f.language.toList

/-- A run whose colour and language hold no markup. -/
structure Run.IsSafe (r : Run) : Prop where
  color : ∀ s, r.format.color = some s → HasNoMarkup s
  language : ∀ s, r.format.language = some s → HasNoMarkup s

/-- Contents of a paragraph whose runs are safe. -/
def Inline.IsSafe (i : Inline) : Prop := ∀ r ∈ i.runs, r.IsSafe

/-! ## The rule -/

/-- The attributes that refer to something outside the text. -/
def referenceKeys : List String := ["r:id", "r:embed"]

/-- What an attribute of an element refers to. -/
def referenceKind? (element key : String) : Option RelationKind :=
  if element = "w:footerReference" ∧ key = "r:id" then some .footer
  else if element = "w:hyperlink" ∧ key = "r:id" then some .hyperlink
  else if element = "a:blip" ∧ key = "r:embed" then some .image
  else none

/-- The elements that a body may have, with the keys of their attributes. -/
def bodyRule (element : String) (keys : List String) : Bool :=
  areNames element keys &&
    keys.all fun key => key ∉ referenceKeys || (referenceKind? element key).isSome

lemma areNames_of_bodyRule {element : String} {keys : List String}
    (h : bodyRule element keys = true) : areNames element keys = true :=
  (Bool.and_eq_true_iff.mp h).1

/-- Attributes that refer to something stand where the kind of it is known. -/
lemma exists_referenceKind_of_bodyRule {element key : String} {keys : List String}
    (h : bodyRule element keys = true) (hkey : key ∈ keys) (hreference : key ∈ referenceKeys) :
    ∃ kind, referenceKind? element key = some kind := by
  have hall := List.all_eq_true.mp (Bool.and_eq_true_iff.mp h).2 key hkey
  simp only [hreference, not_true, decide_false, Bool.false_or] at hall
  exact Option.isSome_iff_exists.mp hall

/-! ## Soundness -/

variable {S F : String → Prop} {xs : List Xml}

lemma areSound_optional {α : Type} {make : α → List Xml} {o : Option α}
    (h : ∀ a, o = some a → AreSound bodyRule (make a)) : AreSound bodyRule (optional make o) := by
  cases o with
  | none => exact areSound_nil
  | some a => exact h a rfl

lemma areSound_whenSet {x : Xml} (h : AreSound bodyRule [x]) (flag : Bool) :
    AreSound bodyRule (whenSet flag x) := by
  cases flag with
  | false => exact areSound_nil
  | true => exact h

/-- An element with one value that is written as it is. -/
lemma areSound_verbatim {name value : String} (hname : bodyRule name ["w:val"] = true)
    (h : HasNoMarkup value) : AreSound bodyRule [.empty name [⟨"w:val", value, true⟩]] :=
  areSound_empty.mpr ⟨hname, by simpa using h⟩

lemma areSound_runFormat {r : Run} (h : r.IsSafe) : AreSound bodyRule r.format.xml := by
  have hchildren : AreSound bodyRule r.format.children := by
    simp only [RunFormat.children, areSound_append]
    refine ⟨⟨⟨⟨⟨⟨?_, ?_⟩, ?_⟩, ?_⟩, ?_⟩, ?_⟩, ?_⟩
    · exact areSound_optional fun s _ => areSound_val.mpr (by decide)
    · refine areSound_optional fun s _ => ?_
      simp [fontXml]
      decide
    · exact areSound_whenSet (areSound_tag.mpr (by decide)) _
    · exact areSound_whenSet (areSound_tag.mpr (by decide)) _
    · exact areSound_optional fun s hs => areSound_verbatim (by decide) (h.color s hs)
    · refine areSound_optional fun n _ => areSound_cons.mpr ⟨?_, ?_⟩
      · exact areSound_val.mpr (by decide)
      · exact areSound_val.mpr (by decide)
    · exact areSound_optional fun s hs => areSound_verbatim (by decide) (h.language s hs)
  rw [RunFormat.xml]
  split_ifs
  · exact areSound_nil
  · exact areSound_plain.mpr ⟨by decide, hchildren⟩

lemma areSound_preserved {name : String} (h : bodyRule name ["xml:space"] = true) (s : String) :
    AreSound bodyRule [Run.preserved name s] := by
  simpa [Run.preserved] using h

lemma areSound_fieldMark (kind : String) : AreSound bodyRule [Run.fieldMark kind] := by
  simp [Run.fieldMark]
  decide

lemma areSound_run {r : Run} (h : r.IsSafe) : AreSound bodyRule r.xml := by
  have hformat := areSound_runFormat h
  have hcontent (c : RunContent) : AreSound bodyRule (Run.contentXml c) := by
    cases c with
    | text s =>
        rw [Run.contentXml]
        split_ifs
        · exact areSound_nil
        · exact areSound_preserved (by decide) s
    | pageNumber => exact areSound_nil
    | pageBreak =>
        simp [Run.contentXml]
        decide
  have hrun {children : List Xml} (h : AreSound bodyRule children) :
      AreSound bodyRule [.plain "w:r" (r.format.xml ++ children)] :=
    areSound_plain.mpr ⟨by decide, areSound_append.mpr ⟨hformat, h⟩⟩
  rw [Run.xml]
  split
  · have hnumber : AreSound bodyRule [.plain "w:t" [.text "1"]] :=
      areSound_plain.mpr ⟨by decide, areSound_text _⟩
    simp only [areSound_cons_cons]
    exact ⟨areSound_fieldMark _, hrun (areSound_preserved (by decide) _), areSound_fieldMark _,
      hrun hnumber, areSound_fieldMark _⟩
  · rw [List.append_assoc]
    refine hrun (areSound_append.mpr ⟨?_, hcontent _⟩)
    exact areSound_whenSet (areSound_tag.mpr (by decide)) _

lemma areSound_runs {runs : List Run} (h : ∀ r ∈ runs, r.IsSafe) :
    AreSound bodyRule (runs.flatMap Run.xml) := by
  induction runs with
  | nil => exact areSound_nil
  | cons r runs ih =>
      rw [List.flatMap_cons, areSound_append]
      exact ⟨areSound_run (h r (by simp)), ih fun s hs => h s (List.mem_cons_of_mem r hs)⟩

lemma areSound_picture (p : Picture) (refs : References) :
    AreSound bodyRule [(p.xml.run refs).1] := by
  have hgraphic (id : String) (number : Nat) : AreSound bodyRule [p.graphic id number] := by
    simp [Picture.graphic, Picture.extent, Picture.identity]
    decide
  refine areSound_plain.mpr ⟨by decide, areSound_plain.mpr ⟨by decide, ?_⟩⟩
  simp [Picture.extent, Picture.identity, hgraphic]
  decide

lemma areSound_inline {i : Inline} (h : i.IsSafe) (refs : References) :
    AreSound bodyRule (i.xml.run refs).1 := by
  have hlink {key value : String} {runs : List Run} (hruns : ∀ r ∈ runs, r.IsSafe)
      (hname : bodyRule "w:hyperlink" [key, "w:history"] = true) :
      AreSound bodyRule [.element "w:hyperlink" [⟨key, value, false⟩, .nat "w:history" 1]
        (runs.flatMap Run.xml)] := by
    refine areSound_element.mpr ⟨?_, areSound_runs hruns⟩
    simpa using hname
  cases i with
  | run r => exact areSound_run (h r (by simp [Inline.runs]))
  | link target runs =>
      cases target with
      | external address => exact hlink h (by decide)
      | anchor name => exact hlink h (by decide)
  | picture p => exact areSound_picture p refs
  | bookmarkStart id anchor =>
      refine areSound_empty.mpr ?_
      simp
      decide
  | bookmarkEnd id =>
      refine areSound_empty.mpr ?_
      simp
      decide

/-- Spacing and indents have an attribute for each length that is given. -/
lemma areSound_format (f : ParagraphFormat) : AreSound bodyRule f.children := by
  simp only [ParagraphFormat.children, areSound_append]
  refine ⟨⟨⟨⟨?_, ?_⟩, ?_⟩, ?_⟩, ?_⟩
  · exact areSound_whenSet (areSound_tag.mpr (by decide)) _
  · refine areSound_optional fun n _ => areSound_plain.mpr ⟨by decide, areSound_cons.mpr ⟨?_, ?_⟩⟩
    · exact areSound_val.mpr (by decide)
    · exact areSound_val.mpr (by decide)
  · cases f.spaceBefore <;> cases f.spaceAfter <;> cases f.line <;> simp [spacingXml] <;> decide
  · have hname (n : Int) : (firstLineAttribute n).verbatim = false ∧
        ((firstLineAttribute n).name = "w:firstLine" ∨
          (firstLineAttribute n).name = "w:hanging") := by
      unfold firstLineAttribute
      split_ifs <;> simp
    cases hleft : f.indentLeft with
    | none =>
        cases hfirst : f.indentFirstLine with
        | none => simp [indentXml]
        | some n =>
            obtain ⟨hverbatim, hn | hn⟩ := hname n <;> simp [indentXml, hverbatim, hn] <;> decide
    | some m =>
        cases hfirst : f.indentFirstLine with
        | none => simp [indentXml]; decide
        | some n =>
            obtain ⟨hverbatim, hn | hn⟩ := hname n <;> simp [indentXml, hverbatim, hn] <;> decide
  · exact areSound_optional fun a _ => areSound_val.mpr (by decide)

lemma areSound_fixed (h : IsFixed S xs) : AreSound bodyRule xs := by
  cases h with
  | style _ => exact areSound_val.mpr (by decide)
  | format f => exact areSound_format f
  | tableProperties width =>
      simp [tableProperties, borderXml]
      decide
  | grid columns width =>
      have hcolumns : ∀ n,
          AreSound bodyRule (List.replicate n (.empty "w:gridCol" [.nat "w:w" width])) := by
        intro n
        induction n with
        | zero => exact areSound_nil
        | succ n ih => exact areSound_cons.mpr ⟨by simp; decide, ih⟩
      exact areSound_plain.mpr ⟨by decide, hcolumns columns⟩
  | cellWidth width =>
      simp [cellWidthXml]
      decide
  | cellEnd => exact areSound_tag.mpr (by decide)
  | headerMark =>
      simp [headerMark]
      decide
  | @contents field _ =>
      have hlabel : AreSound bodyRule (optional (fun a => [.val "w:alias" a]) field.label) :=
        areSound_optional fun s _ => areSound_val.mpr (by decide)
      simp [ContentsField.xml, Run.fieldMark, Run.preserved, hlabel]
      decide

lemma areSound_setup (s : PageSetup) (footerId : String) : AreSound bodyRule [s.xml footerId] := by
  rw [PageSetup.xml]
  cases s.pageStart <;> simp <;> decide

/-- What is written for safe runs can be read. -/
theorem areSound_of_writes {is : List Inline} {refs refs' : References}
    (h : Writes S F is refs xs refs') (hsafe : ∀ i ∈ is, i.IsSafe) : AreSound bodyRule xs := by
  induction h with
  | nil refs => exact areSound_nil
  | append _ _ ih ih' =>
      exact areSound_append.mpr ⟨ih fun i hi => hsafe i (List.mem_append_left _ hi),
        ih' fun i hi => hsafe i (List.mem_append_right _ hi)⟩
  | inline i refs => exact areSound_inline (hsafe i (by simp)) refs
  | fixed refs h => exact areSound_fixed h
  | @frame name _ _ _ _ hname _ ih =>
      have hnames : ∀ name ∈ frameNames, bodyRule name [] = true := by decide
      exact areSound_plain.mpr ⟨hnames name hname, ih hsafe⟩
  | footer refs _ => exact areSound_nil
  | setup setup _ => exact areSound_setup setup _

end ReportPress.Word
