import ReportPress.Proofs.Word.Elements
import ReportPress.Proofs.Word.Soundness

/-!
# The texts of a body as they are read

* `Inline.texts` — the texts of the runs in the contents of a paragraph, those under links
  included, as far as they are not empty.
* `shownTextsOf` — the texts of the `w:t` elements of trees, but for the content control with the
  table of contents.

`shownTextsOf_of_writes` — whatever is written for contents of paragraphs shows the texts of their
runs, each as it is, in their order and nothing else.  Reading keeps what is shown
(`shownTextsOf_allAsRead`).
-/

namespace ReportPress.Word

variable {S F : String → Prop} {xs : List Xml}

/-- The texts of the runs, without those that are empty. -/
def Inline.texts (i : Inline) : List String := (i.runs.map Run.text).filter fun s => !s.isEmpty

/-! ## Texts -/

mutual

/-- The characters in a tree. -/
def characters : Xml → List Char
  | .text s => s.toList
  | .element _ _ children => charactersOf children
  | .empty _ _ => []

/-- The characters in trees. -/
def charactersOf : List Xml → List Char
  | [] => []
  | x :: xs => characters x ++ charactersOf xs

end

mutual

/-- What the text elements of a tree show, those in content controls left out. -/
def shownTexts : Xml → List String
  | .text _ => []
  | .element name _ children =>
    if name = "w:sdt" then []
    else if name = "w:t" then [String.ofList (charactersOf children)]
    else shownTextsOf children
  | .empty name _ => if name = "w:t" then [""] else []

/-- What the text elements of trees show. -/
def shownTextsOf : List Xml → List String
  | [] => []
  | x :: xs => shownTexts x ++ shownTextsOf xs

end

@[simp] lemma shownTextsOf_append : ∀ xs ys : List Xml,
    shownTextsOf (xs ++ ys) = shownTextsOf xs ++ shownTextsOf ys
  | [], ys => by simp [shownTextsOf]
  | x :: xs, ys => by
      rw [List.cons_append, shownTextsOf, shownTextsOf, shownTextsOf_append, List.append_assoc]

lemma charactersOf_append : ∀ xs ys : List Xml,
    charactersOf (xs ++ ys) = charactersOf xs ++ charactersOf ys
  | [], ys => by simp [charactersOf]
  | x :: xs, ys => by
      rw [List.cons_append, charactersOf, charactersOf, charactersOf_append, List.append_assoc]

/-- Other elements show what is in them. -/
lemma shownTextsOf_element {name : String} {attributes : List Attribute} (hsdt : name ≠ "w:sdt")
    (ht : name ≠ "w:t") : shownTextsOf [.element name attributes xs] = shownTextsOf xs := by
  simp [shownTextsOf, shownTexts, hsdt, ht]

mutual

lemma shownTexts_of_isMadeOf {names : List String} (hn : "w:t" ∉ names) : ∀ x : Xml,
    IsMadeOf names [x] → shownTexts x = []
  | .text s, _ => by rw [shownTexts]
  | .empty name attributes, h => by
      have hname : name ≠ "w:t" := fun e => hn (e ▸ isMadeOf_empty.mp h)
      rw [shownTexts, if_neg hname]
  | .element name attributes children, h => by
      obtain ⟨hmem, hchildren⟩ := isMadeOf_element.mp h
      have hname : name ≠ "w:t" := fun e => hn (e ▸ hmem)
      rw [shownTexts, if_neg hname, shownTextsOf_of_isMadeOf hn children hchildren, ite_self]

/-- Where there are no text elements nothing is shown. -/
lemma shownTextsOf_of_isMadeOf {names : List String} (hn : "w:t" ∉ names) : ∀ xs : List Xml,
    IsMadeOf names xs → shownTextsOf xs = []
  | [], _ => by rw [shownTextsOf]
  | x :: xs, h => by
      obtain ⟨hx, hxs⟩ := isMadeOf_cons.mp h
      rw [shownTextsOf, shownTexts_of_isMadeOf hn x hx, shownTextsOf_of_isMadeOf hn xs hxs]
      rfl

end

/-- A run shows its text, if it has any. -/
lemma shownTextsOf_run {r : Run} (h : r.content ≠ .pageNumber) :
    shownTextsOf r.xml = [r.text].filter fun s => !s.isEmpty := by
  have hformat : shownTextsOf r.format.xml = [] :=
    shownTextsOf_of_isMadeOf (by decide) _ (isMadeOf_runFormat r.format)
  have hbreak : shownTextsOf (whenSet r.breakBefore (.tag "w:br")) = [] := by
    have hmade : IsMadeOf ["w:br"] (whenSet r.breakBefore (.tag "w:br")) :=
      isMadeOf_whenSet (by simp) _
    exact shownTextsOf_of_isMadeOf (by decide) _ hmade
  have hcontent :
      shownTextsOf (Run.contentXml r.content) = [r.text].filter fun s => !s.isEmpty := by
    cases hc : r.content with
    | text s =>
        rw [Run.contentXml, Run.text, hc]
        cases hs : s.isEmpty with
        | true => simp [hs, shownTextsOf]
        | false => simp [hs, Run.preserved, shownTextsOf, shownTexts, charactersOf, characters]
    | pageNumber => exact absurd hc h
    | pageBreak => simp [Run.contentXml, Run.text, hc, shownTextsOf, shownTexts]
  have hxml : r.xml = [.plain "w:r" (r.format.xml ++ whenSet r.breakBefore (.tag "w:br") ++
      Run.contentXml r.content)] := by
    rw [Run.xml]
    split
    · exact absurd ‹_› h
    · rfl
  rw [hxml, Xml.plain, shownTextsOf_element (by decide) (by decide), shownTextsOf_append,
    shownTextsOf_append, hformat, hbreak, hcontent]
  rfl

lemma shownTextsOf_runs {runs : List Run} (h : ∀ r ∈ runs, r.content ≠ .pageNumber) :
    shownTextsOf (runs.flatMap Run.xml) = (runs.map Run.text).filter fun s => !s.isEmpty := by
  induction runs with
  | nil => rfl
  | cons r runs ih =>
      rw [List.flatMap_cons, shownTextsOf_append, shownTextsOf_run (h r (by simp)),
        ih fun s hs => h s (List.mem_cons_of_mem r hs), ← List.filter_append]
      rfl

lemma shownTextsOf_inline {i : Inline} (h : ∀ r ∈ i.runs, r.content ≠ .pageNumber)
    (refs : References) : shownTextsOf (i.xml.run refs).1 = i.texts := by
  cases i with
  | run r => exact shownTextsOf_run (h r (by simp [Inline.runs]))
  | link target runs =>
      have hruns : shownTextsOf (runs.flatMap Run.xml) = (Inline.link target runs).texts :=
        shownTextsOf_runs h
      cases target with
      | external address => exact (shownTextsOf_element (by decide) (by decide)).trans hruns
      | anchor name => exact (shownTextsOf_element (by decide) (by decide)).trans hruns
  | picture p => exact shownTextsOf_of_isMadeOf (by decide) _ (isMadeOf_picture p refs)
  | bookmarkStart id anchor => rfl
  | bookmarkEnd id => rfl

lemma shownTextsOf_fixed (h : IsFixed S xs) : shownTextsOf xs = [] := by
  cases h with
  | style _ => rfl
  | format f => exact shownTextsOf_of_isMadeOf (by decide) _ (isMadeOf_format f)
  | tableProperties width =>
      exact shownTextsOf_of_isMadeOf (by decide) _ (isMadeOf_tableProperties _)
  | grid columns width => exact shownTextsOf_of_isMadeOf (by decide) _ (isMadeOf_grid _ _)
  | cellWidth width => exact shownTextsOf_of_isMadeOf (by decide) _ (isMadeOf_cellWidth _)
  | cellEnd => rfl
  | headerMark => exact shownTextsOf_of_isMadeOf (by decide) _ isMadeOf_headerMark
  | contents _ => rfl

/-- What is written for contents of paragraphs shows the texts of their runs. -/
theorem shownTextsOf_of_writes {is : List Inline} {refs refs' : References}
    (h : Writes S F is refs xs refs') (hruns : ∀ i ∈ is, ∀ r ∈ i.runs, r.content ≠ .pageNumber) :
    shownTextsOf xs = is.flatMap Inline.texts := by
  induction h with
  | nil refs => rfl
  | append _ _ ih ih' =>
      rw [shownTextsOf_append, ih fun i hi => hruns i (List.mem_append_left _ hi),
        ih' fun i hi => hruns i (List.mem_append_right _ hi), List.flatMap_append]
  | inline i refs => simpa using shownTextsOf_inline (hruns i (by simp)) refs
  | fixed refs h => exact shownTextsOf_fixed h
  | frame hname _ ih =>
      rw [Xml.plain, shownTextsOf_element, ih hruns]
      · rintro rfl
        exact absurd hname (by decide)
      · rintro rfl
        exact absurd hname (by decide)
  | footer refs _ => rfl
  | setup setup _ => exact shownTextsOf_of_isMadeOf (by decide) _ (isMadeOf_setup setup _)

/-! ## Reading keeps what is shown -/

mutual

lemma charactersOf_asRead : ∀ x : Xml, charactersOf x.asRead = characters x
  | .text s => by
      have hmap : ∀ cs : List Char,
          charactersOf (cs.map fun c => .text (String.singleton c)) = cs := by
        intro cs
        induction cs with
        | nil => rfl
        | cons c cs ih => simp [charactersOf, characters, ih]
      rw [Xml.asRead, characters, hmap]
  | .element name attributes children => by
      simp [Xml.asRead, charactersOf, characters, charactersOf_allAsRead children]
  | .empty name attributes => by simp [Xml.asRead, charactersOf, characters]

lemma charactersOf_allAsRead : ∀ xs : List Xml, charactersOf (allAsRead xs) = charactersOf xs
  | [] => rfl
  | x :: xs => by
      rw [allAsRead, charactersOf_append, charactersOf_asRead x, charactersOf_allAsRead xs,
        charactersOf]

end

mutual

lemma shownTextsOf_asRead : ∀ x : Xml, shownTextsOf x.asRead = shownTexts x
  | .text s => by
      have hmap : ∀ cs : List Char,
          shownTextsOf (cs.map fun c => .text (String.singleton c)) = [] := by
        intro cs
        induction cs with
        | nil => rfl
        | cons c cs ih => simp [shownTextsOf, shownTexts, ih]
      rw [Xml.asRead, shownTexts, hmap]
  | .element name attributes children => by
      simp [Xml.asRead, shownTextsOf, shownTexts, charactersOf_allAsRead,
        shownTextsOf_allAsRead children]
  | .empty name attributes => by simp [Xml.asRead, shownTextsOf, shownTexts]

/-- Trees as they are read show what the trees show. -/
theorem shownTextsOf_allAsRead : ∀ xs : List Xml, shownTextsOf (allAsRead xs) = shownTextsOf xs
  | [] => rfl
  | x :: xs => by
      rw [allAsRead, shownTextsOf_append, shownTextsOf_asRead x, shownTextsOf_allAsRead xs,
        shownTextsOf]

end

end ReportPress.Word
