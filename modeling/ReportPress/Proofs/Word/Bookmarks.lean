import ReportPress.Proofs.Document.Traversal
import ReportPress.Proofs.Word.Elements
import ReportPress.Proofs.Word.ParagraphElements

/-!
# Bookmarks in a document, and the links to them

A bookmark is two elements, one where it begins and one where it ends, with the same identifier.
A link inside a document gives the name of a bookmark.

* `IsBookmarkName` — the names that a bookmark may have.
* `Boundary`, `boundariesOf` — where bookmarks begin and end in the contents of paragraphs.
* `linkedPlaces` — where links inside the document lead to.

**Names.**  `isBookmarkName` — every anchor has such a name.

**Elements.**  `flatMap_tagsOf_of_boundaries` — a look at elements that sees bookmarks only sees
those of the boundaries.  `boundaryTags_of_writes`, `startIds_of_writes` and `stopIds_of_writes` say
what elements these are and which identifiers they have, `linkNames_of_writes` which names the
links give.

**Paragraphs.**  `exists_content_of_hasElement` — a bookmark that begins and ends in a paragraph
does so in the element of that paragraph, in this order.
-/

namespace ReportPress.Word

open Text

/-! ## Names -/

/-- A name that a bookmark may have. -/
structure IsBookmarkName (name : String) : Prop where
  length_pos : 1 ≤ name.length
  length_le : name.length ≤ 40
  first : ∃ c ∈ name.toList.head?, isLetter c = true
  others : ∀ c ∈ name.toList, isAlphanumeric c = true ∨ c = '_'

lemma bookmarkChar_cases (c : Char) :
    isAlphanumeric (bookmarkChar c) = true ∨ bookmarkChar c = '_' := by
  unfold bookmarkChar
  split_ifs with hc
  · exact Or.inl hc
  · exact Or.inr rfl

lemma isBookmarkName_ofList {cs : List Char} (hfirst : ∃ c ∈ cs.head?, isLetter c = true)
    (hlength : cs.length ≤ 40) (hothers : ∀ c ∈ cs, isAlphanumeric c = true ∨ c = '_') :
    IsBookmarkName (String.ofList cs) := by
  have hne : cs ≠ [] := by
    rintro rfl
    obtain ⟨c, hc, -⟩ := hfirst
    exact nomatch hc
  rw [← String.toList_ofList (l := cs)] at hfirst hothers
  refine ⟨?_, ?_, hfirst, hothers⟩
  · rw [String.length_ofList]
    exact List.length_pos_iff.mpr hne
  · rw [String.length_ofList]
    exact hlength

/-- Every anchor has a name that a bookmark may have. -/
theorem isBookmarkName (anchor : String) : IsBookmarkName (bookmarkName anchor) := by
  have hothers : ∀ c ∈ anchor.toList.map bookmarkChar, isAlphanumeric c = true ∨ c = '_' := by
    intro c hc
    obtain ⟨d, -, rfl⟩ := List.mem_map.mp hc
    exact bookmarkChar_cases d
  unfold bookmarkName
  dsimp only
  split_ifs with hhead
  · refine isBookmarkName_ofList ?_ (List.length_take_le _ _) ?_
    · cases hfirst : ((anchor.toList.map bookmarkChar).take maxBookmarkName).head? with
      | none =>
          rw [hfirst] at hhead
          exact nomatch hhead
      | some c =>
          rw [hfirst] at hhead
          exact ⟨c, rfl, hhead⟩
    · intro c hc
      exact hothers c (List.mem_of_mem_take hc)
  · refine isBookmarkName_ofList ⟨'b', rfl, by decide⟩ (List.length_take_le _ _) ?_
    intro c hc
    rcases List.mem_cons.mp (List.mem_of_mem_take hc) with rfl | hc
    · exact Or.inl (by decide)
    · exact hothers c (List.mem_of_mem_take hc)

/-! ## Boundaries -/

/-- Where a bookmark begins or ends. -/
inductive Boundary where
  | start (id : Nat) (anchor : String)
  | stop (id : Nat)
deriving DecidableEq

namespace Boundary

/-- The boundary in a paragraph. -/
def ofInline? : Inline → Option Boundary
  | .bookmarkStart id anchor => some (.start id anchor)
  | .bookmarkEnd id => some (.stop id)
  | _ => none

/-- The element of a boundary. -/
def tag : Boundary → Tag
  | .start id anchor =>
    ⟨"w:bookmarkStart", [.nat "w:id" id, ⟨"w:name", bookmarkName anchor, false⟩]⟩
  | .stop id => ⟨"w:bookmarkEnd", [.nat "w:id" id]⟩

/-- The identifier of a bookmark that begins. -/
def startId? : Boundary → Option Nat
  | .start id _ => some id
  | .stop _ => none

/-- The identifier of a bookmark that ends. -/
def stopId? : Boundary → Option Nat
  | .start _ _ => none
  | .stop id => some id

end Boundary

/-- Where bookmarks begin and end in the contents of paragraphs, in order. -/
def boundariesOf (inlines : List Inline) : List Boundary := inlines.filterMap Boundary.ofInline?

@[simp] lemma boundariesOf_append (before inlines : List Inline) :
    boundariesOf (before ++ inlines) = boundariesOf before ++ boundariesOf inlines :=
  List.filterMap_append

/-- The names of the elements of boundaries. -/
def boundaryNames : List String := ["w:bookmarkStart", "w:bookmarkEnd"]

section Elements

variable {S F : String → Prop} {is : List Inline} {refs refs' : References} {xs : List Xml}

/-- A look at elements that sees only bookmarks sees those of the boundaries. -/
theorem flatMap_tagsOf_of_boundaries {V : Type} {look : Tag → List V}
    (hlook : ∀ t, t.name ∉ boundaryNames → look t = []) (h : Writes S F is refs xs refs') :
    (tagsOf xs).flatMap look = ((boundariesOf is).map Boundary.tag).flatMap look := by
  have hnothing {names : List String} {xs : List Xml} (hxs : IsMadeOf names xs)
      (hnames : ∀ name ∈ names, name ∉ boundaryNames) : (tagsOf xs).flatMap look = [] :=
    List.flatMap_eq_nil_iff.mpr fun t ht => hlook t (hnames t.name (hxs t ht))
  have hlink {attributes : List Attribute} {runs : List Run} :
      (tagsOf [.element "w:hyperlink" attributes (runs.flatMap Run.xml)]).flatMap look = [] := by
    have hruns : IsMadeOf runNames (runs.flatMap Run.xml) :=
      isMadeOf_flatMap fun r _ => isMadeOf_run r
    have hall : IsMadeOf ("w:hyperlink" :: runNames)
        [.element "w:hyperlink" attributes (runs.flatMap Run.xml)] :=
      isMadeOf_element.mpr ⟨List.mem_cons_self, hruns.mono fun _ => List.mem_cons_of_mem _⟩
    exact hnothing hall (by decide)
  have hinline (i : Inline) (refs : References) : (tagsOf (i.xml.run refs).1).flatMap look
      = ((boundariesOf [i]).map Boundary.tag).flatMap look := by
    cases i with
    | run r => exact hnothing (isMadeOf_run r) (by decide)
    | link target runs =>
        cases target with
        | external address => exact hlink
        | anchor name => exact hlink
    | picture p => exact hnothing (isMadeOf_picture p refs) (by decide)
    | bookmarkStart id anchor => rfl
    | bookmarkEnd id => rfl
  have houter (t : Tag) (ht : t.name ∈ outerNames) : look t = [] := by
    have houterNames : ∀ name ∈ outerNames, name ∉ boundaryNames := by decide
    exact hlook t (houterNames t.name ht)
  rw [flatMap_tagsOf_of_writes houter hinline h]
  clear h
  induction is with
  | nil => rfl
  | cons i is ih =>
      have hcons : boundariesOf (i :: is) = boundariesOf [i] ++ boundariesOf is :=
        boundariesOf_append [i] is
      rw [List.flatMap_cons, ih, hcons, List.map_append, List.flatMap_append]

/-- The elements in which bookmarks begin and end are those of the boundaries. -/
theorem boundaryTags_of_writes (h : Writes S F is refs xs refs') :
    ((tagsOf xs).filter fun t => t.name ∈ boundaryNames)
      = (boundariesOf is).map Boundary.tag := by
  have hself : ((boundariesOf is).map Boundary.tag).filter (fun t => t.name ∈ boundaryNames)
      = (boundariesOf is).map Boundary.tag := by
    rw [List.filter_eq_self]
    intro t ht
    obtain ⟨b, -, rfl⟩ := List.mem_map.mp ht
    cases b <;> rfl
  rw [← List.flatMap_singleton' (List.filter _ (tagsOf xs)), flatMap_filter,
    flatMap_tagsOf_of_boundaries _ h]
  · rw [← flatMap_filter, List.flatMap_singleton', hself]
  · intro t ht
    rw [if_neg (by simpa using ht)]

/-- Values of attributes of such elements. -/
lemma valuesIn_of_boundaries {element key : String} (helement : element ∈ boundaryNames)
    (h : Writes S F is refs xs refs') :
    valuesIn element key xs
      = ((boundariesOf is).map Boundary.tag).flatMap (Tag.valuesOf element key) := by
  rw [valuesIn_eq_flatMap, flatMap_tagsOf_of_boundaries _ h]
  rintro t ht
  refine if_neg ?_
  rintro rfl
  exact ht helement

/-- The identifiers of bookmarks that begin. -/
lemma startIds_of_writes (h : Writes S F is refs xs refs') :
    valuesIn "w:bookmarkStart" "w:id" xs
      = ((boundariesOf is).filterMap Boundary.startId?).map toString := by
  rw [valuesIn_of_boundaries (by decide) h]
  induction boundariesOf is with
  | nil => rfl
  | cons b bs ih =>
      rw [List.map_cons, List.flatMap_cons, ih]
      cases b <;> rfl

/-- The identifiers of bookmarks that end. -/
lemma stopIds_of_writes (h : Writes S F is refs xs refs') :
    valuesIn "w:bookmarkEnd" "w:id" xs
      = ((boundariesOf is).filterMap Boundary.stopId?).map toString := by
  rw [valuesIn_of_boundaries (by decide) h]
  induction boundariesOf is with
  | nil => rfl
  | cons b bs ih =>
      rw [List.map_cons, List.flatMap_cons, ih]
      cases b <;> rfl

end Elements

/-! ## Paragraphs -/

/-- A bookmark that begins and ends in a paragraph does so in its element. -/
theorem exists_content_of_hasElement {p : Paragraph} {xs : List Xml} (h : HasElement p xs)
    {front back : List Inline} (hp : p.inlines = front ++ back) {id : Nat}
    (hstart : id ∈ (boundariesOf front).filterMap Boundary.startId?)
    (hstop : id ∈ (boundariesOf back).filterMap Boundary.stopId?) :
    ∃ before after, before ++ after ∈ contentsOf "w:p" xs ∧
      toString id ∈ valuesIn "w:bookmarkStart" "w:id" before ∧
        toString id ∈ valuesIn "w:bookmarkEnd" "w:id" after := by
  obtain ⟨properties, refs, hcontent⟩ := h
  let middle := ((front.mapM Inline.xml).run refs).2
  have hfront : Writes (fun _ => True) (fun _ => True) front refs
      ((front.mapM Inline.xml).run refs).1.flatten middle := writes_inlines front refs
  have hback : Writes (fun _ => True) (fun _ => True) back middle
      ((back.mapM Inline.xml).run middle).1.flatten _ := writes_inlines back middle
  rw [hp, run_mapM_append, List.flatten_append, ← List.append_assoc] at hcontent
  refine ⟨_, _, hcontent, ?_, ?_⟩
  · rw [valuesIn_append, startIds_of_writes hfront, List.mem_append]
    exact Or.inr (List.mem_map_of_mem hstart)
  · rw [stopIds_of_writes hback]
    exact List.mem_map_of_mem hstop

/-! ## Links -/

/-- Where a link inside the document leads to. -/
def linkedPlace? : Inline → Option String
  | .link (.anchor name) _ => some name
  | _ => none

/-- Where the links inside the document lead to, in order. -/
def linkedPlaces (inlines : List Inline) : List String := inlines.filterMap linkedPlace?

/-- A link gives the name for the place that it leads to. -/
lemma linkNames_inline (i : Inline) (refs : References) :
    valuesIn "w:hyperlink" "w:anchor" (i.xml.run refs).1
      = ((linkedPlace? i).map bookmarkName).toList := by
  have hruns (runs : List Run) (attributes : List Attribute) :
      valuesIn "w:hyperlink" "w:anchor" [.element "w:hyperlink" attributes (runs.flatMap Run.xml)]
        = (attributes.filter fun a => a.name = "w:anchor").map (·.value) := by
    have hnone : valuesIn "w:hyperlink" "w:anchor" (runs.flatMap Run.xml) = [] :=
      valuesIn_of_isMadeOf (isMadeOf_flatMap fun r _ => isMadeOf_run r) (by decide)
    rw [valuesIn_element_self, hnone, List.append_nil]
  cases i with
  | run r => exact valuesIn_of_isMadeOf (isMadeOf_run r) (by decide)
  | link target runs =>
      cases target with
      | external address => exact hruns runs _
      | anchor name => exact hruns runs _
  | picture p => exact valuesIn_of_isMadeOf (isMadeOf_picture p refs) (by decide)
  | bookmarkStart id anchor => rfl
  | bookmarkEnd id => rfl

/-- The links inside a document give the names for the places that they lead to. -/
theorem linkNames_of_writes {S F : String → Prop} {is : List Inline} {refs refs' : References}
    {xs : List Xml} (h : Writes S F is refs xs refs') :
    valuesIn "w:hyperlink" "w:anchor" xs = (linkedPlaces is).map bookmarkName := by
  rw [valuesIn_of_writes (by decide) linkNames_inline h, linkedPlaces,
    List.filterMap_eq_flatMap_toList, List.map_flatMap]
  congr 1
  funext i
  cases linkedPlace? i <;> rfl

/-! ## The text of a document -/

section Body

variable (d : Document) (refs : References)

lemma boundaryTags_body :
    ((tagsOf [((bodyXml d).run refs).1]).filter fun t => t.name ∈ boundaryNames)
      = (boundariesOf d.inlines).map Boundary.tag := by
  obtain ⟨xs, hbody, hwrites⟩ := d.exists_writes_body refs
  rw [hbody, tagsOf, tagsOf, List.append_nil, Xml.tags, List.filter_cons_of_neg (by decide),
    boundaryTags_of_writes hwrites]

lemma startIds_body : valuesIn "w:bookmarkStart" "w:id" [((bodyXml d).run refs).1]
    = ((boundariesOf d.inlines).filterMap Boundary.startId?).map toString := by
  obtain ⟨xs, hbody, hwrites⟩ := d.exists_writes_body refs
  rw [hbody, valuesIn_element (by decide), startIds_of_writes hwrites]

lemma stopIds_body : valuesIn "w:bookmarkEnd" "w:id" [((bodyXml d).run refs).1]
    = ((boundariesOf d.inlines).filterMap Boundary.stopId?).map toString := by
  obtain ⟨xs, hbody, hwrites⟩ := d.exists_writes_body refs
  rw [hbody, valuesIn_element (by decide), stopIds_of_writes hwrites]

lemma linkNames_body : valuesIn "w:hyperlink" "w:anchor" [((bodyXml d).run refs).1]
    = (linkedPlaces d.inlines).map bookmarkName := by
  obtain ⟨xs, hbody, hwrites⟩ := d.exists_writes_body refs
  rw [hbody, valuesIn_element (by decide), linkNames_of_writes hwrites]

end Body

end ReportPress.Word
