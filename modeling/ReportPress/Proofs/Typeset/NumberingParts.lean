import ReportPress.Proofs.Typeset.BodyText
import ReportPress.Proofs.Typeset.ItemNumbering
import ReportPress.Proofs.Typeset.LevelRange
import ReportPress.Proofs.Typeset.Outcome
import ReportPress.Proofs.Word.Numbering

/-!
# The numbering of a report in its package

Definitions are made and levels added to them while a report is set.  In the end there is one
definition for each list that is not part of another, with all its levels, and whatever number and
level the text names is there.

* `placeOf` — the number of the outermost list of an item, and the depth of the item in it.
* `IsPlaced` — what is true of the paragraph of an item: it names this place.

**The document.**  `numbersOf_typeset` — the numbers of a document are those of the items, and there
is a list for each of them (`number_le_of_typeset`).

**The package.**  `numbering_typeset` — the part with the definitions has all that the text names,
each once.
-/

namespace ReportPress.Typeset

open Inline

variable {files : Files} {directory : Path} {making : Making} {tools : Tools}
  {d : ResolvedDocument} {doc : Word.Document}

/-- The number of the outermost list of an item, and the depth of the item in it. -/
def placeOf (i : PlacedItem Runes) : Nat × Nat := (i.number, i.item.depth)

/-- The paragraph of an item has its place and shows its text. -/
structure IsPlaced (i : PlacedItem Runes) (p : Word.Paragraph) : Prop where
  place : p.format.numbering = some (placeOf i)
  shows : ShowsRunes (withoutBreaks p.inlines) i.item.text

/-- The numbered paragraphs are those of the items. -/
lemma forall₂_isPlaced (h : typeset files directory making d tools = .ok doc) :
    List.Forall₂ IsPlaced d.placedItems
      (doc.paragraphs.filter fun p => p.format.numbering.isSome) := by
  obtain ⟨-, hparagraphs⟩ := typeset_follows numbered h
  obtain ⟨-, hseen⟩ := (documentActs_covers d).numbered {}
  rw [← hparagraphs] at hseen
  refine (forall₂_of_numbered hseen).imp fun i p hip => ?_
  obtain ⟨n, hn, hplace, hshows⟩ := hip
  exact ⟨hn.trans (congrArg some hplace), hshows⟩

/-- The numbers of a document are the places of the items. -/
lemma numbersOf_typeset (h : typeset files directory making d tools = .ok doc) :
    Word.numbersOf doc.paragraphs = d.placedItems.map placeOf := by
  have hfilter (ps : List Word.Paragraph) : Word.numbersOf ps
      = (ps.filter fun p => p.format.numbering.isSome).filterMap fun p => p.format.numbering := by
    rw [Word.numbersOf, List.filterMap_filter]
    congr 1
    funext p
    cases p.format.numbering <;> rfl
  have hplaces {items : List (PlacedItem Runes)} {ps : List Word.Paragraph}
      (hip : List.Forall₂ IsPlaced items ps) :
      ps.filterMap (fun p => p.format.numbering) = items.map placeOf := by
    induction hip with
    | nil => rfl
    | cons hip _ ih => rw [List.filterMap_cons, hip.place, ih, List.map_cons]
  rw [hfilter, hplaces (forall₂_isPlaced h)]

/-- No number of a document is greater than the number of lists in the report, so they all fit in 32
bits whenever that does. -/
theorem number_le_of_typeset (h : typeset files directory making d tools = .ok doc) :
    ∀ n ∈ Word.numbersOf doc.paragraphs, n.1 ≤ d.lists.length := by
  intro n hn
  rw [numbersOf_typeset h] at hn
  obtain ⟨i, hi, rfl⟩ := List.mem_map.mp hn
  obtain ⟨-, k, hk, hlist⟩ := getElem?_of_mem_placedItems hi
  obtain ⟨hlt, -⟩ := List.getElem?_eq_some_iff.mp hlist
  rw [placeOf, hk]
  omega

/-- The definitions of a document are those of the lists. -/
lemma definitions_typeset (h : typeset files directory making d tools = .ok doc) :
    doc.definitions = d.lists.map levelsOf := by
  obtain ⟨hdefinitions, -⟩ := typeset_follows numbered h
  obtain ⟨hmade, -⟩ := (documentActs_covers d).numbered {}
  exact hdefinitions.trans hmade

/-- The place of an item is defined. -/
lemma isDefined_placeOf {i : PlacedItem Runes} (hi : i ∈ d.placedItems) :
    Word.IsDefined (d.lists.map levelsOf) (placeOf i) := by
  obtain ⟨hitem, k, hk, hlist⟩ := getElem?_of_mem_placedItems hi
  have hdefinition : (d.lists.map levelsOf)[k]? = some (levelsOf i.list) := by
    rw [List.getElem?_map, hlist, Option.map_some]
  have hlevels := (isDefinitionOf_levelsOf i.list).levels
  refine ⟨k, levelsOf i.list, hk.trans (Nat.add_comm 1 k), hdefinition, ?_, ?_⟩
  · rw [hlevels]
    exact List.nodup_range
  · obtain ⟨first, hfirst⟩ := ItemList.exists_firstStyle? hitem
    have hlevel := levelAt?_levelsOf i.list i.item.depth
    rw [hfirst, Option.map_some, Option.map_eq_some_iff] at hlevel
    obtain ⟨level, hlevel, -⟩ := hlevel
    have hdepth : level.level = i.item.depth := of_decide_eq_true (List.find?_some hlevel :)
    exact List.mem_map.mpr ⟨level, List.mem_of_find?_eq_some hlevel, hdepth⟩

/-- A document has one definition for each list of its report that is not part of another, with the
levels of that, and its numbered paragraphs are those of the items.  In the package the text names
the places of the items, also as it is read if the runs are safe, and the definitions and instances
have each of them once. -/
theorem numbering_typeset (h : typeset files directory making d tools = .ok doc) :
    List.Forall₂ IsDefinitionOf d.lists doc.definitions ∧
      List.Forall₂ IsPlaced d.placedItems
        (doc.paragraphs.filter fun p => p.format.numbering.isSome) ∧
      ∃ entries body attributes definitions instances, doc.package = .ok entries ∧
        ⟨"word/document.xml", .text (Xml.part body)⟩ ∈ entries ∧
        Word.NamesNumbers (d.placedItems.map placeOf) body ∧
        ((∀ i ∈ doc.inlines, i.IsSafe) → ∃ read, Word.IsPart entries "word/document.xml" read ∧
          Word.NamesNumbers (d.placedItems.map placeOf) read) ∧
        Word.IsPart entries "word/numbering.xml"
          (.element "w:numbering" attributes (definitions ++ instances)) ∧
        Word.DefinesNumbers (d.placedItems.map placeOf) definitions instances := by
  have hdefinitions := definitions_typeset h
  have hnumbers := numbersOf_typeset h
  refine ⟨?_, forall₂_isPlaced h, ?_⟩
  · rw [hdefinitions, List.forall₂_map_right_iff]
    exact List.forall₂_same.mpr fun l _ => isDefinitionOf_levelsOf l
  · rw [← hnumbers]
    refine Word.exists_numberedParts doc fun n hn => ?_
    rw [hnumbers] at hn
    obtain ⟨i, hi, rfl⟩ := List.mem_map.mp hn
    rw [hdefinitions]
    exact isDefined_placeOf hi

/-- A list with lists in it to a depth of two, and another list in a table. -/
def nestedReport : RawDocument :=
  let deepest : Entry String := .list { ordered := true } [.item "c"]
  let nested : ItemList String :=
    ⟨{ ordered := true, start := 3 },
      [.item "a", .list { ordered := false } [.item "b", deepest], .item "d"]⟩
  let nodes : List (Node String) :=
    [.list nested, .table none [[.list ⟨{ ordered := false }, [.item "e"]⟩]] false]
  { sections := [{ pageStart := some 1, nodes }], settings := {} }

lemma exists_typeset_nestedReport :
    ∃ doc, typeset {} ⟨"/"⟩ ⟨0, 0⟩ ((resolveDocument nestedReport).run 0).1 = .ok doc := by
  have hends : EndsWith _
      (typeset {} ⟨"/"⟩ ⟨0, 0⟩ ((resolveDocument nestedReport).run 0).1) :=
    endsWith_typeset readsBySignature_pixelSize? fun level hlevel => nomatch hlevel
  exact hends.exists_eq_ok

/-- The places of its items are named in the package as it is read, and defined in it. -/
theorem numbering_typeset_nestedReport :
    let places := [(1, 0), (1, 1), (1, 2), (1, 0), (2, 0)]
    ∃ doc, typeset {} ⟨"/"⟩ ⟨0, 0⟩ ((resolveDocument nestedReport).run 0).1 = .ok doc ∧
      ∃ entries body attributes definitions instances, doc.package = .ok entries ∧
        Word.IsPart entries "word/document.xml" body ∧ Word.NamesNumbers places body ∧
        Word.IsPart entries "word/numbering.xml"
          (.element "w:numbering" attributes (definitions ++ instances)) ∧
        Word.DefinesNumbers places definitions instances := by
  obtain ⟨doc, hset⟩ := exists_typeset_nestedReport
  obtain ⟨-, -, entries, -, attributes, definitions, instances, hpackage, -, -, hread, hpart,
    hdefines⟩ := numbering_typeset hset
  obtain ⟨body, hbody, hnames⟩ := hread fun i hi => (isWithin_typeset hset i hi).isSafe
  exact ⟨doc, hset, entries, body, attributes, definitions, instances, hpackage, hbody, hnames,
    hpart, hdefines⟩

end ReportPress.Typeset
