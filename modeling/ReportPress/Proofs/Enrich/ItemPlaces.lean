import ReportPress.Proofs.Document.Traversal
import ReportPress.Proofs.Enrich.Punctuation

/-!
# The marks of items by their place

* `ItemList.isFilled` — neither a list nor any list in it is empty.
* `ItemPlace`, `ItemList.itemPlaces` — the items of a list, those of nested lists included, in
  document order, each with its place.
* `IsEndedBy` — the mark that goes with a place.

`texts_punctuateEntries` tells how the items look that do not end the outermost list, and
`areClosed_punctuateEntries` that the last one does and has no list behind it.  `punctuate_items`
puts them together.  What the stem of an item is, is said in `exists_stem_eq`.
-/

namespace ReportPress

open Enrich Text

/-! ## Items and their places -/

mutual

/-- Neither an entry nor any list in it is an empty list. -/
def Entry.isFilled : Entry String → Bool
  | .item _ => true
  | .list _ entries => !entries.isEmpty && areFilled entries

/-- No list in entries is empty. -/
def areFilled : List (Entry String) → Bool
  | [] => true
  | e :: rest => e.isFilled && areFilled rest

end

/-- Neither a list nor any list in it is empty. -/
def ItemList.isFilled (l : ItemList String) : Bool := l.toEntry.isFilled

/-- An item and where it stands. -/
structure ItemPlace where
  text : String
  /-- The entries of the list that it is an item of. -/
  siblings : List (Entry String)
  /-- That list is in another. -/
  nested : Bool
  /-- A nested list follows. -/
  beforeList : Bool

mutual

/-- The items of an entry with their places, given that of the entry. -/
def Entry.places (siblings : List (Entry String)) (nested beforeList : Bool) :
    Entry String → List ItemPlace
  | .item text => [⟨text, siblings, nested, beforeList⟩]
  | .list _ entries => entriesPlaces entries true entries

/-- The items of entries with their places in document order. -/
def entriesPlaces (siblings : List (Entry String)) (nested : Bool) :
    List (Entry String) → List ItemPlace
  | [] => []
  | e :: rest =>
    e.places siblings nested (rest.head?.any isNested) ++ entriesPlaces siblings nested rest

end

/-- The items of a list that is in no other, with their places in document order. -/
def ItemList.itemPlaces (l : ItemList String) : List ItemPlace :=
  entriesPlaces l.entries false l.entries

mutual

lemma Entry.map_text_places (siblings : List (Entry String)) (nested beforeList : Bool) :
    ∀ e : Entry String, (e.places siblings nested beforeList).map ItemPlace.text = e.texts
  | .item _ => rfl
  | .list _ entries => map_text_entriesPlaces entries true entries

lemma map_text_entriesPlaces (siblings : List (Entry String)) (nested : Bool) :
    ∀ es : List (Entry String),
      (entriesPlaces siblings nested es).map ItemPlace.text = entriesTexts es
  | [] => rfl
  | e :: rest => by
      rw [entriesPlaces, List.map_append, Entry.map_text_places, map_text_entriesPlaces,
        entriesTexts]

end

/-! ## Marks -/

/-- The list of an item is nested, holds a nested list or has an item of more than five words. -/
def ItemPlace.IsWide (place : ItemPlace) : Prop :=
  place.nested = true ∨ (∃ style entries, Entry.list style entries ∈ place.siblings) ∨
    ∃ text, Entry.item text ∈ place.siblings ∧ 5 < wordCount text

/-- The mark that goes with the place of an item, given whether no item comes after it. -/
structure IsEndedBy (place : ItemPlace) (isLast : Prop) (mark : Char) : Prop where
  period : mark = '.' ↔ isLast
  colon : mark = ':' ↔ place.beforeList = true
  semicolon : mark = ';' ↔ ¬isLast ∧ place.beforeList = false ∧ place.IsWide
  comma : mark = ',' ↔ ¬isLast ∧ place.beforeList = false ∧ ¬place.IsWide

/-- The mark of an item that is not the last. -/
def ItemPlace.mark (place : ItemPlace) : Char :=
  if place.beforeList then ':' else ending place.nested place.siblings

namespace Enrich

variable {siblings es : List (Entry String)} {nested : Bool} {place : ItemPlace}

lemma any_isNested_iff :
    es.any isNested = true ↔ ∃ style entries, Entry.list style entries ∈ es := by
  rw [List.any_eq_true]
  constructor
  · rintro ⟨_ | ⟨style, entries⟩, hmem, hnested⟩
    · exact nomatch hnested
    · exact ⟨style, entries, hmem⟩
  · rintro ⟨style, entries, hmem⟩
    exact ⟨_, hmem, rfl⟩

lemma any_isLong_iff :
    es.any isLong = true ↔ ∃ text, Entry.item text ∈ es ∧ 5 < wordCount text := by
  rw [List.any_eq_true]
  constructor
  · rintro ⟨text | _, hmem, hlong⟩
    · exact ⟨text, hmem, of_decide_eq_true hlong⟩
    · exact nomatch hlong
  · rintro ⟨text, hmem, hlong⟩
    exact ⟨_, hmem, decide_eq_true hlong⟩

lemma ending_eq (place : ItemPlace) [Decidable place.IsWide] :
    ending place.nested place.siblings = if place.IsWide then ';' else ',' := by
  have hwide : (place.nested || place.siblings.any isNested || place.siblings.any isLong) = true ↔
      place.IsWide := by
    rw [Bool.or_eq_true, Bool.or_eq_true, any_isNested_iff, any_isLong_iff, or_assoc,
      ItemPlace.IsWide]
  rw [ending]
  exact if_congr hwide rfl rfl

/-- An item that is not the last has the mark of its place. -/
lemma isEndedBy_mark (place : ItemPlace) : IsEndedBy place False place.mark := by
  classical
  rw [ItemPlace.mark, ending_eq]
  cases hbefore : place.beforeList with
  | true => constructor <;> simp [hbefore]
  | false => by_cases hwide : place.IsWide <;> constructor <;> simp [hbefore, hwide]

/-- The last item has a period, where no list follows it. -/
lemma isEndedBy_period (h : place.beforeList = false) : IsEndedBy place True '.' := by
  constructor <;> simp [h]

/-! ## Punctuated items -/

mutual

lemma shape_punctuateEntry (mark : Char) (lastItem beforeList : Bool) : ∀ e : Entry String,
    (punctuateEntry mark lastItem beforeList e).traverse (m := Id) (fun _ => ()) =
      e.traverse (m := Id) fun _ => ()
  | .item _ => rfl
  | .list style entries => congrArg (Entry.list style) (shape_punctuateEntries _ lastItem entries)

lemma shape_punctuateEntries (mark : Char) (lastItem : Bool) : ∀ es : List (Entry String),
    traverseEntries (m := Id) (fun _ => ()) (punctuateEntries mark lastItem es) =
      traverseEntries (m := Id) (fun _ => ()) es
  | [] => rfl
  | e :: rest =>
      congrArg₂ List.cons (shape_punctuateEntry mark _ _ e)
        (shape_punctuateEntries mark lastItem rest)

end

mutual

lemma texts_punctuateEntry (siblings : List (Entry String)) (nested beforeList : Bool) :
    ∀ e : Entry String,
      (punctuateEntry (ending nested siblings) false beforeList e).texts =
        (e.places siblings nested beforeList).map fun place => terminate place.text place.mark
  | .item _ => rfl
  | .list _ entries => texts_punctuateEntries entries true entries

/-- Items that do not end the outermost list have the marks of their places. -/
lemma texts_punctuateEntries (siblings : List (Entry String)) (nested : Bool) :
    ∀ es : List (Entry String),
      entriesTexts (punctuateEntries (ending nested siblings) false es) =
        (entriesPlaces siblings nested es).map fun place => terminate place.text place.mark
  | [] => rfl
  | e :: rest => by
      rw [punctuateEntries, entriesTexts, Bool.false_and, texts_punctuateEntry,
        texts_punctuateEntries, entriesPlaces, List.map_append]

end

/-- The items at the end of the outermost list have the marks of their places, but for the last one,
which has a period. -/
def AreClosed (places : List ItemPlace) (texts : List String) : Prop :=
  ∃ init last, places = init ++ [last] ∧ last.beforeList = false ∧
    texts = (init.map fun place => terminate place.text place.mark) ++ [terminate last.text '.']

mutual

lemma areClosed_punctuateEntry (siblings : List (Entry String)) (nested : Bool) :
    ∀ {e : Entry String}, e.isFilled = true →
      AreClosed (e.places siblings nested false)
        (punctuateEntry (ending nested siblings) true false e).texts
  | .item text, _ => ⟨[], ⟨text, siblings, nested, false⟩, rfl, rfl, rfl⟩
  | .list _ entries, h => by
      rw [Entry.isFilled, Bool.and_eq_true, Bool.not_eq_true', List.isEmpty_eq_false_iff] at h
      exact areClosed_punctuateEntries entries true h.1 h.2

/-- The last item of entries that no others follow ends the outermost list. -/
lemma areClosed_punctuateEntries (siblings : List (Entry String)) (nested : Bool) :
    ∀ {es : List (Entry String)}, es ≠ [] → areFilled es = true →
      AreClosed (entriesPlaces siblings nested es)
        (entriesTexts (punctuateEntries (ending nested siblings) true es))
  | [e], _, h => by
      rw [areFilled, Bool.and_eq_true] at h
      have hlast := areClosed_punctuateEntry siblings nested h.1
      rwa [← List.append_nil (e.places _ _ _), ← List.append_nil (Entry.texts _)] at hlast
  | e :: e' :: rest, _, h => by
      rw [areFilled, Bool.and_eq_true] at h
      obtain ⟨init, last, hplaces, hbefore, htexts⟩ :=
        areClosed_punctuateEntries siblings nested (List.cons_ne_nil e' rest) h.2
      refine ⟨e.places siblings nested (isNested e') ++ init, last, ?_, hbefore, ?_⟩
      · rw [entriesPlaces, hplaces, List.append_assoc]
        rfl
      · rw [punctuateEntries, entriesTexts, htexts, List.map_append, List.append_assoc,
          ← texts_punctuateEntry]
        rfl

end

/-- **The marks of a list.**  In a list without empty lists the texts of the items change, and they
alone: each is its stem with the mark that goes with its place. -/
theorem punctuate_items {l : ItemList String} (h : l.isFilled = true) :
    (Node.list (punctuate true false l)).map (fun _ => ()) = (Node.list l).map (fun _ => ()) ∧
      l.itemPlaces.map ItemPlace.text = entriesTexts l.entries ∧
      ∀ k place, l.itemPlaces[k]? = some place → ∃ mark,
        (entriesTexts (punctuate true false l).entries)[k]? =
            some (stem place.text ++ String.ofList [mark]) ∧
          (∀ c, (stem place.text).toList.getLast? = some c → c ∉ terminators) ∧
          IsEndedBy place (k + 1 = l.itemPlaces.length) mark := by
  refine ⟨congrArg (fun entries => Node.list ⟨l.style, entries⟩)
    (shape_punctuateEntries _ true l.entries), map_text_entriesPlaces _ _ _,
    fun k place hplace => ?_⟩
  rw [ItemList.isFilled, ItemList.toEntry, Entry.isFilled, Bool.and_eq_true, Bool.not_eq_true',
    List.isEmpty_eq_false_iff] at h
  obtain ⟨init, last, hplaces, hbefore, htexts⟩ :=
    areClosed_punctuateEntries l.entries false h.1 h.2
  rw [ItemList.itemPlaces, hplaces] at hplace ⊢
  rw [punctuate, htexts, List.length_append, List.length_singleton, Nat.add_right_cancel_iff]
  rcases Nat.lt_or_ge k init.length with hk | hk
  · rw [List.getElem?_append_left hk] at hplace
    refine ⟨place.mark, ?_, fun _ hc => getLast?_stem hc, ?_⟩
    · rw [List.getElem?_append_left (by simpa using hk), List.getElem?_map, hplace]
      rfl
    · rw [eq_false hk.ne]
      exact isEndedBy_mark place
  · rw [List.getElem?_append_right hk, List.getElem?_singleton] at hplace
    obtain ⟨hk', rfl⟩ : k - init.length = 0 ∧ last = place := by simpa using hplace
    obtain rfl : k = init.length := by omega
    refine ⟨'.', ?_, fun _ hc => getLast?_stem hc, ?_⟩
    · simp [terminate_eq]
    · rw [eq_true rfl]
      exact isEndedBy_period hbefore

/-- A list with another in it, and an item behind that. -/
def basket : ItemList String :=
  ⟨{ ordered := false },
    [.item "Fruits", .list { ordered := false } [.item "Apple", .item "pear."], .item "Bread!"]⟩

theorem punctuate_items_basket : basket.isFilled = true ∧ ∃ mark,
    (entriesTexts (punctuate true false basket).entries)[3]? =
        some (stem "Bread!" ++ String.ofList [mark]) ∧
      IsEndedBy ⟨"Bread!", basket.entries, false, false⟩ (3 + 1 = basket.itemPlaces.length)
        mark := by
  obtain ⟨mark, htext, -, hmark⟩ := (punctuate_items (l := basket) (by decide)).2.2 3 _ rfl
  exact ⟨by decide, mark, htext, hmark⟩

example : entriesTexts (punctuate true false basket).entries =
    ["fruits:", "apple;", "pear;", "bread."] := by
  decide +kernel

end Enrich

end ReportPress
