import Mathlib.Tactic.Common
import ReportPress.Xml.Tree

/-!
# The elements of a tree

* `Tag`, `Xml.tags`, `tagsOf` — the elements of a tree without their contents, in the order in
  which they begin.
* `IsMadeOf` — all elements have names from a list.  What a part of a document is made of is a fact
  about the part alone, and tells at once which elements do not occur in it.
* `Tag.valuesOf`, `valuesIn` — the values of an attribute of all elements with a name.
* `contentsOf` — what stands in the elements with a name.
-/

namespace ReportPress

/-- An element without its contents. -/
structure Tag where
  name : String
  attributes : List Attribute

mutual

/-- The elements of a tree, in order. -/
def Xml.tags : Xml → List Tag
  | .text _ => []
  | .element name attributes children => ⟨name, attributes⟩ :: tagsOf children
  | .empty name attributes => [⟨name, attributes⟩]

/-- The elements of trees. -/
def tagsOf : List Xml → List Tag
  | [] => []
  | x :: xs => x.tags ++ tagsOf xs

end

@[simp] lemma tagsOf_append : ∀ xs ys : List Xml, tagsOf (xs ++ ys) = tagsOf xs ++ tagsOf ys
  | [], ys => by simp [tagsOf]
  | x :: xs, ys => by
      rw [List.cons_append, tagsOf, tagsOf, tagsOf_append, List.append_assoc]

lemma mem_tagsOf {t : Tag} {xs : List Xml} : t ∈ tagsOf xs ↔ ∃ x ∈ xs, t ∈ x.tags := by
  induction xs with
  | nil => simp [tagsOf]
  | cons x xs ih => simp [tagsOf, ih]

/-! ## What trees are made of -/

/-- The names of all elements are among the given ones. -/
def IsMadeOf (names : List String) (xs : List Xml) : Prop := ∀ t ∈ tagsOf xs, t.name ∈ names

section IsMadeOf

variable {names : List String} {x : Xml} {xs ys : List Xml}

@[simp] lemma isMadeOf_nil : IsMadeOf names [] := by
  simp [IsMadeOf, tagsOf]

@[simp] lemma isMadeOf_append :
    IsMadeOf names (xs ++ ys) ↔ IsMadeOf names xs ∧ IsMadeOf names ys := by
  simp only [IsMadeOf, tagsOf_append, List.mem_append, or_imp, forall_and]

lemma isMadeOf_cons : IsMadeOf names (x :: xs) ↔ IsMadeOf names [x] ∧ IsMadeOf names xs := by
  rw [← List.singleton_append, isMadeOf_append]

@[simp] lemma isMadeOf_cons_cons {y : Xml} :
    IsMadeOf names (x :: y :: xs) ↔ IsMadeOf names [x] ∧ IsMadeOf names (y :: xs) := isMadeOf_cons

@[simp] lemma isMadeOf_text (s : String) : IsMadeOf names [.text s] := by
  simp [IsMadeOf, tagsOf, Xml.tags]

@[simp] lemma isMadeOf_element {name : String} {attributes : List Attribute} :
    IsMadeOf names [.element name attributes xs] ↔ name ∈ names ∧ IsMadeOf names xs := by
  simp [IsMadeOf, tagsOf, Xml.tags]

@[simp] lemma isMadeOf_empty {name : String} {attributes : List Attribute} :
    IsMadeOf names [.empty name attributes] ↔ name ∈ names := by
  simp [IsMadeOf, tagsOf, Xml.tags]

@[simp] lemma isMadeOf_plain {name : String} :
    IsMadeOf names [.plain name xs] ↔ name ∈ names ∧ IsMadeOf names xs := isMadeOf_element

@[simp] lemma isMadeOf_val {name value : String} :
    IsMadeOf names [.val name value] ↔ name ∈ names := isMadeOf_empty

@[simp] lemma isMadeOf_tag {name : String} : IsMadeOf names [.tag name] ↔ name ∈ names :=
  isMadeOf_empty

lemma IsMadeOf.mono {more : List String} (h : IsMadeOf names xs)
    (hmore : ∀ name ∈ names, name ∈ more) : IsMadeOf more xs :=
  fun t ht => hmore t.name (h t ht)

lemma isMadeOf_flatMap {α : Type} {f : α → List Xml} {as : List α}
    (h : ∀ a ∈ as, IsMadeOf names (f a)) : IsMadeOf names (as.flatMap f) := by
  induction as with
  | nil => exact isMadeOf_nil
  | cons a as ih =>
      rw [List.flatMap_cons, isMadeOf_append]
      exact ⟨h a List.mem_cons_self, ih fun b hb => h b (List.mem_cons_of_mem _ hb)⟩

end IsMadeOf

/-! ## Values of attributes -/

/-- The values of an attribute of all elements with a name, in order. -/
def valuesIn (element key : String) (xs : List Xml) : List String :=
  ((tagsOf xs).filter fun t => t.name = element).flatMap fun t =>
    (t.attributes.filter fun a => a.name = key).map (·.value)

/-- The values of an attribute of an element, if that has the name. -/
def Tag.valuesOf (element key : String) (t : Tag) : List String :=
  if t.name = element then (t.attributes.filter fun a => a.name = key).map (·.value) else []

section Values

variable {element key : String} {names : List String} {x : Xml} {xs ys : List Xml}

@[simp] lemma valuesIn_append :
    valuesIn element key (xs ++ ys)
      = valuesIn element key xs ++ valuesIn element key ys := by
  simp [valuesIn]

lemma valuesIn_cons :
    valuesIn element key (x :: xs)
      = valuesIn element key [x] ++ valuesIn element key xs := by
  rw [← List.singleton_append, valuesIn_append]

/-- The values in an element with another name are those in its contents. -/
lemma valuesIn_element {name : String} {attributes : List Attribute} (h : name ≠ element) :
    valuesIn element key [.element name attributes xs] = valuesIn element key xs := by
  simp [valuesIn, tagsOf, Xml.tags, h]

lemma valuesIn_element_self {attributes : List Attribute} :
    valuesIn element key [.element element attributes xs]
      = (attributes.filter fun a => a.name = key).map (·.value) ++ valuesIn element key xs := by
  simp [valuesIn, tagsOf, Xml.tags]

lemma flatMap_filter {α β : Type} (p : α → Bool) (f : α → List β) (as : List α) :
    (as.filter p).flatMap f = as.flatMap fun a => if p a then f a else [] := by
  induction as with
  | nil => rfl
  | cons a as ih =>
      rw [List.filter_cons, List.flatMap_cons, ← ih]
      split_ifs <;> rfl

/-- The values are those of each element. -/
lemma valuesIn_eq_flatMap :
    valuesIn element key xs = (tagsOf xs).flatMap (Tag.valuesOf element key) := by
  rw [valuesIn, flatMap_filter]
  simp only [decide_eq_true_eq]
  rfl

lemma mem_valuesIn {value : String} : value ∈ valuesIn element key xs ↔
    ∃ t ∈ tagsOf xs, t.name = element ∧ ∃ a ∈ t.attributes, a.name = key ∧ a.value = value := by
  simp only [valuesIn, List.mem_flatMap, List.mem_filter, List.mem_map, decide_eq_true_eq,
    and_assoc]

/-- Trees that each have one value. -/
lemma valuesIn_map {α : Type} {f : α → Xml} {g : α → String}
    (h : ∀ a, valuesIn element key [f a] = [g a]) (as : List α) :
    valuesIn element key (as.map f) = as.map g := by
  induction as with
  | nil => rfl
  | cons a as ih => rw [List.map_cons, valuesIn_cons, h, ih, List.map_cons, List.singleton_append]

/-- Where no element has the name there are no values. -/
lemma valuesIn_of_isMadeOf (h : IsMadeOf names xs) (hn : element ∉ names) :
    valuesIn element key xs = [] := by
  rw [valuesIn, List.flatMap_eq_nil_iff]
  intro t ht
  obtain ⟨ht, hname⟩ := List.mem_filter.mp ht
  rw [decide_eq_true_eq] at hname
  exact absurd (hname ▸ h t ht) hn

end Values

/-! ## What stands in elements -/

mutual

/-- What stands in the elements of a tree that have a name. -/
def Xml.contents (name : String) : Xml → List (List Xml)
  | .text _ => []
  | .element n _ children => (if n = name then [children] else []) ++ contentsOf name children
  | .empty n _ => if n = name then [[]] else []

/-- What stands in the elements of trees that have a name, in the order in which they begin. -/
def contentsOf (name : String) : List Xml → List (List Xml)
  | [] => []
  | x :: xs => x.contents name ++ contentsOf name xs

end

section Contents

variable {name : String} {attributes : List Attribute} {content xs : List Xml}

lemma contentsOf_append : ∀ xs ys : List Xml,
    contentsOf name (xs ++ ys) = contentsOf name xs ++ contentsOf name ys
  | [], _ => by rw [contentsOf, List.nil_append, List.nil_append]
  | x :: xs, ys => by
      rw [List.cons_append, contentsOf, contentsOf, contentsOf_append xs, List.append_assoc]

lemma contentsOf_element {n : String} : contentsOf name [.element n attributes xs]
    = (if n = name then [xs] else []) ++ contentsOf name xs := by
  rw [contentsOf, contentsOf, List.append_nil, Xml.contents]

end Contents

end ReportPress
