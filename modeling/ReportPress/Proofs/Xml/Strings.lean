import ReportPress.Proofs.Text.Words
import ReportPress.Text.CodeRange
import ReportPress.Xml.Tree

/-!
# The characters of printed XML

XML has no way to write most control characters, not even as entities, so a part is readable only
if none of its characters is one of these.

* `xmlRanges`, `isXmlChar`, `IsXmlText` — the characters that XML 1.0 allows, and texts of such
  characters.
* `Xml.strings`, `stringsOf` — all strings in a tree: names, values and texts.
* `AreXmlText` — trees whose strings are texts of such characters.

**Printing.**  `isXmlText_part_iff` — the printer itself adds characters that are allowed, so a part
is readable if and only if the strings in its tree are.
-/

namespace ReportPress

open Text

/-! ## Characters -/

/-- The characters that XML 1.0 allows. -/
def xmlRanges : List CodeRange :=
  [⟨0x9, 0xA⟩, ⟨0xD, 0xD⟩, ⟨0x20, 0xD7FF⟩, ⟨0xE000, 0xFFFD⟩, ⟨0x10000, 0x10FFFF⟩]

/-- Whether XML 1.0 allows a character. -/
def isXmlChar (c : Char) : Bool := inRanges xmlRanges c

/-- Text of characters that XML 1.0 allows. -/
def IsXmlText (s : String) : Prop := ConsistsOf (fun c => isXmlChar c = true) s

instance : DecidablePred IsXmlText := fun s =>
  List.decidableBAll (fun c : Char => isXmlChar c = true) s.toList

lemma isXmlChar_of_range {r : CodeRange} {c : Char} (hr : r ∈ xmlRanges)
    (hfirst : r.first ≤ c.toNat) (hlast : c.toNat ≤ r.last) : isXmlChar c = true :=
  inRanges_iff.mpr ⟨r, hr, hfirst, hlast⟩

lemma isXmlChar_of_ascii {c : Char} (hfirst : 0x20 ≤ c.toNat) (hlast : c.toNat < 0x80) :
    isXmlChar c = true :=
  isXmlChar_of_range (r := ⟨0x20, 0xD7FF⟩) (by decide) hfirst (by show c.toNat ≤ 0xD7FF; omega)

lemma isXmlChar_of_isAlphanum {c : Char} (h : c.isAlphanum = true) : isXmlChar c = true := by
  rcases Bool.or_eq_true_iff.mp h with halpha | hdigit
  · have hletter := Text.toNat_of_isAlpha halpha
    exact isXmlChar_of_ascii (by omega) (by omega)
  · obtain ⟨hfirst, hlast⟩ := Char.isDigit_iff_toNat.mp hdigit
    exact isXmlChar_of_ascii ((by decide : 0x20 ≤ '0'.toNat).trans hfirst)
      (hlast.trans_lt (by decide))

/-- A table that is part of the allowed characters. -/
lemma isXmlChar_of_inRanges {ranges : List CodeRange} {c : Char} (h : inRanges ranges c = true)
    (hranges : ∀ r ∈ ranges, ∃ x ∈ xmlRanges, x.first ≤ r.first ∧ r.last ≤ x.last) :
    isXmlChar c = true := by
  obtain ⟨r, hr, hfirst, hlast⟩ := inRanges_iff.mp h
  obtain ⟨x, hx, hle, hge⟩ := hranges r hr
  exact isXmlChar_of_range hx (Nat.le_trans hle hfirst) (Nat.le_trans hlast hge)

/-! ## Texts -/

@[simp] lemma isXmlText_append {s t : String} : IsXmlText (s ++ t) ↔ IsXmlText s ∧ IsXmlText t :=
  consistsOf_append

@[simp] lemma isXmlText_repr (n : Nat) : IsXmlText n.repr := by
  intro c hc
  rw [← Nat.toString_eq_repr, Nat.toString_eq_ofList_toDigits, String.toList_ofList] at hc
  have hdigit := Nat.isDigit_of_mem_toDigits (by omega) (by omega) hc
  exact isXmlChar_of_isAlphanum (by simp [Char.isAlphanum, hdigit])

@[simp] lemma isXmlText_repr_int (n : Int) : IsXmlText n.repr := by
  cases n with
  | ofNat n => exact isXmlText_repr n
  | negSucc n =>
      have hminus : (Int.negSucc n).repr = "-" ++ (n + 1).repr := rfl
      rw [hminus, isXmlText_append]
      exact ⟨by decide, isXmlText_repr _⟩

/-! ## Trees -/

/-- The strings in an attribute. -/
def Attribute.strings (a : Attribute) : List String := [a.name, a.value]

@[simp] lemma Attribute.value_nat (name : String) (n : Nat) : (nat name n).value = toString n := rfl

@[simp] lemma Attribute.value_int (name : String) (n : Int) : (int name n).value = toString n := rfl

mutual

/-- The strings in a tree. -/
def Xml.strings : Xml → List String
  | .text s => [s]
  | .element name attributes children =>
    name :: attributes.flatMap Attribute.strings ++ stringsOf children
  | .empty name attributes => name :: attributes.flatMap Attribute.strings

/-- The strings in trees. -/
def stringsOf : List Xml → List String
  | [] => []
  | x :: xs => x.strings ++ stringsOf xs

end

/-- Trees whose strings consist of characters that XML allows. -/
def AreXmlText (xs : List Xml) : Prop := ∀ s ∈ stringsOf xs, IsXmlText s

section Trees

variable {x y : Xml} {xs ys : List Xml} {name value : String} {attributes : List Attribute}

@[simp] lemma stringsOf_append : ∀ xs ys : List Xml,
    stringsOf (xs ++ ys) = stringsOf xs ++ stringsOf ys
  | [], ys => by simp [stringsOf]
  | x :: xs, ys => by
      rw [List.cons_append, stringsOf, stringsOf, stringsOf_append, List.append_assoc]

@[simp] lemma areXmlText_nil : AreXmlText [] := by simp [AreXmlText, stringsOf]

@[simp] lemma areXmlText_append : AreXmlText (xs ++ ys) ↔ AreXmlText xs ∧ AreXmlText ys := by
  simp only [AreXmlText, stringsOf_append, List.mem_append, or_imp, forall_and]

lemma areXmlText_cons : AreXmlText (x :: xs) ↔ AreXmlText [x] ∧ AreXmlText xs := by
  rw [← List.singleton_append, areXmlText_append]

@[simp] lemma areXmlText_cons_cons :
    AreXmlText (x :: y :: xs) ↔ AreXmlText [x] ∧ AreXmlText (y :: xs) := areXmlText_cons

@[simp] lemma areXmlText_text {s : String} : AreXmlText [.text s] ↔ IsXmlText s := by
  simp [AreXmlText, stringsOf, Xml.strings]

lemma areXmlText_attributes : (∀ s ∈ attributes.flatMap Attribute.strings, IsXmlText s) ↔
    ∀ a ∈ attributes, IsXmlText a.name ∧ IsXmlText a.value := by
  rw [List.forall_mem_flatMap]
  simp [Attribute.strings]

@[simp] lemma areXmlText_empty :
    AreXmlText [.empty name attributes] ↔
      IsXmlText name ∧ ∀ a ∈ attributes, IsXmlText a.name ∧ IsXmlText a.value := by
  rw [← areXmlText_attributes]
  simp [AreXmlText, stringsOf, Xml.strings, -List.mem_flatMap]

@[simp] lemma areXmlText_element :
    AreXmlText [.element name attributes xs] ↔ IsXmlText name ∧
      (∀ a ∈ attributes, IsXmlText a.name ∧ IsXmlText a.value) ∧ AreXmlText xs := by
  rw [← areXmlText_attributes]
  simp [AreXmlText, stringsOf, Xml.strings, or_imp, forall_and, -List.mem_flatMap]

@[simp] lemma areXmlText_plain : AreXmlText [.plain name xs] ↔ IsXmlText name ∧ AreXmlText xs := by
  simp [Xml.plain]

@[simp] lemma areXmlText_tag : AreXmlText [.tag name] ↔ IsXmlText name := by
  simp [Xml.tag]

@[simp] lemma areXmlText_val : AreXmlText [.val name value] ↔ IsXmlText name ∧ IsXmlText value := by
  have hkey : IsXmlText "w:val" := by decide
  simp [Xml.val, hkey]

lemma areXmlText_iff_forall : AreXmlText xs ↔ ∀ x ∈ xs, AreXmlText [x] := by
  induction xs with
  | nil => simp
  | cons x xs ih => rw [areXmlText_cons, List.forall_mem_cons, ih]

/-! ## Printing -/

/-- An escaped character is allowed if the character is. -/
lemma isXmlChar_escapeChar {c : Char} :
    (∀ d ∈ Xml.escapeChar c, isXmlChar d = true) ↔ isXmlChar c = true := by
  rw [← List.all_eq_true, Xml.escapeChar]
  split_ifs with hlt hgt hamp hapos hquot
  · subst hlt; decide
  · subst hgt; decide
  · subst hamp; decide
  · subst hapos; decide
  · subst hquot; decide
  · simp

lemma isXmlChar_escape {cs : List Char} :
    (∀ d ∈ Xml.escape cs, isXmlChar d = true) ↔ ∀ c ∈ cs, isXmlChar c = true := by
  rw [Xml.escape, List.forall_mem_flatMap]
  simp only [isXmlChar_escapeChar]

lemma isXmlChar_render_attribute {a : Attribute} :
    (∀ c ∈ a.render, isXmlChar c = true) ↔ IsXmlText a.name ∧ IsXmlText a.value := by
  have hvalue : (∀ c ∈ if a.verbatim then a.value.toList else Xml.escape a.value.toList,
      isXmlChar c = true) ↔ IsXmlText a.value := by
    split_ifs
    · rfl
    · exact isXmlChar_escape
  have hmarks : isXmlChar ' ' = true ∧ isXmlChar '=' = true ∧ isXmlChar '\x22' = true := by decide
  have hname : (∀ c ∈ a.name.toList, isXmlChar c = true) ↔ IsXmlText a.name := Iff.rfl
  simp only [Attribute.render, List.cons_append, List.forall_mem_cons, List.forall_mem_append,
    List.not_mem_nil, IsEmpty.forall_iff, implies_true, hname, hvalue, hmarks, true_and, and_true]

lemma isXmlChar_renderTag :
    (∀ c ∈ Xml.renderTag name attributes, isXmlChar c = true) ↔
      IsXmlText name ∧ ∀ a ∈ attributes, IsXmlText a.name ∧ IsXmlText a.value := by
  rw [Xml.renderTag, List.forall_mem_append, List.forall_mem_flatMap]
  simp only [isXmlChar_render_attribute]
  rfl

mutual

/-- The characters of a printed tree are allowed if and only if those of its strings are. -/
theorem isXmlChar_render : ∀ {x : Xml},
    (∀ c ∈ x.render, isXmlChar c = true) ↔ AreXmlText [x]
  | .text s => by
      rw [Xml.render, isXmlChar_escape, areXmlText_text]
      rfl
  | .empty name attributes => by
      have hmarks : isXmlChar '<' = true ∧ isXmlChar '>' = true ∧ isXmlChar '/' = true := by decide
      simp only [Xml.render, List.cons_append, List.forall_mem_cons, List.forall_mem_append,
        List.not_mem_nil, IsEmpty.forall_iff, implies_true, hmarks, isXmlChar_renderTag,
        areXmlText_empty, true_and, and_true]
  | .element name attributes children => by
      have hmarks : isXmlChar '<' = true ∧ isXmlChar '>' = true ∧ isXmlChar '/' = true := by decide
      have hname : (∀ c ∈ name.toList, isXmlChar c = true) ↔ IsXmlText name := Iff.rfl
      simp only [Xml.render, List.cons_append, List.append_assoc, List.forall_mem_cons,
        List.forall_mem_append, List.not_mem_nil, IsEmpty.forall_iff, implies_true, hmarks, hname,
        isXmlChar_renderTag, isXmlChar_renderAll, areXmlText_element, true_and, and_true]
      tauto

theorem isXmlChar_renderAll : ∀ {xs : List Xml},
    (∀ c ∈ Xml.renderAll xs, isXmlChar c = true) ↔ AreXmlText xs
  | [] => by simp [Xml.renderAll]
  | x :: xs => by
      rw [Xml.renderAll, List.forall_mem_append, isXmlChar_render, isXmlChar_renderAll,
        ← areXmlText_cons]

end

/-- A part consists of allowed characters if and only if the strings in its tree do. -/
theorem isXmlText_part_iff : IsXmlText (Xml.part x) ↔ AreXmlText [x] := by
  have hdeclaration : IsXmlText Xml.declaration := by decide
  rw [Xml.part, isXmlText_append, ← isXmlChar_render]
  simp only [hdeclaration, true_and]
  simp [IsXmlText]

end Trees

end ReportPress
