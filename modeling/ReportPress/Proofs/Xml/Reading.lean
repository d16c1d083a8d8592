import ReportPress.Proofs.Text.Words
import ReportPress.Proofs.Xml.Tags
import ReportPress.Text.Words

/-!
# Reading XML back

The parts of a document are printed from trees.  What a program that opens the document sees is
the text, so what is said about a part is said of the text as it is read.  The reader is stricter
than XML: it knows elements, attributes in double quotation marks, text and the five entities, and
nothing else.

* `isName`, `entity?` — names, and the characters that entities stand for.
* `Spot`, `Opened`, `Reading` — where the reader is between two characters: within a tag or between
  tags, with the elements that are open.
* `Reading.step` — one character.  An end tag closes the innermost open element, if that has its
  name; a value has no raw `<` and no `&` that begins no entity.
* `read?`, `readPart?` — a text, and a whole part: the declaration and one element.
* `Xml.asRead` — a tree as it is read back: the reader knows no longer texts than characters, and
  not which values were written as they are.
* `areNames` — the names of an element that can be read: they are names, and no two attributes share
  one.
* `Tag.IsSound`, `AreSound` — elements whose names a rule allows, such as `areNames` or a stricter
  one, and whose values hold no markup where they are written as they are.

**What is read.**  `run_render` by induction over the tree, and `readPart?_part`: a part whose
elements are sound is read, as the tree it was printed from.
-/

namespace ReportPress

open Text

/-! ## Names and entities -/

/-- A character of a name. -/
def isNameChar (c : Char) : Bool := c.isAlphanum || c = ':' || c = '_' || c = '-' || c = '.'

/-- A name: characters of names, the first of which is a letter or an underscore. -/
def isName : List Char → Bool
  | [] => false
  | c :: cs => (c.isAlpha || c = '_') && cs.all isNameChar

/-- The character that an entity stands for. -/
def entity? (name : List Char) : Option Char :=
  if name = "lt".toList then some '<'
  else if name = "gt".toList then some '>'
  else if name = "amp".toList then some '&'
  else if name = "apos".toList then some '\x27'
  else if name = "quot".toList then some '\x22'
  else none

/-! ## Reading -/

/-- Where the reader is between two characters, with what it has read of a tag. -/
inductive Spot where
  /-- Between tags. -/
  | content
  | entity (name : List Char)
  /-- Behind the bracket that begins a tag. -/
  | bracket
  | tagName (name : List Char)
  /-- Behind an attribute. -/
  | tag (tag : Tag)
  | attributeName (tag : Tag) (name : List Char)
  | equals (tag : Tag) (name : List Char)
  | value (tag : Tag) (name value : List Char)
  | valueEntity (tag : Tag) (name value entity : List Char)
  /-- Behind the slash of a single tag. -/
  | slash (tag : Tag)
  | endName (name : List Char)

/-- An element that has begun, and what stands before it in the element around it. -/
structure Opened where
  tag : Tag
  before : List Xml

/-- What has been read: the contents so far of the innermost open element, and the open elements
from the inside out. -/
structure Reading where
  spot : Spot := .content
  contents : List Xml := []
  outer : List Opened := []

namespace Reading

/-- The reader with one more tree. -/
def push (r : Reading) (x : Xml) : Reading :=
  { r with spot := .content, contents := r.contents ++ [x] }

/-- A character behind the name of a tag or behind an attribute. -/
def behindTag (r : Reading) (tag : Tag) (c : Char) : Option Reading :=
  if c = ' ' then some { r with spot := .attributeName tag [] }
  else if c = '/' then some { r with spot := .slash tag }
  else if c = '>' then some { contents := [], outer := ⟨tag, r.contents⟩ :: r.outer }
  else none

/-- An end tag. -/
def close (r : Reading) (name : List Char) : Option Reading :=
  match r.outer with
  | [] => none
  | ⟨tag, before⟩ :: outer =>
    if tag.name = String.ofList name then
      some { contents := before ++ [.element tag.name tag.attributes r.contents], outer }
    else none

/-- The reader after one more character, if that can stand there. -/
def step (r : Reading) (c : Char) : Option Reading :=
  match r.spot with
  | .content =>
    if c = '<' then some { r with spot := .bracket }
    else if c = '&' then some { r with spot := .entity [] }
    else some (r.push (.text (String.singleton c)))
  | .entity name =>
    if c = ';' then (entity? name).map fun c => r.push (.text (String.singleton c))
    else some { r with spot := .entity (name ++ [c]) }
  | .bracket =>
    if c = '/' then some { r with spot := .endName [] }
    else if isNameChar c then some { r with spot := .tagName [c] }
    else none
  | .tagName name =>
    if isNameChar c then some { r with spot := .tagName (name ++ [c]) }
    else if isName name then r.behindTag ⟨String.ofList name, []⟩ c
    else none
  | .tag tag => r.behindTag tag c
  | .attributeName tag name =>
    if isNameChar c then some { r with spot := .attributeName tag (name ++ [c]) }
    else if c = '=' ∧ isName name ∧ ∀ a ∈ tag.attributes, a.name ≠ String.ofList name then
      some { r with spot := .equals tag name }
    else none
  | .equals tag name =>
    if c = '\x22' then some { r with spot := .value tag name [] } else none
  | .value tag name value =>
    if c = '\x22' then
      some { r with spot := .tag { tag with attributes :=
        tag.attributes ++ [⟨String.ofList name, String.ofList value, false⟩] } }
    else if c = '<' then none
    else if c = '&' then some { r with spot := .valueEntity tag name value [] }
    else some { r with spot := .value tag name (value ++ [c]) }
  | .valueEntity tag name value entity =>
    if c = ';' then
      (entity? entity).map fun c => { r with spot := .value tag name (value ++ [c]) }
    else some { r with spot := .valueEntity tag name value (entity ++ [c]) }
  | .slash tag => if c = '>' then some (r.push (.empty tag.name tag.attributes)) else none
  | .endName name =>
    if c = '>' then r.close name else some { r with spot := .endName (name ++ [c]) }

/-- The reader after a text, if that can stand there. -/
def run (r : Reading) : List Char → Option Reading
  | [] => some r
  | c :: cs => (r.step c).bind fun r => run r cs

end Reading

/-- The trees that a text stands for, if every element in it is closed. -/
def read? (cs : List Char) : Option (List Xml) :=
  match Reading.run {} cs with
  | some ⟨.content, contents, []⟩ => some contents
  | _ => none

/-- The element of a part: a declaration, one element, and nothing else. -/
def readPart? (s : String) : Option Xml :=
  match (dropLead? Xml.declaration.toList s.toList).bind read? with
  | some [.element name attributes children] => some (.element name attributes children)
  | _ => none

/-! ## Trees as they are read -/

/-- An attribute as it is read. -/
def Attribute.asRead (a : Attribute) : Attribute := { a with verbatim := false }

/-- An element without its contents, as it is read. -/
def Tag.asRead (t : Tag) : Tag := { t with attributes := t.attributes.map Attribute.asRead }

mutual

/-- A tree as it is read: a text is read character by character. -/
def Xml.asRead : Xml → List Xml
  | .text s => s.toList.map fun c => .text (String.singleton c)
  | .element name attributes children =>
    [.element name (attributes.map Attribute.asRead) (allAsRead children)]
  | .empty name attributes => [.empty name (attributes.map Attribute.asRead)]

/-- Trees as they are read. -/
def allAsRead : List Xml → List Xml
  | [] => []
  | x :: xs => x.asRead ++ allAsRead xs

end

/-- The names of an element and its attributes: no two attributes have the same. -/
def areNames (name : String) (attributes : List String) : Bool :=
  isName name.toList && attributes.all (fun a => isName a.toList) && decide attributes.Nodup

lemma areNames_iff {name : String} {attributes : List String} :
    areNames name attributes = true ↔ isName name.toList = true ∧
      (∀ a ∈ attributes, isName a.toList = true) ∧ attributes.Nodup := by
  simp [areNames, and_assoc]

/-- Text without the characters that have a meaning in values. -/
def HasNoMarkup (s : String) : Prop := ∀ c ∈ s.toList, c ≠ '<' ∧ c ≠ '&' ∧ c ≠ '\x22'

instance : DecidablePred HasNoMarkup := fun s =>
  List.decidableBAll (fun c => c ≠ '<' ∧ c ≠ '&' ∧ c ≠ '\x22') s.toList

/-- An element that a rule allows, by its name and the names of its attributes, and that can be
printed and read. -/
structure Tag.IsSound (rule : String → List String → Bool) (t : Tag) : Prop where
  names : rule t.name (t.attributes.map Attribute.name) = true
  values : ∀ a ∈ t.attributes, a.verbatim = true → HasNoMarkup a.value

/-- Trees whose elements are sound. -/
def AreSound (rule : String → List String → Bool) (xs : List Xml) : Prop :=
  ∀ t ∈ tagsOf xs, t.IsSound rule

section Sound

variable {rule : String → List String → Bool} {x y : Xml} {xs ys : List Xml} {name value : String}
  {attributes : List Attribute}

/-- Only the names matter, unless a value is written as it is. -/
@[simp] lemma isSound_iff (h : ∀ a ∈ attributes, a.verbatim = false) :
    Tag.IsSound rule ⟨name, attributes⟩ ↔ rule name (attributes.map Attribute.name) = true :=
  ⟨fun hsound => hsound.names, fun hnames => ⟨hnames, fun a ha hv => by simp [h a ha] at hv⟩⟩

@[simp] lemma Attribute.name_nat (n : Nat) : (nat name n).name = name := rfl

@[simp] lemma Attribute.verbatim_nat (n : Nat) : (nat name n).verbatim = false := rfl

@[simp] lemma Attribute.name_int (n : Int) : (int name n).name = name := rfl

@[simp] lemma Attribute.verbatim_int (n : Int) : (int name n).verbatim = false := rfl

@[simp] lemma areSound_nil : AreSound rule [] := by simp [AreSound, tagsOf]

@[simp] lemma areSound_append : AreSound rule (xs ++ ys) ↔ AreSound rule xs ∧ AreSound rule ys := by
  simp only [AreSound, tagsOf_append, List.mem_append, or_imp, forall_and]

lemma areSound_cons : AreSound rule (x :: xs) ↔ AreSound rule [x] ∧ AreSound rule xs := by
  rw [← List.singleton_append, areSound_append]

@[simp] lemma areSound_cons_cons :
    AreSound rule (x :: y :: xs) ↔ AreSound rule [x] ∧ AreSound rule (y :: xs) := areSound_cons

@[simp] lemma areSound_text (s : String) : AreSound rule [.text s] := by
  simp [AreSound, tagsOf, Xml.tags]

@[simp] lemma areSound_element :
    AreSound rule [.element name attributes xs] ↔
      Tag.IsSound rule ⟨name, attributes⟩ ∧ AreSound rule xs := by
  simp [AreSound, tagsOf, Xml.tags]

@[simp] lemma areSound_empty :
    AreSound rule [.empty name attributes] ↔ Tag.IsSound rule ⟨name, attributes⟩ := by
  simp [AreSound, tagsOf, Xml.tags]

@[simp] lemma areSound_plain :
    AreSound rule [.plain name xs] ↔ rule name [] = true ∧ AreSound rule xs := by
  simp [Xml.plain]

@[simp] lemma areSound_tag : AreSound rule [.tag name] ↔ rule name [] = true := by
  simp [Xml.tag]

@[simp] lemma areSound_val : AreSound rule [.val name value] ↔ rule name ["w:val"] = true := by
  simp [Xml.val]

lemma areSound_iff_forall : AreSound rule xs ↔ ∀ x ∈ xs, AreSound rule [x] := by
  simp only [AreSound, mem_tagsOf, List.mem_singleton]
  grind

/-- What a rule allows, a weaker one allows too. -/
lemma AreSound.mono {weaker : String → List String → Bool} (h : AreSound rule xs)
    (hrule : ∀ name keys, rule name keys = true → weaker name keys = true) : AreSound weaker xs :=
  fun t ht => ⟨hrule _ _ (h t ht).names, (h t ht).values⟩

end Sound

/-! ## What a reader makes of printed text -/

namespace Reading

variable {r r' : Reading} {contents : List Xml} {outer : List Opened} {tag : Tag}
  {name value acc : List Char}

lemma run_append : ∀ (before after : List Char) (r : Reading),
    r.run (before ++ after) = (r.run before).bind fun r => r.run after
  | [], after, r => rfl
  | c :: before, after, r => by
      rw [List.cons_append, run, run]
      cases r.step c with
      | none => rfl
      | some next => exact run_append before after next

lemma run_cons {c : Char} {cs : List Char} (h : r.step c = some r') :
    r.run (c :: cs) = r'.run cs := by
  rw [run, h]
  rfl

/-- The name of a tag is read character by character. -/
lemma run_tagName : ∀ {cs acc : List Char}, (∀ c ∈ cs, isNameChar c = true) →
    run ⟨.tagName acc, contents, outer⟩ cs = some ⟨.tagName (acc ++ cs), contents, outer⟩
  | [], acc, _ => by simp [run]
  | c :: cs, acc, h => by
      have hc : isNameChar c = true := h c (by simp)
      have hstep : step ⟨.tagName acc, contents, outer⟩ c
          = some ⟨.tagName (acc ++ [c]), contents, outer⟩ := if_pos hc
      rw [run_cons hstep, run_tagName fun d hd => h d (List.mem_cons_of_mem c hd)]
      simp

lemma run_attributeName : ∀ {cs acc : List Char}, (∀ c ∈ cs, isNameChar c = true) →
    run ⟨.attributeName tag acc, contents, outer⟩ cs
      = some ⟨.attributeName tag (acc ++ cs), contents, outer⟩
  | [], acc, _ => by simp [run]
  | c :: cs, acc, h => by
      have hc : isNameChar c = true := h c (by simp)
      have hstep : step ⟨.attributeName tag acc, contents, outer⟩ c
          = some ⟨.attributeName tag (acc ++ [c]), contents, outer⟩ := if_pos hc
      rw [run_cons hstep, run_attributeName fun d hd => h d (List.mem_cons_of_mem c hd)]
      simp

/-- An end tag is read up to its bracket. -/
lemma run_endName : ∀ {cs acc : List Char}, '>' ∉ cs →
    run ⟨.endName acc, contents, outer⟩ cs = some ⟨.endName (acc ++ cs), contents, outer⟩
  | [], acc, _ => by simp [run]
  | c :: cs, acc, h => by
      have hc : c ≠ '>' := fun e => h (by simp [e])
      have hstep : step ⟨.endName acc, contents, outer⟩ c
          = some ⟨.endName (acc ++ [c]), contents, outer⟩ := if_neg hc
      rw [run_cons hstep, run_endName fun hd => h (List.mem_cons_of_mem c hd)]
      simp

/-! ### Characters -/

/-- A printed character is that character again. -/
lemma run_escapeChar (c : Char) (contents : List Xml) (outer : List Opened) :
    run ⟨.content, contents, outer⟩ (Xml.escapeChar c)
      = some ⟨.content, contents ++ [.text (String.singleton c)], outer⟩ := by
  rw [Xml.escapeChar]
  split_ifs with hlt hgt hamp hapos hquot
  · subst hlt; rfl
  · subst hgt; rfl
  · subst hamp; rfl
  · subst hapos; rfl
  · subst hquot; rfl
  · simp [run, step, push, hlt, hamp]

/-- In a value it is so too. -/
lemma run_value_escapeChar (c : Char) (tag : Tag) (name value : List Char) (contents : List Xml)
    (outer : List Opened) :
    run ⟨.value tag name value, contents, outer⟩ (Xml.escapeChar c)
      = some ⟨.value tag name (value ++ [c]), contents, outer⟩ := by
  rw [Xml.escapeChar]
  split_ifs with hlt hgt hamp hapos hquot
  · subst hlt; rfl
  · subst hgt; rfl
  · subst hamp; rfl
  · subst hapos; rfl
  · subst hquot; rfl
  · simp [run, step, hlt, hamp, hquot]

/-- A printed text is read character by character. -/
lemma run_escape : ∀ (cs : List Char) (contents : List Xml),
    run ⟨.content, contents, outer⟩ (Xml.escape cs)
      = some ⟨.content, contents ++ cs.map (fun c => .text (String.singleton c)), outer⟩
  | [], contents => by simp [Xml.escape, run]
  | c :: cs, contents => by
      rw [Xml.escape, List.flatMap_cons, run_append, run_escapeChar, Option.bind_some,
        ← Xml.escape, run_escape cs]
      simp

lemma run_value_escape : ∀ (cs value : List Char),
    run ⟨.value tag name value, contents, outer⟩ (Xml.escape cs)
      = some ⟨.value tag name (value ++ cs), contents, outer⟩
  | [], value => by simp [Xml.escape, run]
  | c :: cs, value => by
      rw [Xml.escape, List.flatMap_cons, run_append, run_value_escapeChar, Option.bind_some,
        ← Xml.escape, run_value_escape cs]
      simp

/-- A value without markup can be written as it is. -/
lemma run_value_verbatim : ∀ {cs value : List Char},
    (∀ c ∈ cs, c ≠ '<' ∧ c ≠ '&' ∧ c ≠ '\x22') →
      run ⟨.value tag name value, contents, outer⟩ cs
        = some ⟨.value tag name (value ++ cs), contents, outer⟩
  | [], value, _ => by simp [run]
  | c :: cs, value, h => by
      obtain ⟨hlt, hamp, hquot⟩ := h c (by simp)
      have hstep : step ⟨.value tag name value, contents, outer⟩ c
          = some ⟨.value tag name (value ++ [c]), contents, outer⟩ := by
        simp [step, hlt, hamp, hquot]
      rw [run_cons hstep, run_value_verbatim fun d hd => h d (List.mem_cons_of_mem c hd)]
      simp

/-! ### Tags -/

/-- The reader is behind the name of a tag or behind one of its attributes. -/
def IsBehind (r : Reading) (tag : Tag) : Prop :=
  ∀ c, isNameChar c = false → r.step c = r.behindTag tag c

/-- The characters of a name. -/
lemma isNameChar_of_mem {c : Char} (h : isName name = true) (hc : c ∈ name) :
    isNameChar c = true := by
  cases name with
  | nil => simp at hc
  | cons d ds =>
      rw [isName, Bool.and_eq_true] at h
      rcases List.mem_cons.mp hc with rfl | hc
      · have hd : c.isAlpha = true ∨ c = '_' := by simpa using h.1
        rcases hd with hd | rfl
        · simp [isNameChar, Char.isAlphanum, hd]
        · rfl
      · exact List.all_eq_true.mp h.2 c hc

/-- An attribute is read. -/
lemma run_attribute {a : Attribute} (h : r.IsBehind tag) (hname : isName a.name.toList = true)
    (hfresh : ∀ b ∈ tag.attributes, b.name ≠ a.name)
    (hvalue : a.verbatim = true → HasNoMarkup a.value) :
    r.run a.render
      = some ⟨.tag { tag with attributes := tag.attributes ++ [a.asRead] }, r.contents,
        r.outer⟩ := by
  have hspace : r.step ' ' = some ⟨.attributeName tag [], r.contents, r.outer⟩ := h ' ' rfl
  have hnames : run ⟨.attributeName tag [], r.contents, r.outer⟩ a.name.toList
      = some ⟨.attributeName tag a.name.toList, r.contents, r.outer⟩ :=
    run_attributeName fun c => isNameChar_of_mem hname
  have hequals : step ⟨.attributeName tag a.name.toList, r.contents, r.outer⟩ '='
      = some ⟨.equals tag a.name.toList, r.contents, r.outer⟩ := by
    have hchar : isNameChar '=' = false := rfl
    simpa [step, hchar, hname] using hfresh
  have hvalues : run ⟨.value tag a.name.toList [], r.contents, r.outer⟩
      (if a.verbatim then a.value.toList else Xml.escape a.value.toList)
        = some ⟨.value tag a.name.toList a.value.toList, r.contents, r.outer⟩ := by
    split_ifs with hverbatim
    · exact run_value_verbatim (hvalue hverbatim)
    · exact run_value_escape a.value.toList []
  have hquote : step ⟨.equals tag a.name.toList, r.contents, r.outer⟩ '\x22'
      = some ⟨.value tag a.name.toList [], r.contents, r.outer⟩ := rfl
  have hend : run ⟨.value tag a.name.toList a.value.toList, r.contents, r.outer⟩ ['\x22']
      = some ⟨.tag { tag with attributes := tag.attributes ++ [a.asRead] }, r.contents,
        r.outer⟩ := by
    simp [run, step, Attribute.asRead]
  rw [Attribute.render, List.cons_append, List.cons_append, run_cons hspace, List.append_assoc,
    run_append, hnames, Option.bind_some, List.cons_append, List.cons_append, run_cons hequals,
    run_cons hquote, run_append, hvalues, Option.bind_some, hend]

/-- The attributes of a tag are read one after another. -/
lemma run_attributes : ∀ {attributes : List Attribute} {r : Reading} {tag : Tag}, r.IsBehind tag →
    (∀ a ∈ attributes, isName a.name.toList = true) →
    ((tag.attributes ++ attributes).map Attribute.name).Nodup →
    (∀ a ∈ attributes, a.verbatim = true → HasNoMarkup a.value) →
    ∃ r' : Reading, r.run (attributes.flatMap Attribute.render) = some r' ∧
      r'.IsBehind { tag with attributes := tag.attributes ++ attributes.map Attribute.asRead } ∧
      r'.contents = r.contents ∧ r'.outer = r.outer
  | [], r, tag, h, _, _, _ => ⟨r, rfl, by simpa using h, rfl, rfl⟩
  | a :: attributes, r, tag, h, hnames, hnodup, hvalues => by
      have hfresh : ∀ b ∈ tag.attributes, b.name ≠ a.name := by
        intro b hb heq
        rw [List.map_append, List.nodup_append] at hnodup
        exact hnodup.2.2 b.name (List.mem_map_of_mem hb) a.name (by simp) heq
      have hfirst := run_attribute h (hnames a (by simp)) hfresh (hvalues a (by simp))
      have hbehind : IsBehind
          ⟨.tag { tag with attributes := tag.attributes ++ [a.asRead] }, r.contents, r.outer⟩
          { tag with attributes := tag.attributes ++ [a.asRead] } := fun _ _ => rfl
      obtain ⟨r', hrun, hr', hcontents, houter⟩ := run_attributes hbehind
        (fun b hb => hnames b (List.mem_cons_of_mem a hb))
        (by simpa [Attribute.asRead] using hnodup)
        (fun b hb => hvalues b (List.mem_cons_of_mem a hb))
      refine ⟨r', ?_, by simpa using hr', hcontents, houter⟩
      rw [List.flatMap_cons, run_append, hfirst, Option.bind_some, hrun]

/-- The inside of a tag is read. -/
lemma run_renderTag {name : String} {attributes : List Attribute} (contents : List Xml)
    (outer : List Opened) (h : Tag.IsSound areNames ⟨name, attributes⟩) :
    ∃ r : Reading, run ⟨.bracket, contents, outer⟩ (Xml.renderTag name attributes) = some r ∧
      r.IsBehind (Tag.asRead ⟨name, attributes⟩) ∧ r.contents = contents ∧ r.outer = outer := by
  obtain ⟨hname, hnames, hnodup⟩ := areNames_iff.mp h.names
  have hread : run ⟨.bracket, contents, outer⟩ name.toList
      = some ⟨.tagName name.toList, contents, outer⟩ := by
    have hchars : ∀ c ∈ name.toList, isNameChar c = true := fun c => isNameChar_of_mem hname
    cases hcs : name.toList with
    | nil => simp [hcs, isName] at hname
    | cons c cs =>
        rw [hcs] at hchars
        have hc : isNameChar c = true := hchars c (by simp)
        have hslash : c ≠ '/' := by
          rintro rfl
          exact absurd hc (by decide)
        have hstep : step ⟨.bracket, contents, outer⟩ c
            = some ⟨.tagName [c], contents, outer⟩ := by
          simp [step, hslash, hc]
        rw [run_cons hstep, run_tagName fun d hd => hchars d (List.mem_cons_of_mem c hd)]
        rfl
  have hbehind : IsBehind ⟨.tagName name.toList, contents, outer⟩ ⟨name, []⟩ := by
    intro c hc
    simp [step, hc, hname]
  obtain ⟨r, hrun, hr, hcontents, houter⟩ :=
    run_attributes hbehind (by simpa using hnames) (by simpa using hnodup) h.values
  refine ⟨r, ?_, by simpa [Tag.asRead] using hr, hcontents, houter⟩
  rw [Xml.renderTag, run_append, hread, Option.bind_some, hrun]

/-! ### Trees -/

mutual

/-- A printed tree is read as that tree, wherever it stands. -/
theorem run_render : ∀ {x : Xml} (contents : List Xml) (outer : List Opened),
    AreSound areNames [x] →
      run ⟨.content, contents, outer⟩ x.render = some ⟨.content, contents ++ x.asRead, outer⟩
  | .text s, contents, outer, _ => by rw [Xml.render, Xml.asRead, run_escape]
  | .empty name attributes, contents, outer, h => by
      obtain ⟨r, hrun, hr, hcontents, houter⟩ :=
        run_renderTag contents outer (areSound_empty.mp h)
      have hbracket : step ⟨.content, contents, outer⟩ '<' = some ⟨.bracket, contents, outer⟩ := rfl
      have hslash :
          r.step '/' = some ⟨.slash (Tag.asRead ⟨name, attributes⟩), contents, outer⟩ := by
        rw [hr '/' rfl, ← hcontents, ← houter]
        rfl
      rw [Xml.render, List.cons_append, run_cons hbracket, run_append, hrun, Option.bind_some,
        run_cons hslash, Xml.asRead]
      rfl
  | .element name attributes children, contents, outer, h => by
      obtain ⟨htag, hchildren⟩ := areSound_element.mp h
      obtain ⟨r, hrun, hr, hcontents, houter⟩ :=
        run_renderTag contents outer htag
      have hbracket : step ⟨.content, contents, outer⟩ '<' = some ⟨.bracket, contents, outer⟩ := rfl
      let around : Opened := ⟨Tag.asRead ⟨name, attributes⟩, contents⟩
      have hopen : r.step '>' = some ⟨.content, [], around :: outer⟩ := by
        rw [hr '>' rfl, behindTag, hcontents, houter]
        rfl
      have hend : run ⟨.content, allAsRead children, around :: outer⟩
          ('<' :: '/' :: name.toList ++ ['>']) = some ⟨.content,
            contents ++ [.element name (attributes.map Attribute.asRead) (allAsRead children)],
              outer⟩ := by
        have hlt : step ⟨.content, allAsRead children, around :: outer⟩ '<'
            = some ⟨.bracket, allAsRead children, around :: outer⟩ := rfl
        have hslash : step ⟨.bracket, allAsRead children, around :: outer⟩ '/'
            = some ⟨.endName [], allAsRead children, around :: outer⟩ := rfl
        have hgt : '>' ∉ name.toList := fun hmem =>
          absurd (isNameChar_of_mem (areNames_iff.mp htag.names).1 hmem) (by decide)
        rw [List.cons_append, List.cons_append, run_cons hlt, run_cons hslash, run_append,
          run_endName hgt, Option.bind_some]
        simp [run, step, close, around, Tag.asRead]
      rw [Xml.render]
      simp only [List.cons_append, List.append_assoc]
      rw [run_cons hbracket, run_append, hrun, Option.bind_some, run_cons hopen, run_append,
        run_renderAll [] (around :: outer) hchildren, Option.bind_some, Xml.asRead]
      exact hend

/-- Printed trees are read one after another. -/
theorem run_renderAll : ∀ {xs : List Xml} (contents : List Xml) (outer : List Opened),
    AreSound areNames xs → run ⟨.content, contents, outer⟩ (Xml.renderAll xs)
      = some ⟨.content, contents ++ allAsRead xs, outer⟩
  | [], contents, outer, _ => by simp [Xml.renderAll, allAsRead, run]
  | x :: xs, contents, outer, h => by
      obtain ⟨hx, hxs⟩ := areSound_cons.mp h
      rw [Xml.renderAll, run_append, run_render contents outer hx, Option.bind_some,
        run_renderAll _ outer hxs, allAsRead, List.append_assoc]

end

end Reading

/-- A tree whose elements can be read is read, when it stands by itself. -/
theorem read?_render {x : Xml} (h : AreSound areNames [x]) :
    read? x.render = some (allAsRead [x]) := by
  rw [read?, Reading.run_render [] [] h, List.nil_append, allAsRead, allAsRead, List.append_nil]

/-- A part whose elements can be read is read: as the element that it was printed from. -/
theorem readPart?_part {name : String} {attributes : List Attribute} {children : List Xml}
    (h : AreSound areNames [.element name attributes children]) :
    readPart? (Xml.part (.element name attributes children))
      = some (.element name (attributes.map Attribute.asRead) (allAsRead children)) := by
  have hread : read? (Xml.render (.element name attributes children))
      = some [.element name (attributes.map Attribute.asRead) (allAsRead children)] :=
    read?_render h
  rw [readPart?, Xml.part, String.toList_append, String.toList_ofList, dropLead?_append,
    Option.bind_some, hread]

/-! ## What is to be found in a tree as it is read -/

lemma tagsOf_map_text (cs : List Char) :
    tagsOf (cs.map fun c => .text (String.singleton c)) = [] := by
  induction cs with
  | nil => rfl
  | cons c cs ih => simpa [tagsOf, Xml.tags] using ih

mutual

lemma tagsOf_asRead : ∀ x : Xml, tagsOf x.asRead = x.tags.map Tag.asRead
  | .text s => tagsOf_map_text s.toList
  | .element name attributes children => by
      rw [Xml.asRead, tagsOf, Xml.tags, Xml.tags, tagsOf_allAsRead children]
      simp [tagsOf, Tag.asRead]
  | .empty name attributes => by
      rw [Xml.asRead, tagsOf, Xml.tags, Xml.tags]
      rfl

/-- The elements are those of the tree. -/
theorem tagsOf_allAsRead : ∀ xs : List Xml, tagsOf (allAsRead xs) = (tagsOf xs).map Tag.asRead
  | [] => rfl
  | x :: xs => by
      rw [allAsRead, tagsOf_append, tagsOf_asRead x, tagsOf_allAsRead xs, tagsOf, List.map_append]

end

/-- So are the values of their attributes. -/
lemma valuesIn_allAsRead (element key : String) (xs : List Xml) :
    valuesIn element key (allAsRead xs) = valuesIn element key xs := by
  rw [valuesIn, valuesIn, tagsOf_allAsRead, List.filter_map, List.flatMap_map]
  congr 1
  funext t
  simp only [Tag.asRead, List.filter_map, List.map_map]
  rfl

/-- A part whose elements a rule allows is read, as long as the rule asks for names. -/
lemma exists_readPart? {rule : String → List String → Bool} {name : String}
    {attributes : List Attribute} {children : List Xml}
    (h : AreSound rule [.element name attributes children])
    (hrule : ∀ name keys, rule name keys = true → areNames name keys = true) :
    ∃ x, readPart? (Xml.part (.element name attributes children)) = some x ∧
      [x] = allAsRead [.element name attributes children] :=
  ⟨_, readPart?_part (h.mono hrule), by simp [allAsRead, Xml.asRead]⟩

end ReportPress
