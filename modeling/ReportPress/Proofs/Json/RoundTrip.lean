import Mathlib.Tactic.Common
import ReportPress.Json.Parser
import ReportPress.Json.Printer

/-!
# Reading compact text back

The reader for JSON undoes the printer on objects whose values are strings.

* `stringMembers` — the members of such an object.
* `stringBody_escapeChar`, `stringBody_escaped` — a character, and a string, inside quotation
  marks.
* `members_renderMembers` — members with commas between them.
* `object?_render` — **the compact text of an object of strings is read as its members**; a name
  that comes twice is read with its last value.
-/

namespace ReportPress.Json

/-- The members of an object whose values are strings. -/
def stringMembers (members : List (String × String)) : List (String × Json) :=
  members.map fun m => (m.1, .string m.2)

/-- The members of an object read one after another behind those found before. -/
def putAll {V : Type} (found members : List (String × V)) : List (String × V) :=
  members.foldl (fun found m => put m.1 m.2 found) found

variable {c : Char} {cs rest : List Char} {s : String}

/-! ## Strings -/

/-- A character written as an escape of one letter. -/
lemma stringBody_short {e : Char} (h : shortEscape? e = some c) (he : e ≠ 'u') (rest : List Char) :
    stringBody none ('\\' :: e :: rest)
      = (stringBody none rest).map fun found => (c :: found.1, found.2) := by
  cases hrest : stringBody none rest <;> simp [stringBody, h, he, hrest]

lemma hex4?_hexDigit : ∀ n < 0x20, hex4? '0' '0' (hexDigit (n / 16)) (hexDigit n) = some n := by
  decide

/-- A control character written as an escape of four digits. -/
lemma stringBody_control (h : c.toNat < 0x20) (rest : List Char) :
    stringBody none
        ('\\' :: 'u' :: '0' :: '0' :: hexDigit (c.toNat / 16) :: hexDigit c.toNat :: rest)
      = (stringBody none rest).map fun found => (c :: found.1, found.2) := by
  have hhigh : isHighSurrogate c.toNat = false := by
    rw [isHighSurrogate, Bool.and_eq_false_iff, decide_eq_false_iff_not]
    omega
  have hlow : isLowSurrogate c.toNat = false := by
    rw [isLowSurrogate, Bool.and_eq_false_iff, decide_eq_false_iff_not]
    omega
  rw [stringBody]
  cases hrest : stringBody none rest <;> simp [hex4?_hexDigit c.toNat h, hhigh, hlow]

/-- A character written as it is. -/
lemma stringBody_plain (hquote : c ≠ '\x22') (hslash : c ≠ '\\') (h : ¬ c.toNat < 0x20)
    (rest : List Char) :
    stringBody none (c :: rest)
      = (stringBody none rest).map fun found => (c :: found.1, found.2) := by
  cases hrest : stringBody none rest <;> simp [stringBody, hquote, hslash, h, hrest]

/-- A character is read back from the way it is written inside quotation marks. -/
lemma stringBody_escapeChar (c : Char) (rest : List Char) :
    stringBody none (escapeChar c ++ rest)
      = (stringBody none rest).map fun found => (c :: found.1, found.2) := by
  rw [escapeChar]
  split_ifs with h1 h2 h3 h4 h5 h6 h7 hcontrol
  · exact stringBody_short (by rw [h1]; decide) (by decide) rest
  · exact stringBody_short (by rw [h2]; decide) (by decide) rest
  · exact stringBody_short (by rw [h3]; decide) (by decide) rest
  · exact stringBody_short (by rw [h4]; decide) (by decide) rest
  · exact stringBody_short (by rw [h5]; decide) (by decide) rest
  · exact stringBody_short (by rw [h6]; decide) (by decide) rest
  · exact stringBody_short (by rw [h7]; decide) (by decide) rest
  · exact stringBody_control hcontrol rest
  · exact stringBody_plain h1 h2 hcontrol rest

/-- A string is read back up to its closing quotation mark. -/
lemma stringBody_escaped (rest : List Char) : ∀ cs : List Char,
    stringBody none (cs.flatMap escapeChar ++ '\x22' :: rest) = some (cs, rest)
  | [] => by simp [stringBody]
  | c :: cs => by
      rw [List.flatMap_cons, List.append_assoc, stringBody_escapeChar, stringBody_escaped rest cs]
      rfl

lemma value_quote (fuel depth : Nat) (s : String) (rest : List Char) :
    value (fuel + 1) depth (quote s ++ rest) = some (.string s, rest) := by
  have hskip : skipSpace (quote s ++ rest)
      = '\x22' :: (s.toList.flatMap escapeChar ++ '\x22' :: rest) := by
    rw [quote, List.append_assoc, List.cons_append]
    exact List.dropWhile_cons_of_neg (by decide)
  rw [value, hskip]
  simp [stringBody_escaped]

/-! ## Objects -/

lemma toList_renderStrings (ms : List (String × String)) :
    (renderStrings ms).toList = render (.object (stringMembers ms)) := by
  rw [renderStrings, String.toList_ofList]
  rfl

lemma renderMembers_singleton (m : String × String) :
    renderMembers (stringMembers [m]) = quote m.1 ++ ':' :: quote m.2 := rfl

lemma renderMembers_cons (m next : String × String) (ms : List (String × String)) :
    renderMembers (stringMembers (m :: next :: ms))
      = quote m.1 ++ ':' :: (quote m.2 ++ ',' :: renderMembers (stringMembers (next :: ms))) := by
  simp [stringMembers, renderMembers, render]

/-- A member is read, and what follows it decides whether there is another one. -/
lemma members_member (fuel depth : Nat) (found : List (String × Json)) (name value : String)
    (rest : List Char) :
    members (fuel + 2) depth found (quote name ++ ':' :: (quote value ++ rest)) =
      match skipSpace rest with
      | ',' :: rest => members (fuel + 1) depth (put name (.string value) found) rest
      | '\x7d' :: rest => some (put name (.string value) found, rest)
      | _ => none := by
  have hname : skipSpace (quote name ++ ':' :: (quote value ++ rest))
      = '\x22' :: (name.toList.flatMap escapeChar ++ '\x22' :: ':' :: (quote value ++ rest)) := by
    rw [quote, List.append_assoc, List.cons_append]
    exact List.dropWhile_cons_of_neg (by decide)
  have hcolon : skipSpace (':' :: (quote value ++ rest)) = ':' :: (quote value ++ rest) :=
    List.dropWhile_cons_of_neg (by decide)
  rw [members, hname]
  simp only [stringBody_escaped, hcolon, value_quote, Option.bind_eq_bind, Option.bind_some,
    String.ofList_toList]
  rfl

/-- Members with commas between them are read one after another. -/
lemma members_renderMembers (depth : Nat) (rest : List Char) :
    ∀ (ms : List (String × String)) (fuel : Nat) (found : List (String × Json)), ms ≠ [] →
      ms.length < fuel →
      members fuel depth found (renderMembers (stringMembers ms) ++ '\x7d' :: rest)
        = some (putAll found (stringMembers ms), rest)
  | [], _, _, hne, _ => absurd rfl hne
  | [(name, value)], fuel, found, _, hfuel => by
      obtain ⟨fuel, rfl⟩ := Nat.exists_eq_add_of_le' (show 2 ≤ fuel from hfuel)
      have htext : renderMembers (stringMembers [(name, value)]) ++ '\x7d' :: rest
          = quote name ++ ':' :: (quote value ++ '\x7d' :: rest) := by
        rw [renderMembers_singleton, List.append_assoc, List.cons_append]
      have hskip : skipSpace ('\x7d' :: rest) = '\x7d' :: rest :=
        List.dropWhile_cons_of_neg (by decide)
      rw [htext, members_member, hskip]
      rfl
  | (name, value) :: m :: ms, fuel, found, _, hfuel => by
      obtain ⟨fuel, rfl⟩ := Nat.exists_eq_add_of_le' (show 2 ≤ fuel by
        simp only [List.length_cons] at hfuel
        omega)
      have htext : renderMembers (stringMembers ((name, value) :: m :: ms)) ++ '\x7d' :: rest
          = quote name ++ ':' :: (quote value ++
              ',' :: (renderMembers (stringMembers (m :: ms)) ++ '\x7d' :: rest)) := by
        rw [renderMembers_cons]
        simp only [List.append_assoc, List.cons_append]
      have hskip (cs : List Char) : skipSpace (',' :: cs) = ',' :: cs :=
        List.dropWhile_cons_of_neg (by decide)
      rw [htext, members_member, hskip]
      exact members_renderMembers depth rest (m :: ms) (fuel + 1) _ (by simp) (by simpa using hfuel)

/-- Members begin with the quotation mark of a name. -/
lemma exists_renderMembers_eq (m : String × String) (ms : List (String × String)) :
    ∃ tail, renderMembers (stringMembers (m :: ms)) = '\x22' :: tail := by
  cases ms with
  | nil => exact ⟨_, rfl⟩
  | cons next ms => exact ⟨_, rfl⟩

/-- Every member takes at least one character. -/
lemma length_le_length_renderMembers : ∀ ms : List (String × String),
    ms.length ≤ (renderMembers (stringMembers ms)).length
  | [] => Nat.zero_le _
  | [m] => by
      rw [renderMembers_singleton, List.length_append]
      simp only [List.length_cons, List.length_nil]
      omega
  | m :: next :: ms => by
      have ih := length_le_length_renderMembers (next :: ms)
      rw [renderMembers_cons, List.length_append]
      simp only [List.length_cons, List.length_append] at ih ⊢
      omega

/-- An object with at least one member is read up to its closing brace. -/
lemma value_render {ms : List (String × String)} {fuel : Nat} (hne : ms ≠ [])
    (hfuel : ms.length < fuel) (depth : Nat) (rest : List Char) :
    value (fuel + 1) (depth + 1) (render (.object (stringMembers ms)) ++ rest)
      = some (.object (putAll [] (stringMembers ms)), rest) := by
  have htext : render (.object (stringMembers ms)) ++ rest
      = '\x7b' :: (renderMembers (stringMembers ms) ++ '\x7d' :: rest) := by simp [render]
  have hopen : skipSpace ('\x7b' :: (renderMembers (stringMembers ms) ++ '\x7d' :: rest))
      = '\x7b' :: (renderMembers (stringMembers ms) ++ '\x7d' :: rest) :=
    List.dropWhile_cons_of_neg (by decide)
  have hread := members_renderMembers depth rest ms fuel [] hne hfuel
  cases ms with
  | nil => exact absurd rfl hne
  | cons m ms =>
      obtain ⟨tail, htail⟩ := exists_renderMembers_eq m ms
      have hquote : skipSpace ('\x22' :: (tail ++ '\x7d' :: rest))
          = '\x22' :: (tail ++ '\x7d' :: rest) := List.dropWhile_cons_of_neg (by decide)
      rw [htail, List.cons_append] at hopen hread
      rw [htext, htail, List.cons_append, value, hopen]
      simp only [hquote]
      change (members fuel depth [] ('\x22' :: (tail ++ '\x7d' :: rest))).bind
        (fun found => some (Json.object found.1, found.2)) = _
      rw [hread]
      rfl

/-- The compact text of an object of strings is read as its members. -/
theorem object?_render (ms : List (String × String)) :
    object? (render (.object (stringMembers ms))) = some (putAll [] (stringMembers ms)) := by
  cases ms with
  | nil => rfl
  | cons m ms =>
      have hfuel : (m :: ms).length
          < 2 * (render (.object (stringMembers (m :: ms)))).length + 1 := by
        have hlength := length_le_length_renderMembers (m :: ms)
        rw [render]
        simp only [List.length_append, List.length_cons] at hlength ⊢
        omega
      have hread := value_render (List.cons_ne_nil m ms) hfuel 126 []
      rw [List.append_nil] at hread
      rw [object?, maxDepth, hread]
      rfl

/-! ## Characters -/

/-- Inside quotation marks no control character is left. -/
lemma not_control_of_mem_escapeChar {d : Char} (h : d ∈ escapeChar c) : 0x20 ≤ d.toNat := by
  have hdigit (n : Nat) : 0x20 ≤ (hexDigit n).toNat := by
    have hall : ∀ n : Fin 16, 0x20 ≤ (Nat.digitChar n.val).toNat := by decide
    exact hall ⟨n % 16, Nat.mod_lt n (by omega)⟩
  have hescaped : ∀ d ∈ escapeChar c, 0x20 ≤ d.toNat := by
    unfold escapeChar
    split_ifs with _ _ _ _ _ _ _ hcontrol
    case neg => simpa using hcontrol
    all_goals simp [hdigit]
  exact hescaped d h

lemma not_control_of_mem_quote (h : c ∈ quote s) : 0x20 ≤ c.toNat := by
  rw [quote, List.cons_append, List.mem_cons, List.mem_append, List.mem_singleton,
    List.mem_flatMap] at h
  rcases h with rfl | ⟨d, -, hc⟩ | rfl
  · decide
  · exact not_control_of_mem_escapeChar hc
  · decide

lemma not_control_of_mem_renderMembers : ∀ {ms : List (String × String)},
    c ∈ renderMembers (stringMembers ms) → 0x20 ≤ c.toNat
  | [], h => by simp [stringMembers, renderMembers] at h
  | [m], h => by
      rw [renderMembers_singleton, List.mem_append, List.mem_cons] at h
      rcases h with h | rfl | h
      · exact not_control_of_mem_quote h
      · decide
      · exact not_control_of_mem_quote h
  | m :: next :: ms, h => by
      rw [renderMembers_cons, List.mem_append, List.mem_cons, List.mem_append, List.mem_cons] at h
      rcases h with h | rfl | h | rfl | h
      · exact not_control_of_mem_quote h
      · decide
      · exact not_control_of_mem_quote h
      · decide
      · exact not_control_of_mem_renderMembers h

/-- Compact text has no control characters, and so it is one line. -/
theorem not_control_of_mem_render {ms : List (String × String)}
    (h : c ∈ render (.object (stringMembers ms))) : 0x20 ≤ c.toNat := by
  rw [render, List.cons_append, List.mem_cons, List.mem_append, List.mem_singleton] at h
  rcases h with rfl | h | rfl
  · decide
  · exact not_control_of_mem_renderMembers h
  · decide

end ReportPress.Json
