/-!
# Runes: pieces of text in one style

A resolved text is a sequence of runes.  A rune has one style throughout, may stand under a link,
and may be the place that internal links lead to.

* `Script` — the alphabet of a piece of text, for its language tag.
* `LinkTarget` — a place in the document or an address outside it.
* `Emphasis`, `Rune` — the style and the piece.
* `plainText` — the text of a sequence of runes.
-/

namespace ReportPress

/-- The alphabet of a piece of text. -/
inductive Script where
  | latin
  | cyrillic
deriving DecidableEq, Repr

namespace Script

/-- The alphabet of a character; digits, punctuation and letters of other alphabets have none.
Between U+00C0 and U+024F every character but the two arithmetic signs is a Latin letter. -/
def ofChar? (c : Char) : Option Script :=
  if c.isAlpha then some .latin
  else if 0xC0 ≤ c.toNat ∧ c.toNat ≤ 0x24F then
    if c.toNat = 0xD7 ∨ c.toNat = 0xF7 then none else some .latin
  else if 0x400 ≤ c.toNat ∧ c.toNat ≤ 0x52F then some .cyrillic
  else none

/-- The language that text in the alphabet is marked with. -/
def languageTag : Script → String
  | .latin => "en-US"
  | .cyrillic => "ru-RU"

end Script

/-- Where a link leads. -/
inductive LinkTarget where
  /-- A place in the document. -/
  | anchor (name : String)
  /-- An address outside the document. -/
  | external (address : String)
deriving DecidableEq, Repr

namespace LinkTarget

/-- A target that begins with a number sign names a place in the document. -/
def ofString (target : String) : LinkTarget :=
  match target.toList with
  | '#' :: name => .anchor (String.ofList name)
  | _ => .external target

end LinkTarget

/-- Emphasis of a piece of text. -/
structure Emphasis where
  bold : Bool := false
  italic : Bool := false
deriving DecidableEq, Repr

/-- The emphasis of either. -/
def Emphasis.union (e more : Emphasis) : Emphasis :=
  ⟨e.bold || more.bold, e.italic || more.italic⟩

/-- A piece of text in one style. -/
structure Rune where
  text : String := ""
  /-- The name of the place that the piece marks. -/
  anchor : Option String := none
  link : Option LinkTarget := none
  emphasis : Emphasis := {}
  /-- Red, green and blue in hexadecimal. -/
  color : Option String := none
  /-- A new line begins before the text. -/
  lineBreak : Bool := false
  script : Option Script := none
deriving DecidableEq, Repr

namespace Rune

/-- A piece of text without any style. -/
def plain (text : String) : Rune := { text }

/-- A part of a rune: the same style, without the line break before it. -/
def part (r : Rune) (text : String) : Rune := { r with text, lineBreak := false }

end Rune

/-- Resolved text. -/
abbrev Runes := List Rune

/-- The text of a sequence of runes. -/
def plainText (runes : Runes) : String := String.join (runes.map Rune.text)

end ReportPress
