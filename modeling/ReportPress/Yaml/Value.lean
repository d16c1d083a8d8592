import ReportPress.Text.Base64
import ReportPress.Text.Digit
import ReportPress.Yaml.Tag

/-!
# YAML values

A text of options is a tree of scalars, sequences and mappings.  A scalar is a text; what it means
is decided by whoever asks for it.

* `Yaml` — the tree.
* `Yaml.isNull` — whether a value stands for no value.
* `Yaml.text?`, `Yaml.flag?`, `Yaml.count?` — what a scalar means.
* `Yaml.walk` — a value as what one meets on a walk through it.
-/

namespace ReportPress

open Text

/-- A YAML value. -/
inductive Yaml where
  /-- A text; it is plain if it is written without quotation marks on its own lines. -/
  | scalar (text : String) (plain : Bool) (tag : Yaml.Tag)
  | sequence (items : List Yaml)
  | mapping (members : List (Yaml × Yaml))
deriving Inhabited, Repr

namespace Yaml

/-- What is not there. -/
def null : Yaml := .scalar "~" true .absent

/-- Whether a value stands for no value. -/
def isNull : Yaml → Bool
  | .scalar text plain tag =>
    tag = .null ||
      (plain && tag ≠ .text && (text = "" || text = "~" || lowerAscii text = "null"))
  | _ => false

/-! ## Texts -/

/-- Whether a scalar with a tag may be taken for a text. -/
def Tag.admitsText : Tag → Bool
  | null | flag | integer | real | sequence | mapping => false
  | _ => true

/-- The text that the bytes of a scalar are. -/
def ofBinary? (text : String) : Option String := do
  let bytes ← ofBase64? (text.toList.filter fun c => !c.isWhitespace)
  String.fromUTF8? ⟨bytes.toArray⟩

/-- The text of a scalar. -/
def text? (y : Yaml) : Option String :=
  match y with
  | .scalar text _ tag =>
    if y.isNull then none
    else if tag = .binary then ofBinary? text
    else if tag.admitsText then some text
    else none
  | _ => none

/-! ## Yes or no -/

/-- The words for yes. -/
def yesWords : List String := ["true", "yes", "on", "y"]

/-- The words for no. -/
def noWords : List String := ["false", "no", "off", "n"]

/-- A scalar that is yes or no, in any letter case. -/
def flag? : Yaml → Option Bool
  | .scalar text _ _ =>
    let word := lowerAscii (trimmed text)
    if yesWords.contains word then some true
    else if noWords.contains word then some false
    else none
  | _ => none

/-! ## Numbers -/

/-- The base that a number is written in, by how it begins, and its digits. -/
def baseOf : List Char → Nat × List Char
  | '0' :: x :: rest =>
    if x.toLower = 'x' then (16, rest)
    else if x.toLower = 'o' then (8, rest)
    else if x.toLower = 'b' then (2, rest)
    else (10, '0' :: x :: rest)
  | cs => (10, cs)

/-- The greatest count. -/
def maxCount : Nat := 0xFFFFFFFFFFFFFFFF

/-- A scalar that is a whole number of 64 bits without a minus sign.  Underscores between its
digits say nothing. -/
def count? : Yaml → Option Nat
  | .scalar text _ _ =>
    let (base, digits) := baseOf (dropStart '+' (trim text.toList))
    (digitsValue? base (digits.filter (· ≠ '_'))).filter (· ≤ maxCount)
  | _ => none

/-! ## Walking through a value -/

/-- What one meets on a walk through a value. -/
inductive Step where
  | scalar (text : String) (tag : Tag)
  | sequence
  | mapping
  | finish
deriving DecidableEq, Repr

mutual

/-- What one meets on a walk through a value.  How scalars are written makes no difference. -/
def walk : Yaml → List Step
  | .scalar text _ tag => [.scalar text tag]
  | .sequence items => .sequence :: walkAll items
  | .mapping members => .mapping :: walkMembers members

/-- A walk through the items of a sequence. -/
def walkAll : List Yaml → List Step
  | [] => [.finish]
  | y :: ys => walk y ++ walkAll ys

/-- A walk through the members of a mapping. -/
def walkMembers : List (Yaml × Yaml) → List Step
  | [] => [.finish]
  | (name, value) :: members => walk name ++ (walk value ++ walkMembers members)

end

/-- How much one meets on a walk through a value. -/
def size (y : Yaml) : Nat := y.walk.length

end Yaml

end ReportPress
