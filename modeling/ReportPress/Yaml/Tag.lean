import ReportPress.Text.Digit
import ReportPress.Yaml.Cursor

/-!
# Tags and directives

A tag says what kind of value follows.  It is written in full, or after a handle that stands for
the beginning of many tags; directives before a document say what handles stand for.

* `Tag`, `Tag.ofName` — the kinds of tags that values are told apart by.
* `TagName`, `tagName?` — a tag as it is written.
* `TagName.resolve?` — a tag in full.
* `Directive`, `directive?` — a line before a document.
-/

namespace ReportPress.Yaml

open Text

/-! ## What tags say -/

/-- What a tag says. -/
inductive Tag where
  /-- There is no tag. -/
  | absent
  | null
  | flag
  | integer
  | real
  | text
  | binary
  | sequence
  | mapping
  | time
  /-- The mark of tags alone, which says that there is nothing to say. -/
  | unspecific
  /-- A tag with a meaning elsewhere. -/
  | other
deriving DecidableEq, Repr

/-- What the tags of the language itself begin with. -/
def commonStart : String := "tag:yaml.org,2002:"

/-- The tags of the language itself, by what follows their common beginning. -/
def commonTags : List (String × Tag) := [
  ("null", .null), ("bool", .flag), ("int", .integer), ("float", .real), ("str", .text),
  ("binary", .binary), ("seq", .sequence), ("map", .mapping), ("timestamp", .time)]

/-- What a tag in full says. -/
def Tag.ofName (name : String) : Tag :=
  if name = "!" then unspecific
  else
    match dropLead? commonStart.toList name.toList with
    | some rest => (commonTags.lookup (String.ofList rest)).getD other
    | none => other

/-! ## How tags are written -/

/-- Whether a character can stand in a tag that is written in full. -/
def isTagChar (c : Char) : Bool :=
  c.isAlphanum || c = '-' || "#;/?:@&=+$,_.!~*'()[]%".toList.contains c

/-- Whether a character can stand after a handle. -/
def isSuffixChar (c : Char) : Bool := isTagChar c && !isFlowMark c && c ≠ '!'

/-- The bytes of characters that are allowed.  A percent sign and two digits stand for a byte. -/
def tagBytes? (allowed : Char → Bool) : (fuel : Nat) → Cursor → Option (List UInt8 × Cursor)
  | 0, c => some ([], c)
  | fuel + 1, c =>
    match c.rest with
    | [] => some ([], c)
    | a :: rest =>
      if !allowed a then some ([], c)
      else if a = '%' then do
        let byte ← if rest.length < 2 then none else digitsValue? 16 (rest.take 2)
        let (more, after) ← tagBytes? allowed fuel (c.past 3)
        return (UInt8.ofNat byte :: more, after)
      else do
        let (more, after) ← tagBytes? allowed fuel (c.past 1)
        return ((String.singleton a).toUTF8.toList ++ more, after)

/-- The text of characters that are allowed, and the place after it. -/
def tagText? (allowed : Char → Bool) (c : Cursor) : Option (String × Cursor) := do
  let (bytes, after) ← tagBytes? allowed (c.rest.length + 1) c
  let text ← String.fromUTF8? ⟨bytes.toArray⟩
  return (text, after)

/-- A tag as it is written.  A tag in full has no handle. -/
structure TagName where
  handle : String
  suffix : String
deriving DecidableEq, Repr

/-- A handle between two marks of tags, or a mark and a word without another mark, which is no
handle to be declared. -/
def handle? (declared : Bool) (c : Cursor) : Option (String × Cursor) :=
  if c.next ≠ some '!' then none
  else
    let word := (c.rest.drop 1).takeWhile isWord
    let after := c.past (word.length + 1)
    if after.next = some '!' then some (String.ofList ('!' :: word ++ ['!']), after.past 1)
    else if declared && !word.isEmpty then none
    else some (String.ofList ('!' :: word), after)

/-- A tag and the place after it.  White space follows, or a mark between brackets. -/
def tagName? (inFlow : Bool) (c : Cursor) : Option (TagName × Cursor) := do
  let (name, c) ←
    if c.second = some '<' then do
      let (suffix, c) ← tagText? isTagChar (c.past 2)
      if c.next = some '>' then some (TagName.mk "" suffix, c.past 1) else none
    else do
      let (handle, c) ← handle? false c
      let (suffix, c) ← tagText? isSuffixChar c
      if handle.length ≥ 2 ∧ handle.endsWith "!" then
        if suffix = "" then none else some (TagName.mk handle suffix, c)
      else
        let name := String.ofList (handle.toList.drop 1) ++ suffix
        if name = "" then some (TagName.mk "" "!", c) else some (TagName.mk "!" name, c)
  if endsWord c.next || (inFlow && c.next.any isFlowMark) then some (name, c) else none

/-- The tag in full, given what handles stand for.  Handles between two marks are declared, except
for the one of the language itself. -/
def TagName.resolve? (prefixes : List (String × String)) (name : TagName) : Option String :=
  match prefixes.lookup name.handle with
  | some beginning => some (beginning ++ name.suffix)
  | none =>
    if name.handle = "!!" then some (commonStart ++ name.suffix)
    else if 2 ≤ name.handle.length then none
    else some (name.handle ++ name.suffix)

/-! ## Directives -/

/-- What a line before a document says. -/
inductive Directive where
  | version
  /-- What a handle stands for. -/
  | handle (handle beginning : String)
  /-- Nothing that is known. -/
  | reserved
deriving DecidableEq, Repr

/-- Past a number of one to nine digits. -/
def pastNumber? (c : Cursor) : Option Cursor :=
  let digits := (c.rest.takeWhile Char.isDigit).length
  if 1 ≤ digits ∧ digits ≤ 9 then some (c.past digits) else none

/-- The version of the language: two numbers with a point between them. -/
def version? (c : Cursor) : Option (Directive × Cursor) := do
  let c ← pastNumber? (c.pastGap c.gap.length)
  if c.next ≠ some '.' then none
  return (.version, ← pastNumber? (c.past 1))

/-- A handle and what it stands for. -/
def handleMeaning? (c : Cursor) : Option (Directive × Cursor) := do
  let (handle, c) ← handle? true (c.pastGap c.gap.length)
  let c := c.pastGap c.gap.length
  if !c.next.any fun a => a = '!' || isSuffixChar a then none
  let (beginning, c) ← tagText? isTagChar c
  if endsWord c.next then some (.handle handle beginning, c) else none

/-- A directive from its mark on, and the place after its line. -/
def directive? (c : Cursor) : Option (Directive × Cursor) := do
  let name := (c.rest.drop 1).takeWhile isWord
  let c := c.past (name.length + 1)
  if name.isEmpty || !endsWord c.next then none
  let (d, c) ←
    if name = "YAML".toList then version? c
    else if name = "TAG".toList then handleMeaning? c
    else some (.reserved, c.pastLine)
  let c ← c.toContent?
  if !c.atLineEnd then none
  return (d, if c.rest.isEmpty then c else c.pastBreak)

end ReportPress.Yaml
