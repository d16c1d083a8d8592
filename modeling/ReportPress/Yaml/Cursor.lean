import ReportPress.Text.Words

/-!
# Places in a YAML text

What something means in YAML depends on where it stands: on its line and column, and on whether it
is the first thing on its line.

* `isGap`, `isFlowMark`, `isWord`, `endsWord` — classes of characters.
* `Cursor` — a place in a text, with what is left to read.
* `Cursor.past`, `Cursor.pastGap`, `Cursor.pastBreak` — the places after what is passed over.
* `Cursor.toContent?` — past white space and a comment.
* `Cursor.gap?` — past white space and line breaks inside a text.
* `joint` — what white space and line breaks inside a text mean.
-/

namespace ReportPress.Yaml

open Text

/-! ## Characters -/

/-- Whether a character is white space within a line. -/
def isGap (c : Char) : Bool := c = ' ' || c = '\t'

/-- Whether a character has a meaning of its own between brackets. -/
def isFlowMark (c : Char) : Bool := [',', '[', ']', '\x7b', '\x7d'].contains c

/-- Whether a character belongs to a simple name. -/
def isWord (c : Char) : Bool := c.isAlphanum || c = '_' || c = '-'

/-- Whether an indicator ends before what follows: white space, a line break or nothing. -/
def endsWord (next : Option Char) : Bool := next.all fun c => isGap c || c = '\n'

/-! ## Places -/

/-- A place in a text. -/
structure Cursor where
  /-- What is left to read.  Lines end with line feeds. -/
  rest : List Char
  line : Nat := 0
  column : Nat := 0
  /-- The number of characters before the place. -/
  index : Nat := 0
  /-- Nothing but white space stands before the place on its line. -/
  fresh : Bool := true
deriving Repr

namespace Cursor

/-- The beginning of a text.  A byte order mark is no part of it, and it ends before a null
character. -/
def ofText (s : String) : Cursor where
  rest := (dropStart '\ufeff'
    (replaceAll ['\r'] ['\n'] (replaceAll ['\r', '\n'] ['\n'] s.toList))).takeWhile (· ≠ '\x00')

/-- The next character. -/
def next (c : Cursor) : Option Char := c.rest.head?

/-- The character after the next. -/
def second (c : Cursor) : Option Char := (c.rest.drop 1).head?

/-- Whether nothing is left of the line. -/
def atLineEnd (c : Cursor) : Bool := c.next.all (· = '\n')

/-- Whether an indicator of three characters that stands for the bounds of a document is next. -/
def isAt (mark : String) (c : Cursor) : Bool :=
  match dropLead? mark.toList c.rest with
  | some rest => endsWord rest.head?
  | none => false

/-- Whether a document ends or begins here. -/
def atDocument (c : Cursor) : Bool := c.column = 0 && (c.isAt "---" || c.isAt "...")

/-- Past so many characters of a line. -/
def past (n : Nat) (c : Cursor) : Cursor :=
  { c with rest := c.rest.drop n, column := c.column + n, index := c.index + n, fresh := false }

/-- Past so many characters of a line that say nothing. -/
def pastGap (n : Nat) (c : Cursor) : Cursor := { c.past n with fresh := c.fresh }

/-- Past the end of a line. -/
def pastBreak (c : Cursor) : Cursor where
  rest := c.rest.drop 1
  line := c.line + 1
  index := c.index + 1

/-- Past the rest of a line. -/
def pastLine (c : Cursor) : Cursor := c.pastGap (c.rest.takeWhile (· ≠ '\n')).length

/-- The white space up to the next character of another kind. -/
def gap (c : Cursor) : List Char := c.rest.takeWhile isGap

/-- Past white space and a comment on the same line.  A comment keeps its distance from what
stands before it. -/
def toContent? (c : Cursor) : Option Cursor :=
  let after := c.pastGap c.gap.length
  if after.next = some '#' then if c.gap = [] then none else some after.pastLine
  else some after

/-- Past a line that begins with tabs.  Tabs are no indent, so nothing may stand on it. -/
def pastTabs? (c : Cursor) : Option Cursor := c.toContent?.filter (·.atLineEnd)

/-- Past white space and line breaks: the white space before the first break, how many breaks
there are, and the place after them.  A line that begins with a tab before the column `floor` is
left to `tabs`. -/
def gap? (tabs : Cursor → Option Cursor) (floor : Int) :
    (fuel : Nat) → Cursor → Option (List Char × Nat × Cursor)
  | 0, c => some ([], 0, c)
  | fuel + 1, c =>
    match c.rest with
    | '\n' :: _ => (gap? tabs floor fuel c.pastBreak).map fun (_, breaks, c) => ([], breaks + 1, c)
    | a :: _ =>
      if !isGap a then some ([], 0, c)
      else if a = '\t' && c.fresh && (c.column : Int) < floor then
        (tabs c).bind (gap? tabs floor fuel)
      else (gap? tabs floor fuel (c.pastGap 1)).map fun (gap, after) => (a :: gap, after)
    | [] => some ([], 0, c)

end Cursor

/-- What white space and line breaks inside a text mean: a single break is a space, and of more
the first is lost. -/
def joint (gap : List Char) (breaks : Nat) : List Char :=
  if breaks = 0 then gap else if breaks = 1 then [' '] else List.replicate (breaks - 1) '\n'

theorem joint_zero (gap : List Char) : joint gap 0 = gap := rfl

end ReportPress.Yaml
