import ReportPress.Document.Node
import ReportPress.Word.Numbering

/-!
# Levels of lists

A list that is not part of another has a definition, with a level for each depth of nesting.  A
level gets its marks and indents from the first list at its depth.

* `formatOf`, `markOf` — how the items of a level are marked.
* `visualIndent` — how many steps a level is indented.  Lists of one kind inside each other would
  go further to the right with every depth; each pair of them among the levels takes a step back.
* `levelOf` — a level of a definition.
-/

namespace ReportPress.Typeset

open Word

/-- What the items of a list are counted with. -/
def formatOf (style : ListStyle) : NumberFormat := if style.ordered then .decimal else .bullet

/-- The mark of items that are not counted, a dash. -/
def bulletMark : String := "‒"

/-- The mark of the items of a level.  Levels are counted from one in it, with 32 bits. -/
def markOf (level : Nat) (style : ListStyle) : String :=
  if style.ordered then
    "%" ++ toString (Length.wrapUnsigned (level + 1)) ++ (if style.alternate then "." else ")")
  else bulletMark

/-- The number of levels in a format that come right after another level in the same format. -/
def sharedPairs (format : NumberFormat) : List NumberLevel → Nat
  | k :: l :: levels =>
    (if k.format = format ∧ l.format = format then 1 else 0) + sharedPairs format (l :: levels)
  | _ => 0

/-- How many steps a level is indented that is added to some others. -/
def visualIndent (levels : List NumberLevel) (level : Nat) (format : NumberFormat) : Nat :=
  level - sharedPairs format levels

/-! ## Indents -/

/-- The indent of a list that is not nested, in millimetres. -/
def baseIndent : Rat := 35 / 2

/-- What each step adds to it. -/
def stepIndent : Rat := 5

/-- How far a mark hangs out. -/
def hangingIndent : Rat := 5

/-- The indent of the first line in lists of the alternate style. -/
def alternateFirstLine : Rat := 25 / 2

/-- The left indent of a level that is so many steps to the right, in millimetres. -/
def leftIndent (alternate : Bool) (steps : Nat) : Rat :=
  if alternate then stepIndent * (steps : Rat) else baseIndent + stepIndent * (steps : Rat)

/-- The indent of the first line of its items, in millimetres. -/
def firstLineIndent (alternate : Bool) : Rat :=
  if alternate then alternateFirstLine else -hangingIndent

/-- A level to be added to some others. -/
def levelOf (levels : List NumberLevel) (level : Nat) (style : ListStyle) : NumberLevel where
  level := level
  format := formatOf style
  text := markOf level style
  start := style.start
  indentLeft :=
    Length.mmToTwip (leftIndent style.alternate (visualIndent levels level (formatOf style)))
  indentFirstLine := Length.mmToTwip (firstLineIndent style.alternate)

/-- A definition with one more level, unless it has a level of that depth. -/
def addLevel (level : Nat) (style : ListStyle) (d : Definition) : Definition :=
  d.add (levelOf d level style)

end ReportPress.Typeset
