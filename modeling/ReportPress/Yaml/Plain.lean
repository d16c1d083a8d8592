import ReportPress.Yaml.Cursor

/-!
# Texts without quotation marks

A plain text ends where something else can begin: a comment, the value for a name, the bounds of a
document or, between brackets, one of the marks that mean something there.  It goes on below its
first line as long as the lines are indented deeper than what it belongs to.

* `goesOn`, `plainSpan` — the part of a plain text without white space.
* `plain?` — a whole text.
-/

namespace ReportPress.Yaml

/-- Whether a plain text goes on with what is left to read. -/
def goesOn (inFlow : Bool) : List Char → Bool
  | [] => false
  | ':' :: rest => !(endsWord rest.head? || (inFlow && rest.head?.any isFlowMark))
  | c :: _ => !(endsWord (some c) || (inFlow && isFlowMark c))

/-- The part of a plain text up to white space or to where it ends. -/
def plainSpan (inFlow : Bool) : List Char → List Char
  | [] => []
  | c :: rest => if goesOn inFlow (c :: rest) then c :: plainSpan inFlow rest else []

theorem plainSpan_eq_nil_iff (inFlow : Bool) (cs : List Char) :
    plainSpan inFlow cs = [] ↔ goesOn inFlow cs = false := by
  cases cs with
  | nil => simp [plainSpan, goesOn]
  | cons c rest => simp [plainSpan]

/-- What is left of a plain text after `before`, the white space or line breaks in front of it, and
the place where it ends.  Outside brackets its lines begin at the column `floor` or after it. -/
def plainRest? (inFlow : Bool) (floor : Int) : (fuel : Nat) → (before : List Char) → Cursor →
    Option (List Char × Cursor)
  | 0, _, _ => none
  | fuel + 1, before, c => do
    if c.atDocument || c.next = some '#' then return ([], c)
    if inFlow && c.next = some '-' && c.second.any isFlowMark then none
    let span := plainSpan inFlow c.rest
    if span.isEmpty then return ([], c)
    let c := c.past span.length
    if c.rest.isEmpty || !endsWord c.next then return (before ++ span, c)
    let (gap, breaks, c) ← c.gap? Cursor.pastTabs? floor (c.rest.length + 1)
    if !inFlow && (c.column : Int) < floor then return (before ++ span, c)
    let (more, c) ← plainRest? inFlow floor fuel (joint gap breaks) c
    return (before ++ span ++ more, c)

/-- A plain text, and the place where it ends.  There is no empty one. -/
def plain? (inFlow : Bool) (floor : Int) (c : Cursor) : Option (String × Cursor) := do
  if inFlow && (c.column : Int) < floor then none
  let (cs, after) ← plainRest? inFlow floor (c.rest.length + 1) [] c
  if cs.isEmpty then none else some (String.ofList cs, after)

end ReportPress.Yaml
