import ReportPress.Yaml.Cursor

/-!
# Texts that keep their lines

After a bar or an angle bracket the lines below, as far as they are indented, are a text.  A bar
keeps its line breaks, an angle bracket folds them; signs after the mark say what becomes of the
line breaks at the end, and how deep the text is indented.

* `Chomp`, `BlockHeader`, `BlockHeader.read?` — the mark and what follows it.
* `Body`, `bodyOf` — the lines of a text.
* `blockText?` — a whole text.
-/

namespace ReportPress.Yaml

/-! ## The first line -/

/-- What becomes of the line breaks at the end. -/
inductive Chomp where
  /-- One of them stays. -/
  | clip
  | strip
  | keep
deriving DecidableEq, Repr

/-- What the first line of a text says. -/
structure BlockHeader where
  folded : Bool
  chomp : Chomp := .clip
  /-- How much deeper the text is indented than what it belongs to; zero if that is not said. -/
  deeper : Nat := 0
deriving Repr

/-- What a sign says about the line breaks at the end. -/
def Chomp.ofSign? : Option Char → Option Chomp
  | some '+' => some keep
  | some '-' => some strip
  | _ => none

/-- The value of a digit. -/
def digit? (c : Option Char) : Option Nat :=
  (c.filter Char.isDigit).map fun d => d.toNat - '0'.toNat

/-- The signs after the mark: a sign and a digit, which is not zero, in either order. -/
def BlockHeader.read? (folded : Bool) (c : Cursor) : Option (BlockHeader × Cursor) :=
  match Chomp.ofSign? c.next, digit? c.next with
  | some chomp, _ =>
    match digit? c.second with
    | some 0 => none
    | some deeper => some ({ folded, chomp, deeper }, c.past 2)
    | none => some ({ folded, chomp }, c.past 1)
  | none, some 0 => none
  | none, some deeper =>
    match Chomp.ofSign? c.second with
    | some chomp => some ({ folded, chomp, deeper }, c.past 2)
    | none => some ({ folded, deeper }, c.past 1)
  | none, none => some ({ folded }, c)

/-! ## The lines below it -/

/-- Past the spaces at the start of a line, up to the column `depth`, and past lines without
anything else: how many of these there are, and the place after them. -/
def pastIndent (depth : Nat) : (fuel : Nat) → Cursor → Nat × Cursor
  | 0, c => (0, c)
  | fuel + 1, c =>
    let spaces := (c.rest.takeWhile (· = ' ')).length
    let c := c.pastGap (min spaces (depth - c.column))
    if c.next = some '\n' then
      let (breaks, c) := pastIndent depth fuel c.pastBreak
      (breaks + 1, c)
    else (0, c)

/-- Past all spaces at the start of a line, and past lines without anything else: the deepest
column so reached, how many lines these are, and the place after them. -/
def deepestIndent (deepest : Nat) : (fuel : Nat) → Cursor → Nat × Nat × Cursor
  | 0, c => (deepest, 0, c)
  | fuel + 1, c =>
    let c := c.pastGap (c.rest.takeWhile (· = ' ')).length
    let deepest := max deepest c.column
    if c.next = some '\n' then
      let (deepest, breaks, c) := deepestIndent deepest fuel c.pastBreak
      (deepest, breaks + 1, c)
    else (deepest, 0, c)

/-- The lines of a text. -/
structure Body where
  text : List Char := []
  /-- The last line is complete. -/
  isEnded : Bool := false
  /-- The empty lines after the last. -/
  blanks : Nat := 0
  /-- The place after the text. -/
  after : Cursor
deriving Repr

/-- The lines that are indented by `depth`.  Before each of them a line may have ended, followed by
so many blank ones; when folded, lines that begin with white space stay `apart` from the others. -/
def bodyOf (folded : Bool) (depth : Nat) : (fuel : Nat) → (isEnded : Bool) → (blanks : Nat) →
    (apart : Bool) → Cursor → Body
  | 0, isEnded, blanks, _, c => { isEnded, blanks, after := c }
  | fuel + 1, isEnded, blanks, apart, c =>
    if c.column ≠ depth || c.rest.isEmpty || (depth = 0 && c.isAt "...") then
      { isEnded, blanks, after := c }
    else
      let breaks := if isEnded then blanks + 1 else blanks
      let before :=
        if folded && isEnded && !apart && !c.next.any isGap then joint [] breaks
        else List.replicate breaks '\n'
      let line := c.rest.takeWhile (· ≠ '\n')
      let after := c.past line.length
      if after.rest.isEmpty then { text := before ++ line, after }
      else
        let (blanks, below) := pastIndent depth (after.rest.length + 1) after.pastBreak
        let body := bodyOf folded depth fuel true blanks (c.next.any isGap) below
        { body with text := before ++ line ++ body.text }

/-- The line breaks at the end of a text.  At the end of everything, a last line that is indented
like the text counts as complete. -/
def Body.ending (chomp : Chomp) (depth : Nat) (b : Body) : List Char :=
  if chomp = .strip then []
  else
    (if b.isEnded then ['\n'] else []) ++
    (if b.after.rest.isEmpty && max depth 1 ≤ b.after.column then ['\n'] else []) ++
    (if chomp = .keep then List.replicate b.blanks '\n' else [])

/-- What a text is if nothing follows its first line but blank lines; `isEnded` says whether the
first line has an end. -/
def emptyBody (chomp : Chomp) (isEnded : Bool) (blanks : Nat) : List Char :=
  if !isEnded || chomp = .strip then []
  else if chomp = .keep then List.replicate (max blanks 1) '\n'
  else ['\n']

/-- A text from its mark on, and the place after it, if it belongs to something in the column
`outer`. -/
def blockText? (folded : Bool) (outer : Int) (c : Cursor) : Option (String × Cursor) := do
  let (h, c) ← BlockHeader.read? folded (c.past 1)
  let c ← c.toContent?
  if !c.atLineEnd then none
  let isEnded := c.next = some '\n'
  let c := if isEnded then c.pastBreak else c
  if c.next = some '\t' then none
  let fuel := c.rest.length + 1
  let (depth, blanks, c) :=
    if h.deeper = 0 then
      let (deepest, blanks, c) := deepestIndent 0 fuel c
      (max deepest (outer + 1).toNat, blanks, c)
    else
      let depth := (max outer 0).toNat + h.deeper
      let (blanks, c) := pastIndent depth fuel c
      (depth, blanks, c)
  if c.rest.isEmpty then return (String.ofList (emptyBody h.chomp isEnded blanks), c)
  if c.column < depth && outer < (c.column : Int) then none
  let body := bodyOf folded depth fuel false blanks false c
  return (String.ofList (body.text ++ body.ending h.chomp depth), body.after)

end ReportPress.Yaml
