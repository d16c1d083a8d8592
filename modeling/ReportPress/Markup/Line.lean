import ReportPress.Text.DecimalDigit
import ReportPress.Text.Words

/-!
# Lines of a source

A line is classified by itself: what stands before it and after it plays no part.  Whether a line
goes on with a list, closes a fence or belongs to a table is decided by the reader.

* `Marker` — what a line begins with; `Line` — a marker, the text behind it and the indentation.
* `imageParts?` — the parts of an image directive.  Its brackets and parentheses may hold
  brackets and parentheses themselves, so the split is made at the last place that allows one.
* `pageFrom` — the first page that a section directive asks for.
* `orderedIndex?` — the number of an ordered item.
* `classify` — all of it; the only line that no report may hold is a heading of level seven or
  more.
-/

namespace ReportPress.Markup

open Text

/-- What a line begins with. -/
inductive Marker where
  | heading (level : Nat)
  | bullet
  | ordered (index : UInt32)
  /-- An indented line of any kind. -/
  | indent
  | image (alt source : String) (width height : Option UInt32)
  | fence
  | comment
  | sectionBreak (pageStart : Option UInt32)
  | rule
  | plain
deriving DecidableEq, Repr

namespace Marker

/-- Whether the line is an item of a list. -/
def isListMarker : Marker → Bool
  | bullet | ordered _ => true
  | _ => false

/-- Whether the line is an item of a list of the given kind. -/
def continuesList (ordered : Bool) : Marker → Bool
  | bullet => !ordered
  | .ordered _ => ordered
  | _ => false

end Marker

/-- A classified line. -/
structure Line where
  marker : Marker
  /-- What follows the marker; the whole line where there is none. -/
  text : String
  /-- Units of indentation; zero for every marker but `indent`. -/
  depth : Nat
deriving DecidableEq, Repr

/-- A line that no report may hold: a heading of a level beyond six. -/
structure TooDeep where
  level : Nat
deriving DecidableEq, Repr

/-- The wording of the fault. -/
def TooDeep.message (fault : TooDeep) : String :=
  "heading level " ++ toString fault.level ++ " is deeper than 6"

/-- An empty line. -/
def Line.isBlank (line : Line) : Bool := line.marker = .plain && line.text.isEmpty

/-! ## The parts of a directive -/

/-- The text after the first occurrence of `pattern`. -/
def afterFirst? (pattern : List Char) : List Char → Option (List Char)
  | [] => none
  | c :: cs =>
    match dropLead? pattern (c :: cs) with
    | some rest => some rest
    | none => afterFirst? pattern cs

/-- The text before the last occurrence of `pattern` and the text after it. -/
def splitLast? (pattern : List Char) : List Char → Option (List Char × List Char)
  | [] => none
  | c :: cs =>
    match splitLast? pattern cs with
    | some (before, after) => some (c :: before, after)
    | none => (dropLead? pattern (c :: cs)).map fun rest => ([], rest)

/-- A width and a height with an `x` between them, either of which may be absent. -/
def sizeParts (size : List Char) : Option UInt32 × Option UInt32 :=
  match splitOn 'x' size with
  | width :: height :: _ => (leadingNumber width, leadingNumber height)
  | width :: [] => (leadingNumber width, none)
  | [] => (none, none)

/-- The alternative text, the source and the text between the braces of an image directive that
stands anywhere in a text without line feeds. -/
def directiveParts? (line : List Char) : Option (List Char × List Char × Option (List Char)) := do
  let rest ← afterFirst? "![".toList line
  let (inner, tail) ← splitLast? [')'] rest
  let (alt, source) ← splitLast? "](".toList inner
  match tail with
  | '\x7b' :: braced => return (alt, source, (splitLast? ['\x7d'] braced).map Prod.fst)
  | _ => return (alt, source, none)

/-- The parts of the first image directive.  A directive does not go on past a line feed. -/
def imageParts? (text : List Char) : Option (List Char × List Char × Option (List Char)) :=
  (splitOn '\n' text).findSome? directiveParts?

/-- The page number after the first `from` that a number follows. -/
def pageFrom : List Char → Option UInt32
  | [] => none
  | c :: cs =>
    match dropLead? "from".toList (c :: cs) with
    | none => pageFrom cs
    | some rest =>
      let digits := (rest.dropWhile isBlank).takeWhile isDecimalDigit
      if (rest.head?.any isBlank) && !digits.isEmpty then number? digits else pageFrom cs

/-- The number of `12.` and `12)`. -/
def orderedIndex? (word : List Char) : Option UInt32 :=
  if word.getLast? = some '.' ∨ word.getLast? = some ')' then number? word.dropLast else none

/-! ## Classification -/

/-- The units of indentation, four spaces or a tab each, and the text behind them. -/
def unindent : List Char → Nat × List Char
  | '\t' :: cs => ((unindent cs).1 + 1, (unindent cs).2)
  | ' ' :: ' ' :: ' ' :: ' ' :: cs => ((unindent cs).1 + 1, (unindent cs).2)
  | cs => (0, cs)

/-- The marker of a line by its first word alone, for the markers that are words. -/
def wordMarker? (word text : List Char) : Except TooDeep (Option Marker) :=
  let keyword := String.ofList (word.map Char.toLower)
  if keyword = "*" ∨ keyword = "-" then .ok (some .bullet)
  else if keyword = "!!section" then .ok (some (.sectionBreak (pageFrom text)))
  else if keyword = "!!rule" then .ok (some .rule)
  else if word ≠ [] ∧ word.all (· = '#') then
    if 6 < word.length then .error ⟨word.length⟩ else .ok (some (.heading word.length))
  else .ok ((orderedIndex? word).map .ordered)

/-- A line without a marker. -/
def plainLine (cs : List Char) : Line := ⟨.plain, String.ofList (trim cs), 0⟩

/-- The marker of an image directive in a line. -/
def imageMarker? (cs : List Char) : Option Marker :=
  (imageParts? cs).map fun (alt, source, size) =>
    let (width, height) := (size.map sizeParts).getD (none, none)
    .image (String.ofList (replaceAll "\\n".toList ['\n'] alt)) (String.ofList source)
      width height

/-- A line that is not indented. -/
def classifyBare (cs : List Char) : Except TooDeep Line :=
  let whole := trim cs
  let first := (words whole).headD []
  let text := joinWith [' '] ((words whole).drop 1)
  match if first.head? = some '!' then imageMarker? cs else none with
  | some marker => .ok ⟨marker, String.ofList whole, 0⟩
  | none =>
    if startsWith "```".toList first then .ok ⟨.fence, String.ofList (whole.drop 3), 0⟩
    else if startsWith "<!--".toList first then
      .ok ⟨.comment, String.ofList (trim (whole.drop 4)), 0⟩
    else
      match wordMarker? first text with
      | .error fault => .error fault
      | .ok (some marker) => .ok ⟨marker, String.ofList text, 0⟩
      | .ok none => .ok (plainLine cs)

/-- One line of a source, without its line feed. -/
def classify (line : String) : Except TooDeep Line :=
  let (depth, rest) := unindent line.toList
  if depth = 0 then classifyBare line.toList
  else .ok ⟨.indent, String.ofList (trim rest), depth⟩

/-- An indented line as it would be without its indentation; any other line as it is. -/
def Line.bare (line : Line) : Except TooDeep Line :=
  if line.marker = .indent then classify line.text else .ok line

end ReportPress.Markup
