import ReportPress.Text.Blank
import ReportPress.Text.Scan

/-!
# Words, lines and trimming

The operations on text that every later stage shares.  Each is a function on lists of characters,
by recursion on the list, with a `String` form where a stage holds strings.

* `trimStart`, `trimEnd`, `trim` — white space off the ends.
* `trimEndOf` — any mix of given characters off the end.
* `dropStart`, `dropEnd` — one character off an end.
* `splitOn` — the pieces between separators; there is always one more piece than separators.
* `words` — the maximal runs without white space.
* `collapse` — every run of white space becomes one space.
* `dropLead?` — the rest after a given beginning.
* `replaceAll` — one text in place of another, wherever that occurs.
* `splitOnText` — the pieces between occurrences of a text.
* `number?`, `leadingNumber` — decimal numbers below `2 ^ 32`.
-/

namespace ReportPress.Text

/-! ## Trimming -/

/-- The text from its first character that is not white space. -/
def trimStart (cs : List Char) : List Char := cs.dropWhile isBlank

/-- The text without the characters at its end that satisfy `p`. -/
def dropEndWhile (p : Char → Bool) : List Char → List Char
  | [] => []
  | c :: cs =>
    match dropEndWhile p cs with
    | [] => if p c then [] else [c]
    | rest => c :: rest

/-- The text up to its last character that is not white space. -/
def trimEnd (cs : List Char) : List Char := dropEndWhile isBlank cs

/-- The text without white space at either end. -/
def trim (cs : List Char) : List Char := trimEnd (trimStart cs)

/-- The text without any of `marks` at its end, in whatever order they stand there. -/
def trimEndOf (marks : List Char) (cs : List Char) : List Char :=
  dropEndWhile (marks.contains ·) cs

/-- The text without a character at its end, if it ends with that. -/
def dropEnd (mark : Char) (cs : List Char) : List Char :=
  if cs.getLast? = some mark then cs.dropLast else cs

/-- The text without a character at its start, if it starts with that. -/
def dropStart (mark : Char) (cs : List Char) : List Char :=
  if cs.head? = some mark then cs.drop 1 else cs

/-! ## Cutting into pieces -/

/-- The pieces between the separators, in order. -/
def splitOn (sep : Char) : List Char → List (List Char)
  | [] => [[]]
  | c :: cs =>
    if c = sep then [] :: splitOn sep cs
    else
      match splitOn sep cs with
      | [] => [[c]]
      | piece :: pieces => (c :: piece) :: pieces

/-- The maximal runs of characters other than white space. -/
def words : List Char → List (List Char)
  | [] => []
  | c :: cs =>
    if isBlank c then words cs
    else
      match cs with
      | [] => [[c]]
      | d :: _ =>
        if isBlank d then [c] :: words cs
        else
          match words cs with
          | [] => [[c]]
          | w :: ws => (c :: w) :: ws

/-- The pieces one after another with a separator between any two. -/
def joinWith (sep : List Char) : List (List Char) → List Char
  | [] => []
  | [piece] => piece
  | piece :: pieces => piece ++ sep ++ joinWith sep pieces

/-- The text after the beginning `lead`, if it begins so. -/
def dropLead? : (lead cs : List Char) → Option (List Char)
  | [], cs => some cs
  | _ :: _, [] => none
  | l :: lead, c :: cs => if l = c then dropLead? lead cs else none

/-- Whether the text begins with `lead`. -/
def startsWith (lead cs : List Char) : Bool := (dropLead? lead cs).isSome

/-- Every run of white space replaced by one space. -/
def collapse : List Char → List Char
  | [] => []
  | c :: cs =>
    if isBlank c then
      if cs.head?.any isBlank then collapse cs else ' ' :: collapse cs
    else c :: collapse cs

/-- Every occurrence of `pattern` replaced by `new`, from left to right. -/
def replaceAll (pattern new : List Char) (cs : List Char) : List Char :=
  substitute (fun cs => (dropLead? pattern cs).map fun _ => (new, pattern.length)) cs

/-- The pieces between the occurrences of `pattern`, in order; there is always at least one. -/
def splitOnText (pattern cs : List Char) : List (List Char) :=
  (scan (fun cs => (dropLead? pattern cs).map fun _ => ((), pattern.length)) cs).foldr
    (fun piece pieces =>
      match piece, pieces with
      | .found _, pieces => [] :: pieces
      | .char c, p :: ps => (c :: p) :: ps
      | .char c, [] => [[c]])
    [[]]

/-! ## Numbers -/

/-- The value of a text of ASCII digits. -/
def digitsValue (digits : List Char) : Nat :=
  digits.foldl (fun n d => 10 * n + (d.toNat - '0'.toNat)) 0

/-- A non-empty text of ASCII digits as a number, if it is below `2 ^ 32`. -/
def number? (digits : List Char) : Option UInt32 :=
  if digits ≠ [] ∧ digits.all Char.isDigit ∧ digitsValue digits < UInt32.size then
    some (UInt32.ofNat (digitsValue digits))
  else none

/-- The number that the text begins with after white space; whatever follows it is ignored. -/
def leadingNumber (cs : List Char) : Option UInt32 :=
  number? ((trim cs).takeWhile Char.isDigit)

/-! ## On strings -/

/-- A text without white space at either end. -/
def trimmed (s : String) : String := String.ofList (trim s.toList)

/-- A text whose runs of white space are single spaces. -/
def collapsed (s : String) : String := String.ofList (collapse s.toList)

/-- The number of words. -/
def wordCount (s : String) : Nat := (words s.toList).length

/-- The lines of a text, without their line feeds. -/
def lines (s : String) : List String := (splitOn '\n' s.toList).map String.ofList

/-- Texts one after another with a separator between any two. -/
def joined (sep : String) (pieces : List String) : String :=
  String.ofList (joinWith sep.toList (pieces.map String.toList))

/-- ASCII letters lowered, all else as it is.  Enough to compare with a keyword of ASCII letters
other than `k`: no other character has such a letter as its whole small form. -/
def lowerAscii (s : String) : String := String.ofList (s.toList.map Char.toLower)

end ReportPress.Text
