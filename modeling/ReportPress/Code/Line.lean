import ReportPress.Code.Grammar

/-!
# Lines of code

A block of code is set line by line, and a line is a sequence of spans, each in one style.

* `Span` — text in one style.
* `plainLines` — the lines of a text without any styles.
* `endedLines` — the lines of a text with their line feeds, as tokenizers see them.
* `spansOf` — the spans of a line; neighbours differ in style.
* `Tokenizer` — what cuts lines, remembering where it is from line to line; it may give up.
* `linesBy` — a block of code by the tokenizer of its language, whatever tokenizers there are; a
  language that has none gets plain lines.
-/

namespace ReportPress.Code

open Text

/-- Text in one style. -/
structure Span where
  text : String
  style : TextStyle := {}
deriving DecidableEq, Repr

/-! ## Plain lines -/

/-- A line without styles; there is no span for an empty one. -/
def plainLine (line : List Char) : List Span :=
  if line = [] then [] else [{ text := String.ofList line }]

/-- The lines of a text without styles, and without the carriage return before a line feed. -/
def plainLines (body : String) : List (List Span) :=
  (splitOn '\n' body.toList).map fun line => plainLine (dropEnd '\r' line)

/-! ## Lines and spans -/

/-- The lines of a text with their line feeds.  A text that ends with one has no line after it. -/
def endedLines : List Char → List (List Char)
  | [] => []
  | c :: cs =>
    if c = '\n' then [c] :: endedLines cs
    else
      match endedLines cs with
      | [] => [[c]]
      | line :: lines => (c :: line) :: lines

/-- A span in front of others: one in the same style as the first of them becomes part of it. -/
def consSpan (s : Span) : List Span → List Span
  | [] => [s]
  | t :: spans =>
    if s.style = t.style then ⟨s.text ++ t.text, t.style⟩ :: spans else s :: t :: spans

/-- The pieces of a line as spans, without their line ends; no span is empty. -/
def spansOf (language : String) : List Piece → List Span
  | [] => []
  | p :: pieces =>
    match trimEndOf ['\n', '\r'] p.text with
    | [] => spansOf language pieces
    | text => consSpan ⟨String.ofList text, p.kind.style language⟩ (spansOf language pieces)

/-! ## Tokenizers -/

/-- What cuts lines into pieces.  A state lasts from one line to the next, and a line may be too
much for it. -/
structure Tokenizer where
  State : Type
  start : State
  next? : State → List Char → Option (List Piece × State)

namespace Tokenizer

/-- The spans of lines one after another, unless the tokenizer gives up. -/
def spans? (t : Tokenizer) (language : String) (state : t.State) :
    List (List Char) → Option (List (List Span))
  | [] => some []
  | line :: lines => do
    let (pieces, after) ← t.next? state line
    let styled ← t.spans? language after lines
    return spansOf language pieces :: styled

/-- The lines of a text; after a line feed at the end comes an empty line. -/
def styled? (t : Tokenizer) (language body : String) : Option (List (List Span)) :=
  let cs := body.toList
  (t.spans? language t.start (endedLines cs)).map fun styled =>
    styled ++ if cs = [] ∨ cs.getLast? = some '\n' then [[]] else []

end Tokenizer

/-! ## Blocks of code -/

/-- The word for a language as it is looked up: without white space around it, in small letters. -/
def languageToken (word : String) : String := lowerAscii (trimmed word)

/-- A block of code by the tokenizer of its language.  Without one, or if it gives up, the lines are
plain. -/
def linesBy (tokenizerOf : String → Option Tokenizer) (highlight : Bool) (language body : String) :
    List (List Span) :=
  if highlight then
    let token := languageToken language
    match (tokenizerOf token).bind fun t => t.styled? token body with
    | some styled => styled
    | none => plainLines body
  else plainLines body

end ReportPress.Code
