import ReportPress.Document.Basic
import ReportPress.Markup.ExternalDirective
import ReportPress.Markup.OpenLists
import ReportPress.Markup.PipeTable

/-!
# Reading a source

A source is read line by line.  Between two lines the reader is at one of three places: among
paragraphs, in a list, or in a block of code; a step takes one line from one place to the next.
When all lines are read, paragraphs that are directives or tables are recognized.

* `Place`, `Reader` — where the reader is, and what it has read.
* `Reader.step` — one line.  Inside a block of code nothing but the closing fence has a meaning.
  In a list a blank line is kept in mind: a line of plain text after it ends the list, an item
  does not.
* `Reader.finish` — the nodes once all lines are read.
* `detect` — the passes over the nodes, in their order.
* `parse` — a whole source.
-/

namespace ReportPress.Markup

open Text

/-- A block of code that is being read: its lines so far, newest first. -/
structure OpenCode where
  language : String
  title : String
  newest : List String
deriving Repr

/-- Where the reader is between two lines. -/
inductive Place where
  | paragraphs
  /-- In a list; `blank` if the last line was blank. -/
  | lists (lists : OpenLists) (blank : Bool)
  | code (code : OpenCode)
deriving Repr

/-- What has been read: nodes and findings newest first. -/
structure Reader where
  place : Place := .paragraphs
  newest : List (Node String) := []
  settings : Settings := {}
  found : List Diagnostic := []
deriving Repr

/-! ## Blocks of code -/

namespace OpenCode

/-- The block that a fence opens: the language up to the first space, the title after it. -/
def ofFence (text : String) : OpenCode where
  language := String.ofList (text.toList.takeWhile (· ≠ ' '))
  title := String.ofList ((text.toList.dropWhile (· ≠ ' ')).drop 1)
  newest := []

/-- The block with all its lines: no empty lines at its start, no white space at its end. -/
def close (code : OpenCode) : CodeBlock String where
  language := code.language
  title := code.title
  body :=
    let lines := joinWith ['\n'] (code.newest.reverse.map String.toList)
    String.ofList (trimEnd (lines.dropWhile (· = '\n')))

end OpenCode

/-! ## Steps -/

namespace Reader

/-- The reader with one more node. -/
def push (r : Reader) (node : Node String) : Reader := { r with newest := node :: r.newest }

/-- A line of text joins the paragraph before it; a blank line opens an empty paragraph for the
text that may follow. -/
def pushText (r : Reader) (raw : String) : Reader :=
  let text := trimmed raw
  match r.newest with
  | .text p :: before =>
    if text.isEmpty then r.push (.ofText text)
    else
      let joined := if p.text.isEmpty then text else p.text ++ "\n" ++ text
      { r with newest := .text { p with text := joined } :: before }
  | _ => r.push (.ofText text)

/-- The text after a keyword, whatever its case, without white space at its ends. -/
def afterKeyword? (keyword text : String) : Option String :=
  if startsWith keyword.toList (lowerAscii text).toList then
    some (String.ofList (trim (text.toList.drop keyword.length)))
  else none

/-- A rule directive: a flag, the title, the author, or an unknown text. -/
def applyRule (r : Reader) (text : String) : Reader :=
  let text := trimmed text
  if lowerAscii text = "highlight code" then
    { r with settings.highlightCode := true }
  else if lowerAscii text = "rainbow" then { r with settings.rainbow := true }
  else
    match afterKeyword? "title" text, afterKeyword? "author" text with
    | some title, _ => { r with settings.title := some title }
    | none, some author => { r with settings.author := some author }
    | none, none => { r with found := .unknownRule text :: r.found }

/-- A line that belongs to no list and no block of code. -/
def take (r : Reader) (raw : String) (line : Line) : Reader :=
  let r := { r with place := .paragraphs }
  match line.marker with
  | .heading level => r.push (.ofTitle line.text level)
  | .bullet => { r with place := .lists (.single (.ofItem false 1 line.text)) false }
  | .ordered index => { r with place := .lists (.single (.ofItem true index line.text)) false }
  | .image alt source width height => r.push (.image { alt, source, width, height })
  | .fence => { r with place := .code (.ofFence line.text) }
  | .comment => r
  | .sectionBreak pageStart => r.push (.sectionBreak pageStart)
  | .rule => r.applyRule line.text
  | .plain | .indent => r.pushText raw

/-- The end of a list. -/
def closeLists (r : Reader) (lists : OpenLists) : Reader := r.push (.list lists.close)

/-- A line read inside a list.  The list goes on with items, and with plain text that no blank
line precedes; anything else ends it, and so does a line that no open list takes. -/
def stepInLists (r : Reader) (lists : OpenLists) (blank : Bool) (raw : String) (line bare : Line) :
    Reader :=
  if bare.isBlank then { r with place := .lists lists true }
  else if bare.marker.isListMarker || (bare.marker = .plain && !blank) then
    match lists.place? line bare with
    | some lists => { r with place := .lists lists false }
    | none => (r.closeLists lists).take raw line
  else
    let r := r.closeLists lists
    (if blank then r.push (.ofText "") else r).take raw line

/-- The reader after one more line, without its line end. -/
def step (r : Reader) (raw : String) : Except TooDeep Reader :=
  match r.place with
  | .code code =>
    if startsWith "```".toList raw.toList then
      .ok { r.push (.code code.close) with place := .paragraphs }
    else .ok { r with place := .code { code with newest := raw :: code.newest } }
  | .paragraphs => do
    let line ← classify raw
    return r.take raw line
  | .lists lists blank => do
    let line ← classify raw
    let bare ← line.bare
    return r.stepInLists lists blank raw line bare

/-- What is still open ends with the source. -/
def finish (r : Reader) : Reader :=
  match r.place with
  | .paragraphs => r
  | .lists lists _ => { r.closeLists lists with place := .paragraphs }
  | .code code => { r.push (.code code.close) with place := .paragraphs }

end Reader

/-! ## Whole sources -/

/-- A source that cannot be read, with the number of the line at fault, counted from one. -/
structure ParseFailure where
  line : Nat
  cause : TooDeep
deriving DecidableEq, Repr

/-- A report and what was noticed while reading it. -/
structure Parsed where
  document : RawDocument
  diagnostics : List Diagnostic
deriving Repr

/-- The lines of a source without their line ends. -/
def sourceLines (source : String) : List String :=
  (splitOn '\n' source.toList).map fun line => String.ofList (dropEnd '\r' line)

/-- The reader after all the lines, the first of which has the given number. -/
def readLines (r : Reader) (number : Nat) : List String → Except ParseFailure Reader
  | [] => .ok r
  | raw :: rest =>
    match r.step raw with
    | .error cause => .error ⟨number, cause⟩
    | .ok r => readLines r (number + 1) rest

/-- The nodes that are not empty paragraphs. -/
def dropEmptyTexts (nodes : List (Node String)) : List (Node String) :=
  nodes.filter fun
    | .text p => !p.text.isEmpty
    | _ => true

/-- Empty paragraphs dropped, then external documents recognized, then tables. -/
def detect (nodes : List (Node String)) : List (Node String) × List Diagnostic :=
  let (nodes, found) := externals (dropEmptyTexts nodes)
  (tables nodes, found)

/-- Reads a source.  The report has one section, which starts with page one. -/
def parse (source : String) : Except ParseFailure Parsed := do
  let r ← readLines {} 1 (sourceLines source)
  let r := r.finish
  let (nodes, found) := detect r.newest.reverse
  return {
    document := { sections := [{ pageStart := some 1, nodes }], settings := r.settings }
    diagnostics := r.found.reverse ++ found }

end ReportPress.Markup
