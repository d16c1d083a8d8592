import ReportPress.Document.Basic
import ReportPress.Inline.Hue
import ReportPress.Text.Words

/-!
# From raw text to runes

Raw text holds its own small markup: `*` for emphasis, brackets for links and for places that
links lead to, `<br>` for a line break.  Resolving goes through the text in passes, each of which
cuts the runes of the pass before into smaller ones.

* `typography` — break tokens, dashes and quotation marks.
* `links` — the parts inside and outside of links and anchors.
* `splitRuneLines` — one rune for each line, with white space collapsed.
* `emphasize` — the spans between the delimiters of one kind of emphasis.
* `colorize` — one rune for each character, in the colours of the rainbow.
* `resolve`, `resolveDocument` — all passes; one hue runs through the whole document.
-/

namespace ReportPress.Inline

open Text

/-! ## Typography -/

/-- A break token with the white space around it. -/
def breakToken? (cs : List Char) : Option (List Char × Nat) :=
  (dropLead? "<br>".toList (cs.dropWhile isBlank)).map fun rest =>
    (['\n'], cs.length - (rest.dropWhile isBlank).length)

/-- A text on one line between straight quotation marks. -/
def quotation? : List Char → Option (List Char × Nat)
  | '\x22' :: cs =>
    let inner := cs.takeWhile fun c => c ≠ '\x22' && c ≠ '\n'
    if (cs.drop inner.length).head? = some '\x22' then
      some ('«' :: inner ++ ['»'], inner.length + 2)
    else none
  | _ => none

/-- Break tokens as line feeds, spaced hyphens as dashes, straight quotation marks as angled
ones. -/
def typography (cs : List Char) : List Char :=
  substitute quotation? <| replaceAll " - ".toList " – ".toList <| replaceAll ['—'] ['-'] <|
    substitute breakToken? cs

/-! ## Links and anchors -/

/-- A text on one line up to a closing mark, and the text after that mark. -/
def upTo? (close : Char) (cs : List Char) : Option (List Char × List Char) :=
  let inner := cs.takeWhile fun c => c ≠ close && c ≠ '\n'
  match cs.drop inner.length with
  | c :: rest => if c = close then some (inner, rest) else none
  | [] => none

/-- A label in brackets with a target in parentheses or an anchor in braces. -/
def link? : List Char → Option (Rune × Nat)
  | '[' :: cs => do
    let (label, rest) ← upTo? ']' cs
    match rest with
    | '(' :: rest =>
      let (target, _) ← upTo? ')' rest
      return ({ text := String.ofList label, link := some (.ofString (String.ofList target)) },
        label.length + target.length + 4)
    | '\x7b' :: '#' :: rest =>
      let (anchor, _) ← upTo? '\x7d' rest
      return ({ text := String.ofList label, anchor := some (String.ofList anchor) },
        label.length + anchor.length + 5)
    | _ => none
  | _ => none

/-- Runes with a character in front: it joins the text before the first link. -/
def consChar (c : Char) : List Char × Runes → List Char × Runes
  | (text, runes) => (c :: text, runes)

/-- The text before the first link, and the runes from that link on. -/
def linkRunes : List (Piece Rune) → List Char × Runes
  | [] => ([], [])
  | .char c :: pieces => consChar c (linkRunes pieces)
  | .found rune :: pieces =>
    let (text, runes) := linkRunes pieces
    ([], rune :: .plain (String.ofList text) :: runes)

/-- A rune for each link or anchor and one for the text between any two. -/
def links (cs : List Char) : Runes :=
  let (text, runes) := linkRunes (scan link? cs)
  .plain (String.ofList text) :: runes

/-! ## Lines, emphasis and colour -/

/-- One rune for each line of a rune; all but the first begin with a line break. -/
def splitRuneLines (r : Rune) : Runes :=
  match splitOn '\n' r.text.toList with
  | [] => []
  | line :: more =>
    { r.part (String.ofList (collapse line)) with lineBreak := r.lineBreak } ::
      more.map fun line => { r.part (String.ofList (collapse line)) with lineBreak := true }

/-- Spans that are by turns outside and inside of delimiters. -/
def alternate (r : Rune) (more : Emphasis) : (inside : Bool) → List (List Char) → Runes
  | _, [] => []
  | inside, span :: spans =>
    let piece := r.part (String.ofList span)
    (if inside then { piece with emphasis := r.emphasis.union more } else piece) ::
      alternate r more (!inside) spans

/-- A rune cut at every delimiter; every other span, from the second on, gets the emphasis. -/
def emphasizeRune (delimiter : String) (more : Emphasis) (r : Rune) : Runes :=
  match alternate r more false (splitOnText delimiter.toList r.text.toList) with
  | [] => []
  | first :: rest => { first with lineBreak := r.lineBreak } :: rest

/-- Every rune cut at every delimiter. -/
def emphasize (delimiter : String) (more : Emphasis) (runes : Runes) : Runes :=
  runes.flatMap (emphasizeRune delimiter more)

/-- The three kinds of emphasis, the longest delimiter first. -/
def emphasizeAll (runes : Runes) : Runes :=
  emphasize "*" ⟨false, true⟩ <| emphasize "**" ⟨true, false⟩ <| emphasize "***" ⟨true, true⟩ runes

/-- A rune of one character in the next colour. -/
def colorChar (r : Rune) (c : Char) : StateM Hue Rune := do
  let color ← nextColor
  return { r.part (String.ofList [c]) with color := some color }

/-- One rune for each character of a rune; an empty rune stays. -/
def colorizeRune (r : Rune) : StateM Hue Runes := do
  match ← r.text.toList.mapM (colorChar r) with
  | [] => return [r]
  | first :: rest => return { first with lineBreak := r.lineBreak } :: rest

/-- One rune for each character. -/
def colorize (runes : Runes) : StateM Hue Runes := do
  let pieces ← runes.mapM colorizeRune
  return pieces.flatten

/-- Whether a rune is there for something: a text, a line break or a place to link to. -/
def isVisible (r : Rune) : Bool := !r.text.isEmpty || r.lineBreak || r.anchor.isSome

/-! ## All passes -/

/-- The runes of a raw text before any colouring. -/
def plainRunes (text : String) : Runes :=
  emphasizeAll ((links (typography text.toList)).flatMap splitRuneLines)

/-- The runes of a raw text. -/
def resolve (rainbow : Bool) (text : String) : StateM Hue Runes := do
  let runes := plainRunes text
  let runes ← if rainbow then colorize runes else pure runes
  return runes.filter isVisible

/-- A report with every text resolved, in document order. -/
def resolveDocument (d : RawDocument) : StateM Hue ResolvedDocument :=
  d.traverse (resolve d.settings.rainbow)

end ReportPress.Inline
