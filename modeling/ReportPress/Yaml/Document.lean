import ReportPress.Yaml.Node

/-!
# Documents

A text is one document, or nothing.  Directives may stand before it, and marks for its bounds.

* `readDirectives`, `readFirst` — the document that a text begins with.
* `readEnd` — the end of a document.
* `readSecond` — whatever begins another document.
* `hasFewAliases` — no text has far more aliases than anchors.
* `Yaml.read?` — the value of a text.
-/

namespace ReportPress.Yaml

/-- Past the ends of documents. -/
def skipEnds : (fuel : Nat) → Reader Unit
  | 0 => failure
  | fuel + 1 => do
    match ← peek with
    | .documentEnd =>
      skip
      skipEnds fuel
    | _ => return

/-- Directives in front of a document: the version once at most, and no handle twice.  What stands
there holds for one document. -/
def readDirectives : (fuel : Nat) → (hasVersion : Bool) → (handles : List (String × String)) →
    Reader Unit
  | 0, _, _ => failure
  | fuel + 1, hasVersion, handles => do
    match ← peek with
    | .directive .version =>
      if hasVersion then failure
      skip
      readDirectives fuel true handles
    | .directive (.handle handle beginning) =>
      if (handles.lookup handle).isSome then failure
      skip
      readDirectives fuel hasVersion ((handle, beginning) :: handles)
    | .directive .reserved =>
      skip
      readDirectives fuel hasVersion handles
    | _ => modify fun r => { r with handles }

/-- What stands in front of a document that has to have a mark at its start. -/
def readStart (fuel : Nat) : Reader Unit := do
  readDirectives fuel false []
  match ← peek with
  | .documentStart => skip
  | _ => failure

/-- Whether a document with a mark at its start ends right there. -/
def isEmptyBefore : Token → Bool
  | .directive _ | .documentStart | .documentEnd | .finish => true
  | _ => false

/-- The value of the first document, if there is one. -/
def readFirst (fuel : Nat) : Reader (Option Yaml) := do
  skipEnds fuel
  match ← peek with
  | .finish => return none
  | .directive _ | .documentStart =>
    readStart fuel
    if isEmptyBefore (← peek) then return some null else return some (← readNode fuel true false)
  | _ => return some (← readNode fuel true false)

/-- The end of a document; the answer tells whether a mark says so.  Without one no directive may
follow. -/
def readEnd : Reader Bool := do
  match ← peek with
  | .documentEnd =>
    skip
    return true
  | .directive _ => failure
  | _ => return false

/-- Whatever a value begins with. -/
def readBeginning : Reader Unit := do
  let (anchor, tag) ← readProperties
  match ← peek with
  | .scalar .. | .flowSequence | .flowMapping | .blockSequence | .blockMapping => return
  | _ => if anchor.isSome || tag ≠ .absent then return else failure

/-- Whatever another document begins with.  It has a mark at its start, unless the document before
it has one at its end. -/
def readSecond (fuel : Nat) (isEnded : Bool) : Reader Unit := do
  skipEnds fuel
  match ← peek with
  | .finish => failure
  | .directive _ | .documentStart =>
    readStart fuel
    if isEmptyBefore (← peek) then return else readBeginning
  | _ => if isEnded then readBeginning else failure

/-- Up to so many aliases need no justification. -/
def freeAliases : Nat := 99

/-- How many aliases there may be for each anchor. -/
def aliasesPerAnchor : Nat := 10

/-- Whether a text has not far more aliases than anchors. -/
def Reading.hasFewAliases (r : Reading) : Bool :=
  r.aliases ≤ freeAliases || r.aliases ≤ aliasesPerAnchor * r.anchors.length

/-- The value of a text.  There must be no second document; what cannot be understood after the end
of the first is none. -/
def read? (s : String) : Option Yaml := do
  let fuel := 16 * s.length + 64
  let (value, r) ← (readFirst fuel).run { stream := .ofText s }
  match value with
  | none => return null
  | some value =>
    let (isEnded, r) ← readEnd.run r
    if ((readSecond fuel isEnded).run r).isSome || !r.hasFewAliases then none else some value

end ReportPress.Yaml
