import ReportPress.Document.Rune

/-!
# Runs of one alphabet

Before a text is set, its runes are cut where it changes between the Latin and the Cyrillic
alphabet, so that each piece can be marked with its language.  A character of neither alphabet
stays with the piece it follows, and with the first piece at the start.

* `cutScripts` — the pieces of a text with their alphabets.
* `splitScript`, `splitScripts` — runes cut in this way.  The anchor and the line break stay on
  the first piece.
-/

namespace ReportPress.Inline

/-- The first piece with a character in front of it. -/
def consPiece (c : Char) : List (List Char × Option Script) → List (List Char × Option Script)
  | [] => [([c], none)]
  | (text, script) :: rest => (c :: text, script) :: rest

/-- The pieces of a text whose piece so far has the alphabet `current`.  The first piece is never
absent, and its alphabet is `current` unless that is still open. -/
def cutScripts (current : Option Script) : List Char → List (List Char × Option Script)
  | [] => [([], current)]
  | c :: cs =>
    match Script.ofChar? c, current with
    | none, _ => consPiece c (cutScripts current cs)
    | some script, none => consPiece c (cutScripts (some script) cs)
    | some script, some active =>
      if script = active then consPiece c (cutScripts current cs)
      else ([], current) :: consPiece c (cutScripts (some script) cs)

/-- A piece of a rune. -/
def scriptPiece (r : Rune) (piece : List Char × Option Script) : Rune :=
  { r.part (String.ofList piece.1) with script := piece.2 }

/-- One rune for each piece of a rune. -/
def splitScript (r : Rune) : Runes :=
  match cutScripts none r.text.toList with
  | [] => []
  | first :: rest =>
    { scriptPiece r first with lineBreak := r.lineBreak } ::
      rest.map fun piece => { scriptPiece r piece with anchor := none }

/-- One rune for each piece of all runes. -/
def splitScripts (runes : Runes) : Runes := runes.flatMap splitScript

end ReportPress.Inline
