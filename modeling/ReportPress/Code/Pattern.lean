import ReportPress.Code.Grammar
import ReportPress.Text.Blank
import ReportPress.Text.WordCharacter

/-!
# Patterns that grammars share

* `Pattern.literal` — a text as it is.
* `Pattern.oneOf` — one character of a class.
* `Pattern.wholeWord` — one of some words that is not part of a longer word.
* `Pattern.toLineEnd` — everything up to and with the end of the line after an opening.
-/

namespace ReportPress.Code

open Text

namespace Pattern

variable {C : Type}

/-- A text as it is. -/
def literal (text scope : String) (action : Action C := .stay) : Pattern C where
  cut? _ cs := (dropLead? text.toList cs).map fun _ => [(text.length, none)]
  scope := scope
  action := action

/-- One character of a class. -/
def oneOf (test : Char → Bool) (scope : String) : Pattern C where
  cut? _ cs := if cs.head?.any test then some [(1, none)] else none
  scope := scope

/-- Whether a text stands at a place as a whole word. -/
def standsAsWord (before : Option Char) (cs : List Char) (word : String) : Bool :=
  match dropLead? word.toList cs with
  | none => false
  | some rest =>
    atWordEdge before word.toList.head? && atWordEdge word.toList.getLast? rest.head?

/-- One of some words that is not part of a longer word. -/
def wholeWord (words : List String) (scope : String) : Pattern C where
  cut? before cs :=
    (words.find? (standsAsWord before cs)).map fun word => [(word.length, none)]
  scope := scope

/-- The characters up to and with the end of the line. -/
def lineLength (cs : List Char) : Nat :=
  let line := cs.takeWhile (· ≠ '\n')
  if line.length < cs.length then line.length + 1 else line.length

/-- An opening with a scope of its own, and the rest of the line. -/
def toLineEnd (openings : List String) (openingScope scope : String) : Pattern C where
  cut? _ cs :=
    (openings.find? fun o => startsWith o.toList cs).map fun o =>
      [(o.length, some openingScope), (lineLength (cs.drop o.length), none)]
  scope := scope

end Pattern

end ReportPress.Code
