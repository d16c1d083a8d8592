/-!
# Matches from left to right

A pattern is a function that looks at a text from one place on: it answers what it found there
and how many characters the match covers, or nothing.  A match covers at least one character, and
the search goes on behind it, so matches never overlap.

* `scan` — the matches, and the characters between them.
* `substitute` — every match replaced by what was found.
-/

namespace ReportPress.Text

/-- A piece of a scanned text: a character outside every match, or what a match found. -/
inductive Piece (α : Type) where
  | char (c : Char)
  | found (a : α)
deriving Repr

variable {α : Type}

/-- The pieces of a text, the first `skip` characters of which belong to the match found last. -/
def scanFrom (find : List Char → Option (α × Nat)) : (skip : Nat) → List Char → List (Piece α)
  | _, [] => []
  | skip + 1, _ :: cs => scanFrom find skip cs
  | 0, c :: cs =>
    match find (c :: cs) with
    | some (a, covered) => .found a :: scanFrom find (covered - 1) cs
    | none => .char c :: scanFrom find 0 cs

/-- The pieces of a text. -/
def scan (find : List Char → Option (α × Nat)) (cs : List Char) : List (Piece α) :=
  scanFrom find 0 cs

/-- The text with every match replaced by what was found. -/
def substitute (find : List Char → Option (List Char × Nat)) (cs : List Char) : List Char :=
  (scan find cs).flatMap fun
    | .char c => [c]
    | .found new => new

end ReportPress.Text
