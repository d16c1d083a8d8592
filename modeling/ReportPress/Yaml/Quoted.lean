import ReportPress.Text.Digit
import ReportPress.Yaml.Cursor

/-!
# Texts between quotation marks

A text in quotation marks may go on over several lines; the line breaks are folded, and white
space around them is lost.  Between double marks a backslash begins an escape sequence, between
single ones a doubled mark stands for the mark.

* `QuoteStyle` — which marks a text stands between.
* `escape?` — what an escape sequence stands for.
* `quotedWord?` — a part of a text without white space.
* `quoted?` — a whole text from its opening mark on.
-/

namespace ReportPress.Yaml

open Text

/-- The marks that a text stands between. -/
inductive QuoteStyle where
  | single
  | double
deriving DecidableEq, Repr

/-- The quotation mark. -/
def QuoteStyle.mark : QuoteStyle → Char
  | single => '\''
  | double => '\x22'

/-! ## Escape sequences -/

/-- The characters for escape sequences of one letter. -/
def escapes : List (Char × Char) := [
  ('0', '\x00'), ('a', '\x07'), ('b', '\x08'), ('t', '\t'), ('\t', '\t'), ('n', '\n'),
  ('v', '\x0b'), ('f', '\x0c'), ('r', '\r'), ('e', '\x1b'), (' ', ' '), ('\x22', '\x22'),
  ('/', '/'), ('\\', '\\'), ('N', '\u0085'), ('_', '\u00a0'), ('L', '\u2028'), ('P', '\u2029')]

/-- The character with a hexadecimal number of so many digits. -/
def hexChar? (digits : Nat) (cs : List Char) : Option Char := do
  let text := cs.take digits
  let n ← digitsValue? 16 text
  if text.length = digits ∧ n.isValidChar then some (Char.ofNat n) else none

/-- What the text after a backslash stands for, and how many characters of it say so. -/
def escape? : List Char → Option (Char × Nat)
  | [] => none
  | 'x' :: cs => (hexChar? 2 cs).map (·, 3)
  | 'u' :: cs => (hexChar? 4 cs).map (·, 5)
  | 'U' :: cs => (hexChar? 8 cs).map (·, 9)
  | c :: _ => (escapes.lookup c).map (·, 1)

/-! ## Texts -/

/-- A part of a text without white space, up to white space, the closing mark or the end.  The flag
says that a backslash joins the line to the next. -/
def quotedWord? (style : QuoteStyle) : (fuel : Nat) → Cursor → Option (List Char × Bool × Cursor)
  | 0, c => some ([], false, c)
  | fuel + 1, c =>
    let more (a : Char) (n : Nat) :=
      (quotedWord? style fuel (c.past n)).map fun (word, after) => (a :: word, after)
    match c.rest with
    | [] => some ([], false, c)
    | a :: rest =>
      if endsWord (some a) then some ([], false, c)
      else if a = style.mark then
        if style = .single ∧ rest.head? = some a then more a 2 else some ([], false, c)
      else if style = .double ∧ a = '\\' then
        if rest.head? = some '\n' then some ([], true, (c.past 1).pastBreak)
        else
          match escape? rest with
          | some (b, n) => more b (n + 1)
          | none => none
      else more a 1

/-- The rest of a text, and the place after its closing mark.  Each of its lines that is not empty
begins at the column `floor` or after it. -/
def quotedRest? (style : QuoteStyle) (floor : Int) : (fuel : Nat) → Cursor →
    Option (List Char × Cursor)
  | 0, _ => none
  | fuel + 1, c => do
    if c.atDocument || c.rest.isEmpty || (c.column : Int) < floor then none
    let (word, joined, c) ← quotedWord? style (c.rest.length + 1) c
    if c.next = some style.mark then return (word, c.past 1)
    let (gap, breaks, c) ← c.gap? (fun _ => none) floor (c.rest.length + 1)
    let (more, c) ← quotedRest? style floor fuel c
    return (word ++ (if joined then List.replicate breaks '\n' else joint gap breaks) ++ more, c)

/-- A text from its opening mark on, and the place after its closing mark. -/
def quoted? (style : QuoteStyle) (floor : Int) (c : Cursor) : Option (String × Cursor) :=
  (quotedRest? style floor (c.rest.length + 1) (c.past 1)).map fun (cs, after) =>
    (String.ofList cs, after)

end ReportPress.Yaml
