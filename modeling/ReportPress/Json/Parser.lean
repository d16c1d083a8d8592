import ReportPress.Json.Value
import ReportPress.Number.Binary64
import ReportPress.Text.Words

/-!
# Reading JSON text

A reader for whole values, strict in every point of the grammar: no leading zeros, no trailing
commas, no raw control characters in strings, no surrogate without its partner.

* `skipSpace` — the four characters that may stand between tokens.
* `stringBody` — a string after its opening quotation mark.
* `Numeral`, `numeral?` — the parts of a number as written.
* `Numeral.value?` — their value.  Integers that fit in 64 bits stay integers.  Any other number
  is scaled from the digits that fit in 64 bits by one power of ten, each step rounded to
  binary64; beyond the largest finite number there is no value.
* `value`, `items`, `members` — values, by recursion on a bound for the number of steps, with a
  limit on the nesting of arrays and objects.
* `object?` — a text that is exactly one object.
-/

namespace ReportPress.Json

open Number (pow10)

/-- Space between tokens. -/
def isSpace (c : Char) : Bool := c = ' ' || c = '\n' || c = '\t' || c = '\r'

/-- The text from its next token on. -/
def skipSpace (cs : List Char) : List Char := cs.dropWhile isSpace

/-! ## Strings -/

/-- The value of a hexadecimal digit. -/
def hexValue? (c : Char) : Option Nat :=
  if c.isDigit then some (c.toNat - '0'.toNat)
  else if 'a' ≤ c ∧ c ≤ 'f' then some (c.toNat - 'a'.toNat + 10)
  else if 'A' ≤ c ∧ c ≤ 'F' then some (c.toNat - 'A'.toNat + 10)
  else none

/-- The value of four hexadecimal digits. -/
def hex4? (a b c d : Char) : Option Nat := do
  let a ← hexValue? a
  let b ← hexValue? b
  let c ← hexValue? c
  let d ← hexValue? d
  return ((a * 16 + b) * 16 + c) * 16 + d

/-- The character of an escape with one letter. -/
def shortEscape? (c : Char) : Option Char :=
  if c = '\x22' ∨ c = '\\' ∨ c = '/' then some c
  else if c = 'b' then some '\x08'
  else if c = 'f' then some '\x0c'
  else if c = 'n' then some '\n'
  else if c = 'r' then some '\r'
  else if c = 't' then some '\t'
  else none

/-- The first half of a surrogate pair. -/
def isHighSurrogate (n : Nat) : Bool := 0xD800 ≤ n && n ≤ 0xDBFF

/-- The second half of a surrogate pair. -/
def isLowSurrogate (n : Nat) : Bool := 0xDC00 ≤ n && n ≤ 0xDFFF

/-- The character that a surrogate pair stands for. -/
def pairChar (high low : Nat) : Char :=
  Char.ofNat (0x10000 + (high - 0xD800) * 0x400 + (low - 0xDC00))

/-- The characters of a string whose opening quotation mark has been read, and the text after its
closing one.  `high` is the first half of a surrogate pair whose second half must come next. -/
def stringBody (high : Option Nat) : List Char → Option (List Char × List Char)
  | [] => none
  | '\\' :: 'u' :: a :: b :: c :: d :: rest => do
    let code ← hex4? a b c d
    match high with
    | some h =>
      if isLowSurrogate code then
        let (body, after) ← stringBody none rest
        return (pairChar h code :: body, after)
      else none
    | none =>
      if isHighSurrogate code then stringBody (some code) rest
      else if isLowSurrogate code then none
      else
        let (body, after) ← stringBody none rest
        return (Char.ofNat code :: body, after)
  | '\\' :: e :: rest =>
    if high.isSome then none
    else do
      let c ← shortEscape? e
      let (body, after) ← stringBody none rest
      return (c :: body, after)
  | c :: rest =>
    if high.isSome then none
    else if c = '\x22' then some ([], rest)
    else if c = '\\' ∨ c.toNat < 0x20 then none
    else do
      let (body, after) ← stringBody none rest
      return (c :: body, after)

/-! ## Numbers -/

/-- A number as written: digits before the point, digits after it if there is one, and a signed
exponent. -/
structure Numeral where
  negative : Bool
  whole : List Char
  fraction : List Char
  exponent : Int
  /-- Neither a point nor an exponent is written. -/
  isWhole : Bool

/-- The part after the digits before the point: an optional fraction. -/
def fraction? : List Char → Option (List Char × List Char)
  | '.' :: rest =>
    let digits := rest.takeWhile Char.isDigit
    if digits.isEmpty then none else some (digits, rest.dropWhile Char.isDigit)
  | cs => some ([], cs)

/-- The sign of an exponent; without one it is positive. -/
def exponentSign : List Char → Bool × List Char
  | '-' :: rest => (true, rest)
  | '+' :: rest => (false, rest)
  | cs => (false, cs)

/-- The part after the fraction: an optional exponent. -/
def exponent? : List Char → Option (Option Int × List Char)
  | [] => some (none, [])
  | c :: rest =>
    if c = 'e' ∨ c = 'E' then
      let (negative, rest) := exponentSign rest
      let digits := rest.takeWhile Char.isDigit
      if digits.isEmpty then none
      else
        let n : Int := Text.digitsValue digits
        some (some (if negative then -n else n), rest.dropWhile Char.isDigit)
    else some (none, c :: rest)

/-- The number that the text begins with, and what follows it. -/
def numeral? (cs : List Char) : Option (Numeral × List Char) := do
  let (negative, cs) := match cs with
    | '-' :: rest => (true, rest)
    | cs => (false, cs)
  let whole := cs.takeWhile Char.isDigit
  let cs := cs.dropWhile Char.isDigit
  if whole.isEmpty then none
  else if whole.head? = some '0' ∧ 1 < whole.length then none
  else
    let (fraction, cs) ← fraction? cs
    let (exponent, cs) ← exponent? cs
    return (⟨negative, whole, fraction, exponent.getD 0, fraction.isEmpty && exponent.isNone⟩, cs)

/-- The digits appended to a significand as long as it stays below `2 ^ 64`, and the number of
digits that no longer fit. -/
def takeDigits (significand : Nat) : List Char → Nat × Nat
  | [] => (significand, 0)
  | d :: ds =>
    let next := 10 * significand + (d.toNat - '0'.toNat)
    if next < 0x10000000000000000 then takeDigits next ds else (significand, ds.length + 1)

/-- Division by a power of ten, at most 308 places at a time. -/
def scaleDown (f : Rat) (places : Nat) : Rat :=
  if places ≤ 308 then Number.Binary64.round (f / Number.Binary64.round (pow10 places))
  else if f = 0 then 0
  else scaleDown (Number.Binary64.round (f / Number.Binary64.round (pow10 308))) (places - 308)
termination_by places

/-- A significand times a power of ten in binary64; no value past the largest finite number. -/
def scaled? (significand : Nat) (exponent : Int) : Option Rat :=
  let f := Number.Binary64.round significand
  match exponent with
  | .negSucc n => some (scaleDown f (n + 1))
  | .ofNat n =>
    if f = 0 then some 0
    else if 308 < n then none
    else
      let product := Number.Binary64.round (f * Number.Binary64.round (pow10 n))
      if Number.Binary64.overflows product then none else some product

/-- The value of a number. -/
def Numeral.value? (n : Numeral) : Option Json :=
  let (significand, dropped) := takeDigits 0 n.whole
  if n.isWhole ∧ dropped = 0 then
    if !n.negative then some (.integer significand)
    else if significand = 0 then some (.float true 0)
    else if significand ≤ 0x8000000000000000 then some (.integer (-significand))
    else some (.float true (Number.Binary64.round significand))
  else
    let (significand, left) := takeDigits significand n.fraction
    let taken := n.fraction.length - left
    (scaled? significand (n.exponent + dropped - taken)).map (.float n.negative)

/-! ## Values -/

/-- The rest of the text after a keyword. -/
def keyword? (word : String) (value : Json) (cs : List Char) : Option (Json × List Char) :=
  (Text.dropLead? word.toList cs).map fun rest => (value, rest)

mutual

/-- The value that the text begins with, and what follows it.  At most `depth` arrays and objects
are open at once. -/
def value : (fuel depth : Nat) → List Char → Option (Json × List Char)
  | 0, _, _ => none
  | fuel + 1, depth, cs =>
    match skipSpace cs with
    | [] => none
    | '\x22' :: rest => do
      let (body, rest) ← stringBody none rest
      return (.string (String.ofList body), rest)
    | '[' :: rest =>
      match depth, skipSpace rest with
      | 0, _ => none
      | _ + 1, ']' :: rest => some (.array [], rest)
      | depth + 1, rest => do
        let (found, rest) ← items fuel depth rest
        return (.array found, rest)
    | '\x7b' :: rest =>
      match depth, skipSpace rest with
      | 0, _ => none
      | _ + 1, '\x7d' :: rest => some (.object [], rest)
      | depth + 1, rest => do
        let (found, rest) ← members fuel depth [] rest
        return (.object found, rest)
    | 'n' :: rest => keyword? "ull" .null rest
    | 't' :: rest => keyword? "rue" (.bool true) rest
    | 'f' :: rest => keyword? "alse" (.bool false) rest
    | cs => do
      let (n, rest) ← numeral? cs
      let v ← n.value?
      return (v, rest)

/-- The items of an array up to its closing bracket; at least one. -/
def items : (fuel depth : Nat) → List Char → Option (List Json × List Char)
  | 0, _, _ => none
  | fuel + 1, depth, cs => do
    let (item, rest) ← value fuel depth cs
    match skipSpace rest with
    | ',' :: rest =>
      let (others, rest) ← items fuel depth rest
      return (item :: others, rest)
    | ']' :: rest => return ([item], rest)
    | _ => none

/-- The members of an object up to its closing brace, added to those already read; at least
one. -/
def members : (fuel depth : Nat) → List (String × Json) → List Char →
    Option (List (String × Json) × List Char)
  | 0, _, _, _ => none
  | fuel + 1, depth, found, cs =>
    match skipSpace cs with
    | '\x22' :: rest => do
      let (name, rest) ← stringBody none rest
      match skipSpace rest with
      | ':' :: rest =>
        let (v, rest) ← value fuel depth rest
        let found := put (String.ofList name) v found
        match skipSpace rest with
        | ',' :: rest => members fuel depth found rest
        | '\x7d' :: rest => return (found, rest)
        | _ => none
      | _ => none
    | _ => none

end

/-- Arrays and objects open at once, the outermost included. -/
def maxDepth : Nat := 127

/-- The members of a text that is exactly one object. -/
def object? (cs : List Char) : Option (List (String × Json)) := do
  let (v, rest) ← value (2 * cs.length + 2) maxDepth cs
  match v, skipSpace rest with
  | .object found, [] => some found
  | _, _ => none

end ReportPress.Json
