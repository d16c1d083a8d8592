import ReportPress.Code.Pattern

/-!
# The grammar of JSON with comments

* `jsonNumber?` — the length of the number at a place.
* `JsonContext` — strings, arrays, objects with their keys and values, and comments.
* `jsonGrammar` — the grammar.
-/

namespace ReportPress.Code

open Text

/-! ## Numbers -/

/-- The length of one or more decimal digits. -/
def digitsLength (cs : List Char) : Nat := (cs.takeWhile isDecimalDigit).length

/-- The length of a number without its sign, fraction and exponent: a zero stands by itself. -/
def wholeLength : List Char → Nat
  | [] => 0
  | '0' :: _ => 1
  | c :: cs => if c.isDigit then 1 + digitsLength cs else 0

/-- The length of a fraction, if there is one. -/
def fractionLength : List Char → Nat
  | '.' :: cs => if digitsLength cs = 0 then 0 else 1 + digitsLength cs
  | _ => 0

/-- The length of the sign of an exponent. -/
def signLength (cs : List Char) : Nat :=
  if cs.head? = some '+' ∨ cs.head? = some '-' then 1 else 0

/-- The length of an exponent, if there is one. -/
def exponentLength : List Char → Nat
  | c :: cs =>
    let sign := signLength cs
    let digits := digitsLength (cs.drop sign)
    if (c = 'e' ∨ c = 'E') ∧ digits ≠ 0 then 1 + sign + digits else 0
  | [] => 0

/-- The length of the number at a place. -/
def jsonNumber? (cs : List Char) : Option Nat :=
  let minus := if cs.head? = some '-' then 1 else 0
  let whole := wholeLength (cs.drop minus)
  let fraction := fractionLength (cs.drop (minus + whole))
  let exponent := exponentLength (cs.drop (minus + whole + fraction))
  if whole = 0 then none else some (minus + whole + fraction + exponent)

/-! ## The grammar -/

/-- Where one may be. -/
inductive JsonContext where
  | value
  | inString
  | inArray
  | inObject
  | inKey
  /-- After the colon of a member. -/
  | inMember
  | inComment
  | inDocComment
deriving DecidableEq, Repr

namespace JsonContext

/-- The mark that a comment begins or ends with. -/
def commentMark : String := "punctuation.definition.comment.json"

/-- A comment for documentation; a comment that is closed at once is none. -/
def docComment : Pattern JsonContext where
  cut? _ cs :=
    match dropLead? "/**".toList cs with
    | some rest => if rest.head? = some '/' then none else some [(3, none)]
    | none => none
  scope := commentMark
  action := .enter inDocComment

/-- Comments of all kinds. -/
def comments : List (Pattern JsonContext) := [
  docComment,
  .literal "/*" commentMark (.enter inComment),
  .toLineEnd ["//"] commentMark "comment.line.double-slash.js"]

/-- The length of an escape sequence that the format knows. -/
def escape? : List Char → Option Nat
  | '\\' :: 'u' :: a :: b :: c :: d :: _ =>
    if [a, b, c, d].all fun h => h.isDigit || "abcdefABCDEF".contains h then some 6 else none
  | '\\' :: c :: _ => if "\"\\/bfnrt".contains c then some 2 else none
  | _ => none

/-- What a string holds beside its text. -/
def stringPatterns : List (Pattern JsonContext) := [
  .literal "\"" "punctuation.definition.string.end.json" .leave,
  { cut? := fun _ cs => (escape? cs).map fun n => [(n, none)],
    scope := "constant.character.escape.json" },
  { cut? := fun _ cs =>
      if cs.head? = some '\\' ∧ (cs.drop 1).head?.any (· ≠ '\n') then some [(2, none)] else none,
    scope := "invalid.illegal.unrecognized-string-escape.json" },
  .literal "\n" "invalid.illegal.unclosed-string.json" .leave]

/-- Values of all kinds. -/
def values : List (Pattern JsonContext) := [
  .wholeWord ["true", "false", "null"] "constant.language.json",
  { cut? := fun _ cs => (jsonNumber? cs).map fun n => [(n, none)],
    scope := "constant.numeric.json" },
  .literal "\"" "punctuation.definition.string.begin.json" (.enter inString),
  .literal "[" "punctuation.section.array.begin.json" (.enter inArray),
  .literal "\x7b" "punctuation.section.dictionary.begin.json" (.enter inObject)] ++ comments

/-- What each context looks for. -/
def patterns : JsonContext → List (Pattern JsonContext)
  | value => values
  | inString => stringPatterns
  | inKey => stringPatterns
  | inArray =>
    .literal "]" "punctuation.section.array.end.json" .leave :: values ++ [
      .literal "," "punctuation.separator.array.json",
      .oneOf (fun c => !isBlank c && c ≠ ']') "invalid.illegal.expected-array-separator.json"]
  | inObject =>
    [.literal "\x7d" "punctuation.section.dictionary.end.json" .leave,
     .literal "\"" "punctuation.definition.string.begin.json" (.enter inKey)] ++ comments ++ [
      .literal ":" "punctuation.separator.dictionary.key-value.json" (.enter inMember),
      .oneOf (fun c => !isBlank c && c ≠ '\x7d')
        "invalid.illegal.expected-dictionary-separator.json"]
  | inMember =>
    .literal "," "punctuation.separator.dictionary.pair.json" .leave :: values ++ [
      .oneOf (fun c => !isBlank c && c ≠ ',')
        "invalid.illegal.expected-dictionary-separator.json"]
  | inComment => [.literal "*/" commentMark .leave]
  | inDocComment => [.literal "*/" commentMark .leave]

/-- The scopes of each context. -/
def scopes : JsonContext → List String
  | value => []
  | inString => ["string.quoted.double.json"]
  | inArray => ["meta.structure.array.json"]
  | inObject => ["meta.structure.dictionary.json"]
  | inKey => ["string.quoted.double.json", "meta.structure.dictionary.key.json"]
  | inMember => ["meta.structure.dictionary.value.json"]
  | inComment => ["comment.block.json"]
  | inDocComment => ["comment.block.documentation.json"]

/-- A string ends with the text at the latest, and a value in front of the brace that closes its
object. -/
def endsBefore : JsonContext → List Char → Bool
  | inString, [] => true
  | inKey, [] => true
  | inMember, c :: _ => c = '\x7d'
  | _, _ => false

end JsonContext

/-- The grammar of JSON with comments. -/
def jsonGrammar : Grammar JsonContext where
  base := "source.json"
  main := .value
  scopes := JsonContext.scopes
  endsBefore := JsonContext.endsBefore
  patterns := JsonContext.patterns

end ReportPress.Code
