import ReportPress.Json.Value
import ReportPress.Number.Shortest

/-!
# Compact JSON text

* `escapeChar`, `quote` — a string between quotation marks, with the short escapes where JSON has
  one and a four digit escape for the other control characters.
* `floatText` — a number that is not an integer, in the fewest digits that read back.
* `render` — a value without any white space.
* `renderStrings` — an object whose values are all strings.
-/

namespace ReportPress.Json

/-- One hexadecimal digit. -/
def hexDigit (n : Nat) : Char := (Nat.digitChar (n % 16))

/-- A character inside a quoted string. -/
def escapeChar (c : Char) : List Char :=
  if c = '\x22' then ['\\', '\x22']
  else if c = '\\' then ['\\', '\\']
  else if c = '\x08' then ['\\', 'b']
  else if c = '\x0c' then ['\\', 'f']
  else if c = '\n' then ['\\', 'n']
  else if c = '\r' then ['\\', 'r']
  else if c = '\t' then ['\\', 't']
  else if c.toNat < 0x20 then ['\\', 'u', '0', '0', hexDigit (c.toNat / 16), hexDigit c.toNat]
  else [c]

/-- A string between quotation marks. -/
def quote (s : String) : List Char :=
  '\x22' :: s.toList.flatMap escapeChar ++ ['\x22']

/-- Numbers from `1e-5` up to below `1e16` are written out; an exponent carries its sign. -/
def floatLayout : Number.DecimalLayout := ⟨-5, 15, "+"⟩

/-- The text of a number that is not an integer. -/
def floatText (negative : Bool) (magnitude : Rat) : List Char :=
  (if negative then ['-'] else []) ++ (Number.render floatLayout magnitude).toList

mutual

/-- The compact text of a value. -/
def render : Json → List Char
  | .null => "null".toList
  | .bool true => "true".toList
  | .bool false => "false".toList
  | .integer n => (toString n).toList
  | .float negative magnitude => floatText negative magnitude
  | .string s => quote s
  | .array items => '[' :: renderItems items ++ [']']
  | .object members => '\x7b' :: renderMembers members ++ ['\x7d']

/-- Items with commas between them. -/
def renderItems : List Json → List Char
  | [] => []
  | [item] => render item
  | item :: rest => render item ++ ',' :: renderItems rest

/-- Members with commas between them. -/
def renderMembers : List (String × Json) → List Char
  | [] => []
  | [(name, value)] => quote name ++ ':' :: render value
  | (name, value) :: rest => quote name ++ ':' :: render value ++ ',' :: renderMembers rest

end

/-- The compact text of an object of strings. -/
def renderStrings (members : List (String × String)) : String :=
  String.ofList (render (.object (members.map fun m => (m.1, .string m.2))))

end ReportPress.Json
