import ReportPress.Yaml.Tag

/-!
# Tokens of a YAML text

A text is read as a sequence of tokens.  Where indents say what belongs together, tokens without a
text of their own say the same.

* `Token` — a token.
-/

namespace ReportPress.Yaml

/-- A token. -/
inductive Token where
  /-- The end of the text. -/
  | finish
  | directive (d : Directive)
  | documentStart
  | documentEnd
  /-- Items on lines of their own begin. -/
  | blockSequence
  /-- Members on lines of their own begin. -/
  | blockMapping
  /-- Items or members on lines of their own end. -/
  | blockEnd
  | flowSequence
  | flowSequenceEnd
  | flowMapping
  | flowMappingEnd
  /-- An item on lines of its own. -/
  | item
  | comma
  /-- The name of a member follows. -/
  | key
  /-- The value of a member follows. -/
  | value
  /-- The value that an anchor was set on. -/
  | alias (name : String)
  /-- A name for the value that follows; the column tells whether it begins a line. -/
  | anchor (name : String) (column : Nat)
  | tag (name : TagName) (column : Nat)
  /-- A text; it is plain if it is written without quotation marks. -/
  | scalar (text : String) (plain : Bool)
deriving DecidableEq, Repr

/-- Whether a token names or tags a value and stands at the very start of a line. -/
def Token.isMarginal : Token → Bool
  | .anchor _ column | .tag _ column => column = 0
  | _ => false

end ReportPress.Yaml
