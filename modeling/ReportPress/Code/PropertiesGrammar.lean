import ReportPress.Code.Pattern

/-!
# The grammar of property files

* `PropertyContext` — the lines of a file, and comments between marks.
* `propertiesGrammar` — the grammar.
* `plainGrammar` — that of plain text, in which nothing is looked for.
-/

namespace ReportPress.Code

/-- Where one may be. -/
inductive PropertyContext where
  | lines
  | inComment
deriving DecidableEq, Repr

namespace PropertyContext

/-- The mark that a comment begins or ends with. -/
def commentMark : String := "punctuation.definition.comment.java-props"

/-- Whether a character stands between a name and its value. -/
def isSeparator (c : Char) : Bool := c = ':' || c = '='

/-- A name at the start of a line, the separator after it, and the value. -/
def property : Pattern PropertyContext where
  cut? before cs :=
    let name := cs.takeWhile fun c => !isSeparator c
    let rest := cs.drop name.length
    let value := (rest.drop 1).takeWhile (· ≠ '\n')
    if before.isNone ∧ name ≠ [] ∧ rest ≠ [] then
      some [(name.length, some "keyword.other.java-props"),
        (1, some "punctuation.separator.key-value.java-props"), (value.length, none)]
    else none
  scope := ""

/-- What each context looks for. -/
def patterns : PropertyContext → List (Pattern PropertyContext)
  | lines => [
    .toLineEnd ["#", "!"] commentMark "comment.line.number-sign.java-props",
    .literal "/*" commentMark (.enter inComment),
    property]
  | inComment => [.literal "*/" commentMark .leave]

/-- The scopes of each context. -/
def scopes : PropertyContext → List String
  | lines => []
  | inComment => ["comment.block.java-props"]

end PropertyContext

/-- The grammar of property files. -/
def propertiesGrammar : Grammar PropertyContext where
  base := "source.java-props"
  main := .lines
  scopes := PropertyContext.scopes
  endsBefore _ _ := false
  patterns := PropertyContext.patterns

/-- The grammar of plain text. -/
def plainGrammar : Grammar Unit where
  base := "text.plain"
  main := ()
  scopes _ := []
  endsBefore _ _ := false
  patterns _ := []

end ReportPress.Code
