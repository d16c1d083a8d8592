import ReportPress.Code.JsonGrammar
import ReportPress.Code.Line
import ReportPress.Code.PropertiesGrammar

/-!
# Languages of code

Three languages have grammars of their own; a tokenizer for any other can be put beside them.

* `Language.ofToken?` — the language that a word after a fence names.
* `Grammar.tokenizer` — a grammar cuts lines and never gives up.
* `grammarOf` — the tokenizers of the three languages.
* `codeLines` — a block of code by these.
-/

namespace ReportPress.Code

/-- A language whose grammar is known. -/
inductive Language where
  | json
  | properties
  | plainText
deriving DecidableEq, Repr

/-- Words that name a language: extensions of its files, and the name of the language. -/
def Language.tokens : Language → List String
  | json => ["json", "sublime-settings", "sublime-menu", "sublime-keymap", "sublime-mousemap",
      "sublime-theme", "sublime-build", "sublime-project", "sublime-completions",
      "sublime-commands", "sublime-macro", "sublime-color-scheme"]
  | properties => ["properties", "java properties"]
  | plainText => ["txt", "plain text"]

/-- The language that a word in small letters names. -/
def Language.ofToken? (token : String) : Option Language :=
  [json, properties, plainText].find? fun l => l.tokens.contains token

/-- A grammar as a tokenizer; the state is the stack of contexts. -/
def Grammar.tokenizer {C : Type} (g : Grammar C) : Tokenizer where
  State := List C
  start := [g.main]
  next? stack line := some (g.scan stack none line)

/-- The tokenizer of a language whose grammar is known. -/
def Language.tokenizer : Language → Tokenizer
  | json => jsonGrammar.tokenizer
  | properties => propertiesGrammar.tokenizer
  | plainText => plainGrammar.tokenizer

/-- The tokenizer of the language that a word names. -/
def grammarOf (token : String) : Option Tokenizer :=
  (Language.ofToken? token).map Language.tokenizer

/-- The lines of a block of code. -/
def codeLines (highlight : Bool) (language body : String) : List (List Span) :=
  linesBy grammarOf highlight language body

end ReportPress.Code
