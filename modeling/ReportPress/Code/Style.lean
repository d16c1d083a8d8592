import ReportPress.Text.Words

/-!
# Colours of code

A grammar gives every piece of code a scope, a name of words with dots between them.  The scope
tells what kind of token the piece is part of, and that decides how it is set.

* `TokenKind` — the kinds.
* `TokenKind.ofScope?` — the kind for a scope.  The first rule that fits decides.
* `TextStyle`, `TokenKind.style` — how a kind is set.  Some languages have colours of their own.
-/

namespace ReportPress.Code

open Text

/-! ## Kinds of tokens -/

/-- What a piece of code is. -/
inductive TokenKind where
  | comment
  | string
  | number
  | constant
  | keyword
  | function
  | typeName
  | variableName
  | attributeName
  | tag
  | punctuation
  | plain
deriving DecidableEq, Repr

namespace TokenKind

/-- Beginnings of scopes with the kinds they stand for. -/
def scopeRules : List (String × TokenKind) := [
  ("punctuation.definition.comment", comment),
  ("punctuation.definition.string", string),
  ("comment", comment),
  ("string", string),
  ("constant.numeric", number),
  ("constant", constant),
  ("keyword", keyword),
  ("storage", keyword),
  ("entity.name.function", function),
  ("support.function", function),
  ("variable.function", function),
  ("support.type.property-name", attributeName),
  ("entity.other.attribute-name", attributeName),
  ("entity.name.tag", tag),
  ("entity.name", typeName),
  ("support.type", typeName),
  ("support.class", typeName),
  ("variable", variableName),
  ("punctuation", punctuation)]

/-- Whether a scope begins with whole words that are those of `lead`. -/
def isWithin (lead scope : String) : Bool :=
  match dropLead? lead.toList scope.toList with
  | some [] => true
  | some (c :: _) => c = '.'
  | none => false

/-- The kind that a scope stands for, if it is known. -/
def ofScope? (scope : String) : Option TokenKind :=
  (scopeRules.find? fun rule => isWithin rule.1 scope).map (·.2)

/-- The kind for scopes one inside the other, the innermost first. -/
def ofScopes (scopes : List String) : TokenKind := (scopes.findSome? ofScope?).getD plain

end TokenKind

/-! ## Styles -/

/-- How a piece of text is set. -/
structure TextStyle where
  /-- Red, green and blue in hexadecimal. -/
  color : Option String := none
  bold : Bool := false
  italic : Bool := false
deriving DecidableEq, Repr

/-- Text in a colour. -/
def TextStyle.colored (color : String) : TextStyle := { color := some color }

/-- The languages of style sheets. -/
def styleSheets : List String := ["css", "scss", "less"]

namespace TokenKind

/-- How a kind is set in most languages. -/
def commonStyle : TokenKind → TextStyle
  | comment => { color := some "008000", italic := true }
  | string => .colored "A31515"
  | number => .colored "098658"
  | constant => .colored "0000FF"
  | keyword => { color := some "0000FF", bold := true }
  | function => .colored "795E26"
  | typeName => .colored "267F99"
  | variableName => .colored "001080"
  | attributeName => .colored "E50000"
  | tag => .colored "800000"
  | punctuation => {}
  | plain => {}

/-- How a kind is set in a language. -/
def style (language : String) (kind : TokenKind) : TextStyle :=
  if kind = string ∧ (language = "json" ∨ language ∈ styleSheets) then .colored "0451A5"
  else if kind = attributeName ∧ language = "json" then .colored "A31515"
  else kind.commonStyle

end TokenKind

end ReportPress.Code
