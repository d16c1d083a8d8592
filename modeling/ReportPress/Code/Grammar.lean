import ReportPress.Code.Style

/-!
# Grammars for code

A grammar is a set of contexts.  A context says which patterns are looked for; a pattern that is
found names the scopes of what it matches, and may enter another context or leave the present one.
Contexts that have been entered and not left form a stack, which lasts from one line to the next.

* `Cut`, `Action`, `Pattern`, `Grammar` — grammars.  A pattern is given as what it matches at a
  place, so that no notation for patterns is needed.
* `Grammar.event?` — what happens at a place: the context is left, or a pattern is found.
* `Grammar.scan` — the pieces of a line, each with its kind, and the stack at its end.  What lies
  between two events is a piece of its own.
-/

namespace ReportPress.Code

/-- Parts of a match in order: how many characters, and the scope they have beside that of the
match. -/
abbrev Cut := List (Nat × Option String)

/-- The number of characters of a match. -/
def Cut.length (cut : Cut) : Nat := cut.foldl (fun n piece => n + piece.1) 0

/-- What a match does to the stack. -/
inductive Action (C : Type) where
  | stay
  | enter (context : C)
  | leave

/-- Something that a context looks for. -/
structure Pattern (C : Type) where
  /-- What is matched at a place, by the character before it and the characters after it; never
  nothing. -/
  cut? : Option Char → List Char → Option Cut
  /-- The scope of the whole match. -/
  scope : String
  action : Action C := .stay

/-- A set of contexts. -/
structure Grammar (C : Type) where
  /-- The scope of everything. -/
  base : String
  /-- The context at the start. -/
  main : C
  /-- The scopes of what stands in a context, the innermost first; the matches that enter and
  leave the context are in it as well. -/
  scopes : C → List String
  /-- Whether a context ends in front of these characters, none of which belongs to its end. -/
  endsBefore : C → List Char → Bool
  /-- What a context looks for; where several match, the first of them counts. -/
  patterns : C → List (Pattern C)

/-- A piece of code with its kind. -/
structure Piece where
  text : List Char
  kind : TokenKind
deriving DecidableEq, Repr

/-- What happens at a place. -/
inductive Event (C : Type) where
  | ends
  | found (pattern : Pattern C) (cut : Cut)

namespace Grammar

variable {C : Type}

/-! ## Stacks -/

/-- The kind of what stands under some scopes in the contexts of a stack, the innermost first. -/
def kind (g : Grammar C) (scopes : List String) (stack : List C) : TokenKind :=
  TokenKind.ofScopes (scopes ++ stack.flatMap g.scopes ++ [g.base])

/-- The stack after a match. -/
def after (stack : List C) : Action C → List C
  | .stay => stack
  | .enter context => context :: stack
  | .leave => stack.tail

/-- The contexts that a match stands in: those that it enters or leaves cover it. -/
def around (stack : List C) : Action C → List C
  | .enter context => context :: stack
  | _ => stack

/-! ## Events -/

/-- The first pattern that matches at a place. -/
def find? (before : Option Char) (cs : List Char) : List (Pattern C) → Option (Event C)
  | [] => none
  | p :: ps =>
    match p.cut? before cs with
    | some cut => some (.found p cut)
    | none => find? before cs ps

/-- What happens at a place in a context. -/
def event? (g : Grammar C) (context : C) (before : Option Char) (cs : List Char) :
    Option (Event C) :=
  if g.endsBefore context cs then some .ends else find? before cs (g.patterns context)

/-- The characters up to the next place where something happens. -/
def gap (g : Grammar C) (context : C) (before : Option Char) : List Char → List Char
  | [] => []
  | c :: cs =>
    if (g.event? context before (c :: cs)).isSome then []
    else c :: g.gap context (some c) cs

/-! ## Pieces -/

/-- The last of some characters, or else the one before them. -/
def lastOf (before : Option Char) (cs : List Char) : Option Char := cs.getLast?.or before

/-- The parts of a match as pieces, with the kind that each has under its scope. -/
def cutPieces (kind : List String → TokenKind) : Cut → List Char → List Piece
  | [], _ => []
  | (n, scope) :: rest, cs => ⟨cs.take n, kind scope.toList⟩ :: cutPieces kind rest (cs.drop n)

/-- The pieces of the rest of a line, and the stack at its end.  An event takes characters or
leaves a context, so the scanning comes to an end. -/
def scan (g : Grammar C) (stack : List C) (before : Option Char) (cs : List Char) :
    List Piece × List C :=
  match stack with
  | [] => ([⟨cs, g.kind [] []⟩], [])
  | context :: outer =>
    let gap := g.gap context before cs
    let before := lastOf before gap
    let between : Piece := ⟨gap, g.kind [] (context :: outer)⟩
    match g.event? context before (cs.drop gap.length), _h : cs.drop gap.length with
    | none, _ => ([between], context :: outer)
    | some .ends, rest =>
      let (pieces, stack) := g.scan outer before rest
      (between :: pieces, stack)
    | some (.found _ _), [] => ([between], context :: outer)
    | some (.found p cut), c :: rest =>
      let kind (scopes : List String) :=
        g.kind (scopes ++ [p.scope]) (around (context :: outer) p.action)
      let more := rest.take (cut.length - 1)
      let (pieces, stack) := g.scan (after (context :: outer) p.action) (lastOf (some c) more)
        (rest.drop (cut.length - 1))
      (between :: cutPieces kind cut (c :: rest) ++ pieces, stack)
termination_by (cs.length, stack.length)
decreasing_by
  · have := congrArg List.length _h
    simp only [List.length_drop] at this
    rw [Prod.lex_def]
    simp only [List.length_cons]
    omega
  · have := congrArg List.length _h
    simp only [List.length_drop, List.length_cons] at this
    rw [Prod.lex_def]
    simp only [List.length_drop]
    omega

end Grammar

end ReportPress.Code
