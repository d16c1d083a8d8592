import ReportPress.Text.Words

/-!
# Paths

A path is a text with names between slashes.  It is kept as it was written, because messages show
it so; what it leads to is found by looking at its names.

* `Path.join` — one path below another; an absolute path stands for itself.
* `Path.fileName?`, `Path.stem`, `Path.extension?` — the last name and its two parts.
* `Path.directory` — the path of what holds it.
* `Path.cleaned` — an absolute path without superfluous slashes and dots.
-/

namespace ReportPress

open Text

/-- A path as it was written. -/
structure Path where
  text : String
deriving DecidableEq, Repr

namespace Path

/-- Whether a path begins at the root. -/
def isAbsolute (p : Path) : Bool := p.text.toList.head? = some '/'

/-- A path below another, unless it begins at the root itself. -/
def join (p below : Path) : Path :=
  if below.isAbsolute then below
  else if p.text.isEmpty || p.text.toList.getLast? = some '/' then ⟨p.text ++ below.text⟩
  else ⟨p.text ++ "/" ++ below.text⟩

/-! ## Names -/

/-- Whether a name between slashes says nothing: there is none, or it is the dot that stands for
where one is already. -/
def isVoid (name : String) : Bool := name = "" || name = "."

/-- What stands between the slashes. -/
def pieces (p : Path) : List String := (splitOn '/' p.text.toList).map String.ofList

/-- The names of a path. -/
def names (p : Path) : List String := p.pieces.filter fun name => !isVoid name

/-- The last name, unless it is that of the directory above. -/
def fileName? (p : Path) : Option String :=
  match p.names.getLast? with
  | some ".." => none
  | name => name

/-- A name cut at its last dot: what stands before it, and what stands after it.  A dot at the
very start cuts nothing off. -/
def cutName (name : String) : String × Option String :=
  let after := (name.toList.reverse.takeWhile (· ≠ '.')).reverse
  let before := name.toList.take (name.length - after.length - 1)
  if before.isEmpty then (name, none) else (String.ofList before, some (String.ofList after))

/-- The last name without its extension. -/
def stem (p : Path) : String := (p.fileName?.map fun name => (cutName name).1).getD ""

/-- What follows the last dot of the last name. -/
def extension? (p : Path) : Option String := p.fileName?.bind fun name => (cutName name).2

/-! ## Above and beside -/

/-- Names without the void ones at their end. -/
def dropVoid (names : List String) : List String := (names.reverse.dropWhile isVoid).reverse

/-- The path of the directory that an absolute path lies in; the root lies in none. -/
def directory? (p : Path) : Option Path :=
  match dropVoid (p.pieces.drop 1) with
  | [] => none
  | names => some ⟨"/" ++ joined "/" (dropVoid names.dropLast)⟩

/-- The slashes that an absolute path begins with: two are told from one, more are not. -/
def root (p : Path) : String :=
  let slashes := p.text.toList.takeWhile (· = '/')
  if slashes.length = 2 then "//" else "/"

/-- An absolute path with one slash between any two names and no dots that stand for nothing.  A
slash at the end stays. -/
def cleaned (p : Path) : Path :=
  let names := p.names
  let last := if p.text.toList.getLast? = some '/' && !names.isEmpty then "/" else ""
  ⟨p.root ++ joined "/" names ++ last⟩

end Path

end ReportPress
