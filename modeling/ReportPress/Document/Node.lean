/-!
# Nodes of a report

A report is a sequence of nodes: paragraphs, titles, lists, tables and so on.  The same shapes
hold raw text, as it is read, and resolved text, as it is set, so they are generic in the type of
their texts.

* `ListStyle`, `Entry`, `ItemList` — lists; an entry is an item or a nested list.
* `Paragraph`, `Title`, `Image`, `CodeBlock`, `ExternalDocument` — the parts of a report that
  hold no other nodes.
* `Node` — all of them, tables and directives included.  A table cell holds one node of any kind.
* `Node.traverse` — replaces every text in document order: a caption before the cells, the cells
  row by row, the items of a list depth first.
* `Node.hasCode` — whether a node is, or holds in a cell, a block of code.
-/

namespace ReportPress

variable {T U : Type}

/-- How a list marks its items. -/
structure ListStyle where
  ordered : Bool
  /-- The number of the first item. -/
  start : UInt32 := 1
  /-- Numbers with a point and no hanging indent, as in a list of sources. -/
  alternate : Bool := false
deriving DecidableEq, Repr

/-- An entry of a list. -/
inductive Entry (T : Type) where
  | item (text : T)
  | list (style : ListStyle) (entries : List (Entry T))
deriving Repr, Inhabited

/-- A list with its entries. -/
structure ItemList (T : Type) where
  style : ListStyle
  entries : List (Entry T)
deriving Repr

/-- A nested list as an entry. -/
def ItemList.toEntry (l : ItemList T) : Entry T := .list l.style l.entries

/-- A paragraph of the body. -/
structure Paragraph (T : Type) where
  text : T
  /-- The first line is not indented. -/
  noIndent : Bool := false
  /-- No space follows the paragraph. -/
  noMargin : Bool := false
deriving DecidableEq, Repr

/-- A heading; level 0 is that of the front matter. -/
structure Title (T : Type) where
  text : T
  level : Nat
  center : Bool := false
deriving DecidableEq, Repr

/-- A picture in a file; an absent side is chosen to fit. -/
structure Image (T : Type) where
  /-- Set as the caption. -/
  alt : T
  source : String
  width : Option UInt32 := none
  height : Option UInt32 := none
deriving DecidableEq, Repr

/-- A block of code. -/
structure CodeBlock (T : Type) where
  language : String
  title : T
  body : String
deriving DecidableEq, Repr

/-- Another document to put in place, with the values for its placeholders in ascending order of
their names. -/
structure ExternalDocument where
  path : String
  values : List (String × String)
deriving DecidableEq, Repr

/-- A node of a report. -/
inductive Node (T : Type) where
  | text (paragraph : Paragraph T)
  | title (title : Title T)
  | pageBreak
  | contents
  | table (caption : Option T) (rows : List (List (Node T))) (normalFontSize : Bool)
  | list (list : ItemList T)
  | image (image : Image T)
  | code (code : CodeBlock T)
  | external (document : ExternalDocument)
  /-- A new section starts here; its first page number, if it does not go on counting. -/
  | sectionBreak (pageStart : Option UInt32)
deriving Repr, Inhabited

namespace Node

/-- A paragraph of plain body text. -/
def ofText (text : T) : Node T := .text { text }

/-- A heading of a level. -/
def ofTitle (text : T) (level : Nat) : Node T := .title { text, level }

/-- A row of cells with plain text. -/
def textRow (cells : List T) : List (Node T) := cells.map ofText

end Node

/-! ## Replacing every text -/

section Traverse

variable {m : Type → Type} [Monad m]

mutual

/-- Replaces the texts of an entry, depth first. -/
def Entry.traverse (f : T → m U) : Entry T → m (Entry U)
  | .item text => return .item (← f text)
  | .list style entries => return .list style (← traverseEntries f entries)

/-- Replaces the texts of entries in order. -/
def traverseEntries (f : T → m U) : List (Entry T) → m (List (Entry U))
  | [] => return []
  | e :: es => do
    let e ← e.traverse f
    let es ← traverseEntries f es
    return e :: es

end

mutual

/-- Replaces the texts of a node in document order. -/
def Node.traverse (f : T → m U) : Node T → m (Node U)
  | .text p => return .text { p with text := ← f p.text }
  | .title t => return .title { t with text := ← f t.text }
  | .pageBreak => return .pageBreak
  | .contents => return .contents
  | .table caption rows normal => do
    let caption ← match caption with
      | none => pure none
      | some text => some <$> f text
    let rows ← traverseRows f rows
    return .table caption rows normal
  | .list l => return .list ⟨l.style, ← traverseEntries f l.entries⟩
  | .image i => return .image { i with alt := ← f i.alt }
  | .code c => return .code { c with title := ← f c.title }
  | .external d => return .external d
  | .sectionBreak pageStart => return .sectionBreak pageStart

/-- Replaces the texts of a row of cells, or of any sequence of nodes. -/
def traverseNodes (f : T → m U) : List (Node T) → m (List (Node U))
  | [] => return []
  | n :: ns => do
    let n ← n.traverse f
    let ns ← traverseNodes f ns
    return n :: ns

/-- Replaces the texts of rows from top to bottom. -/
def traverseRows (f : T → m U) : List (List (Node T)) → m (List (List (Node U)))
  | [] => return []
  | r :: rs => do
    let r ← traverseNodes f r
    let rs ← traverseRows f rs
    return r :: rs

end

end Traverse

/-! ## Blocks of code -/

mutual

/-- Whether a node is a block of code or a table with one in a cell. -/
def Node.hasCode : Node T → Bool
  | .code _ => true
  | .table _ rows _ => rowsHaveCode rows
  | _ => false

/-- Whether some node of a sequence has code. -/
def nodesHaveCode : List (Node T) → Bool
  | [] => false
  | n :: ns => n.hasCode || nodesHaveCode ns

/-- Whether some row has code. -/
def rowsHaveCode : List (List (Node T)) → Bool
  | [] => false
  | r :: rs => nodesHaveCode r || rowsHaveCode rs

end

end ReportPress
