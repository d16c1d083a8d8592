import ReportPress.Word.Block

/-!
# The flow of blocks

Nodes become items one by one, and how an item is set can depend on what stands above it: a page
break joins the paragraph before it, and body text keeps its distance from a table.

* `FlowItem` — what the nodes of a section or a cell become.
* `placeBelow` — an item below the blocks so far.
* `blocksOf` — the blocks for a sequence of items.
-/

namespace ReportPress.Typeset

open Word

/-- What a node becomes. -/
inductive FlowItem where
  /-- Body text. -/
  | text (p : Word.Paragraph)
  | block (b : Block)
  | pageBreak

/-- The space between a table and the text below it, in points. -/
def spaceBelowTable : Rat := 8

/-- Whether the last block is a table. -/
def endsWithTable (blocks : List Block) : Bool :=
  match blocks.getLast? with
  | some (.table _ _ _) => true
  | _ => false

/-- A paragraph that is a page break. -/
def breakParagraph : Word.Paragraph := { inlines := [.run .pageBreak] }

/-- Blocks with a page break below them. -/
def breakBelow (blocks : List Block) : List Block :=
  match blocks.getLast? with
  | some (.paragraph p) => blocks.dropLast ++ [.paragraph (p.push (.run .pageBreak))]
  | _ => blocks ++ [.paragraph breakParagraph]

/-- An item below the blocks so far. -/
def placeBelow (blocks : List Block) : FlowItem → List Block
  | .text p =>
    let p := if endsWithTable blocks then
        { p with format :=
          { p.format with spaceBefore := some (Length.ptToTwip spaceBelowTable) } }
      else p
    blocks ++ [.paragraph p]
  | .block b => blocks ++ [b]
  | .pageBreak => breakBelow blocks

/-- The blocks for a sequence of items. -/
def blocksOf (items : List FlowItem) : List Block := items.foldl placeBelow []

end ReportPress.Typeset
