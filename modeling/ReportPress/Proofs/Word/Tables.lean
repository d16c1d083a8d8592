import ReportPress.Proofs.Word.Numbering

/-!
# Tables as a word processor reads them

A word processor refuses a document in which a cell of a table ends in something else than a
paragraph, and lays out a table by its grid.  Tables stand in cells of other tables, to any depth.

* `Table`, `Block.tables` — a table, and those in a block in the order in which they begin.
* `ownContents` — what stands in the elements with a name, those further in aside.
* `rowsOf`, `cellsOf`, `cellWidths`, `isHeaderRow`, `EndsWithParagraph` — what is read of a table.
* `AreRowsOf`, `IsTableOf` — rows with their cells and header marks, and a table with its grid.

**One table.**  `areCellsOf_cellsXml` and `areRowsOf_rowsXml` by induction along a row and along the
rows; `isTableOf_xml` adds the grid.  `endsWithParagraph_cell` — a cell ends with a paragraph, of
its own or added.

**Nested tables.**  `HoldsTables` — trees with some tables in them, each as it should be, and with
no other cells than closed ones.  `holdsTables_block` is the induction over blocks, cells and rows,
and what is said about all tables follows along `HoldsTables`, which knows no blocks.

**The text.**  `read_table` — **every table in the text of a table is read with an even grid for the
cells of its widest row, not wider than the table, and with its header rows, and every cell ends
with a paragraph.**
-/

namespace ReportPress.Word

/-! ## Tables -/

/-- A table: its width, the number of rows to be repeated on every page, and its rows. -/
structure Table where
  width : UInt32
  headerRows : Nat
  rows : List Row

/-- The cells of the widest row. -/
def Table.columns (t : Table) : Nat := (t.rows.map List.length).max?.getD 0

mutual

/-- The tables in a block, in the order in which they begin. -/
def Block.tables : Block → List Table
  | .paragraph _ => []
  | .table width headerRows rows => ⟨width, headerRows, rows⟩ :: rowsTables rows
  | .contents _ => []

/-- The tables in blocks. -/
def blocksTables : List Block → List Table
  | [] => []
  | b :: bs => b.tables ++ blocksTables bs

/-- The tables in cells. -/
def cellsTables : List (List Block) → List Table
  | [] => []
  | c :: cs => blocksTables c ++ cellsTables cs

/-- The tables in rows. -/
def rowsTables : List (List (List Block)) → List Table
  | [] => []
  | r :: rs => cellsTables r ++ rowsTables rs

end

/-! ## What is read -/

/-- What stands in the elements that have a name, those inside other elements aside. -/
def ownContents (name : String) (xs : List Xml) : List (List Xml) :=
  xs.filterMap fun
    | .element n _ children => if n = name then some children else none
    | .empty n _ => if n = name then some [] else none
    | .text _ => none

/-- The rows of a table, those of tables in it aside. -/
def rowsOf (table : List Xml) : List (List Xml) := ownContents "w:tr" table

/-- The cells of a row. -/
def cellsOf (row : List Xml) : List (List Xml) := ownContents "w:tc" row

/-- The width in the properties of a cell. -/
def cellWidths (cell : List Xml) : List String :=
  (ownContents "w:tcPr" cell).flatMap (valuesIn "w:tcW" "w:w")

/-- The width in the properties of a table. -/
def tableWidths (table : List Xml) : List String :=
  (ownContents "w:tblPr" table).flatMap (valuesIn "w:tblW" "w:w")

/-- Whether a row is to be repeated on every page. -/
def isHeaderRow (row : List Xml) : Bool :=
  (ownContents "w:trPr" row).any fun properties => !(ownContents "w:tblHeader" properties).isEmpty

/-- The last element of a cell is a paragraph. -/
def EndsWithParagraph (cell : List Xml) : Prop :=
  ∃ x, cell.getLast? = some x ∧ ((∃ attributes children, x = .element "w:p" attributes children) ∨
    ∃ attributes, x = .empty "w:p" attributes)

/-- Rows as they are read, by the width of their cells and the number of header rows among them. -/
structure AreRowsOf (width headers : Nat) (rows : List Row) (read : List (List Xml)) : Prop where
  cells : read.map (fun row => (cellsOf row).length) = rows.map List.length
  widths : ∀ row ∈ read, ∀ cell ∈ cellsOf row, cellWidths cell = [toString width]
  /-- The first rows are header rows, and no others. -/
  headers : read.map isHeaderRow =
    List.replicate (min headers rows.length) true ++ List.replicate (rows.length - headers) false

/-- A table as it is read. -/
structure IsTableOf (t : Table) (table : List Xml) : Prop where
  width : tableWidths table = [toString t.width.toNat]
  /-- There are as many columns as cells in the widest row, all as wide as the cells, and together
  not wider than the table. -/
  grid : ∃ width, t.columns * width ≤ t.width.toNat ∧
    ownContents "w:tblGrid" table
      = [List.replicate t.columns (.empty "w:gridCol" [.nat "w:w" width])] ∧
    AreRowsOf width t.headerRows t.rows (rowsOf table)

variable {name : String} {names : List String} {xs ys : List Xml} {width headers : Nat}
variable {t : Table} {ts us : List Table}

/-! ## Elements side by side -/

lemma ownContents_append (xs ys : List Xml) :
    ownContents name (xs ++ ys) = ownContents name xs ++ ownContents name ys :=
  List.filterMap_append

lemma ownContents_plain (n : String) (children : List Xml) :
    ownContents name [.plain n children] = if n = name then [children] else [] := by
  by_cases h : n = name <;> simp [ownContents, Xml.plain, h]

/-- Elements side by side with names among the given ones. -/
def AreCalled (names : List String) (xs : List Xml) : Prop :=
  ∀ x ∈ xs, ∃ name ∈ names, ∃ children, x = .plain name children

lemma AreCalled.ownContents_eq (h : AreCalled names xs) (hname : name ∉ names) :
    ownContents name (allAsRead xs) = [] := by
  induction xs with
  | nil => rfl
  | cons x xs ih =>
      obtain ⟨n, hn, children, rfl⟩ := h x List.mem_cons_self
      have hne : n ≠ name := fun e => hname (e ▸ hn)
      rw [allAsRead, ownContents_append, ih fun y hy => h y (List.mem_cons_of_mem _ hy)]
      change ownContents name [.plain n (allAsRead children)] ++ [] = []
      rw [ownContents_plain, if_neg hne, List.nil_append]

/-- The elements of blocks side by side. -/
def blockElements : List String := ["w:p", "w:tbl", "w:sdt"]

lemma exists_xml_eq (b : Block) (refs : References) :
    ∃ name ∈ blockElements, ∃ children, (b.xml.run refs).1 = .plain name children := by
  cases b with
  | paragraph p =>
      refine ⟨"w:p", by simp [blockElements], ?_⟩
      rw [Block.xml]
      exact ⟨_, rfl⟩
  | table width headerRows rows =>
      exact ⟨"w:tbl", by simp [blockElements], _, by rw [run_xml_table]⟩
  | contents field =>
      refine ⟨"w:sdt", by simp [blockElements], ?_⟩
      rw [Block.xml]
      exact ⟨_, rfl⟩

lemma areCalled_blocksXml (bs : List Block) (refs : References) :
    AreCalled blockElements ((blocksXml bs).run refs).1 := by
  induction bs generalizing refs with
  | nil =>
      rw [blocksXml]
      exact fun _ h => absurd h List.not_mem_nil
  | cons b bs ih =>
      rw [run_blocksXml_cons, List.singleton_append]
      exact List.forall_mem_cons.mpr ⟨exists_xml_eq b refs, ih _⟩

/-! ## One table -/

/-- A cell ends with a paragraph: its last block, or one that is added. -/
lemma endsWithParagraph_cell (c : Cell) (refs : References) (before : List Xml) :
    EndsWithParagraph (allAsRead (before ++ (((blocksXml c).run refs).1 ++ cellEnd c))) := by
  rw [cellEnd]
  split_ifs with hlast
  · obtain ⟨b, hb, hparagraph⟩ := (Option.any_eq_true _ _).mp hlast
    obtain ⟨front, rfl⟩ : ∃ front, c = front ++ [b] :=
      ⟨_, (List.dropLast_append_getLast? b hb).symm⟩
    cases b with
    | paragraph p =>
        obtain ⟨children, hchildren⟩ :
            ∃ children, (p.xml.run ((blocksXml front).run refs).2).1 = .plain "w:p" children :=
          ⟨_, rfl⟩
        rw [run_blocksXml_concat, Block.xml, hchildren, List.append_nil, ← List.append_assoc,
          allAsRead_append, allAsRead_plain]
        exact ⟨_, List.getLast?_concat, Or.inl ⟨_, _, rfl⟩⟩
    | table width headerRows rows => exact absurd hparagraph Bool.false_ne_true
    | contents field => exact absurd hparagraph Bool.false_ne_true
  · rw [← List.append_assoc, allAsRead_append]
    exact ⟨_, List.getLast?_concat, Or.inr ⟨_, rfl⟩⟩

/-- The cells of a row as they are read. -/
structure AreCellsOf (width : Nat) (row : Row) (read : List (List Xml)) : Prop where
  length : read.length = row.length
  widths : ∀ cell ∈ read, cellWidths cell = [toString width]

lemma cellWidths_cell (width : Nat) (c : Cell) (refs : References) :
    cellWidths (allAsRead ([cellWidthXml width] ++ (((blocksXml c).run refs).1 ++ cellEnd c)))
      = [toString width] := by
  have hend : ownContents "w:tcPr" (allAsRead (cellEnd c)) = [] := by
    rw [cellEnd]
    split_ifs <;> rfl
  have hblocks : ownContents "w:tcPr" (allAsRead ((blocksXml c).run refs).1) = [] :=
    (areCalled_blocksXml c refs).ownContents_eq (by decide)
  rw [cellWidths, allAsRead_append, allAsRead_append, ownContents_append, ownContents_append,
    hblocks, hend]
  rfl

lemma areCellsOf_cellsXml (width : Nat) : ∀ (cs : List Cell) (refs : References),
    AreCellsOf width cs (cellsOf (allAsRead ((cellsXml width cs).run refs).1))
  | [], _ => by
      rw [cellsXml]
      exact ⟨rfl, fun _ h => absurd h List.not_mem_nil⟩
  | c :: cs, refs => by
      have ih := areCellsOf_cellsXml width cs ((blocksXml c).run refs).2
      rw [cellsOf] at ih
      rw [run_cellsXml_cons, allAsRead_append, allAsRead_plain, cellsOf, ownContents_append,
        ownContents_plain, if_pos rfl, List.singleton_append]
      exact ⟨congrArg (· + 1) ih.length,
        List.forall_mem_cons.mpr ⟨cellWidths_cell width c refs, ih.widths⟩⟩

lemma areCalled_cellsXml (width : Nat) : ∀ (cs : List Cell) (refs : References),
    AreCalled ["w:tc"] ((cellsXml width cs).run refs).1
  | [], _ => by
      rw [cellsXml]
      exact fun _ h => absurd h List.not_mem_nil
  | c :: cs, refs => by
      rw [run_cellsXml_cons, List.singleton_append]
      exact List.forall_mem_cons.mpr
        ⟨⟨"w:tc", List.mem_singleton_self _, _, rfl⟩, areCalled_cellsXml width cs _⟩

lemma areCalled_rowsXml (width : Nat) : ∀ (headers : Nat) (rs : List Row) (refs : References),
    AreCalled ["w:tr"] ((rowsXml width headers rs).run refs).1
  | _, [], _ => by
      rw [rowsXml]
      exact fun _ h => absurd h List.not_mem_nil
  | headers, r :: rs, refs => by
      rw [run_rowsXml_cons, List.singleton_append]
      exact List.forall_mem_cons.mpr
        ⟨⟨"w:tr", List.mem_singleton_self _, _, rfl⟩, areCalled_rowsXml width (headers - 1) rs _⟩

/-- The mark of a header row is no cell. -/
lemma cellsOf_row (flag : Bool) (cells : List Xml) :
    cellsOf (allAsRead (whenSet flag headerMark ++ cells)) = cellsOf (allAsRead cells) := by
  rw [cellsOf, allAsRead_append, ownContents_append]
  cases flag <;> rfl

/-- A row is a header row by its mark alone. -/
lemma isHeaderRow_row (flag : Bool) {cells : List Xml} (h : AreCalled ["w:tc"] cells) :
    isHeaderRow (allAsRead (whenSet flag headerMark ++ cells)) = flag := by
  rw [isHeaderRow, allAsRead_append, ownContents_append, h.ownContents_eq (by decide)]
  cases flag <;> rfl

lemma areRowsOf_rowsXml (width : Nat) : ∀ (headers : Nat) (rs : List Row) (refs : References),
    AreRowsOf width headers rs (rowsOf (allAsRead ((rowsXml width headers rs).run refs).1))
  | headers, [], _ => by
      rw [rowsXml]
      change AreRowsOf width headers [] []
      exact ⟨rfl, fun _ h => absurd h List.not_mem_nil, by simp⟩
  | headers, r :: rs, refs => by
      have hrest := areRowsOf_rowsXml width (headers - 1) rs ((cellsXml width r).run refs).2
      have hcells := areCellsOf_cellsXml width r refs
      have hmark := isHeaderRow_row (decide (0 < headers)) (areCalled_cellsXml width r refs)
      rw [rowsOf] at hrest
      rw [run_rowsXml_cons, allAsRead_append, allAsRead_plain, rowsOf, ownContents_append,
        ownContents_plain, if_pos rfl, List.singleton_append]
      refine ⟨?_, List.forall_mem_cons.mpr ⟨?_, hrest.widths⟩, ?_⟩
      · rw [List.map_cons, List.map_cons, hrest.cells, cellsOf_row, hcells.length]
      · rw [cellsOf_row]
        exact hcells.widths
      · rw [List.map_cons, hrest.headers, hmark, List.length_cons]
        cases headers with
        | zero => simp [List.replicate_succ]
        | succ n => simp [List.replicate_succ, Nat.succ_min_succ]

/-! ### The grid -/

/-- The widest row decides. -/
lemma columnCount_eq (t : Table) : columnCount t.rows = t.columns := by
  rw [columnCount, Table.columns]
  cases t.rows.map List.length with
  | nil => rfl
  | cons n ns => rw [List.max?_cons', Option.getD_some, List.foldl_cons, Nat.zero_max]

/-- The columns are not wider than the table. -/
lemma columns_mul_columnWidth_le (t : Table) :
    t.columns * columnWidth t.width t.rows ≤ t.width.toNat := by
  rw [columnWidth, columnCount_eq]
  calc t.columns * (t.width.toNat / max t.columns 1)
      ≤ max t.columns 1 * (t.width.toNat / max t.columns 1) :=
        Nat.mul_le_mul_right _ (Nat.le_max_left _ _)
    _ ≤ t.width.toNat := Nat.mul_div_le _ _

/-- As long as the columns are counted in 32 bits, so is the division. -/
theorem columnWidth_eq_toNat_div (t : Table) (h : t.columns < UInt32.size) :
    columnWidth t.width t.rows = (t.width / UInt32.ofNat (max t.columns 1)).toNat := by
  have hcolumns : (UInt32.ofNat (max t.columns 1)).toNat = max t.columns 1 :=
    UInt32.toNat_ofNat_of_lt (Nat.max_lt.mpr ⟨h, by decide⟩)
  rw [columnWidth, columnCount_eq, UInt32.toNat_div, hcolumns]

/-- What is read as it is written is so any number of times. -/
lemma allAsRead_replicate {x : Xml} (h : x.asRead = [x]) (n : Nat) :
    allAsRead (List.replicate n x) = List.replicate n x :=
  allAsRead_eq_self fun y hy => by rw [List.eq_of_mem_replicate hy, h]

/-- A table is written as it should be. -/
theorem isTableOf_xml (t : Table) (refs : References) :
    IsTableOf t (allAsRead ([tableProperties t.width] ++
      ([gridXml (columnCount t.rows) (columnWidth t.width t.rows)] ++
        ((rowsXml (columnWidth t.width t.rows) t.headerRows t.rows).run refs).1))) := by
  have hrows := areRowsOf_rowsXml (columnWidth t.width t.rows) t.headerRows t.rows refs
  have hcalled := areCalled_rowsXml (columnWidth t.width t.rows) t.headerRows t.rows refs
  have hgrid : allAsRead [gridXml (columnCount t.rows) (columnWidth t.width t.rows)]
      = [gridXml (columnCount t.rows) (columnWidth t.width t.rows)] := by
    rw [gridXml, allAsRead_plain, allAsRead_replicate rfl]
  rw [allAsRead_append, allAsRead_append, hgrid]
  refine ⟨?_, columnWidth t.width t.rows, columns_mul_columnWidth_le t, ?_, ?_⟩
  · rw [tableWidths, ownContents_append, ownContents_append, hcalled.ownContents_eq (by decide)]
    rfl
  · rw [ownContents_append, ownContents_append, hcalled.ownContents_eq (by decide),
      ← columnCount_eq]
    rfl
  · rw [rowsOf, ownContents_append, ownContents_append]
    exact hrows

/-! ## Nested tables -/

/-- Trees with some tables in them, each written as it should be, and no other cells than those that
end with a paragraph. -/
inductive HoldsTables : List Table → List Xml → Prop
  | nil : HoldsTables [] []
  | append {ts us : List Table} {xs ys : List Xml} :
      HoldsTables ts xs → HoldsTables us ys → HoldsTables (ts ++ us) (xs ++ ys)
  | other {names : List String} {xs : List Xml} : IsMadeOf names xs → "w:tbl" ∉ names →
      "w:tc" ∉ names → HoldsTables [] xs
  | cell {ts : List Table} {xs : List Xml} : HoldsTables ts xs →
      EndsWithParagraph (allAsRead xs) → HoldsTables ts [.plain "w:tc" xs]
  | row {ts : List Table} {xs : List Xml} : HoldsTables ts xs → HoldsTables ts [.plain "w:tr" xs]
  | table {t : Table} {ts : List Table} {xs : List Xml} : HoldsTables ts xs →
      IsTableOf t (allAsRead xs) → HoldsTables (t :: ts) [.plain "w:tbl" xs]

namespace HoldsTables

/-- Something without tables in front. -/
lemma behind (h : HoldsTables ts ys) (hxs : HoldsTables [] xs) : HoldsTables ts (xs ++ ys) :=
  hxs.append h

/-- The tables that are read are those that are held, in their order. -/
theorem tables (h : HoldsTables ts xs) :
    List.Forall₂ (fun t table => IsTableOf t (allAsRead table)) ts (contentsOf "w:tbl" xs) := by
  induction h with
  | nil => exact .nil
  | append _ _ ih ih' =>
      rw [contentsOf_append]
      exact List.rel_append ih ih'
  | other hnames htable _ =>
      rw [contentsOf_of_isMadeOf htable _ hnames]
      exact .nil
  | cell _ _ ih => rwa [Xml.plain, contentsOf_element, if_neg (by decide), List.nil_append]
  | row _ ih => rwa [Xml.plain, contentsOf_element, if_neg (by decide), List.nil_append]
  | table _ htable ih =>
      rw [Xml.plain, contentsOf_element, if_pos rfl]
      exact .cons htable ih

/-- Every cell ends with a paragraph. -/
theorem cells (h : HoldsTables ts xs) :
    ∀ cell ∈ contentsOf "w:tc" xs, EndsWithParagraph (allAsRead cell) := by
  induction h with
  | nil => exact fun _ h => absurd h List.not_mem_nil
  | append _ _ ih ih' =>
      rw [contentsOf_append]
      exact List.forall_mem_append.mpr ⟨ih, ih'⟩
  | other hnames _ hcell =>
      rw [contentsOf_of_isMadeOf hcell _ hnames]
      exact fun _ h => absurd h List.not_mem_nil
  | cell _ hend ih =>
      rw [Xml.plain, contentsOf_element, if_pos rfl]
      exact List.forall_mem_cons.mpr ⟨hend, ih⟩
  | row _ ih => rwa [Xml.plain, contentsOf_element, if_neg (by decide), List.nil_append]
  | table _ _ ih => rwa [Xml.plain, contentsOf_element, if_neg (by decide), List.nil_append]

end HoldsTables

/-- The elements of tables that hold no blocks. -/
def gridNames : List String :=
  ["w:tblPr", "w:tblW", "w:tblBorders", "w:top", "w:left", "w:bottom", "w:right", "w:insideH",
    "w:insideV", "w:tblLayout", "w:tblLook", "w:tblGrid", "w:gridCol", "w:trPr", "w:tblHeader",
    "w:tcPr", "w:tcW", "w:p"]

lemma holdsTables_grid (h : IsMadeOf gridNames xs) : HoldsTables [] xs :=
  .other h (by decide) (by decide)

lemma isMadeOf_gridXml (columns width : Nat) : IsMadeOf gridNames [gridXml columns width] := by
  have hcolumns : ∀ n, IsMadeOf gridNames
      (List.replicate n (.empty "w:gridCol" [.nat "w:w" width])) := by
    intro n
    induction n with
    | zero => exact isMadeOf_nil
    | succ n ih => exact isMadeOf_cons.mpr ⟨by simp [gridNames], ih⟩
  rw [gridXml, isMadeOf_plain]
  exact ⟨by simp [gridNames], hcolumns columns⟩

mutual

lemma holdsTables_block : ∀ (b : Block) (refs : References),
    HoldsTables b.tables [(b.xml.run refs).1]
  | .paragraph p, refs => by
      rw [Block.xml, Block.tables]
      exact .other (isMadeOf_paragraph p refs) (by decide) (by decide)
  | .table width headerRows rows, refs => by
      have hproperties : HoldsTables [] [tableProperties width] :=
        holdsTables_grid (by simp [tableProperties, borderXml, gridNames])
      rw [run_xml_table, Block.tables]
      refine .table ?_ (isTableOf_xml ⟨width, headerRows, rows⟩ refs)
      exact ((holdsTables_rows rows refs).behind (holdsTables_grid (isMadeOf_gridXml _ _))).behind
        hproperties
  | .contents field, refs => by
      rw [Block.xml, Block.tables]
      exact .other (isMadeOf_contents field) (by decide) (by decide)

/-- Blocks hold their tables. -/
lemma holdsTables_blocks : ∀ (bs : List Block) (refs : References),
    HoldsTables (blocksTables bs) ((blocksXml bs).run refs).1
  | [], _ => by
      rw [blocksXml, blocksTables]
      exact .nil
  | b :: bs, refs => by
      rw [run_blocksXml_cons, blocksTables]
      exact (holdsTables_block b refs).append (holdsTables_blocks bs _)

lemma holdsTables_cells {width : Nat} : ∀ (cs : List (List Block)) (refs : References),
    HoldsTables (cellsTables cs) ((cellsXml width cs).run refs).1
  | [], _ => by
      rw [cellsXml, cellsTables]
      exact .nil
  | c :: cs, refs => by
      have hwidth : HoldsTables [] [cellWidthXml width] :=
        holdsTables_grid (by simp [cellWidthXml, gridNames])
      have hend : HoldsTables [] (cellEnd c) := by
        unfold cellEnd
        split_ifs
        · exact .nil
        · exact holdsTables_grid (by simp [gridNames])
      have hblocks : HoldsTables (blocksTables c) (((blocksXml c).run refs).1 ++ cellEnd c) := by
        rw [← List.append_nil (blocksTables c)]
        exact (holdsTables_blocks c refs).append hend
      rw [run_cellsXml_cons, cellsTables]
      exact (HoldsTables.cell (hblocks.behind hwidth) (endsWithParagraph_cell c refs _)).append
        (holdsTables_cells cs _)

lemma holdsTables_rows {width : Nat} : ∀ {headers : Nat} (rs : List (List (List Block)))
    (refs : References), HoldsTables (rowsTables rs) ((rowsXml width headers rs).run refs).1
  | _, [], _ => by
      rw [rowsXml, rowsTables]
      exact .nil
  | headers, r :: rs, refs => by
      have hmark : HoldsTables [] (whenSet (0 < headers) headerMark) :=
        holdsTables_grid (isMadeOf_whenSet (by simp [headerMark, gridNames]) _)
      rw [run_rowsXml_cons, rowsTables]
      exact (HoldsTables.row ((holdsTables_cells r refs).behind hmark)).append
        (holdsTables_rows rs _)

end

/-! ## The text -/

/-- **The text of a table is read, and so are that table and all tables in it: in their order, and
each with its grid, its rows and its header rows.  Every cell ends with a paragraph.** -/
theorem read_table {width : UInt32} {headerRows : Nat} {rows : List Row}
    (hsafe : ∀ i ∈ inlinesIn (rowsParagraphs rows), i.IsSafe) (refs : References) :
    ∃ xs, read? ((Block.table width headerRows rows).xml.run refs).1.render = some xs ∧
      List.Forall₂ IsTableOf (⟨width, headerRows, rows⟩ :: rowsTables rows)
        (contentsOf "w:tbl" xs) ∧
      ∀ cell ∈ contentsOf "w:tc" xs, EndsWithParagraph cell := by
  have hholds := holdsTables_block (.table width headerRows rows) refs
  have hwrites := writes_block (S := fun _ => True) (F := fun _ => True)
    (.table width headerRows rows) refs fun _ _ => trivial
  have hsound := areSound_of_writes hwrites (by rwa [Block.paragraphs])
  refine ⟨_, read?_render (hsound.mono fun _ _ => areNames_of_bodyRule), ?_, ?_⟩
  · have htables := hholds.tables
    rw [Block.tables] at htables
    rw [contentsOf_allAsRead]
    exact List.forall₂_map_right_iff.mpr htables
  · rw [contentsOf_allAsRead]
    exact List.forall_mem_map.mpr hholds.cells

/-- Rows of three cells and of one: a paragraph, nothing, a table, and nothing again.  The table in
them has a row without cells and more header rows than rows. -/
def raggedRows : List Row :=
  [[[.paragraph
      { inlines := [.run { content := .text "a", format := { color := some "FF0000" } }] }],
    [], [.table 1000 5 [[[.contents {}]], []]]], [[]]]

/-- These rows as a table. -/
theorem read_table_raggedRows :
    (∀ i ∈ inlinesIn (rowsParagraphs raggedRows), i.IsSafe) ∧
      rowsTables raggedRows = [⟨1000, 5, [[[.contents {}]], []]⟩] ∧
      (Table.mk 9354 1 raggedRows).columns = 3 ∧
      ∃ xs, read? ((Block.table 9354 1 raggedRows).xml.run .initial).1.render = some xs ∧
        List.Forall₂ IsTableOf (⟨9354, 1, raggedRows⟩ :: rowsTables raggedRows)
          (contentsOf "w:tbl" xs) ∧
        ∀ cell ∈ contentsOf "w:tc" xs, EndsWithParagraph cell := by
  have hinlines : inlinesIn (rowsParagraphs raggedRows)
      = [.run { content := .text "a", format := { color := some "FF0000" } }] := rfl
  have hsafe : ∀ i ∈ inlinesIn (rowsParagraphs raggedRows), i.IsSafe := by
    intro i hi r hr
    rw [hinlines] at hi
    obtain rfl := List.mem_singleton.mp hi
    obtain rfl := List.mem_singleton.mp hr
    exact ⟨fun s hs => by rw [← Option.some.inj hs]; decide, fun s hs => nomatch hs⟩
  exact ⟨hsafe, rfl, rfl, read_table hsafe .initial⟩

end ReportPress.Word
