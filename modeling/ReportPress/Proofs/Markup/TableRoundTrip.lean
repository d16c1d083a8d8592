import ReportPress.Proofs.Markup.Detection
import ReportPress.Proofs.Markup.PlainLine

/-!
# Reading drawn tables

A table drawn with pipes, every row between outer pipes and with spaces around its cells, is read
as that table unless a row has nothing in any cell.  Such a row consists of pipes and spaces alone:
its outer pipes stay, so that it counts two cells more than the others and ends the table.

* `IsCell` — the texts that a cell can hold.
* `drawnRow`, `drawnDashes`, `drawnTable` — the lines of a table and its source.

**Lines.**  `cells_drawnRow` reads a row that has something in a cell back, and
`length_cells_of_empty` counts the cells of one that has not.

**Tables.**  `splitTable?_drawnTable_iff` — the lines are a table with these rows.
`parse_drawnTable_iff` — **the source is read as the table exactly if its header and each of its
rows has a cell that is not empty**.
-/

namespace ReportPress.Markup

open Text

/-! ## Drawing -/

/-- A trimmed text without pipes and line feeds. -/
structure IsCell (cell : String) : Prop where
  trimmed : trimmed cell = cell
  noPipe : '|' ∉ cell.toList
  oneLine : '\n' ∉ cell.toList

instance : DecidablePred IsCell := fun cell =>
  decidable_of_iff (Text.trimmed cell = cell ∧ '|' ∉ cell.toList ∧ '\n' ∉ cell.toList)
    ⟨fun h => ⟨h.1, h.2.1, h.2.2⟩, fun h => ⟨h.trimmed, h.noPipe, h.oneLine⟩⟩

/-- A cell with a space on either side. -/
def padded (cell : String) : List Char := ' ' :: cell.toList ++ [' ']

/-- The text between the outer pipes of a row. -/
def innerRow (row : List String) : List Char := joinWith ['|'] (row.map padded)

/-- A row between pipes. -/
def drawnRow (row : List String) : String := String.ofList ('|' :: innerRow row ++ ['|'])

/-- Three dashes for every column, with pipes between them. -/
def innerDashes (columns : Nat) : List Char :=
  joinWith ['|'] (List.replicate columns ['-', '-', '-'])

/-- A row of dashes between pipes. -/
def drawnDashes (columns : Nat) : String := String.ofList ('|' :: innerDashes columns ++ ['|'])

/-- The lines of a table: its header, dashes, and its rows. -/
def drawnLines (header : List String) (rows : List (List String)) : List String :=
  drawnRow header :: drawnDashes header.length :: rows.map drawnRow

/-- A table as a source. -/
def drawnTable (header : List String) (rows : List (List String)) : String :=
  joined "\n" (drawnLines header rows)

/-- The report that is one table without a caption. -/
def tableReport (header : List String) (rows : List (List String)) : Parsed where
  document := {
    sections := [{
      pageStart := some 1
      nodes := [.table none ((header :: rows).map Node.textRow) false] }]
    settings := {} }
  diagnostics := []

/-- Some cell of the row is not empty. -/
def HasText (row : List String) : Prop := ∃ cell ∈ row, cell ≠ ""

instance : DecidablePred HasText := fun row =>
  List.decidableBEx (fun cell => cell ≠ "") row

example : drawnTable ["a", "b"] [["1", ""]] = "| a | b |\n|---|---|\n| 1 |  |" := by decide

variable {cell : String} {header row : List String} {rows : List (List String)} {cs : List Char}

/-! ## Rows -/

lemma IsCell.trim_eq (h : IsCell cell) : trim cell.toList = cell.toList := by
  have htrim : (Text.trimmed cell).toList = cell.toList := by rw [h.trimmed]
  rwa [Text.trimmed, String.toList_ofList] at htrim

/-- The spaces around a cell are trimmed off. -/
lemma IsCell.trim_padded (h : IsCell cell) : trim (padded cell) = cell.toList := by
  rw [padded, trim_append_blanks (by decide), ← List.singleton_append, trim_append (by decide),
    h.trim_eq]

lemma IsCell.not_mem_padded (h : IsCell cell) {c : Char} (hc : c = '|' ∨ c = '\n') :
    c ∉ padded cell := by
  have hcell : c ∉ cell.toList := by
    rcases hc with rfl | rfl
    · exact h.noPipe
    · exact h.oneLine
  have hspace : c ≠ ' ' := by rcases hc with rfl | rfl <;> decide
  simp [padded, hcell, hspace]

/-- The cells are the pieces between the pipes. -/
lemma splitOn_innerRow (hne : row ≠ []) (h : ∀ cell ∈ row, IsCell cell) :
    splitOn '|' (innerRow row) = row.map padded := by
  refine splitOn_joinWith (by simpa using hne) fun piece hpiece => ?_
  obtain ⟨cell, hcell, rfl⟩ := List.mem_map.mp hpiece
  exact (h cell hcell).not_mem_padded (Or.inl rfl)

lemma map_trim_padded (h : ∀ cell ∈ row, IsCell cell) :
    (row.map padded).map trim = row.map String.toList := by
  rw [List.map_map]
  exact List.map_congr_left fun cell hcell => (h cell hcell).trim_padded

/-- A line between pipes is trimmed. -/
lemma trim_between (cs : List Char) : trim ('|' :: cs ++ ['|']) = '|' :: cs ++ ['|'] := by
  refine trim_eq_self (fun c hc => ?_) fun c hc => ?_
  · rw [← Option.some.inj hc]
    decide
  · rw [List.getLast?_append, List.getLast?_singleton, Option.some_or, Option.some.injEq] at hc
    rw [← hc]
    decide

/-- The outer pipes of a line with anything but pipes and white space in it are taken off. -/
lemma rowText_between {c : Char} (hc : c ∈ cs) (hpipe : c ≠ '|') (hblank : isBlank c = false) :
    rowText ('|' :: cs ++ ['|']) = trim cs := by
  have hfilled : isEmptyRow ('|' :: cs ++ ['|']) = false := by
    rw [isEmptyRow, Bool.and_eq_false_iff]
    right
    rw [List.all_eq_false]
    exact ⟨c, by simp [hc], by simp [hpipe, hblank]⟩
  have hstart : dropStart '|' ('|' :: cs ++ ['|']) = cs ++ ['|'] := by simp [dropStart]
  have hend : dropEnd '|' (cs ++ ['|']) = cs := by simp [dropEnd]
  rw [rowText, trim_between, hfilled, if_neg Bool.false_ne_true, hstart, hend]

/-- A row with something in a cell has a character that is neither a pipe nor white space. -/
lemma exists_mem_innerRow (h : ∀ cell ∈ row, IsCell cell) (htext : HasText row) :
    ∃ c ∈ innerRow row, c ≠ '|' ∧ isBlank c = false := by
  obtain ⟨cell, hcell, hne⟩ := htext
  have hpiece : padded cell ∈ splitOn '|' (innerRow row) := by
    rw [splitOn_innerRow (List.ne_nil_of_mem hcell) h]
    exact List.mem_map_of_mem hcell
  cases hchars : cell.toList with
  | nil => exact absurd (String.toList_eq_nil_iff.mp hchars) hne
  | cons c rest =>
      have hhead : (trim cell.toList).head? = some c := by
        rw [(h cell hcell).trim_eq, hchars]
        rfl
      have hmem : c ∈ cell.toList := by
        rw [hchars]
        exact List.mem_cons_self
      refine ⟨c, mem_of_mem_splitOn hpiece (by simp [padded, hmem]), ?_, head_trim hhead⟩
      rintro rfl
      exact (h cell hcell).noPipe hmem

/-- A row with something in a cell is read back cell by cell. -/
theorem cells_drawnRow (hne : row ≠ []) (h : ∀ cell ∈ row, IsCell cell) (htext : HasText row) :
    cells (drawnRow row).toList = row.map String.toList := by
  obtain ⟨c, hc, hpipe, hblank⟩ := exists_mem_innerRow h htext
  rw [cells, drawnRow, String.toList_ofList, rowText_between hc hpipe hblank,
    map_trim_splitOn_trim (by decide), splitOn_innerRow hne h, map_trim_padded h]

/-- A row with nothing in any cell stays whole, outer pipes included: each of them counts as one
more cell. -/
theorem length_cells_of_empty (hne : row ≠ []) (h : ∀ cell ∈ row, IsCell cell)
    (htext : ¬ HasText row) : (cells (drawnRow row).toList).length = row.length + 2 := by
  have hinner : ∀ c ∈ innerRow row, c = '|' ∨ isBlank c = true := by
    intro c hc
    rcases mem_joinWith hc with hc | ⟨piece, hpiece, hc⟩
    · exact Or.inl (List.mem_singleton.mp hc)
    · obtain ⟨cell, hcell, rfl⟩ := List.mem_map.mp hpiece
      have hempty : cell = "" := by
        by_contra hne
        exact htext ⟨cell, hcell, hne⟩
      have hspace : c = ' ' := by simpa [padded, hempty] using hc
      rw [hspace]
      exact Or.inr (by decide)
  have hwhole : isEmptyRow ('|' :: innerRow row ++ ['|']) = true := by
    rw [isEmptyRow, Bool.and_eq_true]
    refine ⟨by simp, List.all_eq_true.mpr fun c hc => ?_⟩
    have hcases : c = '|' ∨ c ∈ innerRow row := by simpa [or_comm, or_assoc] using hc
    rw [Bool.or_eq_true, decide_eq_true_eq]
    exact hcases.elim Or.inl (hinner c)
  have hpieces : splitOn '|' ('|' :: innerRow row ++ ['|'])
      = [] :: (row.map padded ++ [[]]) := by
    rw [List.cons_append, splitOn, if_pos rfl, splitOn_append_cons, splitOn_innerRow hne h]
    rfl
  rw [cells, drawnRow, String.toList_ofList, rowText, trim_between, hwhole, if_pos rfl, hpieces]
  simp

/-- A row fits the columns of a table exactly if it has something in a cell. -/
lemma length_cells_eq_iff (hne : row ≠ []) (h : ∀ cell ∈ row, IsCell cell) :
    (cells (drawnRow row).toList).length = row.length ↔ HasText row := by
  constructor
  · intro hlength
    by_contra htext
    rw [length_cells_of_empty hne h htext] at hlength
    omega
  · intro htext
    rw [cells_drawnRow hne h htext, List.length_map]

/-- A row of dashes announces as many columns as it has. -/
lemma separatorColumns?_drawnDashes {columns : Nat} (h : 2 ≤ columns) :
    separatorColumns? (drawnDashes columns).toList = some columns := by
  have hne : List.replicate columns ['-', '-', '-'] ≠ [] := by
    rw [Ne, List.replicate_eq_nil_iff]
    omega
  have hsplit : splitOn '|' (innerDashes columns) = List.replicate columns ['-', '-', '-'] := by
    refine splitOn_joinWith hne fun piece hpiece => ?_
    rw [List.eq_of_mem_replicate hpiece]
    decide
  have hdash : '-' ∈ innerDashes columns := by
    have hpiece : ['-', '-', '-'] ∈ splitOn '|' (innerDashes columns) := by
      rw [hsplit]
      exact List.mem_replicate.mpr ⟨by omega, rfl⟩
    exact mem_of_mem_splitOn hpiece List.mem_cons_self
  have hsolid : ∀ c ∈ innerDashes columns, isBlank c = false := by
    intro c hc
    rcases mem_joinWith hc with hc | ⟨piece, hpiece, hc⟩
    · rw [List.mem_singleton.mp hc]
      decide
    · rw [List.eq_of_mem_replicate hpiece] at hc
      have hc : c = '-' := by simpa using hc
      rw [hc]
      decide
  have htrim : trim (innerDashes columns) = innerDashes columns :=
    trim_eq_self (fun c hc => hsolid c (List.mem_of_mem_head? hc))
      fun c hc => hsolid c (List.mem_of_mem_getLast? hc)
  rw [separatorColumns?, drawnDashes, String.toList_ofList,
    rowText_between hdash (by decide) (by decide), htrim, hsplit]
  have hdashes : (List.replicate columns ['-', '-', '-']).all isDashes = true := by
    rw [List.all_eq_true]
    intro piece hpiece
    rw [List.eq_of_mem_replicate hpiece]
    decide
  simp only [List.length_replicate, h, hdashes, and_self, if_true]

/-! ## Lines -/

/-- A line that begins with a pipe has no marker. -/
lemma classify_of_pipe {line : String} {rest : List Char} (h : line.toList = '|' :: rest) :
    classify line = .ok ⟨.plain, trimmed line, 0⟩ := by
  obtain ⟨more, hword⟩ := exists_firstWord_eq (w := ['|']) (by decide) h
  have hhead : (firstWord line).head? = some '|' := by rw [hword]; rfl
  have hfence : startsWith "```".toList (firstWord line) = false :=
    startsWith_of_head (c := '\x60') (by simp [hhead])
  have hcomment : startsWith "<!--".toList (firstWord line) = false :=
    startsWith_of_head (c := '<') (by simp [hhead])
  obtain ⟨text, hclassify⟩ := classify_of_head hhead (by decide)
  rw [hclassify, hfence, hcomment, if_neg Bool.false_ne_true, if_neg Bool.false_ne_true,
    wordMarker?_eq_none (List.mem_of_mem_head? hhead) (by decide) hhead (by decide) (by decide)]
  rfl

lemma isPlainLine_between (h : '\n' ∉ cs) : IsPlainLine (String.ofList ('|' :: cs ++ ['|'])) := by
  have hline : (String.ofList ('|' :: cs ++ ['|'])).toList = '|' :: (cs ++ ['|']) := by simp
  have htrim : trimmed (String.ofList ('|' :: cs ++ ['|']))
      = String.ofList ('|' :: cs ++ ['|']) := by
    rw [trimmed, String.toList_ofList, trim_between]
  refine ⟨?_, ?_, by simpa using h⟩
  · rw [classify_of_pipe hline, htrim]
  · intro hempty
    rw [hempty] at hline
    simp at hline

lemma isPlainLine_drawnRow (h : ∀ cell ∈ row, IsCell cell) : IsPlainLine (drawnRow row) := by
  refine isPlainLine_between fun hmem => ?_
  rcases mem_joinWith hmem with hmem | ⟨piece, hpiece, hmem⟩
  · exact absurd hmem (by decide)
  · obtain ⟨cell, hcell, rfl⟩ := List.mem_map.mp hpiece
    exact (h cell hcell).not_mem_padded (Or.inr rfl) hmem

lemma isPlainLine_drawnDashes (columns : Nat) : IsPlainLine (drawnDashes columns) := by
  refine isPlainLine_between fun hmem => ?_
  rcases mem_joinWith hmem with hmem | ⟨piece, hpiece, hmem⟩
  · exact absurd hmem (by decide)
  · rw [List.eq_of_mem_replicate hpiece] at hmem
    exact absurd hmem (by decide)

lemma isPlainLine_of_mem_drawnLines {line : String}
    (h : ∀ row ∈ header :: rows, ∀ cell ∈ row, IsCell cell)
    (hline : line ∈ drawnLines header rows) : IsPlainLine line := by
  rcases List.mem_cons.mp hline with rfl | hline
  · exact isPlainLine_drawnRow (h header List.mem_cons_self)
  rcases List.mem_cons.mp hline with rfl | hline
  · exact isPlainLine_drawnDashes header.length
  · obtain ⟨row, hrow, rfl⟩ := List.mem_map.mp hline
    exact isPlainLine_drawnRow (h row (List.mem_cons_of_mem header hrow))

/-! ## Tables -/

/-- The passes see nothing but a table in a paragraph that begins with a pipe. -/
lemma detect_of_pipe {text : String} {rest : List Char} (h : text.toList = '|' :: rest) :
    detect [.ofText text] = (tables [.ofText text], []) := by
  have hne : text.isEmpty = false := by
    rw [← Bool.not_eq_true, String.isEmpty_iff]
    rintro rfl
    simp at h
  have hexternal : external? text = none := by
    simp [external?, h, dropTrailingCommas, directive?, dropLead?]
  simp [detect, dropEmptyTexts, Node.ofText, hne, externals, externalNode, hexternal]

/-- A paragraph becomes a table and nothing else exactly if no line is left over. -/
lemma tables_eq_singleton_iff {text : String} {cells : List (List (Node String))} :
    tables [.ofText text] = [.table none cells false] ↔ splitTable? text = some (cells, none) := by
  have hread : tables [.ofText text] = (pushNode [] (.ofText text)).reverse := rfl
  rw [hread, Node.ofText, pushNode]
  cases hsplit : splitTable? text with
  | none => simp
  | some parts =>
      obtain ⟨found, rest⟩ := parts
      cases rest with
      | none => simp [takeCaption]
      | some text => simp [takeCaption, Node.ofText]

/-- Lines are a table from the first to the last exactly if all of them have as many cells as the
dashes have columns. -/
lemma splitTable?_eq_iff {text : String} {first separator : List Char} {body : List (List Char)}
    {columns : Nat} {found : List (List (Node String))}
    (hlines : splitOn '\n' text.toList = first :: separator :: body)
    (hseparator : separatorColumns? separator = some columns) (hbody : body ≠ []) :
    splitTable? text = some (found, none) ↔
      (∀ line ∈ first :: body, (cells line).length = columns) ∧
        found = (first :: body).map tableRow := by
  have hread := splitTable?.eq_def text
  rw [hlines] at hread
  simp only [hseparator] at hread
  constructor
  · intro h
    rw [h] at hread
    split_ifs at hread with hfits hrest
    · rw [List.isEmpty_iff, List.dropWhile_eq_nil_iff] at hrest
      rw [List.takeWhile_eq_self_iff.mpr hrest, Option.some.injEq, Prod.mk.injEq] at hread
      refine ⟨fun line hline => ?_, hread.1⟩
      rcases List.mem_cons.mp hline with rfl | hline
      · exact beq_iff_eq.mp hfits.1
      · exact beq_iff_eq.mp (hrest line hline)
    · simp at hread
  · rintro ⟨hall, rfl⟩
    have hfits : ∀ line ∈ body, ((cells line).length == columns) = true :=
      fun line hline => beq_iff_eq.mpr (hall line (List.mem_cons_of_mem first hline))
    rw [hread, List.takeWhile_eq_self_iff.mpr hfits, List.dropWhile_eq_nil_iff.mpr hfits,
      if_pos ⟨beq_iff_eq.mpr (hall first List.mem_cons_self), hbody⟩]
    rfl

/-- The lines of a drawn table are found again. -/
lemma splitOn_drawnTable (hcells : ∀ row ∈ header :: rows, ∀ cell ∈ row, IsCell cell) :
    splitOn '\n' (drawnTable header rows).toList = (drawnRow header).toList ::
      (drawnDashes header.length).toList :: rows.map fun row => (drawnRow row).toList := by
  have hsplit : splitOn '\n' (joinWith ['\n'] ((drawnLines header rows).map String.toList))
      = (drawnLines header rows).map String.toList := by
    refine splitOn_joinWith (by simp [drawnLines]) fun piece hpiece => ?_
    obtain ⟨line, hline, rfl⟩ := List.mem_map.mp hpiece
    exact (isPlainLine_of_mem_drawnLines hcells hline).oneLine
  have hfeed : "\n".toList = ['\n'] := rfl
  rw [drawnTable, joined, String.toList_ofList, hfeed, hsplit, drawnLines]
  simp

section drawnTable

variable (hcolumns : 2 ≤ header.length) (hrows : rows ≠ [])
  (hlength : ∀ row ∈ rows, row.length = header.length)
  (hcells : ∀ row ∈ header :: rows, ∀ cell ∈ row, IsCell cell)

include hcolumns hrows hlength hcells

/-- The lines of a drawn table are a table with its rows, and none is left over, exactly if every
row has something in a cell. -/
theorem splitTable?_drawnTable_iff :
    splitTable? (drawnTable header rows) = some ((header :: rows).map Node.textRow, none) ↔
      ∀ row ∈ header :: rows, HasText row := by
  have hsame : ∀ row ∈ header :: rows, row.length = header.length := by
    intro row hrow
    rcases List.mem_cons.mp hrow with rfl | hrow
    · rfl
    · exact hlength row hrow
  have hne : ∀ row ∈ header :: rows, row ≠ [] := by
    intro row hrow
    have hpos : 2 ≤ row.length := by rwa [hsame row hrow]
    exact List.ne_nil_of_length_pos (by omega)
  have hlines : (drawnRow header).toList :: rows.map (fun row => (drawnRow row).toList)
      = (header :: rows).map fun row => (drawnRow row).toList := rfl
  rw [splitTable?_eq_iff (splitOn_drawnTable hcells) (separatorColumns?_drawnDashes hcolumns)
    (by simpa using hrows), hlines, List.forall_mem_map]
  constructor
  · rintro ⟨hfits, -⟩ row hrow
    rw [← length_cells_eq_iff (hne row hrow) (hcells row hrow), hsame row hrow]
    exact hfits row hrow
  · intro htext
    refine ⟨fun row hrow => ?_, ?_⟩
    · rw [← hsame row hrow]
      exact (length_cells_eq_iff (hne row hrow) (hcells row hrow)).mpr (htext row hrow)
    · rw [List.map_map]
      refine List.map_congr_left fun row hrow => ?_
      rw [Function.comp_apply, tableRow,
        cells_drawnRow (hne row hrow) (hcells row hrow) (htext row hrow), List.map_map]
      simp

/-- **A drawn table is read as that table exactly if its header and each of its rows has something
in a cell.** -/
theorem parse_drawnTable_iff :
    parse (drawnTable header rows) = .ok (tableReport header rows) ↔
      ∀ row ∈ header :: rows, HasText row := by
  have hpipe : ∃ rest, (drawnTable header rows).toList = '|' :: rest := by
    rw [drawnTable, joined, String.toList_ofList, drawnLines, List.map_cons,
      joinWith_cons _ _ (by simp), drawnRow, String.toList_ofList]
    exact ⟨_, rfl⟩
  obtain ⟨rest, hrest⟩ := hpipe
  rw [← splitTable?_drawnTable_iff hcolumns hrows hlength hcells, ← tables_eq_singleton_iff,
    drawnTable, parse_joined (by simp [drawnLines])
      fun line hline => isPlainLine_of_mem_drawnLines hcells hline,
    ← drawnTable, detect_of_pipe hrest, tableReport, Except.ok.injEq]
  simp

end drawnTable

/-- A table of two columns with cells that are empty at either end of a row. -/
theorem parse_drawnTable_gaps :
    parse "| a |  |\n|---|---|\n|  | 1 2 |\n| b | c |"
      = .ok (tableReport ["a", ""] [["", "1 2"], ["b", "c"]]) := by
  have hdrawn : "| a |  |\n|---|---|\n|  | 1 2 |\n| b | c |"
      = drawnTable ["a", ""] [["", "1 2"], ["b", "c"]] := by decide
  rw [hdrawn]
  exact (parse_drawnTable_iff (by decide) (by decide) (by decide) (by decide)).mpr (by decide)

/-- A row with nothing in any cell is no row of a table, and a table without rows is none: all three
lines stay a paragraph. -/
theorem parse_drawnTable_emptyRow :
    (∀ row ∈ [["a", "b"], ["", ""]], ∀ cell ∈ row, IsCell cell) ∧
      drawnTable ["a", "b"] [["", ""]] = "| a | b |\n|---|---|\n|  |  |" ∧
      parse (drawnTable ["a", "b"] [["", ""]]) = .ok {
        document := {
          sections := [{
            pageStart := some 1
            nodes := [.ofText "| a | b |\n|---|---|\n|  |  |"] }]
          settings := {} }
        diagnostics := [] } ∧
      parse (drawnTable ["a", "b"] [["", ""]]) ≠ .ok (tableReport ["a", "b"] [["", ""]]) := by
  have hcells : ∀ row ∈ [["a", "b"], ["", ""]], ∀ cell ∈ row, IsCell cell := by decide
  have hdrawn : drawnTable ["a", "b"] [["", ""]] = "| a | b |\n|---|---|\n|  |  |" := by decide
  have hsplit : splitTable? (drawnTable ["a", "b"] [["", ""]]) = none := by
    rw [← Option.isNone_iff_eq_none]
    decide +kernel
  have hparse : parse (drawnTable ["a", "b"] [["", ""]]) = .ok {
      document := {
        sections := [{
          pageStart := some 1
          nodes := [.ofText "| a | b |\n|---|---|\n|  |  |"] }]
        settings := {} }
      diagnostics := [] } := by
    have hpipe : (drawnTable ["a", "b"] [["", ""]]).toList
        = '|' :: " a | b |\n|---|---|\n|  |  |".toList := by
      rw [hdrawn]
      rfl
    have htables : tables [.ofText (drawnTable ["a", "b"] [["", ""]])]
        = [.ofText (drawnTable ["a", "b"] [["", ""]])] :=
      tables_eq_self (by simp [Node.ofText, hsplit])
    rw [drawnTable, parse_joined (by simp [drawnLines])
      fun line hline => isPlainLine_of_mem_drawnLines hcells hline, ← drawnTable,
      detect_of_pipe hpipe, htables, hdrawn]
  refine ⟨hcells, hdrawn, hparse, ?_⟩
  rw [hparse]
  simp [tableReport, Node.ofText]

end ReportPress.Markup
