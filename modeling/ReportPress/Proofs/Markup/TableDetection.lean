import ReportPress.Proofs.Markup.Detection

/-!
# Tables among paragraphs

The pass for tables goes through the nodes once and takes back what it has put out: the paragraph
before a table, which may be what an earlier table has left over, becomes its caption.  Here is what
it makes of the nodes, said without the taking back.

* `TableLines` — the lines of a table: its header, a row of dashes, its rows, and those left over.
* `TableLines.AreIn` — the lines of a text are those of a table.  The rows go as far as the lines
  have the columns of the dashes.
* `Detects` — what becomes of nodes.  A paragraph waits until it is known what stands behind it.

**One text.**  `splitTable?_eq_some_iff` — a text is split as its lines say, and the lines say it in
one way only.

**All nodes.**  `foldl_pushNode_of_detects`, by induction over what becomes of the nodes, and
`exists_detects`, by induction over the nodes.  **`detects_iff_tables`**: the pass makes of the
nodes what becomes of them and nothing else.
-/

namespace ReportPress.Markup

open Text

/-! ## The lines of a table -/

/-- The lines of a table in order, with the number of its columns. -/
structure TableLines where
  header : List Char
  dashes : List Char
  body : List (List Char)
  /-- The lines behind the last row. -/
  left : List (List Char)
  columns : Nat

namespace TableLines

/-- The lines of a text are those of a table: each line has as many cells as the row of dashes, but
for the first of those that are left over. -/
structure AreIn (l : TableLines) (text : String) : Prop where
  lines : splitOn '\n' text.toList = l.header :: l.dashes :: (l.body ++ l.left)
  dashes : ∀ cell ∈ splitOn '|' (rowText l.dashes), isDashes cell = true
  columns : (splitOn '|' (rowText l.dashes)).length = l.columns
  two : 2 ≤ l.columns
  filled : l.body ≠ []
  fits : ∀ line ∈ l.header :: l.body, (cells line).length = l.columns
  ends : ∀ line ∈ l.left.head?, (cells line).length ≠ l.columns

/-- The rows of the table: the trimmed cells of its header and of the lines below the dashes. -/
def rows (l : TableLines) : List (List (Node String)) :=
  (l.header :: l.body).map fun line => Node.textRow ((cells line).map String.ofList)

/-- The lines that are left over as a paragraph, if there are any. -/
def leftOver (l : TableLines) : Option (Paragraph String) :=
  if l.left = [] then none else some { text := String.ofList (joinWith ['\n'] l.left) }

/-- A table has a header and a row at least, and its rows have as many cells as it has columns. -/
lemma AreIn.rows_length {l : TableLines} {text : String} (h : l.AreIn text) :
    2 ≤ l.rows.length ∧ ∀ row ∈ l.rows, row.length = l.columns := by
  constructor
  · have hpos := List.length_pos_iff.mpr h.filled
    rw [rows, List.length_map, List.length_cons]
    omega
  · intro row hrow
    obtain ⟨line, hline, rfl⟩ := List.mem_map.mp hrow
    rw [Node.textRow, List.length_map, List.length_map]
    exact h.fits line hline

end TableLines

variable {l : TableLines} {text : String} {p : Paragraph String} {node : Node String}
variable {nodes out before : List (Node String)} {waiting : Option (Paragraph String)}

/-- A separator announces the columns that it has. -/
lemma separatorColumns?_eq_some_iff {line : List Char} {columns : Nat} :
    separatorColumns? line = some columns ↔
      (∀ cell ∈ splitOn '|' (rowText line), isDashes cell = true) ∧
        (splitOn '|' (rowText line)).length = columns ∧ 2 ≤ columns := by
  rw [separatorColumns?]
  split_ifs with h
  · obtain ⟨htwo, hdashes⟩ := h
    rw [Option.some.injEq]
    constructor
    · rintro rfl
      exact ⟨List.all_eq_true.mp hdashes, rfl, htwo⟩
    · exact fun h => h.2.1
  · constructor
    · intro hnone
      cases hnone
    · rintro ⟨hdashes, hlength, htwo⟩
      exact absurd ⟨hlength ▸ htwo, List.all_eq_true.mpr hdashes⟩ h

/-- A text is split into a table and what is left over exactly as its lines say. -/
theorem splitTable?_eq_some_iff {rows : List (List (Node String))} {rest : Option String} :
    splitTable? text = some (rows, rest) ↔
      ∃ l : TableLines, l.AreIn text ∧ rows = l.rows ∧ rest = l.leftOver.map Paragraph.text := by
  constructor
  · intro h
    unfold splitTable? at h
    split at h
    case h_2 => cases h
    case h_1 header dashes body hlines =>
      split at h
      case h_1 => cases h
      case h_2 columns hcolumns =>
        extract_lets fits taken left at h
        split_ifs at h with hfits hleft
        all_goals
          obtain ⟨hheader, htaken⟩ := hfits
          obtain ⟨hrows, hrest⟩ := Prod.mk.inj (Option.some.inj h)
          obtain ⟨hdashes, hlength, htwo⟩ := separatorColumns?_eq_some_iff.mp hcolumns
          have hbody : taken ++ left = body := List.takeWhile_append_dropWhile
          refine ⟨⟨header, dashes, taken, left, columns⟩,
            ⟨?_, hdashes, hlength, htwo, htaken, ?_, ?_⟩, hrows.symm, ?_⟩
          · rw [hlines, hbody]
          · intro line hline
            rcases List.mem_cons.mp hline with rfl | hline
            · exact beq_iff_eq.mp hheader
            · have hfit : fits line = true := List.mem_takeWhile_imp hline
              exact beq_iff_eq.mp hfit
          · intro line hline heq
            have hnot := List.head?_dropWhile_not fits body
            rw [Option.mem_def.mp hline] at hnot
            simp [fits, heq] at hnot
        · rw [← hrest, TableLines.leftOver, if_pos (List.isEmpty_iff.mp hleft)]
          rfl
        · rw [← hrest, TableLines.leftOver, if_neg (List.isEmpty_iff.not.mp hleft)]
          rfl
  · rintro ⟨l, h, rfl, rfl⟩
    have hcolumns : separatorColumns? l.dashes = some l.columns :=
      separatorColumns?_eq_some_iff.mpr ⟨h.dashes, h.columns, h.two⟩
    have hbody : ∀ line ∈ l.body, ((cells line).length == l.columns) = true :=
      fun line hline => beq_iff_eq.mpr (h.fits line (List.mem_cons_of_mem _ hline))
    have hheader : ((cells l.header).length == l.columns) = true :=
      beq_iff_eq.mpr (h.fits l.header List.mem_cons_self)
    -- No line that is left over is taken, as the first of them is not.
    have hleft : l.left.takeWhile (fun line => (cells line).length == l.columns) = [] ∧
        l.left.dropWhile (fun line => (cells line).length == l.columns) = l.left := by
      cases hlines : l.left with
      | nil => exact ⟨rfl, rfl⟩
      | cons line more =>
          have hne : ((cells line).length == l.columns) = false :=
            beq_eq_false_iff_ne.mpr (h.ends line (by simp [hlines]))
          exact ⟨by simp [hne], by simp [hne]⟩
    have htaken : (l.body ++ l.left).takeWhile (fun line => (cells line).length == l.columns)
        = l.body := by
      rw [List.takeWhile_append_of_pos hbody, hleft.1, List.append_nil]
    have hrest : (l.body ++ l.left).dropWhile (fun line => (cells line).length == l.columns)
        = l.left := by
      rw [List.dropWhile_append_of_pos hbody, hleft.2]
    unfold splitTable?
    rw [h.lines]
    simp only [hcolumns, htaken, hrest]
    rw [if_pos ⟨hheader, h.filled⟩, TableLines.leftOver]
    split_ifs with hempty hempty' hempty'
    · rfl
    · exact absurd (List.isEmpty_iff.mp hempty) hempty'
    · exact absurd (List.isEmpty_iff.mpr hempty') hempty
    · rfl

lemma splitTable?_of_areIn (h : l.AreIn text) :
    splitTable? text = some (l.rows, l.leftOver.map Paragraph.text) :=
  splitTable?_eq_some_iff.mpr ⟨l, h, rfl, rfl⟩

lemma splitTable?_eq_none_iff : splitTable? text = none ↔ ∀ l : TableLines, ¬ l.AreIn text := by
  constructor
  · intro h l hl
    rw [splitTable?_of_areIn hl] at h
    cases h
  · intro h
    cases hsplit : splitTable? text with
    | none => rfl
    | some parts =>
        obtain ⟨l, hl, -⟩ := splitTable?_eq_some_iff.mp hsplit
        exact absurd hl (h l)

/-! ## What becomes of nodes -/

/-- The first of the nodes is a paragraph with the lines of a table. -/
def BeginWithTable (nodes : List (Node String)) : Prop :=
  ∃ p rest, ∃ l : TableLines, nodes = .text p :: rest ∧ l.AreIn p.text

/-- What becomes of nodes, and of a paragraph that waits before them. -/
inductive Detects : Option (Paragraph String) → List (Node String) → List (Node String) → Prop
  | done : Detects none [] []
  /-- A node that is no paragraph stays. -/
  | block {node : Node String} {nodes out : List (Node String)} (h : ∀ p, node ≠ .text p) :
      Detects none nodes out → Detects none (node :: nodes) (node :: out)
  /-- A paragraph that is no table waits for what stands behind it. -/
  | wait {p : Paragraph String} {nodes out : List (Node String)}
      (h : ∀ l : TableLines, ¬ l.AreIn p.text) :
      Detects (some p) nodes out → Detects none (.text p :: nodes) out
  /-- It stays, unless there is a table right behind it. -/
  | stay {p : Paragraph String} {nodes out : List (Node String)} (h : ¬ BeginWithTable nodes) :
      Detects none nodes out → Detects (some p) nodes (.text p :: out)
  /-- A paragraph that is a table becomes that.  The one that waits is the caption, and the lines
  that are left over wait in turn. -/
  | table {waiting : Option (Paragraph String)} {p : Paragraph String} {l : TableLines}
      {nodes out : List (Node String)} (h : l.AreIn p.text) :
      Detects l.leftOver nodes out → Detects waiting (.text p :: nodes)
        (.table (waiting.map Paragraph.text) l.rows false :: out)

/-- Nodes, newest first, with the paragraph that waits behind them. -/
def withWaiting (waiting : Option (Paragraph String)) (before : List (Node String)) :
    List (Node String) :=
  (waiting.map Node.text).toList ++ before

/-- A table takes the paragraph that waits, if no other stands before it. -/
lemma takeCaption_withWaiting
    (h : waiting = none → ∀ p, before.head? ≠ some (.text p)) :
    takeCaption (withWaiting waiting before) = (waiting.map Paragraph.text, before) := by
  cases waiting with
  | some p => rfl
  | none =>
      cases before with
      | nil => rfl
      | cons node rest =>
          cases node with
          | text p => exact absurd rfl (h rfl p)
          | _ => rfl

lemma pushNode_of_areIn (h : l.AreIn p.text) :
    pushNode before (.text p) = withWaiting l.leftOver
      (.table (takeCaption before).1 l.rows false :: (takeCaption before).2) := by
  simp only [pushNode, splitTable?_of_areIn h]
  cases hleft : l.leftOver with
  | none => rfl
  | some q =>
      have hq : Node.ofText q.text = .text q := by
        rw [TableLines.leftOver] at hleft
        split_ifs at hleft
        rw [← Option.some.inj hleft, Node.ofText]
      simp only [Option.map_some, hq]
      rfl

/-- The pass puts out what becomes of the nodes.  No paragraph stands at the end of what has been
put out before, unless one waits or no table comes next. -/
lemma foldl_pushNode_of_detects (h : Detects waiting nodes out) : ∀ {before : List (Node String)},
    (waiting = none → BeginWithTable nodes → ∀ p, before.head? ≠ some (.text p)) →
      nodes.foldl pushNode (withWaiting waiting before) = out.reverse ++ before := by
  induction h with
  | done => exact fun _ => rfl
  | @block node nodes out hnode _ ih =>
      intro before _
      have hpush : pushNode before node = node :: before :=
        pushNode_eq_cons fun p hp => absurd hp (hnode p)
      have hrest := @ih (node :: before) fun _ _ p hp => hnode p (Option.some.inj hp)
      rw [List.reverse_cons, List.append_assoc, List.singleton_append, ← hrest, ← hpush]
      rfl
  | @wait p nodes out hp _ ih =>
      intro before _
      have hpush : pushNode before (.text p) = .text p :: before :=
        pushNode_eq_cons fun q hq => by
          rw [← Node.text.inj hq]
          exact splitTable?_eq_none_iff.mpr hp
      have hrest := @ih before fun hnone => nomatch hnone
      rw [← hrest, List.foldl_cons]
      exact congrArg (nodes.foldl pushNode) hpush
  | @stay p nodes out hnodes _ ih =>
      intro before _
      rw [List.reverse_cons, List.append_assoc, List.singleton_append,
        ← @ih (.text p :: before) fun _ htable => absurd htable hnodes]
      rfl
  | @table waiting p l nodes out hp _ ih =>
      intro before hbefore
      have htake := takeCaption_withWaiting fun hnone => hbefore hnone ⟨p, nodes, l, rfl, hp⟩
      have hrest := @ih (.table (waiting.map Paragraph.text) l.rows false :: before)
        fun _ _ q hq => nomatch Option.some.inj hq
      rw [List.foldl_cons, pushNode_of_areIn hp, htake, hrest]
      simp

/-- Something becomes of all nodes, whatever waits before them. -/
lemma exists_detects : ∀ (nodes : List (Node String)) (waiting : Option (Paragraph String)),
    ∃ out, Detects waiting nodes out := by
  -- A paragraph stays where no table begins, so that only the other cases are left.
  have hstay {nodes : List (Node String)} (hnot : ¬ BeginWithTable nodes)
      (h : ∃ out, Detects none nodes out) (waiting : Option (Paragraph String)) :
      ∃ out, Detects waiting nodes out := by
    cases waiting with
    | none => exact h
    | some p => exact h.imp' (.text p :: ·) fun out hout => hout.stay hnot
  intro nodes
  induction nodes with
  | nil => exact hstay (fun ⟨_, _, _, h, _⟩ => nomatch h) ⟨[], .done⟩
  | cons node nodes ih =>
      by_cases htable : BeginWithTable (node :: nodes)
      · intro waiting
        obtain ⟨p, rest, l, h, hp⟩ := htable
        obtain ⟨rfl, rfl⟩ := List.cons.inj h
        exact (ih l.leftOver).imp' _ fun out hout => hout.table hp
      · refine hstay htable ?_
        cases node with
        | text p =>
            have hp : ∀ l : TableLines, ¬ l.AreIn p.text :=
              fun l hl => htable ⟨p, nodes, l, rfl, hl⟩
            exact (ih (some p)).imp fun out hout => hout.wait hp
        | _ => exact (ih none).imp' _ fun out hout => hout.block (by simp)

/-- Nodes that are no paragraphs are all kept, in their order. -/
lemma Detects.sublist (h : Detects waiting nodes out) :
    (nodes.filter fun node => !isRecognized some node).Sublist out := by
  induction h with
  | done => exact List.Sublist.refl _
  | @block node _ _ hnode _ ih =>
      have hkept : isRecognized some node = false := by
        cases node with
        | text p => exact absurd rfl (hnode p)
        | _ => rfl
      rw [List.filter_cons_of_pos (by simp [hkept])]
      exact ih.cons_cons _
  | wait _ _ ih => exact ih
  | stay _ _ ih => exact ih.cons _
  | table _ _ ih => exact ih.cons _

/-- The pass for tables makes of the nodes what becomes of them, and nothing else.  What is no
paragraph is kept in its order, and every table has two rows at least, all with the columns of its
dashes, of which there are two at least. -/
theorem detects_iff_tables (nodes : List (Node String)) :
    (∀ out, Detects none nodes out ↔ out = tables nodes) ∧
      (nodes.filter fun node => !isRecognized some node).Sublist (tables nodes) ∧
      ∀ (l : TableLines) (text : String), l.AreIn text →
        2 ≤ l.columns ∧ 2 ≤ l.rows.length ∧ ∀ row ∈ l.rows, row.length = l.columns := by
  have htables : ∀ {out : List (Node String)}, Detects none nodes out → out = tables nodes := by
    intro out h
    have hfold : nodes.foldl pushNode [] = out.reverse ++ [] :=
      @foldl_pushNode_of_detects _ _ _ h [] fun _ _ p hp => nomatch hp
    rw [tables, hfold, List.append_nil, List.reverse_reverse]
  obtain ⟨out, hout⟩ := exists_detects nodes none
  have hself : Detects none nodes (tables nodes) := htables hout ▸ hout
  refine ⟨fun out => ⟨htables, ?_⟩, hself.sublist, fun l text h => ⟨h.two, h.rows_length⟩⟩
  rintro rfl
  exact hself

/-- The lines of a table with a line behind its last row. -/
def notedTable : TableLines where
  header := "a|b".toList
  dashes := "-|-".toList
  body := ["1|2".toList]
  left := ["rest".toList]
  columns := 2

/-- The lines of a table and nothing else. -/
def bareTable : TableLines where
  header := "c|d".toList
  dashes := "-|-".toList
  body := ["3|4".toList]
  left := []
  columns := 2

lemma notedTable_areIn : notedTable.AreIn "a|b\n-|-\n1|2\nrest" where
  lines := rfl
  dashes := by decide
  columns := rfl
  two := by decide
  filled := by decide
  fits := by decide
  ends := by decide

lemma bareTable_areIn : bareTable.AreIn "c|d\n-|-\n3|4" where
  lines := rfl
  dashes := by decide
  columns := rfl
  two := by decide
  filled := by decide
  fits := by decide
  ends := by decide

/-- What the first of two tables leaves over is the caption of the second. -/
theorem tables_notedTable_bareTable :
    tables [.ofText "a|b\n-|-\n1|2\nrest", .ofText "c|d\n-|-\n3|4"]
        = [.table none notedTable.rows false, .table "rest" bareTable.rows false] ∧
      2 ≤ notedTable.rows.length := by
  obtain ⟨hall, -, hrows⟩ :=
    detects_iff_tables [.ofText "a|b\n-|-\n1|2\nrest", .ofText "c|d\n-|-\n3|4"]
  refine ⟨((hall _).mp ?_).symm, (hrows _ _ notedTable_areIn).2.1⟩
  have hlast : Detects notedTable.leftOver [.ofText "c|d\n-|-\n3|4"]
      [.table "rest" bareTable.rows false] :=
    Detects.table bareTable_areIn .done
  exact Detects.table notedTable_areIn hlast

end ReportPress.Markup
