import Mathlib.Data.List.Chain
import ReportPress.Proofs.Markup.ItemLine
import ReportPress.Proofs.Markup.OpenLists
import ReportPress.Proofs.Markup.Reader

/-!
# Lists are read as they are written

A list can be written in many ways: with four spaces or a tab for each step of indentation, with
one of two marks for its items, with any numbers but the first in an ordered list, and with blank
lines between the items.  All of them are read as the same list.

* `ItemList.IsWritable` — the lists that a source can express.
* `WritesList` — the lines that show a list.
* **`parse_of_writesList`** — a source made of such lines is read as a report that holds just the
  list.

The proof follows the lines.  Between two of them the reader holds a stack of open lists, and what
the stack stands for is the invariant `Settled`: with all deeper lists closed, the list whose
entries are being read, and the lists around it.  `reads_of_writesEntries` carries the invariant
over the entries of a list, by induction on the way they are written; a nested list is the same
statement one step further in.
-/

namespace ReportPress.Markup

open Text OpenLists

/-! ## Lists that a source can express -/

/-- The kind of a nested list, ordered or not; an item has none. -/
def kind? : Entry String → Option Bool
  | .item _ => none
  | .list style _ => some style.ordered

/-- Whether entries begin with an item. -/
def beginsWithItem : List (Entry String) → Bool
  | .item _ :: _ => true
  | _ => false

/-- A nested list right after a nested list has the other kind. -/
def MayFollow (before after : Entry String) : Prop :=
  kind? before = none ∨ kind? before ≠ kind? after

/-- Styles that can be written: lists with bullets are not counted, and the alternate style has no
marks of its own. -/
def IsWritableStyle (style : ListStyle) : Prop :=
  style.alternate = false ∧ (style.ordered = false → style.start = 1)

mutual

/-- Entries that can be written, with all that is nested in them. -/
def IsWritableEntry : Entry String → Prop
  | .item text => IsItemText text
  | .list style entries => IsWritableStyle style ∧ beginsWithItem entries = true ∧
      entries.IsChain MayFollow ∧ AreWritable entries

/-- Sequences of such entries. -/
def AreWritable : List (Entry String) → Prop
  | [] => True
  | e :: es => IsWritableEntry e ∧ AreWritable es

end

/-- Lists that a source can express: every list in them begins with an item, has the other kind if
it directly follows a nested list, is not counted if it has bullets and is not of the alternate
style, and every item holds words with single spaces between them. -/
def IsWritable (l : ItemList String) : Prop := IsWritableEntry l.toEntry

/-! ## Ways to write a list -/

/-- Marks for the first item of a list: they are of its kind and carry its start. -/
def ItemMark.Begins (m : ItemMark) (style : ListStyle) : Prop :=
  m.ordered = style.ordered ∧ ∀ n, m.number? = some n → style.start = n

/-- Lines that show the entries of a list at a depth, those after its first item.  Later items of
an ordered list carry any number. -/
inductive WritesEntries : Nat → Bool → List (Entry String) → List String → Prop
  | nil {depth : Nat} {ordered : Bool} : WritesEntries depth ordered [] []
  | item {depth : Nat} {ordered : Bool} {m : ItemMark} {text line : String}
      {blanks lines : List String} {entries : List (Entry String)} :
      (∀ b ∈ blanks, IsBlankLine b) → m.ordered = ordered → IsItemLine depth m text line →
      WritesEntries depth ordered entries lines →
      WritesEntries depth ordered (.item text :: entries) (blanks ++ line :: lines)
  | list {depth : Nat} {ordered : Bool} {style : ListStyle} {m : ItemMark} {text line : String}
      {blanks inner lines : List String} {inside entries : List (Entry String)} :
      (∀ b ∈ blanks, IsBlankLine b) → m.Begins style → IsItemLine (depth + 1) m text line →
      WritesEntries (depth + 1) style.ordered inside inner →
      WritesEntries depth ordered entries lines →
      WritesEntries depth ordered (.list style (.item text :: inside) :: entries)
        (blanks ++ line :: (inner ++ lines))

/-- Lines that show a list, the first of them its first item. -/
inductive WritesList : ItemList String → List String → Prop
  | intro {style : ListStyle} {m : ItemMark} {text line : String} {lines : List String}
      {entries : List (Entry String)} :
      m.Begins style → IsItemLine 0 m text line → WritesEntries 0 style.ordered entries lines →
      WritesList ⟨style, .item text :: entries⟩ (line :: lines)

/-! ## One line in a list -/

lemma ItemMark.isListMarker_marker (m : ItemMark) : m.marker.isListMarker = true := by
  cases m <;> rfl

lemma ItemMark.opensList?_marker (m : ItemMark) (text : String) :
    opensList? m.marker text = some (.ofItem m.ordered (m.number?.getD 1) text) := by
  cases m <;> rfl

lemma ItemMark.Begins.getD_number? {m : ItemMark} {style : ListStyle} (h : m.Begins style)
    (hstyle : IsWritableStyle style) : m.number?.getD 1 = style.start := by
  cases hn : m.number? with
  | none =>
      have hbullets : style.ordered = false := by rw [← h.1, ItemMark.ordered, hn]; rfl
      exact (hstyle.2 hbullets).symm
  | some n => exact (h.2 n hn).symm

variable {r : Reader} {opened : OpenLists} {blank : Bool}

lemma step_of_isBlankLine {line : String} (hr : r.place = .lists opened blank)
    (hline : IsBlankLine line) : r.step line = .ok { r with place := .lists opened true } := by
  obtain ⟨read, hread, bare, hbare, hblank⟩ := bare_of_isBlankLine fun c hc => (hline c hc).1
  simp only [Reader.step, hr, hread, hbare, bind, Except.bind, pure, Except.pure,
    Reader.stepInLists, hblank, if_true]

/-- Blank lines in a list are kept in mind and do nothing else. -/
lemma reads_blanks : ∀ {blanks : List String} {r : Reader} {blank : Bool},
    (∀ b ∈ blanks, IsBlankLine b) → r.place = .lists opened blank →
      ∃ blank', Reads r blanks { r with place := .lists opened blank' }
  | [], r, blank, _, hr => ⟨blank, by rw [← hr]; exact Reads.nil r⟩
  | b :: blanks, r, blank, h, hr => by
      have hb : IsBlankLine b := h b (by simp)
      have hblanks : ∀ b ∈ blanks, IsBlankLine b := fun b hb => h b (List.mem_cons_of_mem _ hb)
      obtain ⟨blank', hrest⟩ := reads_blanks hblanks
        (r := { r with place := .lists opened true }) rfl
      exact ⟨blank', Reads.cons (step_of_isBlankLine hr hb) hrest⟩

/-- Blank lines and an item after them: the stack changes as the item says. -/
lemma reads_item {depth : Nat} {m : ItemMark} {text line : String} {blanks : List String}
    {next : OpenLists} (hblanks : ∀ b ∈ blanks, IsBlankLine b) (htext : IsItemText text)
    (hline : IsItemLine depth m text line) (hr : r.place = .lists opened blank)
    (hplace : ∀ read : Line, read.depth = depth →
      place? read ⟨m.marker, text, 0⟩ opened = some next) :
    Reads r (blanks ++ [line]) { r with place := .lists next false } := by
  obtain ⟨blank', hbefore⟩ := reads_blanks hblanks hr
  obtain ⟨read, hread, hdepth, hbare⟩ := classify_of_isItemLine htext hline
  refine hbefore.append (Reads.cons ?_ (Reads.nil _))
  have hnot : Line.isBlank ⟨m.marker, text, 0⟩ = false := by cases m <;> rfl
  simp only [Reader.step, hread, hbare, bind, Except.bind, pure, Except.pure, Reader.stepInLists,
    hnot, m.isListMarker_marker, Bool.true_or, if_true, hplace read hdepth, Bool.false_eq_true,
    if_false]

/-! ## The entries of a list -/

/-- A list with more entries. -/
def pushAll (l : OpenList) (entries : List (Entry String)) : OpenList := entries.foldl .push l

lemma toList_pushAll : ∀ (l : OpenList) (entries : List (Entry String)),
    (pushAll l entries).toList = ⟨l.toList.style, l.toList.entries ++ entries⟩
  | l, [] => by simp [pushAll, OpenList.toList]
  | l, e :: entries => by
      have ih := toList_pushAll (l.push e) entries
      rw [pushAll, List.foldl_cons]
      rw [pushAll] at ih
      rw [ih]
      simp [OpenList.toList, OpenList.push]

@[simp] lemma ordered_pushAll (l : OpenList) (entries : List (Entry String)) :
    (pushAll l entries).ordered = l.ordered := by
  have h := congrArg (·.style.ordered) (toList_pushAll l entries)
  exact h

/-- The list that is read for an item and the entries after it. -/
lemma toList_pushAll_ofItem {m : ItemMark} {style : ListStyle} (hm : m.Begins style)
    (hstyle : IsWritableStyle style) (text : String) (entries : List (Entry String)) :
    (pushAll (.ofItem m.ordered (m.number?.getD 1) text) entries).toList
      = ⟨style, .item text :: entries⟩ := by
  have hplain : style = { ordered := style.ordered, start := style.start } := by
    cases style
    simpa using hstyle.1
  rw [toList_pushAll, hm.getD_number? hstyle, hm.1]
  simp only [OpenList.toList, OpenList.ofItem, List.reverse_singleton, List.singleton_append]
  rw [← hplain]

/-- What may stand first among the entries after a nested list of some kind. -/
def FirstMayFollow (after : Option Bool) (entries : List (Entry String)) : Prop :=
  ∀ e ∈ entries.head?, after = none ∨ after ≠ kind? e

/-- The invariant over the entries of a list: from a stack that stands for the list as it is, the
lines of the entries lead to a stack that stands for the list with the entries in it. -/
theorem reads_of_writesEntries {depth : Nat} {ordered : Bool} {entries : List (Entry String)}
    {lines : List String} (h : WritesEntries depth ordered entries lines) :
    ∀ {r : Reader} {opened : OpenLists} {blank : Bool} {after : Option Bool} {l : OpenList}
      {outer : List OpenList}, AreWritable entries → entries.IsChain MayFollow →
      FirstMayFollow after entries → Settled opened after l outer → outer.length = depth →
      l.ordered = ordered → r.place = .lists opened blank →
      ∃ opened' after' blank', Reads r lines { r with place := .lists opened' blank' } ∧
        Settled opened' after' (pushAll l entries) outer := by
  induction h with
  | nil =>
      intro r opened blank after l outer _ _ _ hsettled _ _ hr
      exact ⟨opened, after, blank, by rw [← hr]; exact Reads.nil r, hsettled⟩
  | @item depth ordered m text line blanks lines entries hblanks hkind hline _ ih =>
      intro r opened blank after l outer hwritable hchain _ hsettled hdepth hl hr
      obtain ⟨htext, hwritable⟩ := hwritable
      have hread : Reads r (blanks ++ [line])
          { r with place := .lists ⟨l.push (.item text), outer⟩ false } := by
        refine reads_item hblanks htext hline hr fun read hread => ?_
        exact hsettled.place?_item (hread.trans hdepth.symm) (m.opensList?_marker text)
          (hkind.trans hl.symm)
      obtain ⟨opened', after', blank', hrest, hsettled'⟩ :=
        ih (r := { r with place := .lists ⟨l.push (.item text), outer⟩ false })
          (l := l.push (.item text)) hwritable (List.isChain_cons.mp hchain).2
          (fun _ _ => Or.inl rfl) (Settled.here rfl) hdepth hl rfl
      refine ⟨opened', after', blank', ?_, hsettled'⟩
      simpa using hread.append hrest
  | @list depth ordered style m text line blanks inner lines inside entries hblanks hbegins hline
      _ _ ihinside ih =>
      intro r opened blank after l outer hwritable hchain hfirst hsettled hdepth hl hr
      obtain ⟨⟨hstyle, _, hchaininside, htext, hinside⟩, hwritable⟩ := hwritable
      set sub : OpenList := .ofItem m.ordered (m.number?.getD 1) text with hsub
      have hafter : after ≠ some sub.ordered := by
        have hne := hfirst _ rfl
        rcases hne with hne | hne
        · simp [hne]
        · rw [hsub]
          simpa [kind?, OpenList.ofItem, hbegins.1] using hne
      have hread :
          Reads r (blanks ++ [line]) { r with place := .lists ⟨sub, l :: outer⟩ false } := by
        refine reads_item hblanks htext hline hr fun read hread => ?_
        exact hsettled.place?_opens (hread.trans (by rw [hdepth])) (m.opensList?_marker text) hafter
      -- the nested list: the same statement one step further in
      obtain ⟨opened₁, after₁, blank₁, hread₁, hsettled₁⟩ :=
        ihinside (r := { r with place := .lists ⟨sub, l :: outer⟩ false }) hinside
          (List.isChain_cons.mp hchaininside).2 (fun _ _ => Or.inl rfl) (Settled.here rfl)
          (by rw [List.length_cons, hdepth]) hbegins.1 rfl
      have hclosed := hsettled₁.inside_of_closes
      have hlist : (pushAll sub inside).toList.toEntry = .list style (.item text :: inside) := by
        rw [hsub, toList_pushAll_ofItem hbegins hstyle]
        rfl
      rw [hlist, ordered_pushAll] at hclosed
      have hnext : FirstMayFollow (some sub.ordered) entries := by
        intro e he
        rcases (List.isChain_cons.mp hchain).1 e he with hnone | hne
        · simp [kind?] at hnone
        · right
          rw [hsub]
          simpa [kind?, OpenList.ofItem, hbegins.1] using hne
      obtain ⟨opened₂, after₂, blank₂, hread₂, hsettled₂⟩ :=
        ih (r := { r with place := .lists opened₁ blank₁ })
          (l := l.push (.list style (.item text :: inside))) hwritable
          (List.isChain_cons.mp hchain).2 hnext hclosed hdepth hl rfl
      refine ⟨opened₂, after₂, blank₂, ?_, hsettled₂⟩
      simpa using hread.append (hread₁.append hread₂)

/-! ## Whole sources -/

/-- A line without the carriage return that may stand at its end. -/
def withoutReturn (line : String) : String := String.ofList (dropEnd '\r' line.toList)

lemma IsItemLine.withoutReturn_eq {depth : Nat} {m : ItemMark} {text line : String}
    (htext : IsItemText text) (h : IsItemLine depth m text line) : withoutReturn line = line := by
  have hmem : '\r' ∉ line.toList := h.not_mem htext (by decide) (by decide) (by decide)
  rw [withoutReturn, dropEnd_of_not_mem hmem, String.ofList_toList]

lemma isBlankLine_withoutReturn {b : String} (h : IsBlankLine b) :
    IsBlankLine (withoutReturn b) := by
  intro c hc
  rw [withoutReturn, String.toList_ofList] at hc
  exact h c (mem_of_mem_dropEnd hc)

lemma isBlankLine_map_withoutReturn {blanks : List String} (h : ∀ b ∈ blanks, IsBlankLine b) :
    ∀ b ∈ blanks.map withoutReturn, IsBlankLine b := by
  intro b hb
  obtain ⟨b, hmem, rfl⟩ := List.mem_map.mp hb
  exact isBlankLine_withoutReturn (h b hmem)

/-- Lines still show the same entries when carriage returns at their ends are dropped. -/
lemma WritesEntries.map_withoutReturn {depth : Nat} {ordered : Bool}
    {entries : List (Entry String)} {lines : List String}
    (h : WritesEntries depth ordered entries lines) (hwritable : AreWritable entries) :
    WritesEntries depth ordered entries (lines.map withoutReturn) := by
  induction h with
  | nil => exact .nil
  | item hblanks hkind hline _ ih =>
      obtain ⟨htext, hrest⟩ := hwritable
      rw [List.map_append, List.map_cons, hline.withoutReturn_eq htext]
      exact .item (isBlankLine_map_withoutReturn hblanks) hkind hline (ih hrest)
  | list hblanks hbegins hline _ _ ihinside ih =>
      obtain ⟨⟨_, _, _, htext, hinside⟩, hrest⟩ := hwritable
      rw [List.map_append, List.map_cons, List.map_append, hline.withoutReturn_eq htext]
      exact .list (isBlankLine_map_withoutReturn hblanks) hbegins hline (ihinside hinside)
        (ih hrest)

lemma WritesEntries.not_mem {depth : Nat} {ordered : Bool} {entries : List (Entry String)}
    {lines : List String} (h : WritesEntries depth ordered entries lines)
    (hwritable : AreWritable entries) : ∀ line ∈ lines, '\n' ∉ line.toList := by
  have hblank {b : String} (hb : IsBlankLine b) : '\n' ∉ b.toList := fun e => (hb _ e).2 rfl
  induction h with
  | nil => simp
  | item hblanks _ hline _ ih =>
      obtain ⟨htext, hrest⟩ := hwritable
      intro line hmem
      rcases List.mem_append.mp hmem with hmem | hmem
      · exact hblank (hblanks line hmem)
      · rcases List.mem_cons.mp hmem with rfl | hmem
        · exact hline.not_mem htext (by decide) (by decide) (by decide)
        · exact ih hrest line hmem
  | list hblanks _ hline _ _ ihinside ih =>
      obtain ⟨⟨_, _, _, htext, hinside⟩, hrest⟩ := hwritable
      intro line hmem
      rcases List.mem_append.mp hmem with hmem | hmem
      · exact hblank (hblanks line hmem)
      · rcases List.mem_cons.mp hmem with rfl | hmem
        · exact hline.not_mem htext (by decide) (by decide) (by decide)
        · rcases List.mem_append.mp hmem with hmem | hmem
          · exact ihinside hinside line hmem
          · exact ih hrest line hmem

/-- A list is all that is read of lines that show it. -/
theorem parse_of_writesList {l : ItemList String} {lines : List String} (hl : IsWritable l)
    (h : WritesList l lines) :
    parse (joined "\n" lines) = .ok {
      document := { sections := [{ pageStart := some 1, nodes := [.list l] }], settings := {} }
      diagnostics := [] } := by
  cases h with
  | @intro style m text line rest entries hbegins hline hentries =>
      obtain ⟨hstyle, _, hchain, htext, hwritable⟩ := hl
      have hnot : ∀ line' ∈ line :: rest, '\n' ∉ line'.toList := by
        intro line' hmem
        rcases List.mem_cons.mp hmem with rfl | hmem
        · exact hline.not_mem htext (by decide) (by decide) (by decide)
        · exact hentries.not_mem hwritable line' hmem
      have hlines : sourceLines (joined "\n" (line :: rest)) = line :: rest.map withoutReturn := by
        rw [sourceLines_joined (by simp) hnot, List.map_cons]
        exact congrArg (· :: _) (hline.withoutReturn_eq htext)
      -- the first line opens the list
      set sub : OpenList := .ofItem m.ordered (m.number?.getD 1) text with hsub
      have hfirst : Reader.step {} line = .ok { place := .lists (.single sub) false } := by
        simp only [Reader.step, classify_of_isItemLine_zero htext hline, bind, Except.bind, pure,
          Except.pure]
        cases m <;> rfl
      obtain ⟨opened, after, blank, hread, hsettled⟩ :=
        reads_of_writesEntries (hentries.map_withoutReturn hwritable)
          (r := { place := .lists (.single sub) false }) hwritable (List.isChain_cons.mp hchain).2
          (fun _ _ => Or.inl rfl) (Settled.here rfl) rfl hbegins.1 rfl
      have hrun : Reads {} (sourceLines (joined "\n" (line :: rest)))
          { place := .lists opened blank } := by
        rw [hlines]
        exact Reads.cons hfirst hread
      have hclose : opened.close = ⟨style, .item text :: entries⟩ := by
        rw [hsettled.close, hsub, toList_pushAll_ofItem hbegins hstyle]
      rw [parse_of_reads hrun]
      simp only [Reader.finish, Reader.closeLists, Reader.push, hclose]
      rfl

/-- Lists of both kinds, three deep, with a blank line between two items. -/
theorem parse_of_writesList_nested :
    parse (joined "\n" ["3. one", " \t ", "\t* two words", "    \t7) ", "9) last"]) = .ok {
      document := {
        sections := [{ pageStart := some 1, nodes := [.list ⟨{ ordered := true, start := 3 },
          [.item "one",
            .list { ordered := false }
              [.item "two words", .list { ordered := true, start := 7 } [.item ""]],
            .item "last"]⟩] }]
        settings := {} }
      diagnostics := [] } := by
  have hone : IsItemText "one" := ⟨["one".toList], by decide, rfl⟩
  have htwo : IsItemText "two words" := ⟨["two".toList, "words".toList], by decide, rfl⟩
  have hempty : IsItemText "" := ⟨[], by simp, rfl⟩
  have hlast : IsItemText "last" := ⟨["last".toList], by decide, rfl⟩
  have hwritable : IsWritable ⟨{ ordered := true, start := 3 }, [.item "one",
      .list { ordered := false }
        [.item "two words", .list { ordered := true, start := 7 } [.item ""]],
      .item "last"]⟩ := by
    refine ⟨⟨rfl, by decide⟩, rfl, ?_, hone, ⟨⟨rfl, by decide⟩, rfl, ?_, htwo, ?_, trivial⟩, hlast,
      trivial⟩
    · simp [MayFollow, kind?]
    · simp [MayFollow, kind?]
    · exact ⟨⟨rfl, by decide⟩, rfl, by simp, hempty, trivial⟩
  have hnone : ∀ b ∈ ([] : List String), IsBlankLine b := by simp
  have hsome : ∀ b ∈ [" \t "], IsBlankLine b := by decide
  have hinner : WritesEntries 1 false [.list { ordered := true, start := 7 } [.item ""]]
      ["    \t7) "] :=
    .list (m := .parenthesis 7) hnone ⟨rfl, by simp [ItemMark.number?]⟩
      ⟨[.spaces, .tab], rfl, rfl⟩ .nil .nil
  have hafter : WritesEntries 0 true [.item "last"] ["9) last"] :=
    .item (m := .parenthesis 9) hnone rfl ⟨[], rfl, rfl⟩ .nil
  have hentries : WritesEntries 0 true
      [.list { ordered := false }
        [.item "two words", .list { ordered := true, start := 7 } [.item ""]], .item "last"]
      ([" \t "] ++ "\t* two words" :: (["    \t7) "] ++ ["9) last"])) :=
    .list (m := .star) hsome ⟨rfl, by simp [ItemMark.number?]⟩ ⟨[.tab], rfl, rfl⟩ hinner hafter
  exact parse_of_writesList hwritable
    (.intro (m := .point 3) ⟨rfl, by simp [ItemMark.number?]⟩ ⟨[], rfl, rfl⟩ hentries)

end ReportPress.Markup
