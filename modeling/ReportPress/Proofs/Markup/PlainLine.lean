import ReportPress.Proofs.Markup.FirstWord

/-!
# Sources of plain lines

Lines without any marker are the lines of one paragraph, and the passes over the nodes see that
paragraph alone.  Directives and tables are written this way.

* `IsPlainLine` — a line that is read as it stands: no marker, no white space at its ends.
* `wordMarker?_eq_none` — words that mark no line: they hold a character that no keyword has, and
  begin with neither a number sign nor a digit.
* `parse_joined` — **a source of plain lines is read as what the passes make of one paragraph.**
-/

namespace ReportPress.Markup

open Text

/-- A line that is read as it stands. -/
structure IsPlainLine (line : String) : Prop where
  classify : classify line = .ok ⟨.plain, line, 0⟩
  ne_empty : line ≠ ""
  oneLine : '\n' ∉ line.toList

variable {line text : String} {lines : List String}

/-! ## Words -/

/-- A number has nothing but digits. -/
lemma orderedIndex?_eq_none {word : List Char} {c : Char} (hhead : word.head? = some c)
    (hdigit : c.isDigit = false) : orderedIndex? word = none := by
  rw [orderedIndex?]
  split_ifs with hlast
  · cases word with
    | nil => simp at hhead
    | cons d ds =>
        have hd : d.isDigit = false := by rwa [Option.some.inj hhead]
        have hnot : ¬ ((d :: ds).dropLast ≠ [] ∧ (d :: ds).dropLast.all Char.isDigit = true ∧
            digitsValue (d :: ds).dropLast < UInt32.size) := by
          rintro ⟨hne, hall, -⟩
          cases ds with
          | nil => exact hne rfl
          | cons e ds => simp [hd] at hall
        rw [number?, if_neg hnot]
  · rfl

/-- A word with a character that no keyword has is a keyword in no case. -/
lemma lower_ne_of_mem {w : List Char} {keyword : String} {mark : Char} (hw : mark ∈ w)
    (hk : mark.toLower ∉ keyword.toList) : String.ofList (w.map Char.toLower) ≠ keyword := by
  rintro rfl
  apply hk
  rw [String.toList_ofList]
  exact List.mem_map_of_mem hw

/-- A word that begins with neither a number sign nor a digit and is no keyword marks no line. -/
lemma wordMarker?_eq_none {word : List Char} {mark c : Char} (hmark : mark ∈ word)
    (hkeyword : ∀ keyword ∈ ["*", "-", "!!section", "!!rule"], mark.toLower ∉ keyword.toList)
    (hhead : word.head? = some c) (hsharp : c ≠ '#') (hdigit : c.isDigit = false)
    (text : List Char) : wordMarker? word text = .ok none := by
  have hkey : ∀ keyword ∈ ["*", "-", "!!section", "!!rule"],
      String.ofList (word.map Char.toLower) ≠ keyword :=
    fun keyword hk => lower_ne_of_mem hmark (hkeyword keyword hk)
  have hnosharp : ¬ (word ≠ [] ∧ word.all (· = '#') = true) := by
    rintro ⟨-, hall⟩
    exact hsharp (by simpa using List.all_eq_true.mp hall c (List.mem_of_mem_head? hhead))
  rw [wordMarker?]
  simp only [hkey "*" (by simp), hkey "-" (by simp), hkey "!!section" (by simp),
    hkey "!!rule" (by simp), or_self, if_false, if_neg hnosharp,
    orderedIndex?_eq_none hhead hdigit, Option.map_none]

/-! ## First words -/

/-- Only white space indents a line. -/
lemma unindent_of_head {cs : List Char} {c : Char} (h : cs.head? = some c)
    (hc : isBlank c = false) : unindent cs = (0, cs) := by
  have hhead : ∀ d, cs.head? = some d → isBlank d = false := by
    intro d hd
    rw [h, Option.some.injEq] at hd
    rwa [← hd]
  exact unindent_units hhead []

/-- A line that begins with a word begins with its first word. -/
lemma exists_firstWord_eq {w rest : List Char} (hw : IsWord w) (h : line.toList = w ++ rest) :
    ∃ more, firstWord line = w ++ more := by
  obtain ⟨more, ws, hwords⟩ := exists_words_append hw rest
  refine ⟨more, ?_⟩
  cases w with
  | nil => exact absurd rfl hw.1
  | cons c w =>
      have hhead : line.toList.head? = some c := by rw [h]; rfl
      have hblank : isBlank c = false := hw.2 c List.mem_cons_self
      rw [firstWord, unindent_of_head hhead hblank, if_pos rfl, h, hwords, List.headD_cons]

/-! ## Lines of a source -/

/-- A trimmed line ends in no carriage return that could be taken off. -/
lemma ofList_dropEnd_of_trimmed (h : trimmed line = line) :
    String.ofList (dropEnd '\r' line.toList) = line := by
  have hlast : line.toList.getLast? ≠ some '\r' := by
    intro hlast
    rw [← h, trimmed, String.toList_ofList] at hlast
    exact absurd (getLast_trim hlast) (by decide)
  rw [dropEnd, if_neg hlast, String.ofList_toList]

/-- Trimmed lines are the lines of the source that they make up. -/
lemma sourceLines_of_trimmed (hne : lines ≠ [])
    (h : ∀ line ∈ lines, trimmed line = line ∧ '\n' ∉ line.toList) :
    sourceLines (joined "\n" lines) = lines := by
  rw [sourceLines_joined hne fun line hline => (h line hline).2]
  conv_rhs => rw [← List.map_id lines]
  exact List.map_congr_left fun line hline => ofList_dropEnd_of_trimmed (h line hline).1

@[simp] lemma joined_singleton (sep : String) : joined sep [line] = line := by
  simp [joined, joinWith]

/-! ## Paragraphs -/

namespace IsPlainLine

lemma trimmed_eq (h : IsPlainLine line) : trimmed line = line :=
  (text_of_classify h.classify (Or.inl rfl)).symm

lemma isEmpty_eq (h : IsPlainLine line) : line.isEmpty = false := by
  rw [← Bool.not_eq_true, String.isEmpty_iff]
  exact h.ne_empty

/-- A plain line begins a paragraph. -/
lemma step_eq (h : IsPlainLine line) :
    Reader.step {} line = .ok { newest := [.ofText line] } := by
  simp only [Reader.step, h.classify, bind, Except.bind, pure, Except.pure, Reader.take,
    Reader.pushText, Reader.push, h.trimmed_eq]

end IsPlainLine

/-- Plain lines go on with the paragraph before them. -/
lemma reads_of_plain : ∀ {lines : List String} {text : String}, text ≠ "" →
    (∀ line ∈ lines, IsPlainLine line) →
      Reads { newest := [.ofText text] } lines { newest := [.ofText (joined "\n" (text :: lines))] }
  | [], text, _, _ => by
      rw [joined_singleton]
      exact Reads.nil _
  | line :: lines, text, htext, hlines => by
      have hline : IsPlainLine line := hlines line List.mem_cons_self
      have hempty : text.isEmpty = false := by simpa [← Bool.not_eq_true] using htext
      have hjoin : joined "\n" (text :: line :: lines)
          = joined "\n" ((text ++ "\n" ++ line) :: lines) := by
        cases lines with
        | nil => simp [joined, joinWith]
        | cons next lines => simp [joined, joinWith]
      have hstep : Reader.step { newest := [.ofText text] } line
          = .ok { newest := [.ofText (text ++ "\n" ++ line)] } := by
        rw [step_of_plain (p := { text }) rfl rfl hline.classify hempty
          (by rw [hline.trimmed_eq, hline.isEmpty_eq]), hline.trimmed_eq]
        rfl
      rw [hjoin]
      exact Reads.cons hstep
        (reads_of_plain (by simp) fun l hl => hlines l (List.mem_cons_of_mem _ hl))

/-- A source of plain lines is read as what the passes make of one paragraph. -/
theorem parse_joined (hne : lines ≠ []) (h : ∀ line ∈ lines, IsPlainLine line) :
    parse (joined "\n" lines) = .ok {
      document := {
        sections := [{ pageStart := some 1, nodes := (detect [.ofText (joined "\n" lines)]).1 }]
        settings := {} }
      diagnostics := (detect [.ofText (joined "\n" lines)]).2 } := by
  cases lines with
  | nil => exact absurd rfl hne
  | cons line lines =>
      have hline : IsPlainLine line := h line List.mem_cons_self
      have hsource : sourceLines (joined "\n" (line :: lines)) = line :: lines :=
        sourceLines_of_trimmed hne fun l hl => ⟨(h l hl).trimmed_eq, (h l hl).oneLine⟩
      have hrun : Reads {} (sourceLines (joined "\n" (line :: lines)))
          { newest := [.ofText (joined "\n" (line :: lines))] } := by
        rw [hsource]
        exact Reads.cons hline.step_eq
          (reads_of_plain hline.ne_empty fun l hl => h l (List.mem_cons_of_mem _ hl))
      rw [parse_of_reads hrun]
      simp only [Reader.finish, List.reverse_singleton, List.reverse_nil, List.nil_append]

end ReportPress.Markup
