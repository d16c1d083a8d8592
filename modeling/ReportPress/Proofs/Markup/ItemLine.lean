import ReportPress.Markup.Line
import ReportPress.Proofs.Text.Words

/-!
# Lines of lists

How an item of a list can be written on a line, and what the classification makes of it.

* `IndentUnit`, `ItemMark` — the two ways to indent by one step and the four ways to mark an item.
* `IsItemText` — texts that a line can hold as they are: words with single spaces between them.
* `IsItemLine` — the lines that show an item at a depth.
* `IsBlankLine` — the lines that may stand between items.

**What is read.**  `classify_of_isItemLine` gives back depth, marker and text of every line that
shows an item, and `classify_of_isItemLine_zero` does so at once for a line at the margin.
`bare_of_isBlankLine` says that white space alone is an empty line, whether its beginning counts as
indentation or not.
-/

namespace ReportPress.Markup

open Text

/-! ## Writing -/

/-- One step of indentation. -/
inductive IndentUnit where
  | spaces
  | tab
deriving DecidableEq, Repr

/-- The characters of a step. -/
def IndentUnit.chars : IndentUnit → List Char
  | spaces => [' ', ' ', ' ', ' ']
  | tab => ['\t']

/-- What stands before the text of an item. -/
inductive ItemMark where
  | star
  | dash
  | point (number : UInt32)
  | parenthesis (number : UInt32)
deriving DecidableEq, Repr

namespace ItemMark

/-- The characters of a mark. -/
def chars : ItemMark → List Char
  | star => ['*']
  | dash => ['-']
  | point n => (toString n.toNat).toList ++ ['.']
  | parenthesis n => (toString n.toNat).toList ++ [')']

/-- The number in a mark, if it belongs to an ordered list. -/
def number? : ItemMark → Option UInt32
  | star | dash => none
  | point n | parenthesis n => some n

/-- Whether a mark belongs to an ordered list. -/
def ordered (m : ItemMark) : Bool := m.number?.isSome

/-- What a mark is read as. -/
def marker (m : ItemMark) : Marker :=
  match m.number? with
  | none => .bullet
  | some n => .ordered n

end ItemMark

/-- Words with single spaces between them; there may be no word at all. -/
def IsItemText (text : String) : Prop :=
  ∃ ws : List (List Char), (∀ w ∈ ws, IsWord w) ∧ text.toList = joinWith [' '] ws

/-- A line that shows an item: steps of indentation, a mark, a space and the text. -/
def IsItemLine (depth : Nat) (mark : ItemMark) (text line : String) : Prop :=
  ∃ units : List IndentUnit, units.length = depth ∧
    line.toList = units.flatMap IndentUnit.chars ++ mark.chars ++ ' ' :: text.toList

/-- A line of nothing but white space. -/
def IsBlankLine (line : String) : Prop := ∀ c ∈ line.toList, isBlank c = true ∧ c ≠ '\n'

instance : DecidablePred IsBlankLine := fun line =>
  List.decidableBAll (fun c => isBlank c = true ∧ c ≠ '\n') line.toList

/-! ## Marks -/

/-- The digits of a number, and a character that is none behind them, as a word. -/
lemma isWord_digits_append (n : Nat) {m : Char} (hm : isBlank m = false) :
    IsWord ((toString n).toList ++ [m]) := by
  refine ⟨by simp, fun c hc => ?_⟩
  rw [Nat.toString_eq_ofList_toDigits, String.toList_ofList] at hc
  rcases List.mem_append.mp hc with hc | hc
  · exact isBlank_of_isDigit (Nat.isDigit_of_mem_toDigits (by omega) (by omega) hc)
  · rwa [List.mem_singleton.mp hc]

lemma ItemMark.isWord_chars : ∀ m : ItemMark, IsWord m.chars
  | star => show IsWord ['*'] by decide
  | dash => show IsWord ['-'] by decide
  | point n => isWord_digits_append n.toNat (by decide)
  | parenthesis n => isWord_digits_append n.toNat (by decide)

/-- The decimal digits of a number begin with a digit. -/
lemma toDigits_cons (n : Nat) :
    ∃ d ds, Nat.toDigits 10 n = d :: ds ∧ d.isDigit = true := by
  cases h : Nat.toDigits 10 n with
  | nil => exact absurd h Nat.toDigits_ne_nil
  | cons d ds =>
      have hd : d ∈ Nat.toDigits 10 n := by simp [h]
      exact ⟨d, ds, rfl, Nat.isDigit_of_mem_toDigits (by omega) (by omega) hd⟩

/-- A mark begins with none of the characters that other markers begin with. -/
lemma ItemMark.head_chars (m : ItemMark) {c : Char} (h : m.chars.head? = some c) :
    c = '*' ∨ c = '-' ∨ c.isDigit = true := by
  have digits (n : UInt32) (e : Char)
      (h : ((toString n.toNat).toList ++ [e]).head? = some c) : c.isDigit = true := by
    obtain ⟨d, ds, hds, hd⟩ := toDigits_cons n.toNat
    rw [Nat.toString_eq_ofList_toDigits, String.toList_ofList, hds] at h
    rwa [← Option.some.inj h]
  cases m with
  | star => exact Or.inl (Option.some.inj h).symm
  | dash => exact Or.inr (Or.inl (Option.some.inj h).symm)
  | point n => exact Or.inr (Or.inr (digits n '.' h))
  | parenthesis n => exact Or.inr (Or.inr (digits n ')' h))

lemma toLower_of_isDigit {d : Char} (h : d.isDigit = true) : d.toLower = d := by
  rw [Char.isDigit_iff_toNat] at h
  have hd : ¬ 'A'.val ≤ d.val := by
    intro hA
    have hAn : 'A'.toNat ≤ d.toNat := hA
    have h9 : '9'.toNat < 'A'.toNat := by decide
    omega
  exact dif_neg fun e => hd e.1

/-- Digits with a point or a parenthesis behind them are the marker of an ordered item. -/
lemma wordMarker?_digits (n : UInt32) {m : Char} (hm : m = '.' ∨ m = ')') (text : List Char) :
    wordMarker? (Nat.toDigits 10 n.toNat ++ [m]) text = .ok (some (.ordered n)) := by
  obtain ⟨d, ds, hds, hd⟩ := toDigits_cons n.toNat
  have hkey (keyword : String) (hk : keyword.toList.head? ≠ some d.toLower) :
      String.ofList ((Nat.toDigits 10 n.toNat ++ [m]).map Char.toLower) ≠ keyword := by
    intro e
    apply hk
    rw [← e, String.toList_ofList, hds]
    rfl
  have hlower : d.toLower = d := toLower_of_isDigit hd
  have hne (c : Char) (hc : c.isDigit = false) : c ≠ d := by
    rintro rfl
    simp [hd] at hc
  have hindex : orderedIndex? (Nat.toDigits 10 n.toNat ++ [m]) = some n := by
    rw [orderedIndex?, List.getLast?_concat, List.dropLast_concat, number?_toDigits]
    rcases hm with rfl | rfl <;> simp
  rw [wordMarker?]
  simp only [hkey "*" (by simpa [hlower] using hne _ (by decide)),
    hkey "-" (by simpa [hlower] using hne _ (by decide)),
    hkey "!!section" (by simpa [hlower] using hne _ (by decide)),
    hkey "!!rule" (by simpa [hlower] using hne _ (by decide)), or_self, if_false]
  have hsharp : ¬ ((Nat.toDigits 10 n.toNat ++ [m]).all (· = '#') = true) := by
    rw [hds]
    simp [Ne.symm (hne '#' (by decide))]
  rw [if_neg fun h => hsharp h.2, hindex]
  rfl

lemma ItemMark.wordMarker?_chars (m : ItemMark) (text : List Char) :
    wordMarker? m.chars text = .ok (some m.marker) := by
  cases m with
  | star => rfl
  | dash => rfl
  | point n =>
      rw [chars, Nat.toString_eq_ofList_toDigits, String.toList_ofList]
      exact wordMarker?_digits n (Or.inl rfl) text
  | parenthesis n =>
      rw [chars, Nat.toString_eq_ofList_toDigits, String.toList_ofList]
      exact wordMarker?_digits n (Or.inr rfl) text

/-! ## Reading -/

/-- A line whose first word is a mark is an item with the other words as its text. -/
lemma classifyBare_of_words {m : ItemMark} {cs : List Char} {ws : List (List Char)}
    (h : words cs = m.chars :: ws) :
    classifyBare cs = .ok ⟨m.marker, String.ofList (joinWith [' '] ws), 0⟩ := by
  have hhead (c : Char) (hc : c = '!' ∨ c = '\x60' ∨ c = '<') : m.chars.head? ≠ some c := by
    intro e
    rcases m.head_chars e with rfl | rfl | hd
    · revert hc; decide
    · revert hc; decide
    · rcases hc with rfl | rfl | rfl <;> exact absurd hd (by decide)
  have hstart (lead : List Char) (c : Char) (hc : m.chars.head? ≠ some c) :
      startsWith (c :: lead) m.chars = false := by
    obtain ⟨d, ds, hds⟩ := List.exists_cons_of_ne_nil m.isWord_chars.1
    rw [hds] at hc ⊢
    have hcd : c ≠ d := fun e => hc (by simp [e])
    simp [startsWith, dropLead?, hcd]
  have hfence : startsWith "```".toList m.chars = false :=
    hstart _ '\x60' (hhead _ (by decide))
  have hcomment : startsWith "<!--".toList m.chars = false :=
    hstart _ '<' (hhead _ (by decide))
  rw [classifyBare]
  simp only [words_trim, h, List.headD_cons, List.drop_one, List.tail_cons,
    if_neg (hhead '!' (by decide)), hfence, hcomment, m.wordMarker?_chars, Bool.false_eq_true,
    if_false]

lemma classifyBare_of_blank {cs : List Char} (h : ∀ c ∈ cs, isBlank c = true) :
    classifyBare cs = .ok ⟨.plain, "", 0⟩ := by
  have htrim : trim cs = [] := trim_eq_nil_iff.mpr h
  simp only [classifyBare, plainLine, htrim]
  rfl

/-- Steps of indentation are counted as long as a character that is not white space follows. -/
lemma unindent_units {rest : List Char} (hrest : ∀ c, rest.head? = some c → isBlank c = false) :
    ∀ units : List IndentUnit,
      unindent (units.flatMap IndentUnit.chars ++ rest) = (units.length, rest)
  | [] => by
      cases rest with
      | nil => rfl
      | cons c cs =>
          have hc : isBlank c = false := hrest c rfl
          have htab : c ≠ '\t' := by rintro rfl; exact absurd hc (by decide)
          have hspace : c ≠ ' ' := by rintro rfl; exact absurd hc (by decide)
          simp [unindent, htab, hspace]
  | .spaces :: units => by
      simp [IndentUnit.chars, unindent, unindent_units hrest units]
  | .tab :: units => by
      simp [IndentUnit.chars, unindent, unindent_units hrest units]

lemma mem_of_mem_unindent {c : Char} : ∀ {cs : List Char}, c ∈ (unindent cs).2 → c ∈ cs := by
  intro cs
  fun_induction unindent cs with
  | case1 cs ih => exact fun h => List.mem_cons_of_mem _ (ih h)
  | case2 cs ih =>
      intro h
      simp [ih h]
  | case3 cs => exact id

/-- White space alone is an empty line, also where it begins like indentation. -/
theorem bare_of_isBlankLine {line : String} (h : ∀ c ∈ line.toList, isBlank c = true) :
    ∃ read : Line, classify line = .ok read ∧
      ∃ bare : Line, read.bare = .ok bare ∧ bare.isBlank = true := by
  rw [classify]
  cases hu : unindent line.toList with
  | mk depth rest =>
      have hrest : ∀ c ∈ rest, isBlank c = true := fun c hc =>
        h c (mem_of_mem_unindent (by rw [hu]; exact hc))
      by_cases hd : depth = 0
      · refine ⟨⟨.plain, "", 0⟩, ?_, ⟨.plain, "", 0⟩, rfl, rfl⟩
        simp only [hd, if_true]
        exact classifyBare_of_blank h
      · refine ⟨⟨.indent, "", depth⟩, ?_, ⟨.plain, "", 0⟩, rfl, rfl⟩
        simp only [if_neg hd, trim_eq_nil_iff.mpr hrest, String.ofList_nil]

/-- A text whose first word is a mark is that of an item, wherever it stands on its line. -/
lemma classify_trim_of_words {m : ItemMark} {cs : List Char} {ws : List (List Char)}
    (h : words cs = m.chars :: ws) :
    classify (String.ofList (trim cs)) =
      .ok ⟨m.marker, String.ofList (joinWith [' '] ws), 0⟩ := by
  have hunits : unindent (trim cs) = (0, trim cs) := unindent_units (fun _ => head_trim) []
  rw [classify, String.toList_ofList, hunits]
  exact classifyBare_of_words (by rw [words_trim, h])

/-- The words of an item are its mark and the words of its text. -/
lemma words_item {text : String} (htext : IsItemText text) (m : ItemMark) :
    ∃ ws, words (m.chars ++ ' ' :: text.toList) = m.chars :: ws ∧
      String.ofList (joinWith [' '] ws) = text := by
  obtain ⟨ws, hws, hjoin⟩ := htext
  refine ⟨ws, ?_, by rw [← hjoin, String.ofList_toList]⟩
  rw [words_append (by simp [isBlank_of_isWhitespace]) m.isWord_chars,
    words_cons_blank (by decide), hjoin, words_joinWith hws]

lemma IsItemLine.unindent_eq {depth : Nat} {m : ItemMark} {text line : String}
    (h : IsItemLine depth m text line) :
    unindent line.toList = (depth, m.chars ++ ' ' :: text.toList) := by
  obtain ⟨units, hdepth, hline⟩ := h
  rw [hline, List.append_assoc, unindent_units, hdepth]
  intro c hc
  obtain ⟨d, ds, hds⟩ := List.exists_cons_of_ne_nil m.isWord_chars.1
  rw [hds, List.cons_append, List.head?_cons, Option.some.injEq] at hc
  exact m.isWord_chars.2 c (by simp [hds, hc])

lemma ItemMark.marker_ne_indent (m : ItemMark) : m.marker ≠ .indent := by
  cases m <;> simp [marker, number?]

/-- A line that shows an item at the margin is read as it stands. -/
theorem classify_of_isItemLine_zero {m : ItemMark} {text line : String}
    (htext : IsItemText text) (h : IsItemLine 0 m text line) :
    classify line = .ok ⟨m.marker, text, 0⟩ := by
  obtain ⟨ws, hwords, htexts⟩ := words_item htext m
  have hunindent := h.unindent_eq
  obtain ⟨units, hdepth, hline⟩ := h
  have hall : line.toList = m.chars ++ ' ' :: text.toList := by
    simpa [List.length_eq_zero_iff.mp hdepth] using hline
  rw [classify, hunindent]
  simp only [if_true]
  rw [hall, classifyBare_of_words hwords, htexts]

/-- Depth, marker and text of a line that shows an item are read back. -/
theorem classify_of_isItemLine {depth : Nat} {m : ItemMark} {text line : String}
    (htext : IsItemText text) (h : IsItemLine depth m text line) :
    ∃ read : Line, classify line = .ok read ∧ read.depth = depth ∧
      read.bare = .ok ⟨m.marker, text, 0⟩ := by
  obtain ⟨ws, hwords, htexts⟩ := words_item htext m
  by_cases hd : depth = 0
  · subst hd
    exact ⟨_, classify_of_isItemLine_zero htext h, rfl, if_neg m.marker_ne_indent⟩
  · refine ⟨⟨.indent, String.ofList (trim (m.chars ++ ' ' :: text.toList)), depth⟩, ?_, rfl, ?_⟩
    · rw [classify, h.unindent_eq]
      simp only [if_neg hd]
    · rw [Line.bare, if_pos rfl, classify_trim_of_words hwords, htexts]

/-! ## In a source -/

/-- The characters of a line that shows an item. -/
lemma IsItemLine.not_mem {depth : Nat} {m : ItemMark} {text line : String}
    (htext : IsItemText text) (h : IsItemLine depth m text line) {c : Char}
    (hc : isBlank c = true) (hs : c ≠ ' ') (ht : c ≠ '\t') : c ∉ line.toList := by
  obtain ⟨ws, hws, hjoin⟩ := htext
  obtain ⟨units, -, hline⟩ := h
  have hmark : c ∉ m.chars := fun hm => by simp [m.isWord_chars.2 c hm] at hc
  have hunits : c ∉ units.flatMap IndentUnit.chars := by
    intro hu
    obtain ⟨u, -, hu⟩ := List.mem_flatMap.mp hu
    cases u <;> simp [IndentUnit.chars, hs, ht] at hu
  have htext : c ∉ text.toList := by
    rw [hjoin]
    intro hj
    rcases mem_joinWith hj with hj | ⟨w, hw, hj⟩
    · exact hs (List.mem_singleton.mp hj)
    · simp [(hws w hw).2 c hj] at hc
  rw [hline]
  simp [hmark, hunits, htext, hs]

end ReportPress.Markup
