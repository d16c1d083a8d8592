import ReportPress.Proofs.Markup.Step

/-!
# Headings that are too deep

A source is at fault for nothing but headings of a level beyond six, and the first of them is named.

* `IsIndented` — a line that begins with a tab or with four spaces.
* `leadWord` — the first word of a line, indented or not.
* `isFence_iff` — the lines that open a block of code.
* `listIsOpen` — whether a list is open behind some lines.
* `IsTooDeep` — a line outside of blocks of code with seven number signs or more for its first word.
  An indented line counts where a list is open only: the list reads it as if it were not indented,
  and everywhere else it is text.

**One line.**  `classify_eq_error_iff` and `Reader.step_eq_error_iff` say when a line is at fault.

**All lines.**  `readLines_eq_error_iff` — the first line at fault is that of the failure;
`parse_eq_error_iff` tells it from the source.
-/

namespace ReportPress.Markup

open Text

variable {r middle : Reader} {raw : String} {fault : TooDeep} {lines : List String}
variable {i j n level : Nat}

/-! ## Indentation -/

/-- A line that begins with a tab or with four spaces. -/
def IsIndented (raw : String) : Prop := ['\t'] <+: raw.toList ∨ [' ', ' ', ' ', ' '] <+: raw.toList

/-- The first word of a line, indented or not. -/
def leadWord (raw : String) : List Char := (words raw.toList).headD []

lemma isIndented_iff : IsIndented raw ↔ (unindent raw.toList).1 ≠ 0 := by
  rw [IsIndented]
  generalize raw.toList = cs
  fun_cases unindent cs with
  | case1 => simp
  | case2 => simp
  | case3 cs htab hspaces =>
      refine iff_of_false ?_ (by simp)
      rintro (⟨rest, rfl⟩ | ⟨rest, rfl⟩)
      · exact htab rest rfl
      · exact hspaces rest rfl

lemma firstWord_of_not_isIndented (h : ¬ IsIndented raw) : firstWord raw = leadWord raw := by
  rw [isIndented_iff, not_not] at h
  rw [firstWord, if_pos h, leadWord]

lemma firstWord_of_isIndented (h : IsIndented raw) : firstWord raw = [] := by
  rw [isIndented_iff] at h
  rw [firstWord, if_neg h]

/-- Without its indentation a line has its first word at its beginning. -/
lemma firstWord_trimmed (raw : String) : firstWord (trimmed raw) = leadWord raw := by
  have hunits : unindent (trim raw.toList) = (0, trim raw.toList) :=
    unindent_units (fun _ => head_trim) []
  rw [firstWord, trimmed, String.toList_ofList, hunits, if_pos rfl, words_trim, leadWord]

lemma classify_of_isIndented (h : IsIndented raw) :
    ∃ depth, classify raw = .ok ⟨.indent, trimmed raw, depth⟩ := by
  rw [isIndented_iff] at h
  refine ⟨(unindent raw.toList).1, ?_⟩
  rw [classify]
  simp only [if_neg h, trim_unindent]
  rfl

lemma leadWord_prefix_trim (raw : String) : leadWord raw <+: trim raw.toList := by
  rw [leadWord, ← words_trim]
  cases htrim : trim raw.toList with
  | nil => exact List.nil_prefix
  | cons c cs =>
      have hword : IsWord [c] := isWord_singleton.mpr (head_trim (by rw [htrim]; rfl))
      have hwords := words_word_append hword cs
      rw [List.singleton_append, List.singleton_append] at hwords
      rw [hwords, List.headD_cons, List.cons_prefix_cons]
      exact ⟨rfl, List.takeWhile_prefix _⟩

/-- A block of code is opened by a line that is not indented and has, white space aside, three
backticks at its beginning. -/
theorem isFence_iff : IsFence raw ↔ ¬ IsIndented raw ∧ "```".toList <+: trim raw.toList := by
  constructor
  · intro h
    have hind : ¬ IsIndented raw := by
      intro hind
      rw [IsFence, firstWord_of_isIndented hind] at h
      exact Bool.false_ne_true h
    rw [IsFence, firstWord_of_not_isIndented hind, startsWith, Option.isSome_iff_exists] at h
    obtain ⟨rest, hrest⟩ := h
    exact ⟨hind, .trans ⟨rest, (dropLead?_eq_some_iff.mp hrest).symm⟩ (leadWord_prefix_trim raw)⟩
  · rintro ⟨hind, rest, hrest⟩
    have hword : IsWord "```".toList := by decide +kernel
    obtain ⟨more, ws, hwords⟩ := exists_words_append hword rest
    rw [IsFence, firstWord_of_not_isIndented hind, leadWord, ← words_trim, ← hrest, hwords,
      List.headD_cons, startsWith, dropLead?_append]
    rfl

/-! ## One line -/

lemma eq_replicate_of_wordMarker? {word text : List Char}
    (h : wordMarker? word text = .error fault) :
    word = List.replicate fault.level '#' ∧ 6 < fault.level := by
  unfold wordMarker? at h
  dsimp only at h
  split_ifs at h with _ _ _ hsigns hdeep
  obtain rfl := Except.error.inj h
  refine ⟨List.eq_replicate_iff.mpr ⟨rfl, ?_⟩, hdeep⟩
  simpa using hsigns.2

lemma firstWord_of_classify_eq_error (h : classify raw = .error fault) :
    firstWord raw = List.replicate fault.level '#' ∧ 6 < fault.level := by
  unfold classify at h
  dsimp only at h
  split_ifs at h with hdepth
  have hword : (words raw.toList).headD [] = firstWord raw := by rw [firstWord, if_pos hdepth]
  unfold classifyBare at h
  dsimp only at h
  rw [words_trim, hword] at h
  split at h
  case h_1 => simp at h
  case h_2 =>
    split_ifs at h
    split at h
    case h_1 fault' hmarker =>
      obtain rfl := Except.error.inj h
      exact eq_replicate_of_wordMarker? hmarker
    case h_2 => simp at h
    case h_3 => simp at h

/-- A line by itself is at fault for too many number signs where the marker of a heading stands. -/
theorem classify_eq_error_iff : classify raw = .error fault ↔
    firstWord raw = List.replicate fault.level '#' ∧ 6 < fault.level := by
  refine ⟨firstWord_of_classify_eq_error, fun ⟨hword, hdeep⟩ => ?_⟩
  obtain ⟨text, hclassify⟩ := classify_of_signs (by omega) hword
  rwa [if_pos hdeep] at hclassify

/-- Whether the reader is in a list. -/
def Place.isList : Place → Bool
  | .lists _ _ => true
  | _ => false

namespace Reader

lemma step_of_classify_eq_error (hcode : r.place.isCode = false) (h : classify raw = .error fault) :
    r.step raw = .error fault := by
  rw [step]
  cases hplace : r.place with
  | paragraphs => simp only [h, bind, Except.bind]
  | lists opened blank => simp only [h, bind, Except.bind]
  | code code => simp [hplace, Place.isCode] at hcode

lemma step_of_isIndented (hlist : r.place.isList = true) (hind : IsIndented raw)
    (h : classify (trimmed raw) = .error fault) : r.step raw = .error fault := by
  obtain ⟨depth, hline⟩ := classify_of_isIndented hind
  rw [step]
  cases hplace : r.place with
  | paragraphs => simp [hplace, Place.isList] at hlist
  | lists opened blank => simp only [hline, Line.bare, h, if_true, bind, Except.bind]
  | code code => simp [hplace, Place.isList] at hlist

/-- A step fails at the line by itself, or in a list at the line without its indentation. -/
lemma classify_eq_error_of_step (h : r.step raw = .error fault) : r.place.isCode = false ∧
    (classify raw = .error fault ∨
      r.place.isList = true ∧ classify (trimmed raw) = .error fault) := by
  rw [step] at h
  cases hplace : r.place with
  | paragraphs =>
      refine ⟨rfl, Or.inl ?_⟩
      cases hline : classify raw with
      | error fault' => simpa [hplace, hline, bind, Except.bind] using h
      | ok line => simp [hplace, hline, bind, Except.bind, pure, Except.pure] at h
  | lists opened blank =>
      refine ⟨rfl, ?_⟩
      cases hline : classify raw with
      | error fault' => exact Or.inl (by simpa [hplace, hline, bind, Except.bind] using h)
      | ok line =>
          refine Or.inr ⟨rfl, ?_⟩
          cases hbare : line.bare with
          | ok bare => simp [hplace, hline, hbare, bind, Except.bind, pure, Except.pure] at h
          | error fault' =>
              have hfault : fault' = fault := by
                simpa [hplace, hline, hbare, bind, Except.bind] using h
              rw [Line.bare] at hbare
              split_ifs at hbare with hindent
              rwa [text_of_classify hline (Or.inr hindent), hfault] at hbare
  | code code =>
      simp only [hplace] at h
      split_ifs at h

/-- When a step fails: a line outside of blocks of code has too many number signs for its first
word, and in case it is indented, the reader is in a list. -/
theorem step_eq_error_iff : r.step raw = .error fault ↔
    r.place.isCode = false ∧ leadWord raw = List.replicate fault.level '#' ∧ 6 < fault.level ∧
      (IsIndented raw → r.place.isList = true) := by
  constructor
  · intro h
    obtain ⟨hcode, hline | ⟨hlist, hline⟩⟩ := classify_eq_error_of_step h
    · obtain ⟨hword, hdeep⟩ := classify_eq_error_iff.mp hline
      have hind : ¬ IsIndented raw := by
        intro hind
        rw [firstWord_of_isIndented hind] at hword
        have hlevel : 0 = fault.level := by simpa using congrArg List.length hword
        omega
      exact ⟨hcode, by rw [← firstWord_of_not_isIndented hind, hword], hdeep,
        fun h => absurd h hind⟩
    · obtain ⟨hword, hdeep⟩ := classify_eq_error_iff.mp hline
      exact ⟨hcode, by rw [← firstWord_trimmed, hword], hdeep, fun _ => hlist⟩
  · rintro ⟨hcode, hword, hdeep, hlist⟩
    by_cases hind : IsIndented raw
    · refine step_of_isIndented (hlist hind) hind (classify_eq_error_iff.mpr ⟨?_, hdeep⟩)
      rw [firstWord_trimmed, hword]
    · refine step_of_classify_eq_error hcode (classify_eq_error_iff.mpr ⟨?_, hdeep⟩)
      rw [firstWord_of_not_isIndented hind, hword]

end Reader

/-! ## All lines -/

/-- Reading fails at the first line at fault. -/
theorem readLines_eq_error_iff {number : Nat} {failure : ParseFailure} :
    readLines r number lines = .error failure ↔
      ∃ i raw middle, failure.line = number + i ∧ lines[i]? = some raw ∧
        Reads r (lines.take i) middle ∧ middle.step raw = .error failure.cause := by
  induction lines generalizing r number with
  | nil => simp [readLines]
  | cons raw rest ih =>
      rw [readLines]
      cases hstep : r.step raw with
      | error cause =>
          constructor
          · intro h
            obtain rfl := Except.error.inj h
            exact ⟨0, raw, r, rfl, rfl, .nil r, hstep⟩
          · rintro ⟨_ | i, raw', middle, hline, hraw, hrun, hfault⟩
            · cases hrun
              obtain rfl := Option.some.inj hraw
              rw [hstep, Except.error.injEq] at hfault
              obtain ⟨n, cause'⟩ := failure
              obtain rfl : n = number := hline
              rw [hfault]
            · cases hrun with
              | cons hok _ => simp [hstep] at hok
      | ok next =>
          refine ih.trans ⟨?_, ?_⟩
          · rintro ⟨i, raw', middle, hline, hraw, hrun, hfault⟩
            exact ⟨i + 1, raw', middle, by omega, hraw, .cons hstep hrun, hfault⟩
          · rintro ⟨_ | i, raw', middle, hline, hraw, hrun, hfault⟩
            · cases hrun
              obtain rfl := Option.some.inj hraw
              simp [hstep] at hfault
            · cases hrun with
              | cons hok hrest =>
                  rw [hstep, Except.ok.injEq] at hok
                  subst hok
                  exact ⟨i, raw', middle, by omega, hraw, hrest, hfault⟩

/-- Whether a list is open behind some lines. -/
def listIsOpen (lines : List String) : Bool :=
  match readLines {} 1 lines with
  | .ok r => r.place.isList
  | .error _ => false

/-- A line, counted from zero, with too many number signs for its first word.  Lines of code do not
count, and indented lines only where a list is open. -/
def IsTooDeep (lines : List String) (i level : Nat) : Prop :=
  ∃ raw, lines[i]? = some raw ∧ codeIsOpen (lines.take i) = false ∧
    leadWord raw = List.replicate level '#' ∧ 6 < level ∧
    (IsIndented raw → listIsOpen (lines.take i) = true)

/-- These are the lines at which a reader fails that has read all lines before. -/
lemma isTooDeep_iff (h : Reads {} (lines.take i) middle) :
    IsTooDeep lines i level ↔ ∃ raw, lines[i]? = some raw ∧ middle.step raw = .error ⟨level⟩ := by
  have hcode : codeIsOpen (lines.take i) = middle.place.isCode := h.isCode_place.symm
  have hlist : listIsOpen (lines.take i) = middle.place.isList := by
    rw [listIsOpen, h.readLines_eq 1]
  simp only [IsTooDeep, hcode, hlist, Reader.step_eq_error_iff]

/-- Among the lines that have been read there is none. -/
lemma not_isTooDeep_of_reads (h : Reads {} (lines.take n) middle) (hj : j < n) :
    ¬ IsTooDeep lines j level := by
  intro hdeep
  obtain ⟨raw, hraw, -⟩ := id hdeep
  have hsplit : lines.take n = lines.take j ++ raw :: (lines.take n).drop (j + 1) := by
    have hj' : (lines.take n)[j]? = some raw := by rw [List.getElem?_take_of_lt hj, hraw]
    obtain ⟨hlt, hget⟩ := List.getElem?_eq_some_iff.mp hj'
    rw [← hget, ← List.drop_eq_getElem_cons hlt]
    conv_lhs => rw [← List.take_append_drop j (lines.take n), List.take_take, Nat.min_eq_left hj.le]
  rw [hsplit] at h
  obtain ⟨before, hbefore, hafter⟩ := h.exists_of_append
  obtain ⟨raw', hraw', hfault⟩ := (isTooDeep_iff hbefore).mp hdeep
  cases hafter with
  | cons hok _ =>
      rw [hraw, Option.some.injEq] at hraw'
      simp [hraw', hfault] at hok

/-- Lines are read, or one of them is too deep. -/
lemma exists_reads_or_isTooDeep (lines : List String) (n : Nat) :
    (∃ last, Reads {} (lines.take n) last) ∨ ∃ j < n, ∃ level, IsTooDeep lines j level := by
  cases hread : readLines {} 1 (lines.take n) with
  | ok last => exact Or.inl ⟨last, reads_of_readLines hread⟩
  | error failure =>
      obtain ⟨j, raw, middle, -, hraw, hrun, hfault⟩ := readLines_eq_error_iff.mp hread
      rw [List.getElem?_take] at hraw
      split_ifs at hraw with hj
      rw [List.take_take, Nat.min_eq_left hj.le] at hrun
      exact Or.inr ⟨j, hj, failure.cause.level, (isTooDeep_iff hrun).mpr ⟨raw, hraw, hfault⟩⟩

lemma parse_eq_error {source : String} {failure : ParseFailure} :
    parse source = .error failure ↔ readLines {} 1 (sourceLines source) = .error failure := by
  rw [parse]
  cases readLines {} 1 (sourceLines source) with
  | ok r => simp [bind, Except.bind, pure, Except.pure]
  | error failure' => simp [bind, Except.bind]

/-- **Faults of a source.**  It cannot be read exactly if one of its lines is too deep, and the
failure names the first such line, counted from one, and the level of its heading. -/
theorem parse_eq_error_iff (source : String) :
    ((∃ failure, parse source = .error failure) ↔
      ∃ i level, IsTooDeep (sourceLines source) i level) ∧
    ∀ number level, parse source = .error ⟨number, ⟨level⟩⟩ ↔
      ∃ i, number = i + 1 ∧ IsTooDeep (sourceLines source) i level ∧
        ∀ j < i, ∀ level', ¬ IsTooDeep (sourceLines source) j level' := by
  have hnamed : ∀ number level, parse source = .error ⟨number, ⟨level⟩⟩ ↔
      ∃ i, number = i + 1 ∧ IsTooDeep (sourceLines source) i level ∧
        ∀ j < i, ∀ level', ¬ IsTooDeep (sourceLines source) j level' := by
    intro number level
    rw [parse_eq_error, readLines_eq_error_iff]
    constructor
    · rintro ⟨i, raw, middle, hnumber, hraw, hrun, hfault⟩
      exact ⟨i, hnumber.trans (Nat.add_comm 1 i), (isTooDeep_iff hrun).mpr ⟨raw, hraw, hfault⟩,
        fun j hj _ => not_isTooDeep_of_reads hrun hj⟩
    · rintro ⟨i, rfl, hdeep, hfirst⟩
      obtain ⟨middle, hrun⟩ | ⟨j, hj, level', hdeep'⟩ :=
        exists_reads_or_isTooDeep (sourceLines source) i
      · obtain ⟨raw, hraw, hfault⟩ := (isTooDeep_iff hrun).mp hdeep
        exact ⟨i, raw, middle, Nat.add_comm i 1, hraw, hrun, hfault⟩
      · exact absurd hdeep' (hfirst j hj level')
  refine ⟨⟨?_, ?_⟩, hnamed⟩
  · rintro ⟨⟨number, ⟨level⟩⟩, hfailure⟩
    obtain ⟨i, -, hdeep, -⟩ := (hnamed number level).mp hfailure
    exact ⟨i, level, hdeep⟩
  · rintro ⟨i, level, hdeep⟩
    cases hread : parse source with
    | error failure => exact ⟨failure, rfl⟩
    | ok parsed =>
        obtain ⟨last, hrun, -⟩ := exists_reads_of_parse hread
        rw [← List.take_length (l := sourceLines source)] at hrun
        obtain ⟨raw, hraw, -⟩ := id hdeep
        have hi : i < (sourceLines source).length := (List.getElem?_eq_some_iff.mp hraw).1
        exact absurd hdeep (not_isTooDeep_of_reads hrun hi)

/-- Where a list is open, a source can be at fault without a line that is not indented and too
deep. -/
theorem parse_deep_item :
    parse "* a\n    ####### b" = .error ⟨2, ⟨7⟩⟩ ∧
      ¬ ∃ i level raw, (sourceLines "* a\n    ####### b")[i]? = some raw ∧
        codeIsOpen ((sourceLines "* a\n    ####### b").take i) = false ∧
        ¬ IsIndented raw ∧ leadWord raw = List.replicate level '#' ∧ 6 < level := by
  have hlines : sourceLines "* a\n    ####### b" = ["* a", "    ####### b"] := by decide +kernel
  refine ⟨by rw [parse_eq_error, hlines]; rfl, ?_⟩
  rintro ⟨i, level, raw, hraw, -, hind, hword, hdeep⟩
  rw [hlines] at hraw
  match i with
  | 0 =>
      obtain rfl := Option.some.inj hraw
      have hlead : leadWord "* a" = ['*'] := by decide +kernel
      have hlevel : 1 = level := by simpa [hlead] using congrArg List.length hword
      omega
  | 1 =>
      obtain rfl := Option.some.inj hraw
      exact hind (Or.inr ⟨"####### b".toList, rfl⟩)
  | i + 2 => simp at hraw

end ReportPress.Markup
