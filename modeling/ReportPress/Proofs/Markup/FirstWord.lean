import ReportPress.Proofs.Markup.Reader
import ReportPress.Proofs.Markup.ShownLine

/-!
# Lines told by their first word

Headings, comments and the fences around blocks of code are lines that are not indented and have a
first word of a certain form.  No other line is read as one of them.

* `firstWord`, `textBehind` — the first word of a line that is not indented, and what is behind it.
* `IsHeading`, `IsComment`, `IsFence` — what the first word tells.
* `codeIsOpen` — whether some lines end inside a block of code.

**Classification.**  `classify_of_isHeading`, `classify_of_isComment` and `classify_of_isFence` say
how these lines are read.

**Backwards.**  `IsClassifiedAs` lists what a line can be read as, and by what;
`classify_eq_fence_iff`, `text_of_classify` and `depth_of_classify` are read off it.
-/

namespace ReportPress.Markup

open Text

/-- The first word of a line that is not indented.  Other lines, and blank ones, have none. -/
def firstWord (raw : String) : List Char :=
  if (unindent raw.toList).1 = 0 then (words raw.toList).headD [] else []

/-- The words behind the first, with single spaces between them. -/
def textBehind (raw : String) : List Char := joinWith [' '] ((words raw.toList).drop 1)

/-- A heading of level one to six. -/
def IsHeading (raw : String) : Prop :=
  ∃ level, 1 ≤ level ∧ level ≤ 6 ∧ firstWord raw = List.replicate level '#'

/-- A comment. -/
def IsComment (raw : String) : Prop := startsWith "<!--".toList (firstWord raw) = true

/-- A line that opens a block of code. -/
def IsFence (raw : String) : Prop := startsWith "```".toList (firstWord raw) = true

instance : DecidablePred IsComment := fun raw =>
  inferInstanceAs (Decidable (startsWith "<!--".toList (firstWord raw) = true))

instance : DecidablePred IsFence := fun raw =>
  inferInstanceAs (Decidable (startsWith "```".toList (firstWord raw) = true))

variable {raw : String} {line bare : Line} {c : Char}

/-! ## Classification -/

/-- What a word begins with is the beginning of the word. -/
lemma head_of_startsWith {lead w : List Char} (h : startsWith (c :: lead) w = true) :
    w.head? = some c := by
  cases w with
  | nil => simp [startsWith, dropLead?] at h
  | cons d ds =>
      by_cases hcd : c = d
      · rw [hcd]
        rfl
      · simp [startsWith, dropLead?, hcd] at h

lemma startsWith_of_head {lead w : List Char} (h : w.head? ≠ some c) :
    startsWith (c :: lead) w = false :=
  Bool.eq_false_iff.mpr fun e => h (head_of_startsWith e)

/-- A line that begins with an exclamation mark is an image if it has the parts of one. -/
lemma classify_of_imageMarker? {raw : String} {marker : Marker}
    (h : (firstWord raw).head? = some '!') (himage : imageMarker? raw.toList = some marker) :
    classify raw = .ok ⟨marker, trimmed raw, 0⟩ := by
  have hdepth : (unindent raw.toList).1 = 0 := by
    by_contra hdepth
    simp [firstWord, hdepth] at h
  have hword : (words raw.toList).headD [] = firstWord raw := by rw [firstWord, if_pos hdepth]
  have hread := classifyBare.eq_def raw.toList
  simp only [words_trim, hword, if_pos h, himage] at hread
  rw [classify]
  simp only [hdepth, if_true]
  exact hread

/-- A line with a first word is read as it stands, unless it begins with an exclamation mark and has
the parts of an image. -/
lemma classify_of_noImage (h : firstWord raw ≠ [])
    (himage : (firstWord raw).head? = some '!' → imageMarker? raw.toList = none) :
    classify raw =
      if startsWith "```".toList (firstWord raw) then
        .ok ⟨.fence, String.ofList ((trim raw.toList).drop 3), 0⟩
      else if startsWith "<!--".toList (firstWord raw) then
        .ok ⟨.comment, String.ofList (trim ((trim raw.toList).drop 4)), 0⟩
      else
        match wordMarker? (firstWord raw) (textBehind raw) with
        | .error fault => .error fault
        | .ok (some marker) => .ok ⟨marker, String.ofList (textBehind raw), 0⟩
        | .ok none => .ok (plainLine raw.toList) := by
  have hdepth : (unindent raw.toList).1 = 0 := by
    by_contra hdepth
    simp [firstWord, hdepth] at h
  have hword : (words raw.toList).headD [] = firstWord raw := by rw [firstWord, if_pos hdepth]
  have hnone : (if (firstWord raw).head? = some '!' then imageMarker? raw.toList else none)
      = none := by
    split_ifs with hbang
    · exact himage hbang
    · rfl
  have hread := classifyBare.eq_def raw.toList
  simp only [words_trim, hword, hnone] at hread
  rw [classify]
  simp only [hdepth, if_true]
  exact hread

/-- Only an exclamation mark begins an image. -/
lemma classify_of_head (h : (firstWord raw).head? = some c) (hc : c ≠ '!') :
    ∃ text, classify raw =
      if startsWith "```".toList (firstWord raw) then
        .ok ⟨.fence, String.ofList ((trim raw.toList).drop 3), 0⟩
      else if startsWith "<!--".toList (firstWord raw) then
        .ok ⟨.comment, String.ofList (trim ((trim raw.toList).drop 4)), 0⟩
      else
        match wordMarker? (firstWord raw) text with
        | .error fault => .error fault
        | .ok (some marker) => .ok ⟨marker, String.ofList text, 0⟩
        | .ok none => .ok (plainLine raw.toList) := by
  refine ⟨textBehind raw, classify_of_noImage (fun e => by simp [e] at h) fun hbang => ?_⟩
  rw [h, Option.some.injEq] at hbang
  exact absurd hbang hc

theorem classify_of_isComment (h : IsComment raw) :
    ∃ text, classify raw = .ok ⟨.comment, text, 0⟩ := by
  have hhead : (firstWord raw).head? = some '<' := head_of_startsWith h
  have hfence : startsWith "```".toList (firstWord raw) = false :=
    startsWith_of_head (c := '\x60') (by simp [hhead])
  obtain ⟨text, hclassify⟩ := classify_of_head hhead (by decide)
  rw [IsComment] at h
  rw [hclassify, hfence, h, if_neg Bool.false_ne_true, if_pos rfl]
  exact ⟨_, rfl⟩

theorem classify_of_isFence (h : IsFence raw) :
    ∃ text, classify raw = .ok ⟨.fence, text, 0⟩ := by
  have hhead : (firstWord raw).head? = some '\x60' := head_of_startsWith h
  obtain ⟨text, hclassify⟩ := classify_of_head hhead (by decide)
  rw [IsFence] at h
  rw [hclassify, h, if_pos rfl]
  exact ⟨_, rfl⟩

lemma head_replicate {level : Nat} (hpos : 1 ≤ level) :
    (List.replicate level '#').head? = some '#' := by
  obtain ⟨n, rfl⟩ := Nat.exists_eq_add_of_le' hpos
  rfl

/-- A word of number signs is the marker of a heading, unless they are too many. -/
lemma wordMarker?_replicate {level : Nat} (hpos : 1 ≤ level) (text : List Char) :
    wordMarker? (List.replicate level '#') text =
      if 6 < level then .error ⟨level⟩ else .ok (some (.heading level)) := by
  have hkey (keyword : String) (hk : keyword.toList.head? ≠ some '#') :
      String.ofList ((List.replicate level '#').map Char.toLower) ≠ keyword := by
    rintro rfl
    apply hk
    rw [String.toList_ofList, List.map_replicate]
    exact head_replicate hpos
  have hword : List.replicate level '#' ≠ [] ∧
      (List.replicate level '#').all (· = '#') = true := by
    constructor
    · simpa using Nat.ne_of_gt hpos
    · simp
  rw [wordMarker?]
  simp only [hkey "*" (by decide), hkey "-" (by decide), hkey "!!section" (by decide),
    hkey "!!rule" (by decide), or_self, if_false, if_pos hword, List.length_replicate]

lemma classify_of_signs {level : Nat} (hpos : 1 ≤ level)
    (hword : firstWord raw = List.replicate level '#') :
    ∃ text, classify raw =
      if 6 < level then .error ⟨level⟩ else .ok ⟨.heading level, text, 0⟩ := by
  have hhead : (firstWord raw).head? = some '#' := by rw [hword, head_replicate hpos]
  have hfence : startsWith "```".toList (firstWord raw) = false :=
    startsWith_of_head (c := '\x60') (by simp [hhead])
  have hcomment : startsWith "<!--".toList (firstWord raw) = false :=
    startsWith_of_head (c := '<') (by simp [hhead])
  obtain ⟨text, hclassify⟩ := classify_of_head hhead (by decide)
  refine ⟨String.ofList text, ?_⟩
  rw [hclassify, hfence, hcomment, if_neg Bool.false_ne_true, if_neg Bool.false_ne_true, hword,
    wordMarker?_replicate hpos]
  by_cases hdeep : 6 < level
  · rw [if_pos hdeep, if_pos hdeep]
  · rw [if_neg hdeep, if_neg hdeep]

theorem classify_of_isHeading (h : IsHeading raw) :
    ∃ level text, classify raw = .ok ⟨.heading level, text, 0⟩ := by
  obtain ⟨level, hpos, hle, hword⟩ := h
  obtain ⟨text, hclassify⟩ := classify_of_signs hpos hword
  rw [if_neg (Nat.not_lt.mpr hle)] at hclassify
  exact ⟨level, text, hclassify⟩

/-! ## Classification, backwards -/

/-- What a line is read as, and by what. -/
inductive IsClassifiedAs (raw : String) : Line → Prop
  | indent {depth : Nat} : IsClassifiedAs raw ⟨.indent, trimmed raw, depth⟩
  | image {alt source : String} {width height : Option UInt32} {text : String} :
      IsClassifiedAs raw ⟨.image alt source width height, text, 0⟩
  | fence {text : String} : IsFence raw → IsClassifiedAs raw ⟨.fence, text, 0⟩
  | comment {text : String} : IsComment raw → IsClassifiedAs raw ⟨.comment, text, 0⟩
  | word {marker : Marker} {text : List Char} :
      wordMarker? (firstWord raw) text = .ok (some marker) →
      IsClassifiedAs raw ⟨marker, String.ofList text, 0⟩
  | plain : IsClassifiedAs raw ⟨.plain, trimmed raw, 0⟩

theorem isClassifiedAs_of_classify (h : classify raw = .ok line) : IsClassifiedAs raw line := by
  unfold classify at h
  dsimp only at h
  split_ifs at h with hdepth
  · have hword : (words raw.toList).headD [] = firstWord raw := by rw [firstWord, if_pos hdepth]
    unfold classifyBare at h
    dsimp only at h
    rw [words_trim, hword] at h
    split at h
    case h_1 marker himage =>
      obtain rfl := Except.ok.inj h
      split_ifs at himage
      obtain ⟨parts, -, rfl⟩ := Option.map_eq_some_iff.mp himage
      exact .image
    case h_2 =>
      split_ifs at h with hfence hcomment
      · obtain rfl := Except.ok.inj h
        exact .fence hfence
      · obtain rfl := Except.ok.inj h
        exact .comment hcomment
      · split at h
        case h_1 => simp at h
        case h_2 marker hmarker =>
          obtain rfl := Except.ok.inj h
          exact .word hmarker
        case h_3 =>
          obtain rfl := Except.ok.inj h
          exact .plain
  · obtain rfl := Except.ok.inj h
    rw [trim_unindent]
    exact .indent

/-- The markers that are told by a word. -/
lemma marker_of_wordMarker? {word text : List Char} {marker : Marker}
    (h : wordMarker? word text = .ok (some marker)) :
    marker ≠ .fence ∧ marker ≠ .plain ∧ marker ≠ .indent := by
  unfold wordMarker? at h
  dsimp only at h
  split_ifs at h
  · simp [← Option.some.inj (Except.ok.inj h)]
  · simp [← Option.some.inj (Except.ok.inj h)]
  · simp [← Option.some.inj (Except.ok.inj h)]
  · simp [← Option.some.inj (Except.ok.inj h)]
  · obtain ⟨index, -, rfl⟩ := Option.map_eq_some_iff.mp (Except.ok.inj h)
    simp

/-- Fences are the lines that are read as such. -/
theorem classify_eq_fence_iff (h : classify raw = .ok line) :
    line.marker = .fence ↔ IsFence raw := by
  constructor
  · intro hmarker
    cases isClassifiedAs_of_classify h with
    | fence hfence => exact hfence
    | word hword => exact absurd hmarker (marker_of_wordMarker? hword).1
    | _ => simp at hmarker
  · intro hfence
    obtain ⟨text, htext⟩ := classify_of_isFence hfence
    rw [htext] at h
    rw [← Except.ok.inj h]

/-- A line without a marker is read whole, indented or not. -/
lemma text_of_classify (h : classify raw = .ok line)
    (hmarker : line.marker = .plain ∨ line.marker = .indent) : line.text = trimmed raw := by
  cases isClassifiedAs_of_classify h with
  | indent => rfl
  | plain => rfl
  | word hword =>
      obtain ⟨-, hplain, hindent⟩ := marker_of_wordMarker? hword
      exact absurd hmarker (not_or.mpr ⟨hplain, hindent⟩)
  | _ => simp at hmarker

/-- Only an indented line has a depth. -/
lemma depth_of_classify (h : classify raw = .ok line) (hmarker : line.marker ≠ .indent) :
    line.depth = 0 := by
  cases isClassifiedAs_of_classify h with
  | indent => exact absurd rfl hmarker
  | _ => rfl

/-- A line is indented, or it is the same without its indentation. -/
lemma bare_cases (h : line.bare = .ok bare) :
    line.marker = .indent ∧ classify line.text = .ok bare ∨ bare = line := by
  rw [Line.bare] at h
  split_ifs at h with hindent
  · exact Or.inl ⟨hindent, h⟩
  · exact Or.inr (Except.ok.inj h).symm

lemma plain_of_isBlank (h : bare.isBlank = true) : bare.marker = .plain := by
  rw [Line.isBlank, Bool.and_eq_true, decide_eq_true_eq] at h
  exact h.1

/-- A blank line has nothing but white space. -/
lemma isEmpty_trimmed_of_isBlank (h : classify raw = .ok line) (hbare : line.bare = .ok bare)
    (hblank : bare.isBlank = true) : (trimmed raw).isEmpty = true := by
  simp only [Line.isBlank, Bool.and_eq_true, decide_eq_true_eq] at hblank
  obtain ⟨hplain, hempty⟩ := hblank
  rcases bare_cases hbare with ⟨hindent, htext⟩ | rfl
  · have hline : line.text = trimmed raw := text_of_classify h (Or.inr hindent)
    have hagain : bare.text = trimmed line.text := text_of_classify htext (Or.inl hplain)
    rw [hagain, hline, trimmed, trimmed, String.toList_ofList, trim_trim] at hempty
    exact hempty
  · rwa [text_of_classify h (Or.inl hplain)] at hempty

end ReportPress.Markup
