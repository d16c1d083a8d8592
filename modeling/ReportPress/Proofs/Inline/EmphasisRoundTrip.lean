import ReportPress.Proofs.Inline.StarRuns

/-!
# Emphasis written and read again

Text in different emphasis is written with stars around it.  Where plain text stands between any two
pieces in emphasis, reading what was written gives the pieces back.

* `Segment` — plain text, or text in emphasis; bold text may have italic words in it.
* `Segment.written` — a segment with its stars.
* `Segment.words`, `Segment.runes` — the texts of a segment, each with its emphasis, and a rune for
  each of them.

**What is written.**  `toList_sourceText` — a written text as runs of stars.  `isSeparated_starRuns`
— no two of them touch if plain segments and others take turns.

**What is read.**  `shown` — the pieces of a text that are not empty.  A segment opens and closes
its own delimiters, so behind it none is open and the next is read by itself (`shown_starRuns`).

**The result.**  `run_resolve_sourceText` — reading a written text gives its runes.
-/

namespace ReportPress.Inline

open Text

/-! ## Segments -/

/-- A piece of text in one kind of emphasis.  In bold text there may be italic words, each with
other words before and behind it. -/
inductive Segment where
  | plain (w : Letters)
  | italic (w : Letters)
  | bold (first : Letters) (more : List (Letters × Letters))
  | boldItalic (w : Letters)

namespace Segment

def isPlain : Segment → Bool
  | .plain _ => true
  | _ => false

/-- A segment with its stars. -/
def written : Segment → String
  | .plain w => w.text
  | .italic w => "*" ++ w.text ++ "*"
  | .bold first more =>
    "**" ++ first.text ++ String.join (more.map fun p => "*" ++ p.1.text ++ "*" ++ p.2.text) ++ "**"
  | .boldItalic w => "***" ++ w.text ++ "***"

/-- Italic words in bold text, each with the other words behind it. -/
def italicWords (more : List (Letters × Letters)) : List (Letters × Emphasis) :=
  more.flatMap fun p =>
    [(p.1, { bold := true, italic := true }), (p.2, { bold := true, italic := false })]

/-- The texts of a segment, each with its emphasis. -/
def words : Segment → List (Letters × Emphasis)
  | .plain w => [(w, { bold := false, italic := false })]
  | .italic w => [(w, { bold := false, italic := true })]
  | .bold first more => (first, { bold := true, italic := false }) :: italicWords more
  | .boldItalic w => [(w, { bold := true, italic := true })]

end Segment

/-- A rune with nothing but a text and its emphasis. -/
def wordRune (word : Letters × Emphasis) : Rune := { text := word.1.text, emphasis := word.2 }

/-- One rune for each text of a segment. -/
def Segment.runes (s : Segment) : Runes := s.words.map wordRune

/-- Segments written one after another. -/
def sourceText (segments : List Segment) : String := String.join (segments.map Segment.written)

/-- Plain segments and others take turns. -/
def Alternates (segments : List Segment) : Prop :=
  segments.IsChain fun s t => s.isPlain = !t.isPlain

/-! ## What is written -/

/-- The text before the first star. -/
def firstText : List Segment → List Char
  | .plain w :: segments => w.text.toList ++ firstText segments
  | _ => []

/-- Italic words in bold text. -/
def italicRuns (more : List (Letters × Letters)) : List StarRun :=
  more.flatMap fun p => [⟨1, p.1.text.toList⟩, ⟨1, p.2.text.toList⟩]

/-- The stars of segments, each run with the text behind it. -/
def starRuns : List Segment → List StarRun
  | [] => []
  | .plain _ :: segments => starRuns segments
  | .italic w :: segments => ⟨1, w.text.toList⟩ :: ⟨1, firstText segments⟩ :: starRuns segments
  | .bold first more :: segments =>
    ⟨2, first.text.toList⟩ :: (italicRuns more ++ ⟨2, firstText segments⟩ :: starRuns segments)
  | .boldItalic w :: segments =>
    ⟨3, w.text.toList⟩ :: ⟨3, firstText segments⟩ :: starRuns segments

variable {segments : List Segment} {runs : List StarRun}

lemma starText_eq_flatMap (w : List Char) (runs : List StarRun) :
    starText w runs = w ++ runs.flatMap fun run => stars run.stars ++ run.text := by
  induction runs generalizing w with
  | nil => simp [starText]
  | cons run runs ih => simp [starText, ih]

/-- What is written, as runs of stars. -/
lemma toList_sourceText (segments : List Segment) :
    (sourceText segments).toList = starText (firstText segments) (starRuns segments) := by
  have hdelimiters : "*".toList = stars 1 ∧ "**".toList = stars 2 ∧ "***".toList = stars 3 :=
    ⟨rfl, rfl, rfl⟩
  obtain ⟨hone, htwo, hthree⟩ := hdelimiters
  induction segments with
  | nil => rfl
  | cons s segments ih =>
      rw [starText_eq_flatMap] at ih ⊢
      rw [sourceText, List.map_cons, String.join_cons, String.toList_append, ← sourceText, ih]
      cases s with
      | plain w => simp [Segment.written, firstText, starRuns]
      | italic w => simp [Segment.written, firstText, starRuns, hone]
      | bold first more =>
          simp [Segment.written, firstText, starRuns, italicRuns, hone, htwo, List.flatMap_map,
            List.flatMap_assoc]
      | boldItalic w => simp [Segment.written, firstText, starRuns, hthree]

lemma isLetter_of_mem_firstText : ∀ {segments : List Segment}, ∀ c ∈ firstText segments,
    isLetter c = true
  | .plain w :: segments => by
      rw [firstText]
      exact List.forall_mem_append.mpr ⟨w.isLetter, isLetter_of_mem_firstText⟩
  | [] | .italic _ :: _ | .bold _ _ :: _ | .boldItalic _ :: _ => nofun

/-- Up to three stars, and letters behind them. -/
structure IsPlainRun (run : StarRun) : Prop where
  stars : run.stars ≤ 3
  text : ∀ c ∈ run.text, isLetter c = true

lemma isPlainRun_starRuns : ∀ segments : List Segment, ∀ run ∈ starRuns segments, IsPlainRun run
  | [] => nofun
  | s :: segments => by
      have hrest := isPlainRun_starRuns segments
      have hword {n : Nat} (hn : n ≤ 3) (w : Letters) : IsPlainRun ⟨n, w.text.toList⟩ :=
        ⟨hn, w.isLetter⟩
      have hclosed {n : Nat} (hn : n ≤ 3) : IsPlainRun ⟨n, firstText segments⟩ :=
        ⟨hn, isLetter_of_mem_firstText⟩
      cases s with
      | plain w => exact hrest
      | italic w | boldItalic w =>
          exact List.forall_mem_cons.mpr
            ⟨hword (by decide) w, List.forall_mem_cons.mpr ⟨hclosed (by decide), hrest⟩⟩
      | bold first more =>
          have hitalic : ∀ run ∈ italicRuns more, IsPlainRun run := by
            intro run hrun
            obtain ⟨p, -, hrun⟩ := List.mem_flatMap.mp hrun
            simp only [List.mem_cons, List.not_mem_nil, or_false] at hrun
            rcases hrun with rfl | rfl
            · exact hword (by decide) p.1
            · exact hword (by decide) p.2
          exact List.forall_mem_cons.mpr ⟨hword (by decide) first, List.forall_mem_append.mpr
            ⟨hitalic, List.forall_mem_cons.mpr ⟨hclosed (by decide), hrest⟩⟩⟩

/-- Only letters and stars are written. -/
lemma isLetter_of_mem_sourceText {c : Char} (h : c ∈ (sourceText segments).toList) :
    c = '*' ∨ isLetter c = true := by
  rw [toList_sourceText, starText_eq_flatMap] at h
  rcases List.mem_append.mp h with hc | hc
  · exact Or.inr (isLetter_of_mem_firstText c hc)
  · obtain ⟨run, hrun, hc⟩ := List.mem_flatMap.mp hc
    rcases List.mem_append.mp hc with hc | hc
    · exact Or.inl (List.eq_of_mem_replicate hc)
    · exact Or.inr ((isPlainRun_starRuns segments run hrun).text c hc)

lemma star_not_mem_firstText (segments : List Segment) : '*' ∉ firstText segments :=
  fun h => ne_of_isLetter (isLetter_of_mem_firstText _ h) (by decide) rfl

lemma Alternates.tail {s : Segment} (h : Alternates (s :: segments)) : Alternates segments := by
  cases segments with
  | nil => exact .nil
  | cons t segments => exact (List.isChain_cons_cons.mp h).2

/-- What follows a segment in emphasis is plain. -/
lemma firstText_ne_nil {s : Segment} (hs : s.isPlain = false) (h : Alternates (s :: segments))
    (hne : starRuns segments ≠ []) : firstText segments ≠ [] := by
  cases segments with
  | nil => exact absurd rfl hne
  | cons t segments =>
      have hplain := (List.isChain_cons_cons.mp h).1
      cases t with
      | plain w => exact List.append_ne_nil_of_left_ne_nil w.ne_nil _
      | italic _ | bold _ _ | boldItalic _ => exact nomatch hs.symm.trans hplain

/-- Behind a plain segment comes no other. -/
lemma firstText_eq_nil {w : Letters} (h : Alternates (.plain w :: segments)) :
    firstText segments = [] := by
  cases segments with
  | nil => rfl
  | cons t segments =>
      have hplain := (List.isChain_cons_cons.mp h).1
      cases t with
      | plain w => simp [Segment.isPlain] at hplain
      | italic _ | bold _ _ | boldItalic _ => rfl

lemma isSeparated_cons (n : Nat) (hn : 0 < n) (w : Letters) (h : IsSeparated runs) :
    IsSeparated (⟨n, w.text.toList⟩ :: runs) :=
  ⟨hn, w.not_mem (by decide), fun _ => w.ne_nil, h⟩

lemma isSeparated_italicRuns (more : List (Letters × Letters)) (h : IsSeparated runs) :
    IsSeparated (italicRuns more ++ runs) := by
  induction more with
  | nil => exact h
  | cons p more ih =>
      exact isSeparated_cons 1 Nat.one_pos p.1 (isSeparated_cons 1 Nat.one_pos p.2 ih)

/-- Where plain segments and others take turns, no two runs of stars touch. -/
lemma isSeparated_starRuns : ∀ {segments : List Segment}, Alternates segments →
    IsSeparated (starRuns segments)
  | [], _ => trivial
  | s :: segments, h => by
      have hrest := isSeparated_starRuns h.tail
      have hclosed (n : Nat) (hn : 0 < n) (hs : s.isPlain = false) :
          IsSeparated (⟨n, firstText segments⟩ :: starRuns segments) :=
        ⟨hn, star_not_mem_firstText segments, firstText_ne_nil hs h, hrest⟩
      cases s with
      | plain w => exact hrest
      | italic w => exact isSeparated_cons 1 Nat.one_pos w (hclosed 1 Nat.one_pos rfl)
      | bold first more =>
          exact isSeparated_cons 2 Nat.two_pos first
            (isSeparated_italicRuns more (hclosed 2 Nat.two_pos rfl))
      | boldItalic w => exact isSeparated_cons 3 (by decide) w (hclosed 3 (by decide) rfl)

/-! ## What is read -/

/-- The pieces of a text that are not empty. -/
def shown (o : OpenStars) (w : List Char) (runs : List StarRun) : Runes :=
  (pieces o w runs).filter isVisible

lemma shown_letters (o : OpenStars) (w : Letters) (runs : List StarRun) :
    shown o w.text.toList runs = wordRune (w, o.emphasis) :: shown o [] runs := by
  have hstyled : styled o w.text.toList = wordRune (w, o.emphasis) := by
    rw [styled, String.ofList_toList]
    rfl
  have hword : isVisible (wordRune (w, o.emphasis)) = true := by
    rw [isVisible, wordRune, w.isEmpty_text]
    rfl
  have hempty : ¬ isVisible (styled o []) = true := by simp [styled, isVisible]
  cases runs with
  | nil =>
      rw [shown, shown, pieces, pieces, hstyled, List.filter_cons_of_pos hword,
        List.filter_cons_of_neg hempty]
  | cons run runs =>
      rw [shown, shown, pieces, pieces, hstyled, List.filter_cons_of_pos hword,
        List.filter_cons_of_neg hempty]

lemma shown_nil_cons (o : OpenStars) (run : StarRun) (runs : List StarRun) :
    shown o [] (run :: runs) = shown (o.toggle run.stars) run.text runs :=
  List.filter_cons_of_neg (by simp [styled, isVisible])

lemma shown_italicRuns (more : List (Letters × Letters)) (runs : List StarRun) :
    shown { two := true } [] (italicRuns more ++ runs)
      = (Segment.italicWords more).map wordRune ++ shown { two := true } [] runs := by
  induction more with
  | nil => rfl
  | cons p more ih =>
      rw [italicRuns, List.flatMap_cons, ← italicRuns, List.append_assoc, List.cons_append,
        shown_nil_cons, shown_letters, List.cons_append, shown_nil_cons, shown_letters]
      exact congrArg (fun rest => _ :: _ :: rest) ih

/-- A segment opens and closes its own delimiters, and shows its runes. -/
lemma shown_starRuns : ∀ {segments : List Segment}, Alternates segments →
    shown {} (firstText segments) (starRuns segments) = segments.flatMap Segment.runes
  | [], _ => rfl
  | s :: segments, h => by
      have hrest := shown_starRuns h.tail
      rw [List.flatMap_cons, ← hrest]
      cases s with
      | plain w =>
          rw [firstText, firstText_eq_nil h, List.append_nil, starRuns, shown_letters]
          rfl
      | italic w | boldItalic w =>
          rw [firstText, starRuns, shown_nil_cons, shown_letters, shown_nil_cons]
          · rfl
          · nofun
      | bold first more =>
          have hclosed : shown { two := true } [] (⟨2, firstText segments⟩ :: starRuns segments)
              = shown {} (firstText segments) (starRuns segments) := shown_nil_cons _ _ _
          have hitalic := shown_italicRuns more (⟨2, firstText segments⟩ :: starRuns segments)
          rw [hclosed] at hitalic
          rw [firstText, starRuns, shown_nil_cons, shown_letters]
          · exact congrArg (_ :: ·) hitalic
          · nofun

/-! ## The result -/

/-- Reading a written text gives one rune for each text of each segment, in order, with its
emphasis and with nothing else. -/
theorem run_resolve_sourceText (segments : List Segment) (h : Alternates segments) (hue : Hue) :
    (resolve false (sourceText segments)).run hue = (segments.flatMap Segment.runes, hue) := by
  have hcalm : ∀ c ∈ (sourceText segments).toList, IsCalm c := by
    intro c hc
    rcases isLetter_of_mem_sourceText hc with rfl | hletter
    · decide
    · exact isCalm_of_isLetter hletter
  have hbracket : '[' ∉ (sourceText segments).toList := by
    intro hmem
    rcases isLetter_of_mem_sourceText hmem with heq | hletter
    · exact absurd heq (by decide)
    · exact ne_of_isLetter hletter (by decide) rfl
  have hline : splitRuneLines (.plain (sourceText segments)) = [.plain (sourceText segments)] :=
    splitRuneLines_of_forall fun c hc => (hcalm c hc).1
  have hpieces := emphasizeAll_starText (star_not_mem_firstText segments) (isSeparated_starRuns h)
    fun run hrun => (isPlainRun_starRuns segments run hrun).stars
  rw [← toList_sourceText, String.ofList_toList] at hpieces
  rw [run_resolve_false, visibleRunes, plainRunes, typography_of_forall hcalm,
    links_of_not_mem hbracket, String.ofList_toList, List.flatMap_singleton, hline, hpieces,
    ← shown, shown_starRuns h]

/-- Segments of all kinds, with an italic word in bold text. -/
def mixedSegments : List Segment :=
  let a : Letters := ⟨"a", by decide, by decide⟩
  let b : Letters := ⟨"ж", by decide +kernel, by decide +kernel⟩
  [.boldItalic a, .plain b, .bold a [(b, a)], .plain b, .italic a]

/-- Delimiters of all lengths, each beside another. -/
theorem run_resolve_mixedSegments :
    Alternates mixedSegments ∧ sourceText mixedSegments = "***a***ж**a*ж*a**ж*a*" ∧
      (resolve false "***a***ж**a*ж*a**ж*a*").run 0
        = ([{ text := "a", emphasis := ⟨true, true⟩ }, { text := "ж" },
            { text := "a", emphasis := ⟨true, false⟩ }, { text := "ж", emphasis := ⟨true, true⟩ },
            { text := "a", emphasis := ⟨true, false⟩ }, { text := "ж" },
            { text := "a", emphasis := ⟨false, true⟩ }], 0) := by
  have halternates : Alternates mixedSegments := by
    unfold Alternates
    decide +kernel
  have hsource : sourceText mixedSegments = "***a***ж**a*ж*a**ж*a*" := by
    decide +kernel
  refine ⟨halternates, hsource, ?_⟩
  rw [← hsource, run_resolve_sourceText mixedSegments halternates 0]
  rfl

end ReportPress.Inline
