import ReportPress.Proofs.Code.Pieces
import ReportPress.Proofs.Text.Words

/-!
# Colouring changes styles only

A block of code that is coloured has the lines of the plain one.  All that is asked of whatever cuts
a line into pieces is that the pieces put together are the line; which pieces they are, and whether
it gives up on the way, is left open.

* `Tokenizer.Splits` — pieces put together are the line.  So it is with the grammars here
  (`splits_grammarOf`).
* `IsRestyled` — coloured lines beside plain ones.

**Lines.**  Plain lines lie between line feeds, while a tokenizer sees each line with its line feed
and no line after the last: `splitOn_eq_endedLines`.

**Spans.**  `spansText_spansOf` — what is cut off the ends of pieces is the end of the line.
`isChain_spansOf` and `ne_of_mem_spansOf` say that neighbours differ and no span is empty.

**A block.**  `isRestyled_styled?` for a tokenizer that gets through, `isRestyled_plainLines` where
there is none or it gives up, and **`isRestyled_linesBy`**.
-/

namespace ReportPress.Code

open Text

/-! ## Tokenizers -/

/-- The pieces of every line put together are the line. -/
def Tokenizer.Splits (t : Tokenizer) : Prop :=
  ∀ state line pieces after, t.next? state line = some (pieces, after) → piecesText pieces = line

lemma Grammar.splits_tokenizer {C : Type} {g : Grammar C} (hg : g.Consumes) :
    g.tokenizer.Splits := by
  intro stack line pieces after h
  have hpieces := g.piecesText_scan hg stack none line
  rwa [Option.some.inj h] at hpieces

lemma splits_grammarOf (token : String) : ∀ t ∈ grammarOf token, t.Splits := by
  intro t ht
  obtain ⟨l, -, rfl⟩ := Option.map_eq_some_iff.mp ht
  cases l with
  | json => exact Grammar.splits_tokenizer consumes_jsonGrammar
  | properties => exact Grammar.splits_tokenizer consumes_propertiesGrammar
  | plainText => exact Grammar.splits_tokenizer consumes_plainGrammar

/-! ## Lines with their ends -/

/-- The characters that lines end with. -/
def lineEnds : List Char := ['\n', '\r']

lemma trimEndOf_cons {marks : List Char} {c : Char} (hc : c ∉ marks) (cs : List Char) :
    trimEndOf marks (c :: cs) = c :: trimEndOf marks cs := by
  rw [trimEndOf, dropEndWhile]
  split
  case h_1 hnil => rw [if_neg (by simpa using hc), trimEndOf, hnil]
  case h_2 => rfl

lemma endedLines_ne_nil {cs : List Char} (h : cs ≠ []) : endedLines cs ≠ [] := by
  cases cs with
  | nil => exact absurd rfl h
  | cons c cs =>
      rw [endedLines]
      split_ifs
      · exact List.cons_ne_nil _ _
      · split <;> exact List.cons_ne_nil _ _

/-- The lines between line feeds are those that end with them, without their ends; after a line
feed at the end comes one more. -/
lemma splitOn_eq_endedLines : ∀ {cs : List Char}, '\r' ∉ cs →
    splitOn '\n' cs = (endedLines cs).map (trimEndOf lineEnds) ++
      if cs = [] ∨ cs.getLast? = some '\n' then [[]] else []
  | [], _ => rfl
  | c :: cs, h => by
      have hcs : '\r' ∉ cs := fun hmem => h (List.mem_cons_of_mem c hmem)
      have ih := splitOn_eq_endedLines hcs
      by_cases hc : c = '\n'
      · have hend : (c :: cs = [] ∨ (c :: cs).getLast? = some '\n') ↔
            (cs = [] ∨ cs.getLast? = some '\n') := by
          cases cs with
          | nil => simp [hc]
          | cons d cs => simp [List.getLast?_cons_cons]
        have hfeed : trimEndOf lineEnds [c] = [] := by
          rw [hc]
          rfl
        rw [splitOn, endedLines, if_pos hc, if_pos hc, ih, List.map_cons, hfeed, List.cons_append]
        simp only [hend]
      · have hmark : c ∉ lineEnds := by
          have hreturn : c ≠ '\r' := fun e => h (e ▸ List.mem_cons_self)
          simp [lineEnds, hc, hreturn]
        rw [splitOn, endedLines, if_neg hc, if_neg hc]
        cases hlines : endedLines cs with
        | nil =>
            have hnil : cs = [] := by
              by_contra hne
              exact endedLines_ne_nil hne hlines
            subst hnil
            simp [splitOn, trimEndOf, dropEndWhile, hc, hmark]
        | cons line lines =>
            have hne : cs ≠ [] := by
              rintro rfl
              simp [endedLines] at hlines
            obtain ⟨last, hlast⟩ := List.getLast?_isSome.mpr hne |> Option.isSome_iff_exists.mp
            rw [hlines, List.map_cons, List.cons_append] at ih
            rw [ih, List.map_cons, trimEndOf_cons hmark, List.cons_append]
            simp [hne, List.getLast?_cons, hlast]

/-- There are no line ends between line feeds. -/
lemma not_mem_lineEnds {cs line : List Char} (h : '\r' ∉ cs) (hline : line ∈ splitOn '\n' cs) :
    ∀ c ∈ line, c ∉ lineEnds := by
  intro c hc
  have hfeed : c ≠ '\n' := fun e => not_mem_of_mem_splitOn hline (e ▸ hc)
  have hreturn : c ≠ '\r' := fun e => h (e ▸ mem_of_mem_splitOn hline hc)
  simp [lineEnds, hfeed, hreturn]

/-! ## Spans of a line -/

/-- The text of spans. -/
def spansText (spans : List Span) : List Char := spans.flatMap fun s => s.text.toList

lemma spansText_consSpan (s : Span) (spans : List Span) :
    spansText (consSpan s spans) = s.text.toList ++ spansText spans := by
  cases spans with
  | nil => rfl
  | cons t spans =>
      rw [consSpan]
      split_ifs
      · simp [spansText]
      · rfl

/-- The spans of a line are its pieces without line ends. -/
lemma spansText_spansOf (language : String) (pieces : List Piece) :
    spansText (spansOf language pieces) = pieces.flatMap fun p => trimEndOf lineEnds p.text := by
  induction pieces with
  | nil => rfl
  | cons p pieces ih =>
      rw [spansOf, List.flatMap_cons, ← ih]
      split
      case h_1 hnil => rw [lineEnds, hnil, List.nil_append]
      case h_2 => rw [spansText_consSpan, String.toList_ofList]; rfl

lemma trimEndOf_eq_self {text : List Char} (h : ∀ c ∈ text, c ∉ lineEnds) :
    trimEndOf lineEnds text = text :=
  dropEndWhile_eq_self fun c hc => by simpa using h c (List.mem_of_getLast? hc)

lemma trimEndOf_append {text ending : List Char} (htext : ∀ c ∈ text, c ∉ lineEnds)
    (hending : ∀ c ∈ ending, c ∈ lineEnds) : trimEndOf lineEnds (text ++ ending) = text := by
  have hcut := trimEndOf_eq_self htext
  rw [trimEndOf] at hcut ⊢
  rw [dropEndWhile_append_of_pos fun c hc => by simpa using hending c hc, hcut]

/-- The end of a line is cut off, wherever in the pieces it begins. -/
lemma flatMap_trimEndOf : ∀ {pieces : List Piece} {text ending : List Char},
    (∀ c ∈ text, c ∉ lineEnds) → (∀ c ∈ ending, c ∈ lineEnds) →
      piecesText pieces = text ++ ending →
        (pieces.flatMap fun p => trimEndOf lineEnds p.text) = text
  | [], text, ending, _, _, h => (List.append_eq_nil_iff.mp h.symm).1.symm
  | p :: pieces, text, ending, htext, hending, h => by
      rw [piecesText_cons] at h
      rw [List.flatMap_cons]
      rcases List.append_eq_append_iff.mp h with ⟨more, rfl, hmore⟩ | ⟨more, hp, rfl⟩
      · -- the piece lies before the end of the line
        rw [trimEndOf_eq_self fun c hc => htext c (List.mem_append_left more hc),
          flatMap_trimEndOf (fun c hc => htext c (List.mem_append_right _ hc)) hending hmore]
      · -- the end begins in the piece, and all pieces behind it are part of the end
        have hrest : (pieces.flatMap fun p => trimEndOf lineEnds p.text) = [] :=
          flatMap_trimEndOf (fun c hc => nomatch hc)
            (fun c hc => hending c (List.mem_append_right more hc)) (List.nil_append _).symm
        rw [hp, trimEndOf_append htext fun c hc => hending c (List.mem_append_left _ hc), hrest,
          List.append_nil]

lemma ne_of_mem_consSpan {s : Span} {spans : List Span} (hs : s.text ≠ "")
    (hspans : ∀ t ∈ spans, t.text ≠ "") : ∀ t ∈ consSpan s spans, t.text ≠ "" := by
  cases spans with
  | nil => exact List.forall_mem_singleton.mpr hs
  | cons first spans =>
      rw [consSpan]
      split_ifs
      · refine List.forall_mem_cons.mpr ⟨?_, (List.forall_mem_cons.mp hspans).2⟩
        simp [hs]
      · exact List.forall_mem_cons.mpr ⟨hs, hspans⟩

lemma ne_of_mem_spansOf (language : String) (pieces : List Piece) :
    ∀ s ∈ spansOf language pieces, s.text ≠ "" := by
  induction pieces with
  | nil => exact fun s hs => nomatch hs
  | cons p pieces ih =>
      rw [spansOf]
      split
      case h_1 => exact ih
      case h_2 hne => exact ne_of_mem_consSpan (by simpa using hne) ih

/-- A span joins the next one if they have the same style, so it is next to a different one. -/
lemma isChain_consSpan (s : Span) {spans : List Span}
    (h : spans.IsChain fun s t => s.style ≠ t.style) :
    (consSpan s spans).IsChain fun s t => s.style ≠ t.style := by
  cases spans with
  | nil => exact .singleton s
  | cons first spans =>
      rw [consSpan]
      split_ifs with hstyle
      · cases spans with
        | nil => exact .singleton _
        | cons second spans =>
            exact List.isChain_cons_cons.mpr (List.isChain_cons_cons.mp h)
      · exact List.isChain_cons_cons.mpr ⟨hstyle, h⟩

lemma isChain_spansOf (language : String) (pieces : List Piece) :
    (spansOf language pieces).IsChain fun s t => s.style ≠ t.style := by
  induction pieces with
  | nil => exact .nil
  | cons p pieces ih =>
      rw [spansOf]
      split
      · exact ih
      · exact isChain_consSpan _ ih

/-! ## Lines of a block -/

/-- Coloured lines beside plain ones.  They have the same texts, line by line, no span of theirs is
empty, and neighbouring spans differ in style. -/
structure IsRestyled (styled plain : List (List Span)) : Prop where
  length_eq : styled.length = plain.length
  texts : styled.map spansText = plain.map spansText
  filled : ∀ spans ∈ styled, ∀ s ∈ spans, s.text ≠ ""
  distinct : ∀ spans ∈ styled, spans.IsChain fun s t => s.style ≠ t.style

lemma spansText_plainLine (line : List Char) : spansText (plainLine line) = line := by
  unfold plainLine
  split_ifs with h
  · exact h.symm
  · simp [spansText]

/-- Plain lines are plain. -/
lemma isRestyled_plainLines (body : String) : IsRestyled (plainLines body) (plainLines body) := by
  refine ⟨rfl, rfl, fun spans hspans => ?_, fun spans hspans => ?_⟩
  · obtain ⟨line, -, rfl⟩ := List.mem_map.mp hspans
    unfold plainLine
    split_ifs with h
    · exact fun s hs => nomatch hs
    · exact List.forall_mem_singleton.mpr (by simpa using h)
  · obtain ⟨line, -, rfl⟩ := List.mem_map.mp hspans
    unfold plainLine
    split_ifs
    · exact .nil
    · exact .singleton _

/-- Plain lines are the lines between line feeds. -/
lemma map_spansText_plainLines {body : String} (hbody : '\r' ∉ body.toList) :
    (plainLines body).map spansText = splitOn '\n' body.toList := by
  rw [plainLines, List.map_map]
  refine (List.map_congr_left fun line hline => ?_).trans (List.map_id _)
  have hreturn : '\r' ∉ line := fun hmem => hbody (mem_of_mem_splitOn hline hmem)
  rw [Function.comp_apply, dropEnd_of_not_mem hreturn, spansText_plainLine, id]

namespace Tokenizer

variable {t : Tokenizer} {language : String}

/-- Lines are cut into pieces one by one, as long as the tokenizer does not give up. -/
lemma exists_pieces (ht : t.Splits) : ∀ {lines : List (List Char)} {state : t.State}
    {styled : List (List Span)}, t.spans? language state lines = some styled →
      ∃ cut : List (List Piece), styled = cut.map (spansOf language) ∧ cut.map piecesText = lines
  | [], state, styled, h => ⟨[], (Option.some.inj h).symm, rfl⟩
  | line :: lines, state, styled, h => by
      rw [spans?] at h
      obtain ⟨⟨pieces, after⟩, hnext, hbehind⟩ := Option.bind_eq_some_iff.mp h
      obtain ⟨rest, hrest, hstyled⟩ := Option.bind_eq_some_iff.mp hbehind
      obtain ⟨cut, rfl, rfl⟩ := exists_pieces ht hrest
      refine ⟨pieces :: cut, (Option.some.inj hstyled).symm, ?_⟩
      rw [List.map_cons, ht state line pieces after hnext]

/-- The text of a line is that of its pieces, without the end. -/
lemma spansText_eq_trimEndOf {pieces : List Piece}
    (hline : ∀ c ∈ trimEndOf lineEnds (piecesText pieces), c ∉ lineEnds) :
    spansText (spansOf language pieces) = trimEndOf lineEnds (piecesText pieces) := by
  obtain ⟨ending, hcut, hending⟩ := dropEndWhile_append (lineEnds.contains ·) (piecesText pieces)
  rw [spansText_spansOf]
  exact flatMap_trimEndOf hline (fun c hc => by simpa using hending c hc) hcut

/-- The lines of a block are made of pieces, one list of them for each line between line feeds.  The
line after a line feed at the end has no pieces. -/
lemma exists_pieces_of_styled? (ht : t.Splits) {body : String} (hbody : '\r' ∉ body.toList)
    {styled : List (List Span)} (h : t.styled? language body = some styled) :
    ∃ cut : List (List Piece), styled = cut.map (spansOf language) ∧
      cut.map (fun pieces => trimEndOf lineEnds (piecesText pieces))
        = splitOn '\n' body.toList := by
  obtain ⟨spans, hspans, rfl⟩ := Option.map_eq_some_iff.mp h
  obtain ⟨cut, rfl, hcut⟩ := exists_pieces ht hspans
  refine ⟨cut ++ if body.toList = [] ∨ body.toList.getLast? = some '\n' then [[]] else [], ?_, ?_⟩
  · rw [List.map_append]
    split_ifs <;> rfl
  · rw [splitOn_eq_endedLines hbody, ← hcut, List.map_append, List.map_map]
    split_ifs <;> rfl

/-- Where a tokenizer gets through a block, the lines differ from the plain ones in styles only. -/
lemma isRestyled_styled? (ht : t.Splits) {body : String} (hbody : '\r' ∉ body.toList)
    {styled : List (List Span)} (h : t.styled? language body = some styled) :
    IsRestyled styled (plainLines body) := by
  obtain ⟨cut, rfl, hcut⟩ := exists_pieces_of_styled? ht hbody h
  have htexts : (cut.map (spansOf language)).map spansText = (plainLines body).map spansText := by
    rw [map_spansText_plainLines hbody, ← hcut, List.map_map]
    refine List.map_congr_left fun pieces hpieces => ?_
    have hline : trimEndOf lineEnds (piecesText pieces) ∈ splitOn '\n' body.toList := by
      rw [← hcut]
      exact List.mem_map.mpr ⟨pieces, hpieces, rfl⟩
    exact spansText_eq_trimEndOf (not_mem_lineEnds hbody hline)
  refine ⟨by simpa using congrArg List.length htexts, htexts, ?_, ?_⟩
  · exact List.forall_mem_map.mpr fun pieces _ => ne_of_mem_spansOf language pieces
  · exact List.forall_mem_map.mpr fun pieces _ => isChain_spansOf language pieces

end Tokenizer

/-- Colouring changes styles only, whatever cuts the lines into pieces, as long as they are its
pieces.  So it is with the grammars here. -/
theorem isRestyled_linesBy (language body : String) (hbody : '\r' ∉ body.toList) :
    (∀ tokenizerOf : String → Option Tokenizer,
      (∀ token, ∀ t ∈ tokenizerOf token, t.Splits) →
        IsRestyled (linesBy tokenizerOf true language body)
          (linesBy tokenizerOf false language body)) ∧
      IsRestyled (codeLines true language body) (codeLines false language body) := by
  have hany (tokenizerOf : String → Option Tokenizer)
      (hsplits : ∀ token, ∀ t ∈ tokenizerOf token, t.Splits) :
      IsRestyled (linesBy tokenizerOf true language body)
        (linesBy tokenizerOf false language body) := by
    unfold linesBy
    simp only [if_true, Bool.false_eq_true, if_false]
    cases h : (tokenizerOf (languageToken language)).bind
        fun t => t.styled? (languageToken language) body with
    | none => exact isRestyled_plainLines body
    | some styled =>
        obtain ⟨t, ht, hstyled⟩ := Option.bind_eq_some_iff.mp h
        exact Tokenizer.isRestyled_styled? (hsplits _ t ht) hbody hstyled
  exact ⟨hany, hany grammarOf splits_grammarOf⟩

/-- A block of JSON, which is coloured and stays the same text. -/
theorem isRestyled_linesBy_array :
    ('\r' ∉ "[1, \"a\"]\n".toList ∧ ∀ token, ∀ t ∈ grammarOf token, t.Splits) ∧
      IsRestyled (linesBy grammarOf true "json" "[1, \"a\"]\n")
        (linesBy grammarOf false "json" "[1, \"a\"]\n") :=
  ⟨⟨by decide, splits_grammarOf⟩,
    (isRestyled_linesBy "json" "[1, \"a\"]\n" (by decide)).1 grammarOf splits_grammarOf⟩

end ReportPress.Code
