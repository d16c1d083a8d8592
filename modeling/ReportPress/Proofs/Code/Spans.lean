import ReportPress.Proofs.Code.Restyling

/-!
# What spans of code are made of

Colouring cuts code into spans and decides on their styles.  What the spans are made of is up to the
tokenizer: one whose pieces put together are the line adds no characters of its own.

* `Tokenizer.Keeps` — a line of characters with a property is cut into pieces of such characters.
* `IsSpanOf` — a span of such characters in one of the styles of code.
* `isSpanOf_of_mem_linesBy` — all spans of a block of code are such, if its tokenizer keeps to them.
-/

namespace ReportPress.Code

open Text

variable {P : Char → Prop}

/-! ## Tokenizers -/

/-- Lines of characters with a property are cut into pieces of such characters. -/
def Tokenizer.Keeps (P : Char → Prop) (t : Tokenizer) : Prop :=
  ∀ state line pieces after, t.next? state line = some (pieces, after) →
    (∀ c ∈ line, P c) → ∀ p ∈ pieces, ∀ c ∈ p.text, P c

/-- Pieces that make up the line have no characters but those of the line. -/
lemma Tokenizer.Splits.keeps {t : Tokenizer} (ht : t.Splits) : t.Keeps P := by
  intro state line pieces after h hline p hp c hc
  rw [← ht state line pieces after h] at hline
  exact hline c (List.mem_flatMap.mpr ⟨p, hp, hc⟩)

/-! ## Spans -/

/-- A span of characters with a property, in one of the styles of code. -/
structure IsSpanOf (P : Char → Prop) (s : Span) : Prop where
  text : ∀ c ∈ s.text.toList, P c
  style : s.style = {} ∨ ∃ (kind : TokenKind) (language : String), s.style = kind.style language

variable {s : Span}

/-- A span that joins the next one takes its style. -/
lemma isSpanOf_consSpan {spans : List Span} (hs : IsSpanOf P s)
    (hspans : ∀ t ∈ spans, IsSpanOf P t) : ∀ t ∈ consSpan s spans, IsSpanOf P t := by
  cases spans with
  | nil => exact List.forall_mem_singleton.mpr hs
  | cons first rest =>
      obtain ⟨hfirst, hrest⟩ := List.forall_mem_cons.mp hspans
      rw [consSpan]
      split_ifs
      · refine List.forall_mem_cons.mpr ⟨⟨?_, hfirst.style⟩, hrest⟩
        rw [String.toList_append]
        exact List.forall_mem_append.mpr ⟨hs.text, hfirst.text⟩
      · exact List.forall_mem_cons.mpr ⟨hs, hspans⟩

lemma isSpanOf_spansOf {language : String} : ∀ {pieces : List Piece},
    (∀ p ∈ pieces, ∀ c ∈ p.text, P c) → ∀ s ∈ spansOf language pieces, IsSpanOf P s
  | [], _, s, hs => absurd hs List.not_mem_nil
  | p :: pieces, h, s, hs => by
      obtain ⟨hp, hpieces⟩ := List.forall_mem_cons.mp h
      have hrest : ∀ s ∈ spansOf language pieces, IsSpanOf P s := isSpanOf_spansOf hpieces
      rw [spansOf] at hs
      split at hs
      · exact hrest s hs
      · refine isSpanOf_consSpan ⟨?_, Or.inr ⟨p.kind, language, rfl⟩⟩ hrest s hs
        rw [String.toList_ofList]
        exact fun c hc => hp c (mem_of_mem_dropEndWhile hc)

/-! ## Lines -/

/-- A line with its line feed is a part of the text. -/
lemma subset_of_mem_endedLines : ∀ {cs line : List Char}, line ∈ endedLines cs → line ⊆ cs
  | [], line, h => by simp [endedLines] at h
  | c :: cs, line, h => by
      rw [endedLines] at h
      split_ifs at h with hc
      · rcases List.mem_cons.mp h with rfl | h
        · exact List.cons_subset_cons c (List.nil_subset cs)
        · exact List.Subset.trans (subset_of_mem_endedLines h) (List.subset_cons_self c cs)
      · split at h
        case h_1 =>
          rw [List.mem_singleton.mp h]
          exact List.cons_subset_cons c (List.nil_subset cs)
        case h_2 first rest hlines =>
          have ih {l : List Char} (hl : l ∈ first :: rest) : l ⊆ cs :=
            subset_of_mem_endedLines (hlines ▸ hl)
          rcases List.mem_cons.mp h with rfl | h
          · exact List.cons_subset_cons c (ih List.mem_cons_self)
          · exact List.Subset.trans (ih (List.mem_cons_of_mem _ h)) (List.subset_cons_self c cs)

/-- The spans of lines, as long as the tokenizer does not give up. -/
lemma Tokenizer.isSpanOf_spans? {t : Tokenizer} (ht : t.Keeps P) {language : String} :
    ∀ {lines : List (List Char)} {state : t.State} {styled : List (List Span)},
      (∀ line ∈ lines, ∀ c ∈ line, P c) → t.spans? language state lines = some styled →
        ∀ spans ∈ styled, ∀ s ∈ spans, IsSpanOf P s
  | [], state, styled, _, h => by
      rw [← Option.some.inj h]
      exact fun spans hspans => absurd hspans List.not_mem_nil
  | line :: lines, state, styled, hlines, h => by
      obtain ⟨hline, hbelow⟩ := List.forall_mem_cons.mp hlines
      rw [spans?] at h
      obtain ⟨⟨pieces, after⟩, hnext, hbehind⟩ := Option.bind_eq_some_iff.mp h
      obtain ⟨rest, hrest, hstyled⟩ := Option.bind_eq_some_iff.mp hbehind
      rw [← Option.some.inj hstyled]
      exact List.forall_mem_cons.mpr
        ⟨isSpanOf_spansOf (ht state line pieces after hnext hline), isSpanOf_spans? ht hbelow hrest⟩

lemma Tokenizer.isSpanOf_styled? {t : Tokenizer} (ht : t.Keeps P) {language body : String}
    (hbody : ∀ c ∈ body.toList, P c) {styled : List (List Span)}
    (h : t.styled? language body = some styled) :
    ∀ spans ∈ styled, ∀ s ∈ spans, IsSpanOf P s := by
  obtain ⟨lines, hlines, rfl⟩ := Option.map_eq_some_iff.mp h
  have hended : ∀ line ∈ endedLines body.toList, ∀ c ∈ line, P c :=
    fun line hline c hc => hbody c (subset_of_mem_endedLines hline hc)
  refine List.forall_mem_append.mpr ⟨isSpanOf_spans? ht hended hlines, ?_⟩
  split_ifs <;> simp

lemma isSpanOf_plainLines {body : String} (hbody : ∀ c ∈ body.toList, P c) :
    ∀ spans ∈ plainLines body, ∀ s ∈ spans, IsSpanOf P s := by
  intro spans hspans s hs
  obtain ⟨line, hline, rfl⟩ := List.mem_map.mp hspans
  unfold plainLine at hs
  split_ifs at hs
  · exact nomatch hs
  · rw [List.mem_singleton.mp hs]
    refine ⟨?_, Or.inl rfl⟩
    rw [String.toList_ofList]
    exact fun c hc => hbody c (mem_of_mem_splitOn hline (mem_of_mem_dropEnd hc))

/-- All spans of a block of code are made of its characters, in the styles of code, if that holds of
whatever a tokenizer makes of a line. -/
theorem isSpanOf_of_mem_linesBy {tokenizerOf : String → Option Tokenizer} {highlight : Bool}
    {language body : String} (hkeeps : ∀ token, ∀ t ∈ tokenizerOf token, t.Keeps P)
    (hbody : ∀ c ∈ body.toList, P c) :
    ∀ spans ∈ linesBy tokenizerOf highlight language body, ∀ s ∈ spans, IsSpanOf P s := by
  unfold linesBy
  split_ifs
  · dsimp only
    split
    case h_1 styled hstyled =>
      obtain ⟨t, ht, hstyled⟩ := Option.bind_eq_some_iff.mp hstyled
      exact Tokenizer.isSpanOf_styled? (hkeeps _ t ht) hbody hstyled
    case h_2 => exact isSpanOf_plainLines hbody
  · exact isSpanOf_plainLines hbody

end ReportPress.Code
