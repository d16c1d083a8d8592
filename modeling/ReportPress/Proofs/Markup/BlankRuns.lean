import ReportPress.Proofs.Markup.Agreement
import ReportPress.Proofs.Markup.ListRoundTrip

/-!
# How many blank lines follow each other

One blank line ends a paragraph and tells a list that plain text is no longer part of it.  A second
one behind it says nothing new: among paragraphs it leaves one more empty paragraph, which is
dropped in the end, and in a list it leaves nothing at all.

* `Reader.step_blank_of_paragraphs` — a blank line among paragraphs; `step_of_isBlankLine` says
  the same of lists.
* `Reader.exists_resembles_blank` — a reader behind two blank lines resembles one behind the first.
* **`parse_blankRun`** — a blank line behind a blank line changes nothing about what is read, and
  nothing about whether it is.
-/

namespace ReportPress.Markup

open Text

variable {r last : Reader} {raw b b' : String} {line bare : Line} {before after : List String}

namespace Reader

/-- Among paragraphs a blank line opens an empty one. -/
lemma step_blank_of_paragraphs (hplace : r.place = .paragraphs) (hline : classify raw = .ok line)
    (hbare : line.bare = .ok bare) (hblank : bare.isBlank = true) :
    r.step raw = .ok (r.pushText raw) ∧ (trimmed raw).isEmpty = true := by
  have hmarker : line.marker = .plain ∨ line.marker = .indent := by
    rcases bare_cases hbare with ⟨hindent, -⟩ | rfl
    · exact Or.inr hindent
    · exact Or.inl (plain_of_isBlank hblank)
  have htake : r.take raw line = r.pushText raw := by
    have hr : { r with place := .paragraphs } = r := by rw [← hplace]
    rw [take, hr]
    rcases hmarker with h | h <;> rw [h]
  refine ⟨?_, isEmpty_trimmed_of_isBlank hline hbare hblank⟩
  rw [← htake]
  exact StepsTo.step_eq (.paragraph hplace hline)

/-- A second blank line leaves the reader as it is, up to empty paragraphs. -/
lemma exists_resembles_blank (hcode : r.place.isCode = false) (hr : HavePlainGaps r.newest)
    (hb : IsBlankLine b) (hb' : IsBlankLine b') :
    ∃ next next', r.step b = .ok next ∧ next.step b' = .ok next' ∧ Resembles next next' := by
  cases hplace : r.place with
  | code code => simp [hplace, Place.isCode] at hcode
  | paragraphs =>
      obtain ⟨line, hline, bare, hbare, hblank⟩ := bare_of_isBlankLine fun c hc => (hb c hc).1
      obtain ⟨line', hline', bare', hbare', hblank'⟩ := bare_of_isBlankLine fun c hc => (hb' c hc).1
      obtain ⟨hstep, hempty⟩ := step_blank_of_paragraphs hplace hline hbare hblank
      have hnext : Resembles (r.pushText b) (r.pushText b) :=
        agreement_resembles.pushText b (.refl hr)
      have hopen : openParagraph? (r.pushText b).newest = none := by
        rw [pushText_eq, withText_of_isEmpty hempty]
        rfl
      have hplace' : (r.pushText b).place = .paragraphs := by rw [pushText_eq, hplace]
      obtain ⟨hstep', hempty'⟩ := step_blank_of_paragraphs hplace' hline' hbare' hblank'
      exact ⟨_, _, hstep, hstep', hnext.pushGap hopen hempty'⟩
  | lists opened blank =>
      exact ⟨_, _, step_of_isBlankLine hplace hb, step_of_isBlankLine rfl hb', .refl hr⟩

end Reader

/-- Whatever has been read, the empty paragraphs in it are those of blank lines. -/
lemma havePlainGaps_of_reads (h : Reads {} before last) : Reader.HavePlainGaps last.newest := by
  have hempty : Reader.Resembles {} {} := .refl fun p hp => absurd hp List.not_mem_nil
  obtain ⟨last', -, hlast⟩ := Reader.agreement_resembles.reads hempty h
  exact hlast.plain_left

/-- One blank line is as good as two, and two as good as one: what is read is the same, and it is
read in the same cases.  `before` must leave no block of code open, whose lines are kept as they
are. -/
theorem parse_blankRun {source source' : String} (hfences : ∀ raw ∈ before, ¬ IsFence raw)
    (hb : IsBlankLine b) (hb' : IsBlankLine b') (hlines : sourceLines source = before ++ b :: after)
    (hlines' : sourceLines source' = before ++ b :: b' :: after) (parsed : Parsed) :
    parse source = .ok parsed ↔ parse source' = .ok parsed := by
  have hblank {r : Reader} (hrun : Reads {} before r) :
      ∃ next next', r.step b = .ok next ∧ next.step b' = .ok next' ∧
        Reader.Resembles next next' :=
    Reader.exists_resembles_blank (hrun.isCode_place_of_forall hfences)
      (havePlainGaps_of_reads hrun) hb hb'
  rw [parse_eq_ok_iff, parse_eq_ok_iff, hlines, hlines']
  constructor
  · rintro ⟨last, hrun, rfl⟩
    obtain ⟨r, hbefore, hrun⟩ := hrun.exists_of_append
    obtain ⟨next, next', hnext, hnext', hresembles⟩ := hblank hbefore
    cases hrun with
    | cons hstep hafter =>
        obtain rfl := Except.ok.inj (hnext.symm.trans hstep)
        obtain ⟨last', hafter', hlast⟩ := hresembles.exists_reads hafter
        exact ⟨last', hbefore.append (.cons hnext (.cons hnext' hafter')), hlast.report_eq⟩
  · rintro ⟨last, hrun, rfl⟩
    obtain ⟨r, hbefore, hrun⟩ := hrun.exists_of_append
    obtain ⟨next, next', hnext, hnext', hresembles⟩ := hblank hbefore
    cases hrun with
    | cons hstep hrun =>
        obtain rfl := Except.ok.inj (hnext.symm.trans hstep)
        cases hrun with
        | cons hstep' hafter =>
            obtain rfl := Except.ok.inj (hnext'.symm.trans hstep')
            obtain ⟨last', hafter', hlast⟩ := hresembles.symm.exists_reads hafter
            exact ⟨last', hbefore.append (.cons hnext hafter'), hlast.report_eq⟩

/-- In a nested list, between an item and text that the first blank line keeps out of it. -/
theorem parse_blankRun_nestedList :
    (∀ raw ∈ ["# Words", "* one", "    1. two"], ¬ IsFence raw) ∧ IsBlankLine "\t " ∧
      IsBlankLine "" ∧
      sourceLines "# Words\n* one\n    1. two\n\t \n    three"
        = ["# Words", "* one", "    1. two"] ++ "\t " :: ["    three"] ∧
      sourceLines "# Words\n* one\n    1. two\n\t \n\n    three"
        = ["# Words", "* one", "    1. two"] ++ "\t " :: "" :: ["    three"] ∧
      ∃ parsed, parse "# Words\n* one\n    1. two\n\t \n    three" = .ok parsed ∧
        parse "# Words\n* one\n    1. two\n\t \n\n    three" = .ok parsed := by
  have hfences : ∀ raw ∈ ["# Words", "* one", "    1. two"], ¬ IsFence raw := by decide
  have hb : IsBlankLine "\t " := by decide
  have hb' : IsBlankLine "" := by decide
  have hlines : sourceLines "# Words\n* one\n    1. two\n\t \n    three"
      = ["# Words", "* one", "    1. two"] ++ "\t " :: ["    three"] := rfl
  have hlines' : sourceLines "# Words\n* one\n    1. two\n\t \n\n    three"
      = ["# Words", "* one", "    1. two"] ++ "\t " :: "" :: ["    three"] := rfl
  have hread :
      ∃ last, Reads {} (sourceLines "# Words\n* one\n    1. two\n\t \n    three") last := by
    rw [hlines]
    exact ⟨_, .cons rfl (.cons rfl (.cons rfl (.cons rfl (.cons rfl (.nil _)))))⟩
  obtain ⟨last, hread⟩ := hread
  have hparse := parse_eq_ok_iff.mpr ⟨last, hread, rfl⟩
  exact ⟨hfences, hb, hb', hlines, hlines', _, hparse,
    (parse_blankRun hfences hb hb' hlines hlines' _).mp hparse⟩

end ReportPress.Markup
