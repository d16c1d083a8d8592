import ReportPress.Proofs.Markup.AllowedLines
import ReportPress.Proofs.Markup.BlankRuns
import ReportPress.Proofs.Markup.LineOrder

/-!
# What a comment does

A comment leaves no trace of its own, but it is neither an item nor text: like any other such line
it ends the list that is open before it.  Where that list would have ended anyway, or none was open,
the comment can be left out.

* `OpenLists.goOn`, `listGoesOn` — whether a list that is open behind some lines goes on with the
  lines that follow.
* `Reader.ended` — the reader behind a comment: the open list has ended.
* **`parse_comment`** — a comment between two lines can always be read; it changes nothing about
  the document exactly if no list goes on there, and nothing about the settings ever.

**No list goes on.**  `Reader.resembles_ended` — the list ends with the next line that is not blank,
so both readers go on alike up to empty paragraphs.

**A list goes on.**  `exists_newest_of_goOn` — the list gets more lines than it had before the
comment, and what lies below it stays as it is.  So at the place in the document where the list
stands there is a longer one.
-/

namespace ReportPress.Markup

open Text

variable {r s next last : Reader} {raw comment : String} {line bare : Line}
variable {before after lines : List String} {opened : OpenLists} {blank : Bool}
variable {below : List (Node String)} {node : Node String}

/-! ## Lists that go on -/

/-- Whether open lists go on with some lines: the first one that is not blank is an item, or text
that no blank line precedes, and one of the lists takes it. -/
def OpenLists.goOn (opened : OpenLists) (blank : Bool) : List String → Bool
  | [] => false
  | raw :: rest =>
    match (classify raw).bind fun line => line.bare.map fun bare => (line, bare) with
    | .error _ => false
    | .ok (line, bare) =>
      if bare.isBlank then opened.goOn true rest
      else bare.mayGoOn blank && (opened.place? line bare).isSome

/-- Whether the list that the reader is in, if any, goes on with some lines. -/
def Reader.goesOn (r : Reader) (lines : List String) : Bool :=
  match r.place with
  | .lists opened blank => opened.goOn blank lines
  | _ => false

/-- Whether a list that is open behind some lines goes on with the lines that follow. -/
def listGoesOn (before after : List String) : Bool :=
  match readLines {} 1 before with
  | .ok r => r.goesOn after
  | .error _ => false

lemma OpenLists.goOn_cons (hline : classify raw = .ok line) (hbare : line.bare = .ok bare) :
    opened.goOn blank (raw :: lines) =
      if bare.isBlank then opened.goOn true lines
      else bare.mayGoOn blank && (opened.place? line bare).isSome := by
  simp only [goOn, hline, Except.bind, hbare, Except.map]

lemma Reader.goesOn_of_lists (h : r.place = .lists opened blank) :
    r.goesOn lines = opened.goOn blank lines := by rw [goesOn, h]

lemma listGoesOn_of_reads (h : Reads {} before r) : listGoesOn before after = r.goesOn after := by
  rw [listGoesOn, h.readLines_eq 1]

namespace Reader

/-! ## Behind a comment -/

/-- The reader with the open list ended.  A blank line at its end leaves an empty paragraph. -/
def ended (r : Reader) : Reader :=
  match r.place with
  | .lists opened blank =>
    { (if blank then (r.closeLists opened).push (.ofText "") else r.closeLists opened) with
      place := .paragraphs }
  | _ => r

lemma ended_of_paragraphs (h : r.place = .paragraphs) : r.ended = r := by rw [ended, h]

lemma ended_of_lists (h : r.place = .lists opened blank) :
    r.ended =
      { (if blank then (r.closeLists opened).push (.ofText "") else r.closeLists opened) with
        place := .paragraphs } := by rw [ended, h]

lemma finish_of_paragraphs (h : r.place = .paragraphs) : r.finish = r := by rw [finish, h]

lemma finish_of_lists (h : r.place = .lists opened blank) :
    r.finish = { r.closeLists opened with place := .paragraphs } := by rw [finish, h]

/-- A comment ends the open list and does nothing else. -/
lemma step_comment (hcode : r.place.isCode = false) (hcomment : IsComment comment) :
    r.step comment = .ok r.ended := by
  obtain ⟨text, hline⟩ := classify_of_isComment hcomment
  have hbare : Line.bare ⟨.comment, text, 0⟩ = .ok ⟨.comment, text, 0⟩ := rfl
  cases hplace : r.place with
  | paragraphs =>
      have htake : r.take comment ⟨.comment, text, 0⟩ = r := by rw [take, ← hplace]
      have hstep := (StepsTo.paragraph hplace hline).step_eq
      rw [htake] at hstep
      rw [hstep, ended_of_paragraphs hplace]
  | lists opened blank =>
      rw [(StepsTo.ends hplace hline hbare rfl rfl).step_eq, ended_of_lists hplace]
      rfl
  | code code => simp [hplace, Place.isCode] at hcode

/-- A comment ends a list as the end of the source does. -/
lemma resembles_ended (hcode : r.place.isCode = false) (hr : HavePlainGaps r.newest) :
    Resembles r.finish r.ended := by
  cases hplace : r.place with
  | code code => simp [hplace, Place.isCode] at hcode
  | paragraphs =>
      rw [finish_of_paragraphs hplace, ended_of_paragraphs hplace]
      exact .refl hr
  | lists opened blank =>
      have hfinish : Resembles r.finish r.finish := agreement_resembles.finish (.refl hr)
      rw [finish_of_lists hplace] at hfinish ⊢
      rw [ended_of_lists hplace]
      cases blank with
      | false => exact hfinish
      | true => exact hfinish.pushEmpty rfl

/-- Behind a comment more lines can be read than in the list that it has ended. -/
lemma allowsMore_ended (hcode : r.place.isCode = false) : AllowsMore r r.ended := by
  cases hplace : r.place with
  | code code => simp [hplace, Place.isCode] at hcode
  | paragraphs =>
      rw [ended_of_paragraphs hplace]
      exact ⟨rfl, .refl _⟩
  | lists opened blank =>
      rw [ended_of_lists hplace]
      refine ⟨?_, .paragraphs hcode⟩
      cases blank <;> rfl

/-- The end of a source changes no setting. -/
lemma settings_finish (r : Reader) : r.finish.settings = r.settings := by
  rw [finish]
  split <;> rfl

lemma place_finish (r : Reader) : r.finish.place = .paragraphs := by
  rw [finish]
  cases hplace : r.place with
  | paragraphs => exact hplace
  | lists opened blank => rfl
  | code code => rfl

/-! ## No list goes on -/

/-- A line that is read outside of lists and blocks of code. -/
lemma Resembles.exists_reads_take (h : Resembles r s) (hplace : s.place = .paragraphs)
    (hline : classify raw = .ok line) (hrun : Reads (r.take raw line) lines last) :
    ∃ last', Reads s (raw :: lines) last' ∧ Resembles last.finish last'.finish := by
  have hnext := agreement_resembles.take h raw line
  obtain ⟨last', hrun', hlast⟩ := hnext.exists_reads hrun
  exact ⟨last', .cons (StepsTo.paragraph hplace hline).step_eq hrun', hlast⟩

/-- Where no list goes on, a reader that has ended it reads the same. -/
lemma exists_resembles_of_goesOn_eq_false (hrun : Reads r lines last)
    (hcode : r.place.isCode = false) (hends : r.goesOn lines = false)
    (h : Resembles r.finish s) :
    ∃ last', Reads s lines last' ∧ Resembles last.finish last'.finish := by
  induction hrun generalizing s with
  | nil r =>
      have hplace : s.place = .paragraphs := by rw [← h.place_eq, place_finish]
      exact ⟨s, .nil s, by rwa [finish_of_paragraphs hplace]⟩
  | @cons r next last raw rest hstep hrest ih =>
      have hplace' : s.place = .paragraphs := by rw [← h.place_eq, place_finish]
      have hopen {opened : OpenLists} {blank : Bool} (hplace : r.place = .lists opened blank) :
          openParagraph? r.finish.newest = none := by
        rw [finish_of_lists hplace]
        rfl
      cases step_eq_ok_iff.mp hstep with
      | codeLine hplace hfence => simp [hplace, Place.isCode] at hcode
      | codeEnd hplace hfence => simp [hplace, Place.isCode] at hcode
      | paragraph hplace hline =>
          rw [finish_of_paragraphs hplace] at h
          exact h.exists_reads (.cons hstep hrest)
      | @blank opened blank line bare hplace hline hbare hblank =>
          obtain ⟨hstep', hempty⟩ := step_blank_of_paragraphs hplace' hline hbare hblank
          rw [goesOn_of_lists hplace, OpenLists.goOn_cons hline hbare, if_pos hblank] at hends
          have hgap : Resembles r.finish (s.pushText raw) :=
            h.pushGap (by rw [← h.open_eq, hopen hplace]) hempty
          rw [finish_of_lists hplace] at hgap
          obtain ⟨last', hrun', hlast⟩ := ih rfl hends hgap
          exact ⟨last', .cons hstep' hrun', hlast⟩
      | goesOn hplace hline hbare hblank hmay htaken =>
          rw [goesOn_of_lists hplace, OpenLists.goOn_cons hline hbare] at hends
          simp [hblank, hmay, htaken] at hends
      | refused hplace hline hbare hblank hmay htaken =>
          rw [finish_of_lists hplace] at h
          exact h.exists_reads_take hplace' hline hrest
      | @ends opened blank line bare hplace hline hbare hblank hmay =>
          cases blank with
          | false =>
              rw [finish_of_lists hplace] at h
              exact h.exists_reads_take hplace' hline hrest
          | true =>
              have hgap := (h.symm.pushEmpty (hopen hplace)).symm
              rw [finish_of_lists hplace] at hgap
              exact hgap.exists_reads_take hplace' hline hrest

/-! ## A list goes on -/

/-- What lies below a node that is no paragraph stays as it is. -/
lemma exists_newest_of_reads (hnode : ∀ p, node ≠ .text p) (top : List (Node String))
    (hrun : Reads r lines last) (hnewest : r.newest = top ++ node :: below) :
    ∃ top', last.finish.newest = top' ++ node :: below := by
  have hagree : AgreeAbove node below below r r := ⟨rfl, top, hnewest, hnewest⟩
  obtain ⟨last', -, hlast⟩ := (agreement_agreeAbove hnode).reads hagree hrun
  obtain ⟨-, top', htop', -⟩ := (agreement_agreeAbove hnode).finish hlast
  exact ⟨top', htop'⟩

/-- The same of a line that ends a list, and of the list. -/
lemma exists_newest_of_reads_take (hnode : ∀ p, node ≠ .text p) (top : List (Node String))
    (hrun : Reads (r.take raw line) lines last) (hnewest : r.newest = top ++ node :: below) :
    ∃ top', last.finish.newest = top' ++ node :: below := by
  have hagree : AgreeAbove node below below r r := ⟨rfl, top, hnewest, hnewest⟩
  obtain ⟨-, top', htop', -⟩ := (agreement_agreeAbove hnode).take hagree raw line
  exact exists_newest_of_reads hnode top' hrun htop'

/-- An open list becomes a node above what was read before it, and shows at least as many lines
as it did when it was open. -/
lemma exists_newest_of_lists (hrun : Reads r lines last) (hplace : r.place = .lists opened blank) :
    ∃ top shown, last.finish.newest = top ++ .list shown :: r.newest ∧
      opened.lines.length ≤ (shownLines [.list shown]).length := by
  induction hrun generalizing opened blank with
  | nil r =>
      refine ⟨[], opened.close, ?_, ?_⟩
      · rw [finish_of_lists hplace]
        rfl
      · rw [shownLines_close]
  | @cons r next last raw rest hstep hrest ih =>
      have hnode : ∀ p, Node.list opened.close ≠ .text p := by simp
      cases step_eq_ok_iff.mp hstep with
      | codeLine hcode hfence => simp [hplace] at hcode
      | codeEnd hcode hfence => simp [hplace] at hcode
      | paragraph hparagraphs hline => simp [hplace] at hparagraphs
      | blank hlists hline hbare hblank =>
          obtain ⟨rfl, rfl⟩ := Place.lists.inj (hplace.symm.trans hlists)
          exact ih rfl
      | goesOn hlists hline hbare hblank hmay htaken =>
          obtain ⟨rfl, rfl⟩ := Place.lists.inj (hplace.symm.trans hlists)
          obtain ⟨text, -, hlines⟩ := OpenLists.lines_of_place? htaken
          obtain ⟨top, shown, hnewest, hle⟩ := ih rfl
          rw [hlines, List.length_append] at hle
          exact ⟨top, shown, hnewest, by omega⟩
      | refused hlists hline hbare hblank hmay htaken =>
          obtain ⟨rfl, rfl⟩ := Place.lists.inj (hplace.symm.trans hlists)
          obtain ⟨top, htop⟩ := exists_newest_of_reads_take hnode [] hrest rfl
          exact ⟨top, opened.close, htop, by rw [shownLines_close]⟩
      | ends hlists hline hbare hblank hmay =>
          obtain ⟨rfl, rfl⟩ := Place.lists.inj (hplace.symm.trans hlists)
          have hclosed : ∃ top, (if blank then (r.closeLists opened).push (.ofText "")
              else r.closeLists opened).newest = top ++ .list opened.close :: r.newest := by
            cases blank with
            | false => exact ⟨[], rfl⟩
            | true => exact ⟨[.ofText ""], rfl⟩
          obtain ⟨top, htop⟩ := hclosed
          obtain ⟨top', htop'⟩ := exists_newest_of_reads_take hnode top hrest htop
          exact ⟨top', opened.close, htop', by rw [shownLines_close]⟩

/-- A list that goes on shows more lines than it did when it was open. -/
lemma exists_newest_of_goOn (hrun : Reads r lines last) (hplace : r.place = .lists opened blank)
    (hgoes : opened.goOn blank lines = true) :
    ∃ top shown, last.finish.newest = top ++ .list shown :: r.newest ∧
      opened.lines.length < (shownLines [.list shown]).length := by
  induction hrun generalizing blank with
  | nil r => simp [OpenLists.goOn] at hgoes
  | @cons r next last raw rest hstep hrest ih =>
      cases step_eq_ok_iff.mp hstep with
      | codeLine hcode hfence => simp [hplace] at hcode
      | codeEnd hcode hfence => simp [hplace] at hcode
      | paragraph hparagraphs hline => simp [hplace] at hparagraphs
      | blank hlists hline hbare hblank =>
          obtain ⟨rfl, rfl⟩ := Place.lists.inj (hplace.symm.trans hlists)
          rw [OpenLists.goOn_cons hline hbare, if_pos hblank] at hgoes
          exact ih rfl hgoes
      | goesOn hlists hline hbare hblank hmay htaken =>
          obtain ⟨rfl, rfl⟩ := Place.lists.inj (hplace.symm.trans hlists)
          obtain ⟨text, -, hlines⟩ := OpenLists.lines_of_place? htaken
          obtain ⟨top, shown, hnewest, hle⟩ := exists_newest_of_lists hrest rfl
          have hpos : 0 < (Text.lines text).length := by
            rw [Text.lines, List.length_map]
            exact List.length_pos_iff.mpr (splitOn_ne_nil _ _)
          rw [hlines, List.length_append] at hle
          exact ⟨top, shown, hnewest, by omega⟩
      | refused hlists hline hbare hblank hmay htaken =>
          obtain ⟨rfl, rfl⟩ := Place.lists.inj (hplace.symm.trans hlists)
          simp [OpenLists.goOn_cons hline hbare, hblank, htaken] at hgoes
      | ends hlists hline hbare hblank hmay =>
          obtain ⟨rfl, rfl⟩ := Place.lists.inj (hplace.symm.trans hlists)
          simp [OpenLists.goOn_cons hline hbare, hblank, hmay] at hgoes

/-- Behind a comment the list that it has ended stays as it was. -/
lemma exists_newest_of_reads_ended (hplace : r.place = .lists opened blank)
    (hrun : Reads r.ended lines last) :
    ∃ top, last.finish.newest = top ++ .list opened.close :: r.newest := by
  have hnode : ∀ p, Node.list opened.close ≠ .text p := by simp
  rw [ended_of_lists hplace] at hrun
  cases blank with
  | false => exact exists_newest_of_reads hnode [] hrun rfl
  | true => exact exists_newest_of_reads hnode [.ofText ""] hrun rfl

/-- Where a list goes on, a reader that has ended it reads another document. -/
lemma nodes_report_ne_of_goesOn {last' : Reader} (hrun : Reads r lines last)
    (hrun' : Reads r.ended lines last') (hgoes : r.goesOn lines = true) :
    last'.report.document.nodes ≠ last.report.document.nodes := by
  cases hplace : r.place with
  | paragraphs => simp [goesOn, hplace] at hgoes
  | code code => simp [goesOn, hplace] at hgoes
  | lists opened blank =>
      rw [goesOn_of_lists hplace] at hgoes
      obtain ⟨top, shown, hnewest, hlt⟩ := exists_newest_of_goOn hrun hplace hgoes
      obtain ⟨top', hnewest'⟩ := exists_newest_of_reads_ended hplace hrun'
      have hcut (shown : ItemList String) (top : List (Node String)) :
          (detect (top ++ .list shown :: r.newest).reverse).1
            = (detect r.newest.reverse).1 ++ .list shown :: (detect top.reverse).1 := by
        rw [List.reverse_append, List.reverse_cons, List.append_assoc, List.singleton_append,
          detect_append_block (by simp)]
      rw [nodes_report, nodes_report, hnewest, hnewest', hcut, hcut]
      intro heq
      obtain ⟨hlist, -⟩ := List.cons.inj (List.append_cancel_left heq)
      rw [← hlist, shownLines_close] at hlt
      exact Nat.lt_irrefl _ hlt

end Reader

/-! ## Whole sources -/

/-- A comment between two lines can be read wherever the lines can.  It changes no setting, and it
changes the document exactly if it ends a list that would have gone on. -/
theorem parse_comment {source source' : String} {parsed : Parsed}
    (hfences : ∀ raw ∈ before, ¬ IsFence raw) (hcomment : IsComment comment)
    (hlines : sourceLines source = before ++ after)
    (hlines' : sourceLines source' = before ++ comment :: after)
    (hparse : parse source = .ok parsed) :
    ∃ parsed', parse source' = .ok parsed' ∧
      parsed'.document.settings = parsed.document.settings ∧
      (parsed'.document = parsed.document ↔ listGoesOn before after = false) := by
  rw [parse_eq_ok_iff, hlines] at hparse
  obtain ⟨last, hrun, rfl⟩ := hparse
  obtain ⟨r, hbefore, hafter⟩ := hrun.exists_of_append
  have hcode : r.place.isCode = false := hbefore.isCode_place_of_forall hfences
  obtain ⟨last', hafter', hsettings, -⟩ := (Reader.allowsMore_ended hcode).reads hafter
  have hwhole : Reads {} (sourceLines source') last' := by
    rw [hlines']
    exact hbefore.append (.cons (Reader.step_comment hcode hcomment) hafter')
  refine ⟨last'.report, parse_eq_ok_iff.mpr ⟨last', hwhole, rfl⟩, ?_, ?_⟩
  · rw [Reader.report, Reader.report, Reader.settings_finish, Reader.settings_finish, hsettings]
  rw [listGoesOn_of_reads hbefore]
  constructor
  · intro hsame
    by_contra hgoes
    rw [Bool.not_eq_false] at hgoes
    exact Reader.nodes_report_ne_of_goesOn hafter hafter' hgoes (by rw [hsame])
  · intro hends
    have hresembles := Reader.resembles_ended hcode (havePlainGaps_of_reads hbefore)
    obtain ⟨last'', hafter'', hlast⟩ :=
      Reader.exists_resembles_of_goesOn_eq_false hafter hcode hends hresembles
    rw [hafter'.eq hafter'', hlast.report_eq]

/-- Behind a nested list and a blank line, before text that is no part of the list any more. -/
theorem parse_comment_behindList :
    ∃ parsed, parse "* one\n    1. two\n\nthree" = .ok parsed ∧
      (∀ raw ∈ ["* one", "    1. two", ""], ¬ IsFence raw) ∧ IsComment "<!-- four -->" ∧
      sourceLines "* one\n    1. two\n\nthree" = ["* one", "    1. two", ""] ++ ["three"] ∧
      sourceLines "* one\n    1. two\n\n<!-- four -->\nthree"
        = ["* one", "    1. two", ""] ++ "<!-- four -->" :: ["three"] ∧
      ∃ parsed', parse "* one\n    1. two\n\n<!-- four -->\nthree" = .ok parsed' ∧
        parsed'.document.settings = parsed.document.settings ∧
        (parsed'.document = parsed.document ↔
          listGoesOn ["* one", "    1. two", ""] ["three"] = false) ∧
        listGoesOn ["* one", "    1. two", ""] ["three"] = false := by
  have hlines : sourceLines "* one\n    1. two\n\nthree"
      = ["* one", "    1. two", ""] ++ ["three"] := rfl
  have hlines' : sourceLines "* one\n    1. two\n\n<!-- four -->\nthree"
      = ["* one", "    1. two", ""] ++ "<!-- four -->" :: ["three"] := rfl
  have hfences : ∀ raw ∈ ["* one", "    1. two", ""], ¬ IsFence raw := by decide
  have hcomment : IsComment "<!-- four -->" := by decide
  have hread : ∃ last, Reads {} (sourceLines "* one\n    1. two\n\nthree") last := by
    rw [hlines]
    exact ⟨_, .cons rfl (.cons rfl (.cons rfl (.cons rfl (.nil _))))⟩
  obtain ⟨last, hread⟩ := hread
  have hparse := parse_eq_ok_iff.mpr ⟨last, hread, rfl⟩
  obtain ⟨parsed', hparse', hsettings, hsame⟩ :=
    parse_comment hfences hcomment hlines hlines' hparse
  exact ⟨_, hparse, hfences, hcomment, hlines, hlines', parsed', hparse', hsettings, hsame, by
    decide⟩

/-- Between two items of a list a comment makes two lists of it. -/
theorem comment_between_items :
    (∀ raw ∈ ["* a"] ++ ["* b"], ¬ IsFence raw) ∧ IsComment "<!-- c -->" ∧
      sourceLines "* a\n* b" = ["* a"] ++ ["* b"] ∧
      sourceLines "* a\n<!-- c -->\n* b" = ["* a"] ++ "<!-- c -->" :: ["* b"] ∧
      ∃ parsed parsed', parse "* a\n* b" = .ok parsed ∧
        parse "* a\n<!-- c -->\n* b" = .ok parsed' ∧ parsed'.document ≠ parsed.document := by
  have hlines : sourceLines "* a\n* b" = ["* a"] ++ ["* b"] := rfl
  have hlines' : sourceLines "* a\n<!-- c -->\n* b" = ["* a"] ++ "<!-- c -->" :: ["* b"] := rfl
  have hread : Reads {} (sourceLines "* a\n* b")
      { place := .lists ⟨⟨false, 1, [.item "b", .item "a"]⟩, []⟩ false } := by
    rw [hlines]
    exact .cons rfl (.cons rfl (.nil _))
  have hread' : Reads {} (sourceLines "* a\n<!-- c -->\n* b")
      { place := .lists ⟨⟨false, 1, [.item "b"]⟩, []⟩ false
        newest := [.list ⟨{ ordered := false }, [.item "a"]⟩] } := by
    rw [hlines']
    exact .cons rfl (.cons rfl (.cons rfl (.nil _)))
  refine ⟨by decide, by decide, hlines, hlines', _, _, parse_of_reads hread, parse_of_reads hread',
    fun hsame => ?_⟩
  have hcount := congrArg (fun document => document.nodes.length) hsame
  exact absurd hcount (by decide)

end ReportPress.Markup
