import ReportPress.Proofs.Inline.ScriptRuns
import ReportPress.Proofs.Text.Words
import ReportPress.Proofs.Typeset.Inlines
import ReportPress.Proofs.Word.Soundness

/-!
# The text of a paragraph of runes

Runes become the contents of a paragraph in three steps: they are cut where the alphabet changes,
put in groups, and each of them is set as a run with its white space collapsed.

* `runesText` — the text of runes, the white space of each collapsed.

**Cutting by alphabet.**  No piece but the first begins with white space, so collapsing the pieces
is collapsing the whole: `join_splitScript`.

**Grouping.**  `runContents_inlinesOf` — the runs under links and in bookmarks are those of the cut
runes, in their order.

**The paragraph.**  `text_inlinesOf` — its text is that of the runes.
-/

namespace ReportPress

namespace Inline

open Text

/-! ## Cutting by alphabet -/

/-- Collapsing the pieces is collapsing the text. -/
lemma flatMap_collapse_cutScripts (cs : List Char) :
    (cutScripts none cs).flatMap (fun piece => collapse piece.1) = collapse cs := by
  have hcs := flatMap_cutScripts none cs
  obtain ⟨first, rest, hcut, hpieces⟩ := exists_cutScripts_eq none cs
  have hrest : ∀ piece ∈ rest.map Prod.fst, ∃ c text, piece = c :: text ∧ isBlank c = false := by
    intro piece hpiece
    obtain ⟨p, hp, rfl⟩ := List.mem_map.mp hpiece
    obtain ⟨c, text, s, htext, hs⟩ := hpieces.letter p hp
    exact ⟨c, text, htext, isBlank_of_ofChar? hs⟩
  rw [hcut, List.flatMap_def, List.map_cons] at hcs
  rw [hcut, ← hcs, collapse_flatten first.1 hrest, ← List.map_cons, List.flatMap_map]

/-- The pieces of a rune show its text. -/
lemma join_splitScript (r : Rune) :
    String.join ((splitScript r).map fun p => collapsed p.text) = collapsed r.text := by
  have htexts : (splitScript r).map Rune.text
      = (cutScripts none r.text.toList).map fun piece => String.ofList piece.1 := by
    unfold splitScript
    split
    case h_1 hcut => rw [hcut]; rfl
    case h_2 first rest hcut =>
      rw [hcut, List.map_cons, List.map_map, List.map_cons]
      rfl
  have hcollapsed : (splitScript r).map (fun p => collapsed p.text)
      = (cutScripts none r.text.toList).map fun piece => String.ofList (collapse piece.1) := by
    have hmap := congrArg (List.map collapsed) htexts
    rw [List.map_map, List.map_map] at hmap
    simpa [Function.comp_def, collapsed] using hmap
  rw [hcollapsed, ← String.toList_inj, String.toList_join, List.flatMap_map]
  simp only [String.toList_ofList, collapsed]
  exact flatMap_collapse_cutScripts r.text.toList

end Inline

/-! ## Grouping -/

namespace Typeset

open Inline Text

/-- The text of runes, the white space of each collapsed. -/
def runesText (runes : Runes) : String := String.join (runes.map fun r => collapsed r.text)

lemma runesText_cons (r : Rune) (runes : Runes) :
    runesText (r :: runes) = collapsed r.text ++ runesText runes := by
  rw [runesText, List.map_cons, String.join_cons]
  rfl

lemma runesText_append (before runes : Runes) :
    runesText (before ++ runes) = runesText before ++ runesText runes := by
  rw [runesText, List.map_append, String.join_append]
  rfl

lemma runesText_splitScripts (runes : Runes) :
    runesText (splitScripts runes) = runesText runes := by
  induction runes with
  | nil => rfl
  | cons r runes ih =>
      have hr : runesText (splitScript r) = collapsed r.text := join_splitScript r
      rw [splitScripts, List.flatMap_cons, ← splitScripts, runesText_append, hr, ih,
        runesText_cons]

/-- What runes show, one run for each. -/
def shownContents (runes : Runes) : List Word.RunContent :=
  runes.map fun r => .text (collapsed r.text)

/-- The contents of the runs in a paragraph. -/
def runContents (inlines : List Word.Inline) : List Word.RunContent :=
  (inlines.flatMap Word.Inline.runs).map Word.Run.content

@[simp] lemma runContents_append (before inlines : List Word.Inline) :
    runContents (before ++ inlines) = runContents before ++ runContents inlines := by
  rw [runContents, List.flatMap_append, List.map_append]
  rfl

lemma runContents_linkedRuns (size : Option Nat) (link : Option LinkTarget) (group : Runes) :
    runContents (linkedRuns size link group) = shownContents group := by
  have hlinked (r : Word.Run) : (Word.linkedRun r).content = r.content := by
    unfold Word.linkedRun
    split_ifs <;> rfl
  cases link with
  | none =>
      have hruns : ((group.map (runOf size)).map Word.Inline.run).flatMap Word.Inline.runs
          = group.map (runOf size) := by
        rw [List.flatMap_map]
        exact List.flatMap_singleton' _
      rw [runContents, linkedRuns, hruns, List.map_map]
      rfl
  | some target =>
      simp [linkedRuns, runContents, shownContents, Word.Inline.runs, Word.Inline.linkOver,
        hlinked, runOf]

/-- A bookmark around a group shows nothing. -/
lemma runContents_groupInlines (size : Option Nat) (group : Runes) (marks : Bookmarks) :
    runContents ((groupInlines size group).run marks).1 = shownContents group := by
  cases group with
  | nil => rfl
  | cons first rest =>
      have hcontent := runContents_linkedRuns size first.link (first :: rest)
      cases ha : first.anchor with
      | none =>
          simp only [groupInlines, List.head?_cons, ha]
          exact hcontent
      | some a =>
          simp only [groupInlines, List.head?_cons, ha, StateT.run_bind, run_claim]
          split_ifs
          · exact hcontent
          · have hmarked : runContents (.bookmarkStart marks.next a ::
                linkedRuns size first.link (first :: rest) ++ [.bookmarkEnd marks.next])
                  = runContents (linkedRuns size first.link (first :: rest)) := by
              simp [runContents, Word.Inline.runs]
            exact hmarked.trans hcontent

/-- The runs of a paragraph are those of the cut runes, in their order. -/
theorem runContents_inlinesOf (size : Option Nat) (runes : Runes) (marks : Bookmarks) :
    runContents ((inlinesOf size runes).run marks).1 = shownContents (splitScripts runes) := by
  have hgroups : ∀ (groups : List Runes) (marks : Bookmarks),
      runContents ((groups.mapM (groupInlines size)).run marks).1.flatten
        = shownContents groups.flatten := by
    intro groups
    induction groups with
    | nil => exact fun marks => rfl
    | cons g groups ih =>
        intro marks
        rw [run_mapM_cons, List.flatten_cons, runContents_append, runContents_groupInlines, ih,
          List.flatten_cons, shownContents, shownContents, shownContents, List.map_append]
  have hflatten : (runeGroups runes).flatten = splitScripts runes :=
    List.flatten_splitBy sameTarget (splitScripts runes)
  rw [← hflatten]
  exact hgroups (runeGroups runes) marks

/-! ## The paragraph -/

/-- The text that a run holds, if it holds text. -/
def textOf : Word.RunContent → String
  | .text s => s
  | _ => ""

/-- The text of the runs is all the text in a paragraph. -/
lemma text_eq_join (p : Word.Paragraph) :
    p.text = String.join ((p.inlines.flatMap Word.Inline.runs).map Word.Run.text) := by
  have hinline (i : Word.Inline) : i.text = String.join (i.runs.map Word.Run.text) := by
    cases i <;> simp [Word.Inline.text, Word.Inline.runs]
  rw [Word.Paragraph.text]
  induction p.inlines with
  | nil => rfl
  | cons i inlines ih =>
      rw [List.map_cons, String.join_cons, ih, hinline, List.flatMap_cons, List.map_append,
        String.join_append]

/-- A paragraph of runes has their text. -/
theorem text_inlinesOf {size : Option Nat} {runes : Runes} {marks : Bookmarks} {p : Word.Paragraph}
    (hp : p.inlines = ((inlinesOf size runes).run marks).1) : p.text = runesText runes := by
  have hcontents := runContents_inlinesOf size runes marks
  rw [← hp, runContents] at hcontents
  have htexts : (p.inlines.flatMap Word.Inline.runs).map Word.Run.text
      = (splitScripts runes).map fun r => collapsed r.text := by
    have hmap := congrArg (List.map textOf) hcontents
    rw [List.map_map, shownContents, List.map_map] at hmap
    exact hmap
  rw [text_eq_join, htexts, ← runesText, runesText_splitScripts]

end Typeset

end ReportPress
