import ReportPress.Inline.ScriptRuns
import ReportPress.Text.Words
import ReportPress.Word.Paragraph

/-!
# Runes as contents of a paragraph

Runes are cut where the alphabet changes, so that each run is marked with one language.  Runes
side by side that lead to the same place and mark the same place belong together: they make one
link, and stand in one bookmark.

* `Bookmarks` — the bookmarks placed so far.  A place is marked once, where it is named first.
* `runOf` — the run of a rune.
* `runeGroups` — runes that belong together.
* `inlinesOf` — the contents of a paragraph for runes.
-/

namespace ReportPress.Typeset

/-! ## Bookmarks -/

/-- The bookmarks placed so far. -/
structure Bookmarks where
  /-- The number of the next bookmark, which never gets beyond the number of anchors in a report
  (`startId_lt_of_typeset`). -/
  next : Nat := 0
  /-- The places that are marked. -/
  anchors : List String := []
deriving DecidableEq, Repr

/-- A number for a new bookmark, unless the place is marked already. -/
def Bookmarks.claim (anchor : String) : StateM Bookmarks (Option Nat) := do
  let marks ← get
  if anchor ∈ marks.anchors then return none
  set ({ next := marks.next + 1, anchors := anchor :: marks.anchors } : Bookmarks)
  return some marks.next

/-! ## Runs -/

/-- The run of a rune; the size is in half-points. -/
def runOf (size : Option Nat) (r : Rune) : Word.Run where
  content := .text (Text.collapsed r.text)
  format :=
    { bold := r.emphasis.bold
      italic := r.emphasis.italic
      color := r.color
      language := r.script.map Script.languageTag
      size }
  breakBefore := r.lineBreak

/-- Whether two runes lead to the same place and mark the same place. -/
def sameTarget (r s : Rune) : Bool := r.link = s.link && r.anchor = s.anchor

/-- Runes cut by alphabet, in groups that belong together. -/
def runeGroups (runes : Runes) : List Runes := (Inline.splitScripts runes).splitBy sameTarget

/-- The contents of a group of runes without a bookmark. -/
def linkedRuns (size : Option Nat) (link : Option LinkTarget) (group : Runes) :
    List Word.Inline :=
  let runs := group.map (runOf size)
  match link with
  | some target => [.linkOver target runs]
  | none => runs.map .run

/-- The contents of a group of runes.  A bookmark goes around all of it. -/
def groupInlines (size : Option Nat) (group : Runes) : StateM Bookmarks (List Word.Inline) := do
  let some first := group.head? | return []
  let content := linkedRuns size first.link group
  let some anchor := first.anchor | return content
  match ← Bookmarks.claim anchor with
  | none => return content
  | some id => return .bookmarkStart id anchor :: content ++ [.bookmarkEnd id]

/-- The contents of a paragraph for runes. -/
def inlinesOf (size : Option Nat) (runes : Runes) : StateM Bookmarks (List Word.Inline) := do
  let inlines ← (runeGroups runes).mapM (groupInlines size)
  return inlines.flatten

end ReportPress.Typeset
