import ReportPress.Proofs.Typeset.BookmarkSpans
import ReportPress.Proofs.Typeset.ReadingOrder
import ReportPress.Proofs.Typeset.ShownTexts
import ReportPress.Proofs.Word.Package

/-!
# Links inside a document lead somewhere

Anchors and links are copied and dropped where runes are cut, anchors that come again are passed
over, and the names of bookmarks and those in links are written far from each other.  A link to an
anchor of the report leads to a bookmark all the same.

* `internalLinks` — where the links of runes lead to inside the document, one for each group.
* `links` — looking at these links in paragraphs.

**Which links there are.**  Every rune with such a link is in a group that has it
(`mem_internalLinks`), and a report writes the links of its groups, in order
(`linkedPlaces_typeset`).

**The result.**  `internalLinks_resolve` — what is written for the links are the names for their
places, every anchor has a bookmark with the name for it, and the bookmarks are properly named,
numbered and closed.
-/

namespace ReportPress.Typeset

open Inline
open Word (Boundary bookmarkName bookmarkNames bodyXml boundariesOf linkedPlaces)

/-! ## Links of runes -/

/-- The place inside the document that a link leads to. -/
def place? : LinkTarget → Option String
  | .anchor name => some name
  | .external _ => none

/-- Where a group of runes leads to inside the document. -/
def groupPlace? (group : Runes) : Option String := (group.head?.bind Rune.link).bind place?

/-- Where the links of runes lead to inside the document, one for each group. -/
def internalLinks (runes : Runes) : List String := (runeGroups runes).filterMap groupPlace?

/-- A rune cut by alphabet leaves pieces, and all of them lead to the same place. -/
lemma exists_mem_splitScript (r : Rune) : ∃ piece ∈ splitScript r, piece.link = r.link := by
  rw [splitScript]
  cases hcut : cutScripts none r.text.toList with
  | nil => exact absurd hcut (cutScripts_ne_nil none _)
  | cons first rest => exact ⟨_, List.mem_cons_self, rfl⟩

/-- A rune that leads to a place is in a group that does. -/
lemma mem_internalLinks {runes : Runes} {r : Rune} {a : String} (hr : r ∈ runes)
    (hlink : r.link = some (.anchor a)) : a ∈ internalLinks runes := by
  obtain ⟨piece, hpiece, hsame⟩ := exists_mem_splitScript r
  have hsplit : piece ∈ (runeGroups runes).flatten := by
    rw [runeGroups, List.flatten_splitBy]
    exact List.mem_flatMap.mpr ⟨r, hr, hpiece⟩
  obtain ⟨group, hgroup, hpiece⟩ := List.mem_flatten.mp hsplit
  refine List.mem_filterMap.mpr ⟨group, hgroup, ?_⟩
  cases group with
  | nil => exact absurd hpiece List.not_mem_nil
  | cons first rest =>
      have hfirst := (eq_of_mem_group (List.isChain_of_mem_splitBy hgroup) piece hpiece).1
      have hplace : groupPlace? (first :: rest) = first.link.bind place? := rfl
      rw [hplace, ← hfirst, hsame, hlink]
      rfl

/-! ## Links of paragraphs -/

section Paragraphs

variable {size : Option Nat}

lemma linkedPlaces_append (before inlines : List Word.Inline) :
    linkedPlaces (before ++ inlines) = linkedPlaces before ++ linkedPlaces inlines :=
  List.filterMap_append

lemma linkedPlaces_runs (runs : List Word.Run) : linkedPlaces (runs.map .run) = [] := by
  simp [linkedPlaces, Word.linkedPlace?]

lemma linkedPlaces_groupContent (group : Runes) :
    linkedPlaces (groupContent size group) = (groupPlace? group).toList := by
  rw [groupContent, groupPlace?]
  cases group.head?.bind Rune.link with
  | none => exact linkedPlaces_runs _
  | some target => cases target <;> rfl

lemma linkedPlaces_groupInlines (group : Runes) (marks : Bookmarks) :
    linkedPlaces ((groupInlines size group).run marks).1 = (groupPlace? group).toList := by
  rw [run_groupInlines, ← linkedPlaces_groupContent]
  cases fresh marks.anchors (groupAnchor? group).toList with
  | nil => rfl
  | cons a more =>
      dsimp only
      rw [linkedPlaces_append]
      exact List.append_nil _

lemma linkedPlaces_mapM_groupInlines : ∀ (groups : List Runes) (marks : Bookmarks),
    linkedPlaces ((groups.mapM (groupInlines size)).run marks).1.flatten
      = groups.filterMap groupPlace?
  | [], _ => rfl
  | g :: groups, marks => by
      rw [run_mapM_cons, List.flatten_cons, linkedPlaces_append, linkedPlaces_groupInlines,
        linkedPlaces_mapM_groupInlines groups, List.filterMap_cons]
      cases groupPlace? g <;> rfl

/-- Setting runes writes the links of their groups. -/
lemma linkedPlaces_inlinesOf (runes : Runes) (marks : Bookmarks) :
    linkedPlaces ((inlinesOf size runes).run marks).1 = internalLinks runes :=
  linkedPlaces_mapM_groupInlines (runeGroups runes) marks

end Paragraphs

/-! ## Links of reports -/

/-- Looking at the links inside the document in paragraphs. -/
def links : Observation String where
  of inlines _ := linkedPlaces inlines
  of_pageBreak inlines numbering := by
    rw [linkedPlaces_append]
    exact List.append_nil _
  of_picture picture := rfl
  of_runs runs := linkedPlaces_runs runs

lemma acts_links : ∀ (acts : List Act) (l : Ledger),
    links.acts l acts = (actsTexts acts).flatMap internalLinks
  | [], _ => rfl
  | a :: acts, l => by
      rw [Observation.acts, acts_links acts, actsTexts_cons, List.flatMap_append]
      cases a with
      | define => rfl
      | register level style => rfl
      | item level runes =>
          rw [Act.texts, List.flatMap_singleton]
          exact congrArg (· ++ _) (linkedPlaces_inlinesOf runes l.bookmarks)
      | paragraph size runes =>
          rw [Act.texts, List.flatMap_singleton]
          exact congrArg (· ++ _) (linkedPlaces_inlinesOf runes l.bookmarks)

section Reports

variable {files : Files} {directory : Path} {making : Making} {tools : Tools}
  {d : ResolvedDocument} {doc : Word.Document}

/-- A report whose pictures all have captions writes the links of all its runes. -/
lemma linkedPlaces_typeset (h : typeset files directory making d tools = .ok doc)
    (hcaptions : ∀ n ∈ d.parts, IsCaptioned n) :
    linkedPlaces doc.inlines = d.texts.flatMap internalLinks := by
  obtain ⟨-, hlinks⟩ := typeset_follows links h
  rw [acts_links, actsTexts_documentActs hcaptions] at hlinks
  rw [← hlinks, Word.Document.inlines, Word.inlinesIn, linkedPlaces, List.filterMap_flatMap]
  rfl

/-- A bookmark of a report has its end behind it in the same paragraph. -/
lemma exists_content_of_start (h : typeset files directory making d tools = .ok doc) {id : Nat}
    {a : String} (hstart : .start id a ∈ boundariesOf doc.inlines) :
    ∃ before after, before ++ after ∈ contentsOf "w:p" [((bodyXml doc).run .initial).1] ∧
      toString id ∈ valuesIn "w:bookmarkStart" "w:id" before ∧
        toString id ∈ valuesIn "w:bookmarkEnd" "w:id" after := by
  rw [Word.Document.inlines, Word.inlinesIn, boundariesOf, List.filterMap_flatMap] at hstart
  obtain ⟨p, hp, hstart⟩ := List.mem_flatMap.mp hstart
  obtain ⟨n, as, hspans⟩ := (boundaries_typeset h).1 p hp
  have hmem : .start id a ∈ bookmarksFrom n as := hspans ▸ (hstart : _ ∈ boundariesOf p.inlines)
  obtain ⟨before, after, hcut⟩ := exists_eq_append_of_mem_bookmarksFrom hmem
  have hparagraph : p.inlines.filterMap Boundary.ofInline?
      = (before ++ [.start id a]) ++ (.stop id :: after) := by
    rw [List.append_assoc]
    exact hspans.trans hcut
  obtain ⟨front, back, hinlines, hfront, hback⟩ := List.filterMap_eq_append_iff.mp hparagraph
  refine Word.exists_content_of_hasElement (Word.hasElement_body doc .initial p hp) hinlines ?_ ?_
  · rw [boundariesOf, hfront]
    exact List.mem_filterMap.mpr ⟨.start id a, by simp, rfl⟩
  · rw [boundariesOf, hback]
    exact List.mem_filterMap.mpr ⟨.stop id, by simp, rfl⟩

/-- The identifiers of bookmarks differ, and each of them ends once. -/
lemma ids_typeset (h : typeset files directory making d tools = .ok doc) :
    ∃ count, valuesIn "w:bookmarkStart" "w:id" [((bodyXml doc).run .initial).1]
          = (List.range' 0 count).map toString ∧
        valuesIn "w:bookmarkEnd" "w:id" [((bodyXml doc).run .initial).1]
          = (List.range' 0 count).map toString ∧
        ((List.range' 0 count).map (toString : Nat → String)).Nodup := by
  refine ⟨(fresh [] (anchorsOf (documentRunes d))).length, ?_, ?_, ?_⟩
  · rw [Word.startIds_body, (boundaries_typeset h).2, startIds_bookmarksFrom]
  · rw [Word.stopIds_body, (boundaries_typeset h).2, stopIds_bookmarksFrom]
  · exact List.Nodup.map (fun m n => Word.toString_inj.mp) (List.nodup_range' 1)

/-- A report whose pictures all have captions writes a link to the bookmark with the name for its
place, for every link inside the document.  If a rune has the place as its anchor, there is a
bookmark with this name.  Each bookmark has a proper name and an identifier of its own, and exactly
one end, behind its beginning in the same paragraph. -/
theorem internalLinks_resolve (h : typeset files directory making d tools = .ok doc)
    (hcaptions : ∀ n ∈ d.parts, IsCaptioned n) :
    let xs := [((bodyXml doc).run .initial).1]
    valuesIn "w:hyperlink" "w:anchor" xs = (d.texts.flatMap internalLinks).map bookmarkName ∧
      (∀ text ∈ d.texts, ∀ r ∈ text, ∀ a, r.link = some (.anchor a) → a ∈ internalLinks text) ∧
      (∀ text ∈ d.texts, ∀ r ∈ text, ∀ a, r.anchor = some a →
        bookmarkName a ∈ valuesIn "w:bookmarkStart" "w:name" xs) ∧
      (∀ t ∈ tagsOf xs, t.name = "w:bookmarkStart" → ∃ id name,
        t.attributes = [⟨"w:id", id, false⟩, ⟨"w:name", name, false⟩] ∧
          Word.IsBookmarkName name ∧
          (valuesIn "w:bookmarkEnd" "w:id" xs).count id = 1 ∧
          ∃ before after, before ++ after ∈ contentsOf "w:p" xs ∧
            id ∈ valuesIn "w:bookmarkStart" "w:id" before ∧
              id ∈ valuesIn "w:bookmarkEnd" "w:id" after) ∧
      (valuesIn "w:bookmarkStart" "w:id" xs).Nodup := by
  intro xs
  obtain ⟨count, hstarts, hstops, hnodup⟩ := ids_typeset h
  refine ⟨?_, fun text _ r hr a => mem_internalLinks hr, ?_, ?_, hstarts ▸ hnodup⟩
  · rw [Word.linkNames_body, linkedPlaces_typeset h hcaptions]
  · intro text htext r hr a ha
    have hanchor : a ∈ anchorsOf (documentRunes d) := by
      rw [← actsRunes_documentActs, ← flatten_actsTexts, actsTexts_documentActs hcaptions]
      exact List.mem_filterMap.mpr ⟨r, List.mem_flatten.mpr ⟨text, htext, hr⟩, ha⟩
    have hfresh := mem_fresh.mpr ⟨hanchor, List.not_mem_nil⟩
    have hnames := bookmarkNames_typeset h
    rw [bookmarkNames] at hnames
    rw [hnames]
    exact List.mem_map_of_mem hfresh
  · intro t ht hname
    have hboundary : t ∈ (boundariesOf doc.inlines).map Boundary.tag := by
      rw [← Word.boundaryTags_body doc .initial]
      exact List.mem_filter.mpr ⟨ht, by simp [hname, Word.boundaryNames]⟩
    obtain ⟨b, hb, rfl⟩ := List.mem_map.mp hboundary
    cases b with
    | stop id =>
        have hother : "w:bookmarkEnd" ≠ "w:bookmarkStart" := by decide
        exact absurd hname hother
    | start id a =>
        have hid : toString id ∈ valuesIn "w:bookmarkEnd" "w:id" xs := by
          rw [hstops, ← hstarts, Word.startIds_body]
          exact List.mem_map_of_mem (List.mem_filterMap.mpr ⟨.start id a, hb, rfl⟩)
        have hcount := List.count_eq_one_of_mem (hstops ▸ hnodup) hid
        exact ⟨toString id, bookmarkName a, rfl, Word.isBookmarkName a, hcount,
          exists_content_of_start h hb⟩

end Reports

/-- A report with a link in the caption of a table to a place in a list, which is named again in
the caption of a picture, and a link from there to a cell of the table. -/
def crossLinkedReport : ResolvedDocument :=
  let caption : Runes := [{ text := "below", link := some (.anchor "place") }]
  let cell : Runes := [{ text := "x", anchor := some "cell-1" }]
  let item : Runes := [{ text := "here и здесь", anchor := some "place" }]
  let figure : Runes :=
    [{ text := "Figure", link := some (.anchor "cell-1"), anchor := some "place" }]
  let nodes : List (Node Runes) :=
    [.table (some caption) [[.ofText cell]] false, .list ⟨{ ordered := false }, [.item item]⟩,
      .image { alt := figure, source := "dot.gif" }]
  { sections := [{ pageStart := some 1, nodes }], settings := {} }

/-- The links of this report lead to a list and to a cell. -/
theorem internalLinks_resolve_crossLinkedReport :
    ∃ doc, typeset manifoldFiles ⟨"/"⟩ ⟨0, 0⟩ crossLinkedReport = .ok doc ∧
      (∀ n ∈ crossLinkedReport.parts, IsCaptioned n) ∧
      valuesIn "w:hyperlink" "w:anchor" [((bodyXml doc).run .initial).1] = ["place", "cell_1"] ∧
      (∀ name ∈ ["place", "cell_1"],
        name ∈ valuesIn "w:bookmarkStart" "w:name" [((bodyXml doc).run .initial).1]) ∧
      (valuesIn "w:bookmarkStart" "w:id" [((bodyXml doc).run .initial).1]).Nodup := by
  have hset : (typeset manifoldFiles ⟨"/"⟩ ⟨0, 0⟩ crossLinkedReport).isOk = true := by
    decide +kernel
  have hcaptions : ∀ n ∈ crossLinkedReport.parts, IsCaptioned n := by decide
  cases h : typeset manifoldFiles ⟨"/"⟩ ⟨0, 0⟩ crossLinkedReport with
  | error failure =>
      rw [h] at hset
      exact nomatch hset
  | ok doc =>
      obtain ⟨hlinks, -, hanchors, -, hnodup⟩ := internalLinks_resolve h hcaptions
      have hplaces : (crossLinkedReport.texts.flatMap internalLinks).map bookmarkName
          = ["place", "cell_1"] := by decide +kernel
      have hplace : bookmarkName "place" ∈ valuesIn "w:bookmarkStart" "w:name"
          [((bodyXml doc).run .initial).1] :=
        hanchors [{ text := "here и здесь", anchor := some "place" }] (by decide) _
          List.mem_cons_self "place" rfl
      have hcell : bookmarkName "cell-1" ∈ valuesIn "w:bookmarkStart" "w:name"
          [((bodyXml doc).run .initial).1] :=
        hanchors [{ text := "x", anchor := some "cell-1" }] (by decide) _
          List.mem_cons_self "cell-1" rfl
      exact ⟨doc, rfl, hcaptions, hlinks.trans hplaces,
        List.forall_mem_cons.mpr ⟨hplace, List.forall_mem_singleton.mpr hcell⟩, hnodup⟩

end ReportPress.Typeset
