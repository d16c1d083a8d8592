import ReportPress.Proofs.Typeset.BookmarkNames
import ReportPress.Proofs.Word.Bookmarks

/-!
# How bookmarks are numbered and closed

A bookmark goes around a group of runes, so it ends where the group ends, before another begins.
The numbers of bookmarks go on from one paragraph to the next.

* `bookmarksFrom` — bookmarks one after another, numbered without a gap.
* `Numbers` — setting runes makes such bookmarks and goes on counting behind them.
* `bookmarkLists` — looking at the bookmarks of each paragraph.
* `AreNumbered` — whether what is seen there are such bookmarks, in each paragraph and in all.

**One paragraph.**  `groupInlines_numbers` is the step from group to group, and `inlinesOf_numbers`
its result for all runes of a paragraph.

**A report.**  `areNumbered_acts` is the induction over acts.  `boundaries_typeset` — the bookmarks
of each paragraph are such bookmarks, and so are those of all paragraphs together, numbered from
zero.  So there is an anchor for each number (`startId_lt_of_typeset`).
-/

namespace ReportPress.Typeset

open Word (Boundary boundariesOf boundariesOf_append placesOf placesOf_append)

/-! ## Bookmarks one after another -/

/-- Bookmarks one after another, numbered from a number on. -/
def bookmarksFrom (n : Nat) : List String → List Boundary
  | [] => []
  | a :: as => .start n a :: .stop n :: bookmarksFrom (n + 1) as

lemma bookmarksFrom_append : ∀ (as bs : List String) (n : Nat),
    bookmarksFrom n (as ++ bs) = bookmarksFrom n as ++ bookmarksFrom (n + as.length) bs
  | [], _, _ => rfl
  | a :: as, bs, n => by
      have hlength : n + 1 + as.length = n + (a :: as).length := by
        rw [List.length_cons]
        omega
      rw [List.cons_append, bookmarksFrom, bookmarksFrom, bookmarksFrom_append as bs, hlength]
      rfl

lemma startIds_bookmarksFrom : ∀ (as : List String) (n : Nat),
    (bookmarksFrom n as).filterMap Boundary.startId? = List.range' n as.length
  | [], _ => rfl
  | _ :: as, n => congrArg (n :: ·) (startIds_bookmarksFrom as (n + 1))

lemma stopIds_bookmarksFrom : ∀ (as : List String) (n : Nat),
    (bookmarksFrom n as).filterMap Boundary.stopId? = List.range' n as.length
  | [], _ => rfl
  | _ :: as, n => congrArg (n :: ·) (stopIds_bookmarksFrom as (n + 1))

/-- Each of the bookmarks ends right where it has begun. -/
lemma exists_eq_append_of_mem_bookmarksFrom {id : Nat} {a : String} : ∀ {as : List String}
    {n : Nat}, .start id a ∈ bookmarksFrom n as →
      ∃ before after, bookmarksFrom n as = before ++ .start id a :: .stop id :: after
  | b :: as, n, h => by
      rw [bookmarksFrom, List.mem_cons, List.mem_cons] at h
      rcases h with h | h | h
      · obtain ⟨rfl, rfl⟩ := Boundary.start.inj h
        exact ⟨[], bookmarksFrom (id + 1) as, rfl⟩
      · exact nomatch h
      · obtain ⟨before, after, hcut⟩ := exists_eq_append_of_mem_bookmarksFrom h
        refine ⟨.start n b :: .stop n :: before, after, ?_⟩
        rw [bookmarksFrom, hcut]
        rfl

/-! ## Paragraphs -/

section Paragraphs

variable {size : Option Nat} {marks middle marks' : Bookmarks} {inlines rest : List Word.Inline}

lemma boundariesOf_runs (runs : List Word.Run) : boundariesOf (runs.map .run) = [] := by
  simp [boundariesOf, Boundary.ofInline?]

lemma boundariesOf_linkedRuns (size : Option Nat) (link : Option LinkTarget) (group : Runes) :
    boundariesOf (linkedRuns size link group) = [] := by
  cases link with
  | none => exact boundariesOf_runs _
  | some target => rfl

/-- What setting runes does to the numbers of bookmarks: it makes some of them, closes each, and
goes on counting behind them. -/
structure Numbers (marks : Bookmarks) (inlines : List Word.Inline) (marks' : Bookmarks) : Prop where
  boundaries : boundariesOf inlines = bookmarksFrom marks.next (placesOf inlines)
  next : marks'.next = marks.next + (placesOf inlines).length

lemma Numbers.nil (marks : Bookmarks) : Numbers marks [] marks := ⟨rfl, rfl⟩

lemma Numbers.append (h : Numbers marks inlines middle) (hrest : Numbers middle rest marks') :
    Numbers marks (inlines ++ rest) marks' := by
  constructor
  · rw [boundariesOf_append, placesOf_append, bookmarksFrom_append, h.boundaries, ← h.next,
      hrest.boundaries]
  · rw [hrest.next, h.next, placesOf_append, List.length_append, Nat.add_assoc]

lemma groupInlines_numbers (group : Runes) (marks : Bookmarks) :
    Numbers marks ((groupInlines size group).run marks).1
      ((groupInlines size group).run marks).2 := by
  have hboundaries : boundariesOf (groupContent size group) = [] := boundariesOf_linkedRuns _ _ _
  have hplaces : placesOf (groupContent size group) = [] := placesOf_linkedRuns _ _ _
  rw [run_groupInlines]
  cases fresh marks.anchors (groupAnchor? group).toList with
  | nil =>
      dsimp only
      constructor
      · rw [hboundaries, hplaces]
        rfl
      · rw [hplaces]
        rfl
  | cons a more =>
      have hplace : placesOf (.bookmarkStart marks.next a :: groupContent size group ++
          [.bookmarkEnd marks.next]) = [a] := by
        rw [List.cons_append, ← List.singleton_append, placesOf_append, placesOf_append, hplaces]
        rfl
      dsimp only
      constructor
      · rw [hplace, List.cons_append, ← List.singleton_append, boundariesOf_append,
          boundariesOf_append, hboundaries]
        rfl
      · rw [hplace]
        rfl

lemma mapM_groupInlines_numbers : ∀ (groups : List Runes) (marks : Bookmarks),
    Numbers marks ((groups.mapM (groupInlines size)).run marks).1.flatten
      ((groups.mapM (groupInlines size)).run marks).2
  | [], marks => .nil marks
  | g :: groups, marks => by
      rw [run_mapM_cons, List.flatten_cons]
      exact (groupInlines_numbers g marks).append (mapM_groupInlines_numbers groups _)

/-- Setting runes numbers their bookmarks without a gap, and closes each. -/
theorem inlinesOf_numbers (size : Option Nat) (runes : Runes) (marks : Bookmarks) :
    Numbers marks ((inlinesOf size runes).run marks).1 ((inlinesOf size runes).run marks).2 :=
  mapM_groupInlines_numbers (runeGroups runes) marks

end Paragraphs

/-! ## Reports -/

/-- Looking at the bookmarks of each paragraph that has some. -/
def bookmarkLists : Observation (List Boundary) where
  of inlines _ := if boundariesOf inlines = [] then [] else [boundariesOf inlines]
  of_pageBreak inlines numbering := by
    have hbreak : boundariesOf [.run .pageBreak] = [] := rfl
    rw [boundariesOf_append, hbreak, List.append_nil]
  of_picture picture := rfl
  of_runs runs := by
    have hruns : boundariesOf (runs.map .run) = [] := boundariesOf_runs runs
    rw [hruns, if_pos rfl]

lemma flatten_bookmarkLists (inlines : List Word.Inline) (numbering : Option (Nat × Nat)) :
    (bookmarkLists.of inlines numbering).flatten = boundariesOf inlines := by
  unfold bookmarkLists
  dsimp only
  split_ifs with h
  · rw [h]
    rfl
  · simp

lemma mem_bookmarkLists {inlines : List Word.Inline} {numbering : Option (Nat × Nat)}
    {bs : List Boundary} (h : bs ∈ bookmarkLists.of inlines numbering) :
    bs = boundariesOf inlines := by
  unfold bookmarkLists at h
  dsimp only at h
  split_ifs at h
  · exact absurd h List.not_mem_nil
  · exact List.mem_singleton.mp h

/-- Lists of bookmarks that come one after another in each list, and are numbered without a gap in
all of them. -/
structure AreNumbered (n : Nat) (lists : List (List Boundary)) (names : List String) : Prop where
  each : ∀ bs ∈ lists, ∃ m as, bs = bookmarksFrom m as
  all : lists.flatten = bookmarksFrom n names

lemma AreNumbered.append {n : Nat} {lists more : List (List Boundary)}
    {names moreNames : List String} (h : AreNumbered n lists names)
    (hmore : AreNumbered (n + names.length) more moreNames) :
    AreNumbered n (lists ++ more) (names ++ moreNames) := by
  constructor
  · intro bs hbs
    rcases List.mem_append.mp hbs with hbs | hbs
    · exact h.each bs hbs
    · exact hmore.each bs hbs
  · rw [List.flatten_append, bookmarksFrom_append, h.all, hmore.all]

lemma areNumbered_of_numbers {marks marks' : Bookmarks} {inlines : List Word.Inline}
    (h : Numbers marks inlines marks') (numbering : Option (Nat × Nat)) :
    AreNumbered marks.next (bookmarkLists.of inlines numbering) (placesOf inlines) := by
  constructor
  · intro bs hbs
    rw [mem_bookmarkLists hbs]
    exact ⟨_, _, h.boundaries⟩
  · rw [flatten_bookmarkLists, h.boundaries]

/-- The bookmarks that acts show are numbered without a gap. -/
theorem areNumbered_acts : ∀ (acts : List Act) (l : Ledger),
    AreNumbered l.bookmarks.next (bookmarkLists.acts l acts) (places.acts l acts)
  | [], _ => ⟨fun bs hbs => absurd hbs List.not_mem_nil, rfl⟩
  | a :: acts, l => by
      have hacts := areNumbered_acts acts (a.next l)
      have hshown (size : Option Nat) (runes : Runes) (numbering : Option (Nat × Nat))
          (hnext : (a.next l).bookmarks = ((inlinesOf size runes).run l.bookmarks).2) :
          let inlines := ((inlinesOf size runes).run l.bookmarks).1
          AreNumbered l.bookmarks.next
            (bookmarkLists.of inlines numbering ++ bookmarkLists.acts (a.next l) acts)
            (placesOf inlines ++ places.acts (a.next l) acts) := by
        have hnumbers := inlinesOf_numbers size runes l.bookmarks
        rw [hnext, hnumbers.next] at hacts
        exact (areNumbered_of_numbers hnumbers numbering).append hacts
      rw [Observation.acts, Observation.acts]
      cases a with
      | define => exact hacts
      | register level style => exact hacts
      | item level runes => exact hshown none runes _ rfl
      | paragraph size runes => exact hshown size runes _ rfl

section Reports

variable {files : Files} {directory : Path} {making : Making} {tools : Tools}
  {d : ResolvedDocument} {doc : Word.Document}

/-- The bookmarks of a paragraph come one after another, and all bookmarks of a document are
numbered from zero. -/
theorem boundaries_typeset (h : typeset files directory making d tools = .ok doc) :
    (∀ p ∈ doc.paragraphs, ∃ n as, boundariesOf p.inlines = bookmarksFrom n as) ∧
      boundariesOf doc.inlines = bookmarksFrom 0 (fresh [] (anchorsOf (documentRunes d))) := by
  obtain ⟨-, hlists⟩ := typeset_follows bookmarkLists h
  obtain ⟨hspans, hall⟩ := areNumbered_acts (documentActs d) {}
  rw [← hlists] at hspans hall
  constructor
  · intro p hp
    by_cases hnone : boundariesOf p.inlines = []
    · exact ⟨0, [], hnone⟩
    · refine hspans _ (List.mem_flatMap.mpr ⟨p, hp, ?_⟩)
      simp [Observation.paragraph, bookmarkLists, hnone]
  · have hparagraphs : (doc.paragraphs.flatMap bookmarkLists.paragraph).flatten
        = boundariesOf doc.inlines := by
      rw [← List.flatMap_id, List.flatMap_assoc, Word.Document.inlines, Word.inlinesIn,
        boundariesOf, List.filterMap_flatMap]
      congr 1
      funext p
      rw [List.flatMap_id]
      exact flatten_bookmarkLists p.inlines p.format.numbering
    rw [acts_places, actsRunes_documentActs, hparagraphs] at hall
    exact hall

/-- The number of a bookmark is less than the number of anchors in the report, so it fits in 32
bits whenever that does. -/
theorem startId_lt_of_typeset (h : typeset files directory making d tools = .ok doc)
    {b : Boundary} (hb : b ∈ boundariesOf doc.inlines) {id : Nat} (hid : b.startId? = some id) :
    id < (anchorsOf (documentRunes d)).length := by
  have hmem : id ∈ (boundariesOf doc.inlines).filterMap Boundary.startId? :=
    List.mem_filterMap.mpr ⟨b, hb, hid⟩
  rw [(boundaries_typeset h).2, startIds_bookmarksFrom, List.mem_range'_1, Nat.zero_add] at hmem
  exact hmem.2.trans_le sublist_fresh.length_le

end Reports

end ReportPress.Typeset
