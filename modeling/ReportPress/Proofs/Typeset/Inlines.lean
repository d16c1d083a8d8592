import Mathlib.Data.List.SplitBy
import ReportPress.Proofs.Document.Parts
import ReportPress.Proofs.Inline.ScriptRuns
import ReportPress.Proofs.Word.Paragraphs
import ReportPress.Typeset.Inlines

/-!
# Runes as contents of a paragraph

What `inlinesOf` makes of runes, as far as bookmarks and page breaks are concerned.

* `fresh` — the names among some others that are new, each once.
* `anchorsOf` — the places that runes name.
* `Marks` — setting runes marks the places that are asked for and new, and sets no page break.

**Which places are asked for.**  `fresh_runeGroups` — those that the runes name.  Neither the cuts
between alphabets nor the groups matter: a cut leaves the anchor on one piece, and a group has one
anchor.

**One paragraph.**  `groupInlines_marks` is the step from group to group, and `inlinesOf_marks` its
result for all runes of a paragraph.
-/

namespace ReportPress.Typeset

open Inline
open Word (placesOf placesOf_append)

variable {size : Option Nat} {marks : Bookmarks} {known : List String}

/-! ## Names that are new -/

/-- The names that are not known yet, each at its first occurrence. -/
def fresh (known : List String) : List String → List String
  | [] => []
  | a :: as => if a ∈ known then fresh known as else a :: fresh (a :: known) as

lemma mem_fresh {a : String} : ∀ {as known : List String},
    a ∈ fresh known as ↔ a ∈ as ∧ a ∉ known
  | [], known => by simp [fresh]
  | b :: as, known => by
      rw [fresh]
      split_ifs with hb
      · rw [mem_fresh, List.mem_cons]
        constructor
        · exact fun h => ⟨Or.inr h.1, h.2⟩
        · rintro ⟨rfl | h, ha⟩
          · exact absurd hb ha
          · exact ⟨h, ha⟩
      · rw [List.mem_cons, mem_fresh, List.mem_cons, List.mem_cons, not_or]
        constructor
        · rintro (rfl | ⟨h, hne, ha⟩)
          · exact ⟨Or.inl rfl, hb⟩
          · exact ⟨Or.inr h, ha⟩
        · rintro ⟨h, ha⟩
          by_cases hab : a = b
          · exact Or.inl hab
          · exact Or.inr ⟨h.resolve_left hab, hab, ha⟩

lemma nodup_fresh : ∀ {as known : List String}, (fresh known as).Nodup
  | [], known => List.nodup_nil
  | b :: as, known => by
      rw [fresh]
      split_ifs with hb
      · exact nodup_fresh
      · refine List.nodup_cons.mpr ⟨fun h => ?_, nodup_fresh⟩
        exact (mem_fresh.mp h).2 List.mem_cons_self

lemma sublist_fresh : ∀ {as known : List String}, (fresh known as).Sublist as
  | [], known => List.Sublist.refl []
  | b :: as, known => by
      rw [fresh]
      split_ifs with hb
      · exact sublist_fresh.cons b
      · exact sublist_fresh.cons_cons b

/-- What is known matters only as a set. -/
lemma fresh_congr : ∀ {as known known' : List String}, (∀ a, a ∈ known ↔ a ∈ known') →
    fresh known as = fresh known' as
  | [], known, known', h => rfl
  | b :: as, known, known', h => by
      have hcons : ∀ a, a ∈ b :: known ↔ a ∈ b :: known' := by
        intro a
        rw [List.mem_cons, List.mem_cons, h]
      rw [fresh, fresh, fresh_congr h, fresh_congr hcons]
      simp only [h]

lemma fresh_append : ∀ (before as known : List String),
    fresh known (before ++ as) = fresh known before ++ fresh (before ++ known) as
  | [], as, known => rfl
  | b :: before, as, known => by
      rw [List.cons_append, fresh, fresh]
      split_ifs with hb
      · have hknown : ∀ a, a ∈ before ++ known ↔ a ∈ b :: before ++ known := by
          intro a
          simp only [List.mem_append, List.mem_cons]
          constructor
          · rintro (h | h)
            · exact Or.inl (Or.inr h)
            · exact Or.inr h
          · rintro ((rfl | h) | h)
            · exact Or.inr hb
            · exact Or.inl h
            · exact Or.inr h
        rw [fresh_append before, fresh_congr hknown]
      · have hknown : ∀ a, a ∈ before ++ b :: known ↔ a ∈ b :: before ++ known := by
          intro a
          simp only [List.mem_append, List.mem_cons]
          tauto
        rw [fresh_append before, fresh_congr hknown]
        rfl

/-! ## Anchors -/

/-- The places that runes mark, in order. -/
def anchorsOf (runes : Runes) : List String := runes.filterMap Rune.anchor

@[simp] lemma anchorsOf_append (before runes : Runes) :
    anchorsOf (before ++ runes) = anchorsOf before ++ anchorsOf runes :=
  List.filterMap_append

/-- The place that a group of runes marks. -/
def groupAnchor? (group : Runes) : Option String := group.head?.bind Rune.anchor

/-- Cutting a rune by alphabet leaves its anchor on the first piece. -/
lemma anchorsOf_splitScript (r : Rune) : anchorsOf (splitScript r) = r.anchor.toList := by
  rw [splitScript]
  cases hcut : cutScripts none r.text.toList with
  | nil => exact absurd hcut (cutScripts_ne_nil none _)
  | cons first rest =>
      have hrest : (rest.map fun piece => { scriptPiece r piece with anchor := none }).filterMap
          Rune.anchor = [] := by
        rw [List.filterMap_eq_nil_iff]
        intro p hp
        obtain ⟨piece, -, rfl⟩ := List.mem_map.mp hp
        rfl
      rw [anchorsOf, List.filterMap_cons]
      simp only [hrest]
      cases h : r.anchor <;> simp [scriptPiece, Rune.part, h]

lemma anchorsOf_splitScripts (runes : Runes) :
    anchorsOf (splitScripts runes) = anchorsOf runes := by
  induction runes with
  | nil => rfl
  | cons r runes ih =>
      rw [splitScripts, List.flatMap_cons, anchorsOf_append, anchorsOf_splitScript, ← splitScripts,
        ih, anchorsOf, anchorsOf, List.filterMap_cons]
      cases r.anchor <;> rfl

/-- All runes of a group lead to the same place as the first, and mark the same place. -/
lemma eq_of_mem_group {first : Rune} : ∀ {rest : Runes},
    (first :: rest).IsChain (fun r s => sameTarget r s = true) →
      ∀ r ∈ first :: rest, r.link = first.link ∧ r.anchor = first.anchor := by
  intro rest hchain r hr
  induction rest generalizing first with
  | nil =>
      rw [List.mem_singleton.mp hr]
      exact ⟨rfl, rfl⟩
  | cons second rest ih =>
      obtain ⟨hsame, hchain⟩ := List.isChain_cons_cons.mp hchain
      simp only [sameTarget, Bool.and_eq_true, decide_eq_true_eq] at hsame
      rcases List.mem_cons.mp hr with rfl | hr
      · exact ⟨rfl, rfl⟩
      · obtain ⟨hlink, hanchor⟩ := ih hchain hr
        exact ⟨hlink.trans hsame.1.symm, hanchor.trans hsame.2.symm⟩

lemma anchor_eq_groupAnchor? {group : Runes}
    (h : group.IsChain (fun r s => sameTarget r s = true)) :
    ∀ r ∈ group, r.anchor = groupAnchor? group := by
  cases group with
  | nil => exact fun r hr => absurd hr List.not_mem_nil
  | cons first rest => exact fun r hr => (eq_of_mem_group h r hr).2

/-- A group has one anchor, or none. -/
lemma anchorsOf_group {group : Runes} (h : ∀ r ∈ group, r.anchor = groupAnchor? group) :
    anchorsOf group = (groupAnchor? group).toList.flatMap (List.replicate group.length) := by
  have hconst : anchorsOf group = group.filterMap fun _ => groupAnchor? group :=
    List.filterMap_congr h
  rw [hconst]
  cases groupAnchor? group with
  | none => simp
  | some a =>
      have hsome : group.filterMap (fun _ => some a) = group.map fun _ => a :=
        congrFun List.filterMap_eq_map' group
      simp [hsome]

lemma fresh_replicate {n : Nat} (hn : n ≠ 0) (a : String) (known : List String) :
    fresh known (List.replicate n a) = fresh known [a] := by
  have hknown : ∀ (n : Nat) (known : List String), a ∈ known →
      fresh known (List.replicate n a) = [] := by
    intro n known ha
    refine List.eq_nil_iff_forall_not_mem.mpr fun b hb => ?_
    obtain ⟨hb, hnot⟩ := mem_fresh.mp hb
    rw [List.eq_of_mem_replicate hb] at hnot
    exact hnot ha
  obtain ⟨n, rfl⟩ := Nat.exists_eq_succ_of_ne_zero hn
  rw [List.replicate_succ, fresh, fresh]
  split_ifs with ha
  · rw [hknown n known ha]
    rfl
  · rw [hknown n (a :: known) List.mem_cons_self]
    rfl

/-- A group marks one place, however many runes it has. -/
lemma fresh_group {group : Runes} (hne : group ≠ [])
    (h : ∀ r ∈ group, r.anchor = groupAnchor? group) (known : List String) :
    fresh known (anchorsOf group) = fresh known (groupAnchor? group).toList := by
  rw [anchorsOf_group h]
  cases groupAnchor? group with
  | none => rfl
  | some a =>
      rw [Option.toList_some, List.flatMap_singleton]
      exact fresh_replicate (by simpa using hne) a known

lemma mem_anchorsOf_group {group : Runes} (hne : group ≠ [])
    (h : ∀ r ∈ group, r.anchor = groupAnchor? group) {a : String} :
    a ∈ anchorsOf group ↔ a ∈ (groupAnchor? group).toList := by
  rw [anchorsOf_group h]
  cases groupAnchor? group with
  | none => simp
  | some b => simp [List.mem_replicate, hne]

/-- Cutting runes and putting them in groups changes nothing about the places that are new. -/
theorem fresh_runeGroups (runes : Runes) (known : List String) :
    fresh known ((runeGroups runes).filterMap groupAnchor?) = fresh known (anchorsOf runes) := by
  have hgroups : ∀ (groups : List Runes) (known : List String),
      (∀ g ∈ groups, g ≠ [] ∧ ∀ r ∈ g, r.anchor = groupAnchor? g) →
        fresh known (groups.filterMap groupAnchor?) = fresh known (anchorsOf groups.flatten) := by
    intro groups
    induction groups with
    | nil => exact fun known _ => rfl
    | cons g groups ih =>
        intro known h
        obtain ⟨hne, hg⟩ := h g List.mem_cons_self
        have hrest : ∀ g ∈ groups, g ≠ [] ∧ ∀ r ∈ g, r.anchor = groupAnchor? g :=
          fun g hg => h g (List.mem_cons_of_mem _ hg)
        have hfilter : (g :: groups).filterMap groupAnchor?
            = (groupAnchor? g).toList ++ groups.filterMap groupAnchor? := by
          rw [List.filterMap_cons]
          cases groupAnchor? g <;> rfl
        have hknown : ∀ a, a ∈ (groupAnchor? g).toList ++ known ↔ a ∈ anchorsOf g ++ known := by
          intro a
          rw [List.mem_append, List.mem_append, mem_anchorsOf_group hne hg]
        rw [hfilter, List.flatten_cons, anchorsOf_append, fresh_append, fresh_append,
          fresh_group hne hg, fresh_congr hknown, ih _ hrest]
  have hruns : ∀ g ∈ runeGroups runes, g ≠ [] ∧ ∀ r ∈ g, r.anchor = groupAnchor? g := by
    intro g hg
    exact ⟨List.ne_nil_of_mem_splitBy hg, anchor_eq_groupAnchor? (List.isChain_of_mem_splitBy hg)⟩
  rw [hgroups _ known hruns, runeGroups, List.flatten_splitBy, anchorsOf_splitScripts]

/-! ## Contents -/

/-- Whether something in a paragraph is a page break. -/
def isPageBreak : Word.Inline → Bool
  | .run r => r.content = .pageBreak
  | _ => false

lemma placesOf_linkedRuns (size : Option Nat) (link : Option LinkTarget) (group : Runes) :
    placesOf (linkedRuns size link group) = [] := by
  cases link with
  | none => simp [linkedRuns, placesOf]
  | some target => simp [linkedRuns, placesOf, Word.Inline.linkOver]

lemma isPageBreak_linkedRuns {link : Option LinkTarget} {group : Runes} {i : Word.Inline}
    (h : i ∈ linkedRuns size link group) : isPageBreak i = false := by
  cases link with
  | none =>
      simp only [linkedRuns, List.map_map, List.mem_map] at h
      obtain ⟨r, -, rfl⟩ := h
      simp [isPageBreak, runOf]
  | some target =>
      simp only [linkedRuns, List.mem_singleton] at h
      rw [h]
      rfl

lemma run_claim (a : String) (marks : Bookmarks) :
    (Bookmarks.claim a).run marks =
      if a ∈ marks.anchors then (none, marks)
      else (some marks.next, { next := marks.next + 1, anchors := a :: marks.anchors }) := by
  have hclaim : (Bookmarks.claim a).run marks =
      StateT.run (m := Id) (if a ∈ marks.anchors then pure none else do
        set ({ next := marks.next + 1, anchors := a :: marks.anchors } : Bookmarks)
        return some marks.next) marks := rfl
  rw [hclaim]
  split_ifs <;> rfl

/-- The contents of a group of runes without a bookmark.  A group has one link, or none. -/
def groupContent (size : Option Nat) (group : Runes) : List Word.Inline :=
  linkedRuns size (group.head?.bind Rune.link) group

/-- What a group of runes comes to: its contents, in a bookmark if its place is new. -/
lemma run_groupInlines (size : Option Nat) (group : Runes) (marks : Bookmarks) :
    (groupInlines size group).run marks =
      match fresh marks.anchors (groupAnchor? group).toList with
      | [] => (groupContent size group, marks)
      | a :: _ =>
        (.bookmarkStart marks.next a :: groupContent size group ++ [.bookmarkEnd marks.next],
          { next := marks.next + 1, anchors := a :: marks.anchors }) := by
  cases group with
  | nil => rfl
  | cons first rest =>
      have hcontent : groupContent size (first :: rest)
          = linkedRuns size first.link (first :: rest) := rfl
      have hfirst : groupAnchor? (first :: rest) = first.anchor := rfl
      rw [hcontent, hfirst]
      cases ha : first.anchor with
      | none =>
          simp only [groupInlines, List.head?_cons, ha]
          rfl
      | some a =>
          simp only [groupInlines, List.head?_cons, ha, Option.toList_some, fresh, StateT.run_bind,
            run_claim]
          split_ifs <;> rfl

/-- What setting runes does to the bookmarks, and what it makes of them: of the requested places
those are marked that are new, and known from then on. -/
structure Marks (requested : List String) (marks : Bookmarks) (inlines : List Word.Inline)
    (marks' : Bookmarks) : Prop where
  places : placesOf inlines = fresh marks.anchors requested
  anchors : marks'.anchors = (placesOf inlines).reverse ++ marks.anchors
  noBreaks : ∀ i ∈ inlines, isPageBreak i = false

lemma Marks.nil (marks : Bookmarks) : Marks [] marks [] marks := ⟨rfl, rfl, by simp⟩

/-- Afterwards the requested places are known, besides those that were. -/
lemma Marks.mem_anchors {requested : List String} {marks marks' : Bookmarks}
    {inlines : List Word.Inline} (h : Marks requested marks inlines marks') (a : String) :
    a ∈ requested ++ marks.anchors ↔ a ∈ marks'.anchors := by
  rw [h.anchors, h.places, List.mem_append, List.mem_append, List.mem_reverse, mem_fresh]
  tauto

lemma Marks.append {requested more : List String} {marks middle marks' : Bookmarks}
    {inlines rest : List Word.Inline} (h : Marks requested marks inlines middle)
    (hmore : Marks more middle rest marks') :
    Marks (requested ++ more) marks (inlines ++ rest) marks' := by
  refine ⟨?_, ?_, ?_⟩
  · rw [placesOf_append, h.places, hmore.places, fresh_append, fresh_congr h.mem_anchors]
  · rw [hmore.anchors, h.anchors, placesOf_append, List.reverse_append, List.append_assoc]
  · intro i hi
    rcases List.mem_append.mp hi with hi | hi
    · exact h.noBreaks i hi
    · exact hmore.noBreaks i hi

lemma groupInlines_marks (group : Runes) (marks : Bookmarks) :
    Marks (groupAnchor? group).toList marks ((groupInlines size group).run marks).1
      ((groupInlines size group).run marks).2 := by
  have hplaces : placesOf (groupContent size group) = [] := placesOf_linkedRuns _ _ _
  have hbreaks : ∀ i ∈ groupContent size group, isPageBreak i = false :=
    fun i hi => isPageBreak_linkedRuns hi
  rw [run_groupInlines]
  have hlength : (fresh marks.anchors (groupAnchor? group).toList).length ≤ 1 := by
    cases groupAnchor? group with
    | none => simp [fresh]
    | some a =>
        rw [Option.toList_some, fresh, fresh]
        split_ifs <;> simp [fresh]
  cases hfresh : fresh marks.anchors (groupAnchor? group).toList with
  | nil => exact ⟨by rw [hplaces, hfresh], by rw [hplaces]; rfl, hbreaks⟩
  | cons a rest =>
      rw [hfresh] at hlength
      have hrest : rest = [] := by simpa using hlength
      have hall : placesOf (.bookmarkStart marks.next a :: groupContent size group ++
          [.bookmarkEnd marks.next]) = [a] := by
        have hend : placesOf (groupContent size group ++ [.bookmarkEnd marks.next]) = [] := by
          rw [placesOf_append, hplaces]
          rfl
        rw [List.cons_append]
        exact congrArg (a :: ·) hend
      refine ⟨by rw [hall, hfresh, hrest], by rw [hall]; rfl, ?_⟩
      intro i hi
      simp only [List.cons_append, List.mem_cons, List.mem_append, List.not_mem_nil,
        or_false] at hi
      rcases hi with rfl | hi | rfl
      · rfl
      · exact hbreaks i hi
      · rfl

lemma mapM_groupInlines_marks (size : Option Nat) : ∀ (groups : List Runes) (marks : Bookmarks),
    Marks (groups.filterMap groupAnchor?) marks
      ((groups.mapM (groupInlines size)).run marks).1.flatten
      ((groups.mapM (groupInlines size)).run marks).2
  | [], marks => .nil marks
  | g :: groups, marks => by
      have hrequested : (g :: groups).filterMap groupAnchor?
          = (groupAnchor? g).toList ++ groups.filterMap groupAnchor? := by
        rw [List.filterMap_cons]
        cases groupAnchor? g <;> rfl
      rw [run_mapM_cons, hrequested, List.flatten_cons]
      exact (groupInlines_marks g marks).append (mapM_groupInlines_marks size groups _)

/-- Setting runes marks the places of their anchors that are new. -/
theorem inlinesOf_marks (size : Option Nat) (runes : Runes) (marks : Bookmarks) :
    Marks (anchorsOf runes) marks ((inlinesOf size runes).run marks).1
      ((inlinesOf size runes).run marks).2 := by
  obtain ⟨hplaces, hanchors, hbreaks⟩ :=
    mapM_groupInlines_marks size (runeGroups runes) marks
  rw [fresh_runeGroups] at hplaces
  exact ⟨hplaces, hanchors, hbreaks⟩

end ReportPress.Typeset
