import ReportPress.Proofs.Document.Traversal
import ReportPress.Proofs.Typeset.ParagraphText

/-!
# What links and bookmarks cover

Runes that lead to one place and mark one place belong together: one link is to hold their texts,
and one bookmark is to stand around them.  But runes are cut by alphabet before they are grouped,
and only the first piece of a rune keeps its anchor.

* `IsMixed` — a rune with letters of both alphabets, which is one that is cut.
* `blocks` — the runes that belong together; `AreBlocks` says what is so about them.
* `CoversLabels` — each block has its link around its whole text, and each new place its bookmark
  around the whole block.
* `KeepsLabel` — a block that is set as one group, or one that has nothing to be covered.

**Cutting.**  A block that no anchor is lost from is a block when it is cut
(`IsBlock.splitScripts`).  From any other, a first group comes off
(`IsBlock.exists_splitScripts_eq`).

**Setting.**  `setPieces_kept` — a block that keeps its label is set as one group, which covers it
(`CoversLabels.cons`).  From a block that does not, some text of the link is missing
(`not_coversLabels_of_link`) or some content of the bookmark (`not_coversLabels_of_new`).

**The result.**  `coversLabels_inlinesOf` — the cut runes are always covered, and the runes as they
are given just when all their blocks keep their labels.
-/

namespace ReportPress.Typeset

open Inline Text
open Word (placesOf placesOf_append)

variable {size : Option Nat} {r p : Rune} {runes pieces rest b : Runes} {marks : Bookmarks}

/-! ## Runes of two alphabets -/

/-- Whether a rune has letters of both alphabets. -/
def IsMixed (r : Rune) : Prop :=
  (∃ c ∈ r.text.toList, Script.ofChar? c = some .latin) ∧
    ∃ c ∈ r.text.toList, Script.ofChar? c = some .cyrillic

/-- Such a rune is cut, and no other is. -/
lemma isMixed_iff : IsMixed r ↔ (splitScript r).tail ≠ [] := by
  constructor
  · rintro ⟨⟨c, hc, hlatin⟩, d, hd, hcyrillic⟩ htail
    have hcut := isCutByScript_splitScript r
    obtain ⟨p, more, hsplit⟩ := List.exists_cons_of_ne_nil hcut.ne_nil
    rw [hsplit, List.tail_cons] at htail
    rw [hsplit, htail] at hcut
    have htext : p.text = r.text := by simpa [plainText] using hcut.text
    have hown := hcut.own p List.mem_cons_self
    rw [htext] at hown
    exact absurd ((hown c hc _ hlatin).symm.trans (hown d hd _ hcyrillic)) (by decide)
  · intro htail
    by_contra hmixed
    refine htail ?_
    rw [splitScript_of_forall]
    · rfl
    intro c hc t ht
    cases hfirst : firstScript? r.text.toList with
    | none =>
        have hnone := firstScript?_eq_none_iff.mp hfirst c hc
        exact absurd (ht.symm.trans hnone) (Option.some_ne_none t)
    | some s =>
        obtain ⟨d, hd, hs⟩ := List.exists_of_findSome?_eq_some hfirst
        cases s <;> cases t
        · rfl
        · exact absurd ⟨⟨d, hd, hs⟩, c, hc, ht⟩ hmixed
        · exact absurd ⟨⟨c, hc, ht⟩, d, hd, hs⟩ hmixed
        · rfl

/-! ## Blocks -/

/-- The place that a group of runes leads to. -/
def groupLink? (group : Runes) : Option LinkTarget := group.head?.bind Rune.link

/-- Runes that lead to one place and mark one place. -/
structure IsBlock (b : Runes) : Prop where
  ne_nil : b ≠ []
  same : ∀ r ∈ b, r.link = groupLink? b ∧ r.anchor = groupAnchor? b

/-- Blocks that are as long as they can be. -/
structure AreBlocks (bs : List Runes) : Prop where
  block : ∀ b ∈ bs, IsBlock b
  change : bs.IsChain fun b c => ¬ (groupLink? b = groupLink? c ∧ groupAnchor? b = groupAnchor? c)

/-- The longest pieces of a list of runes that lead to one place and mark one place. -/
def blocks (runes : Runes) : List Runes := runes.splitBy sameTarget

lemma sameTarget_iff {r s : Rune} :
    sameTarget r s = true ↔ r.link = s.link ∧ r.anchor = s.anchor := by
  simp [sameTarget]

lemma isBlock_of_isChain (hne : b ≠ []) (h : b.IsChain fun r s => sameTarget r s = true) :
    IsBlock b := by
  obtain ⟨first, more, rfl⟩ := List.exists_cons_of_ne_nil hne
  exact ⟨hne, eq_of_mem_group h⟩

lemma IsBlock.isChain (h : IsBlock b) : b.IsChain fun r s => sameTarget r s = true := by
  refine (List.pairwise_of_forall_mem_list fun r hr s hs => ?_).isChain
  rw [sameTarget_iff]
  exact ⟨(h.same r hr).1.trans (h.same s hs).1.symm, (h.same r hr).2.trans (h.same s hs).2.symm⟩

lemma areBlocks_blocks (runes : Runes) : AreBlocks (blocks runes) := by
  have hblock : ∀ b ∈ blocks runes, IsBlock b := fun b hb =>
    isBlock_of_isChain (List.ne_nil_of_mem_splitBy hb) (List.isChain_of_mem_splitBy hb)
  refine ⟨hblock, (List.isChain_getLast_head_splitBy sameTarget runes).imp_of_mem_imp ?_⟩
  rintro b c hb hc ⟨hb', hc', hne⟩ hsame
  rw [Bool.eq_false_iff, Ne, sameTarget_iff] at hne
  obtain ⟨hlink, hanchor⟩ := (hblock b hb).same _ (List.getLast_mem hb')
  obtain ⟨hlink', hanchor'⟩ := (hblock c hc).same _ (List.head_mem hc')
  exact hne ⟨by rw [hlink, hlink', hsame.1], by rw [hanchor, hanchor', hsame.2]⟩

/-! ## The pieces of a block -/

/-- A block cut by alphabet begins as the block does. -/
lemma exists_splitScripts_cons (r : Rune) (runes : Runes) :
    ∃ p more, splitScripts (r :: runes) = p :: more ∧ p.link = r.link ∧ p.anchor = r.anchor := by
  obtain ⟨first, more, hsplit⟩ := exists_splitScript_eq r
  rw [splitScripts, List.flatMap_cons, hsplit, List.cons_append]
  exact ⟨_, _, rfl, rfl, rfl⟩

lemma group_splitScripts (runes : Runes) :
    groupLink? (splitScripts runes) = groupLink? runes ∧
      groupAnchor? (splitScripts runes) = groupAnchor? runes := by
  cases runes with
  | nil => exact ⟨rfl, rfl⟩
  | cons r runes =>
      obtain ⟨p, more, heq, hlink, hanchor⟩ := exists_splitScripts_cons r runes
      rw [heq]
      exact ⟨hlink, hanchor⟩

/-- A piece has the link of its rune.  It has the anchor as well, unless the rune is mixed and
another piece of it stands before. -/
lemma exists_of_mem_splitScripts (hp : p ∈ splitScripts runes) :
    ∃ r ∈ runes, p.link = r.link ∧
      (p.anchor = r.anchor ∨ p.anchor = none ∧ IsMixed r ∧ collapsed p.text ≠ "") := by
  obtain ⟨r, hr, hp⟩ := List.mem_flatMap.mp hp
  have hcut := isCutByScript_splitScript r
  refine ⟨r, hr, (hcut.style p hp).1, ?_⟩
  obtain ⟨first, more, hsplit⟩ := List.exists_cons_of_ne_nil hcut.ne_nil
  rw [hsplit] at hp
  rcases List.mem_cons.mp hp with rfl | hmore
  · exact Or.inl (hcut.first p (by rw [hsplit]; rfl)).1
  · have htail : p ∈ (splitScript r).tail := by rwa [hsplit]
    obtain ⟨c, cs, s, htext, hs⟩ := hcut.letter p htail
    refine Or.inr ⟨(hcut.others p htail).1, isMixed_iff.mpr (List.ne_nil_of_mem htail), ?_⟩
    rw [collapsed, htext, collapse, if_neg (Bool.eq_false_iff.mp (isBlank_of_ofChar? hs))]
    simp

/-- A block without a mixed rune, or without an anchor, is a block when it is cut. -/
lemma IsBlock.splitScripts (h : IsBlock b)
    (hwhole : ∀ a, groupAnchor? b = some a → ∀ r ∈ b, ¬ IsMixed r) : IsBlock (splitScripts b) := by
  obtain ⟨hlink, hanchor⟩ := group_splitScripts b
  obtain ⟨r, more, rfl⟩ := List.exists_cons_of_ne_nil h.ne_nil
  obtain ⟨p, pieces, heq, -⟩ := exists_splitScripts_cons r more
  refine ⟨by rw [heq]; exact List.cons_ne_nil _ _, fun q hq => ?_⟩
  obtain ⟨s, hs, hqlink, hqanchor⟩ := exists_of_mem_splitScripts hq
  obtain ⟨hslink, hsanchor⟩ := h.same s hs
  rw [hlink, hanchor]
  refine ⟨hqlink.trans hslink, ?_⟩
  rcases hqanchor with hqanchor | ⟨hqanchor, hmixed, -⟩
  · exact hqanchor.trans hsanchor
  · cases ha : groupAnchor? (r :: more) with
    | none => exact hqanchor
    | some a => exact absurd hmixed (hwhole a ha s hs)

/-- Where an anchored block has a mixed rune, only so many of its pieces keep the anchor. -/
lemma IsBlock.exists_splitScripts_eq {a : String} (h : IsBlock b) (ha : groupAnchor? b = some a)
    (hmixed : ∃ r ∈ b, IsMixed r) :
    ∃ g p more, Inline.splitScripts b = g ++ p :: more ∧ IsBlock g ∧
      groupLink? g = groupLink? b ∧ groupAnchor? g = some a ∧ p.anchor = none ∧
      collapsed p.text ≠ "" := by
  have hpieces : ∀ q ∈ Inline.splitScripts b, q.link = groupLink? b ∧
      (q.anchor = some a ∨ q.anchor = none ∧ collapsed q.text ≠ "") := by
    intro q hq
    obtain ⟨s, hs, hlink, hanchor⟩ := exists_of_mem_splitScripts hq
    obtain ⟨hslink, hsanchor⟩ := h.same s hs
    rw [ha] at hsanchor
    exact ⟨hlink.trans hslink, hanchor.imp (·.trans hsanchor) fun h => ⟨h.1, h.2.2⟩⟩
  -- The first group goes on until a piece has lost the anchor.
  have hlost : ((Inline.splitScripts b).find? fun q => q.anchor = none).isSome := by
    obtain ⟨r, hr, hmixed⟩ := hmixed
    obtain ⟨q, hq⟩ := List.exists_mem_of_ne_nil _ (isMixed_iff.mp hmixed)
    have hnone := ((isCutByScript_splitScript r).others q hq).1
    exact List.find?_isSome.mpr
      ⟨q, List.mem_flatMap.mpr ⟨r, hr, List.mem_of_mem_tail hq⟩, decide_eq_true hnone⟩
  obtain ⟨p, hp⟩ := Option.isSome_iff_exists.mp hlost
  obtain ⟨hnone, g, more, hsplit, hkept⟩ := List.find?_eq_some_iff_append.mp hp
  replace hnone := of_decide_eq_true hnone
  have hg : ∀ q ∈ g, q.link = groupLink? b ∧ q.anchor = some a := by
    intro q hq
    obtain ⟨hlink, hanchor⟩ := hpieces q (hsplit ▸ List.mem_append_left _ hq)
    have hkept := hkept q hq
    exact ⟨hlink, hanchor.resolve_right fun h => by simp [h.1] at hkept⟩
  have htext : collapsed p.text ≠ "" := by
    have hmem : p ∈ Inline.splitScripts b :=
      hsplit ▸ List.mem_append_right _ List.mem_cons_self
    exact ((hpieces p hmem).2.resolve_left fun h => nomatch hnone.symm.trans h).2
  cases g with
  | nil =>
      have hfirst := (group_splitScripts b).2
      rw [hsplit, ha] at hfirst
      exact nomatch hnone.symm.trans hfirst
  | cons q g =>
      obtain ⟨hlink, hanchor⟩ := hg q List.mem_cons_self
      refine ⟨q :: g, p, more, hsplit, ⟨List.cons_ne_nil _ _, fun s hs => ?_⟩, hlink, hanchor,
        hnone, htext⟩
      exact ⟨(hg s hs).1.trans hlink.symm, (hg s hs).2.trans hanchor.symm⟩

/-! ## How blocks are set -/

/-- What cut runes come to, with the bookmarks after them. -/
def setPieces (size : Option Nat) (pieces : Runes) (marks : Bookmarks) :
    List Word.Inline × Bookmarks :=
  let set := ((pieces.splitBy sameTarget).mapM (groupInlines size)).run marks
  (set.1.flatten, set.2)

lemma run_inlinesOf (size : Option Nat) (runes : Runes) (marks : Bookmarks) :
    (inlinesOf size runes).run marks = setPieces size (splitScripts runes) marks := rfl

/-- Where the groups end at the same place, pieces are set one part after the other. -/
lemma setPieces_append (h : ∀ p ∈ pieces.getLast?, ∀ q ∈ rest.head?, sameTarget p q = false)
    (marks : Bookmarks) :
    setPieces size (pieces ++ rest) marks =
      ((setPieces size pieces marks).1 ++ (setPieces size rest (setPieces size pieces marks).2).1,
        (setPieces size rest (setPieces size pieces marks).2).2) := by
  rw [setPieces, List.splitBy_append h, run_mapM_append]
  simp [setPieces]

lemma setPieces_block (h : IsBlock b) (marks : Bookmarks) :
    setPieces size b marks = (groupInlines size b).run marks := by
  rw [setPieces, List.splitBy_of_isChain h.ne_nil h.isChain, run_mapM_cons]
  exact Prod.ext (List.append_nil _) rfl

/-- A group with no link and no new place is just its runs. -/
lemma run_groupInlines_plain {g : Runes} (hlink : groupLink? g = none)
    (hanchor : ∀ a, groupAnchor? g = some a → a ∈ marks.anchors) :
    (groupInlines size g).run marks = (g.map fun r => .run (runOf size r), marks) := by
  have hfresh : fresh marks.anchors (groupAnchor? g).toList = [] := by
    cases hg : groupAnchor? g with
    | none => rfl
    | some a => rw [Option.toList_some, fresh, if_pos (hanchor a hg), fresh]
  rw [run_groupInlines, hfresh, groupContent, ← groupLink?, hlink, linkedRuns, List.map_map]
  rfl

/-- A piece that belongs with the next joins its group. -/
lemma exists_splitBy_cons {q : Rune} (h : sameTarget p q = true) (rest : Runes) :
    ∃ g gs, (q :: rest).splitBy sameTarget = (q :: g) :: gs ∧
      (p :: q :: rest).splitBy sameTarget = (p :: q :: g) :: gs := by
  obtain ⟨g, gs, hsplit⟩ := List.exists_cons_of_ne_nil
    (List.splitBy_ne_nil.mpr (List.cons_ne_nil q rest) : (q :: rest).splitBy sameTarget ≠ [])
  obtain ⟨hflatten, hne, hchain, hchange⟩ := List.splitBy_eq_iff.mp hsplit
  rw [List.mem_cons, not_or] at hne
  obtain ⟨first, g, rfl⟩ := List.exists_cons_of_ne_nil (Ne.symm hne.1)
  obtain rfl : q = first := (List.cons.inj hflatten).1
  refine ⟨g, gs, hsplit, List.splitBy_eq_iff.mpr ⟨?_, ?_, ?_, ?_⟩⟩
  · rw [hflatten]
    rfl
  · simpa using hne.2
  · obtain ⟨hg, hgs⟩ := List.forall_mem_cons.mp hchain
    exact List.forall_mem_cons.mpr ⟨List.isChain_cons_cons.mpr ⟨h, hg⟩, hgs⟩
  · cases gs with
    | nil => exact List.isChain_singleton _
    | cons next gs =>
        obtain ⟨⟨hg, hnext, hdiffer⟩, hgs⟩ := List.isChain_cons_cons.mp hchange
        exact List.isChain_cons_cons.mpr
          ⟨⟨List.cons_ne_nil _ _, hnext, by simpa using hdiffer⟩, hgs⟩

/-- A piece with no link and with no new anchor is a run, whatever group it is in. -/
lemma setPieces_cons (hlink : p.link = none)
    (hanchor : ∀ a, p.anchor = some a → a ∈ marks.anchors) (pieces : Runes) :
    setPieces size (p :: pieces) marks = (.run (runOf size p) :: (setPieces size pieces marks).1,
      (setPieces size pieces marks).2) := by
  have hsingle : setPieces size [p] marks = ([.run (runOf size p)], marks) := by
    rw [setPieces_block ⟨List.cons_ne_nil _ _, by simp [groupLink?, groupAnchor?]⟩]
    exact run_groupInlines_plain (g := [p]) hlink hanchor
  cases pieces with
  | nil => exact hsingle
  | cons q rest =>
      by_cases hsame : sameTarget p q = true
      · obtain ⟨g, gs, hq, hp⟩ := exists_splitBy_cons hsame rest
        obtain ⟨hqlink, hqanchor⟩ := sameTarget_iff.mp hsame
        rw [setPieces, setPieces, hp, hq, run_mapM_cons, run_mapM_cons,
          run_groupInlines_plain (g := p :: q :: g) hlink hanchor,
          run_groupInlines_plain (g := q :: g) (hqlink.symm.trans hlink)
            fun a ha => hanchor a (hqanchor.trans ha)]
        rfl
      · have hends : ∀ s ∈ [p].getLast?, ∀ t ∈ (q :: rest).head?, sameTarget s t = false := by
          simpa using hsame
        rw [← List.singleton_append, setPieces_append hends, hsingle]
        rfl

/-- Such pieces are set as they are, whatever comes behind them. -/
lemma setPieces_plain
    (h : ∀ p ∈ pieces, p.link = none ∧ ∀ a, p.anchor = some a → a ∈ marks.anchors)
    (rest : Runes) :
    setPieces size (pieces ++ rest) marks =
      ((pieces.map fun r => .run (runOf size r)) ++ (setPieces size rest marks).1,
        (setPieces size rest marks).2) := by
  induction pieces with
  | nil => rfl
  | cons p pieces ih =>
      obtain ⟨hp, hpieces⟩ := List.forall_mem_cons.mp h
      rw [List.cons_append, setPieces_cons hp.1 hp.2, ih hpieces]
      rfl

/-! ## What is covered -/

/-- Where a link leads, and its text. -/
def linkText? : Word.Inline → Option (LinkTarget × String)
  | .link target runs => some (target, String.join (runs.map Word.Run.text))
  | _ => none

/-- The links in a paragraph, in order. -/
def linkTexts (inlines : List Word.Inline) : List (LinkTarget × String) :=
  inlines.filterMap linkText?

@[simp] lemma linkTexts_append (before inlines : List Word.Inline) :
    linkTexts (before ++ inlines) = linkTexts before ++ linkTexts inlines :=
  List.filterMap_append

/-- Where a block leads, and the text of all its runes. -/
def labelText? (b : Runes) : Option (LinkTarget × String) :=
  (groupLink? b).map fun target => (target, runesText b)

/-- The contents of a block. -/
def blockContent (size : Option Nat) (b : Runes) : List Word.Inline :=
  linkedRuns size (groupLink? b) (splitScripts b)

/-- Links and bookmarks cover the labels of blocks.  There is one link for each block that leads
somewhere, with all its text; and there is one bookmark for each new place, around all contents of
the block that marks it first. -/
structure CoversLabels (size : Option Nat) (bs : List Runes) (known : List String)
    (inlines : List Word.Inline) : Prop where
  links : linkTexts inlines = bs.filterMap labelText?
  bookmarks : ∀ before b after a, bs = before ++ b :: after → groupAnchor? b = some a →
    a ∉ known → (∀ c ∈ before, groupAnchor? c ≠ some a) →
      ∃ id pre post, inlines
          = pre ++ .bookmarkStart id a :: blockContent size b ++ .bookmarkEnd id :: post ∧
        a ∉ placesOf pre ∧ a ∉ placesOf post

/-- Whether a block is set as it should be.  A mixed rune in it does no harm where there is neither
an anchor to lose nor anything to cover: no link, and no new place. -/
def KeepsLabel (known : List String) (b : Runes) : Prop :=
  ∀ a, groupAnchor? b = some a → (∃ r ∈ b, IsMixed r) → groupLink? b = none ∧ a ∈ known

/-- Blocks that are all set as they should be, one after another. -/
def KeepsLabels (known : List String) : List Runes → Prop
  | [] => True
  | b :: bs => KeepsLabel known b ∧ KeepsLabels ((groupAnchor? b).toList ++ known) bs

lemma KeepsLabels.congr {known known' : List String} (h : ∀ a, a ∈ known ↔ a ∈ known') :
    ∀ {bs : List Runes}, KeepsLabels known bs ↔ KeepsLabels known' bs
  | [] => Iff.rfl
  | b :: bs => by
      have hknown : ∀ a, a ∈ (groupAnchor? b).toList ++ known ↔
          a ∈ (groupAnchor? b).toList ++ known' := by
        intro a
        rw [List.mem_append, List.mem_append, h]
      rw [KeepsLabels, KeepsLabels, KeepsLabels.congr hknown, KeepsLabel, KeepsLabel]
      simp only [h]

/-! ## Groups and their labels -/

lemma linkTexts_groupContent (size : Option Nat) (g : Runes) :
    linkTexts (groupContent size g) = (labelText? g).toList := by
  rw [groupContent, ← groupLink?, labelText?]
  cases groupLink? g with
  | none => simp [linkedRuns, linkTexts, linkText?, List.filterMap_map]
  | some target =>
      have htext (r : Word.Run) : (Word.linkedRun r).text = r.text := by
        rw [Word.linkedRun]
        split_ifs <;> rfl
      have hruns : ((g.map (runOf size)).map Word.linkedRun).map Word.Run.text
          = g.map fun r => collapsed r.text := by
        rw [List.map_map, List.map_map]
        exact List.map_congr_left fun r _ => htext (runOf size r)
      rw [linkedRuns, Option.map_some, Option.toList_some, runesText, ← hruns]
      rfl

lemma linkTexts_groupInlines (size : Option Nat) (g : Runes) (marks : Bookmarks) :
    linkTexts ((groupInlines size g).run marks).1 = (labelText? g).toList := by
  rw [run_groupInlines, ← linkTexts_groupContent size]
  cases fresh marks.anchors (groupAnchor? g).toList with
  | nil => rfl
  | cons a more =>
      show linkTexts ([.bookmarkStart marks.next a] ++ groupContent size g
        ++ [.bookmarkEnd marks.next]) = _
      rw [linkTexts_append, linkTexts_append]
      exact List.append_nil _

lemma labelText?_splitScripts (b : Runes) : labelText? (splitScripts b) = labelText? b := by
  rw [labelText?, labelText?, (group_splitScripts b).1, runesText_splitScripts]

/-! ## Blocks and their labels -/

/-- What the pieces of a block come to when they are set as one group. -/
def setBlock (size : Option Nat) (b : Runes) (marks : Bookmarks) : List Word.Inline × Bookmarks :=
  (groupInlines size (splitScripts b)).run marks

lemma linkTexts_setBlock (b : Runes) (marks : Bookmarks) :
    linkTexts (setBlock size b marks).1 = (labelText? b).toList := by
  rw [setBlock, linkTexts_groupInlines, labelText?_splitScripts]

lemma mem_anchors_setBlock {a : String} :
    a ∈ (setBlock size b marks).2.anchors ↔ groupAnchor? b = some a ∨ a ∈ marks.anchors := by
  rw [setBlock, ← (groupInlines_marks (splitScripts b) marks).mem_anchors,
    (group_splitScripts b).2, List.mem_append, Option.mem_toList]

lemma mem_placesOf_setBlock {a : String} :
    a ∈ placesOf (setBlock size b marks).1 ↔ groupAnchor? b = some a ∧ a ∉ marks.anchors := by
  rw [setBlock, (groupInlines_marks (splitScripts b) marks).places, (group_splitScripts b).2,
    mem_fresh, Option.mem_toList]

/-- A new place gets a bookmark around all of its block. -/
lemma setBlock_of_new {a : String} (ha : groupAnchor? b = some a) (hnew : a ∉ marks.anchors) :
    (setBlock size b marks).1
      = .bookmarkStart marks.next a :: blockContent size b ++ [.bookmarkEnd marks.next] := by
  obtain ⟨hlink, hanchor⟩ := group_splitScripts b
  rw [setBlock, run_groupInlines, hanchor, ha, Option.toList_some, fresh, if_neg hnew, groupContent,
    ← groupLink?, hlink, blockContent]

/-- A block that keeps its label is set as one group. -/
lemma setPieces_kept (hb : IsBlock b) (hkeeps : KeepsLabel marks.anchors b)
    (hrest : ∀ q ∈ rest.head?, ¬ (groupLink? b = q.link ∧ groupAnchor? b = q.anchor)) :
    setPieces size (splitScripts b ++ rest) marks =
      ((setBlock size b marks).1 ++ (setPieces size rest (setBlock size b marks).2).1,
        (setPieces size rest (setBlock size b marks).2).2) := by
  obtain ⟨hlink, hanchor⟩ := group_splitScripts b
  by_cases hwhole : ∀ a, groupAnchor? b = some a → ∀ r ∈ b, ¬ IsMixed r
  · have hblock := hb.splitScripts hwhole
    rw [setPieces_append, setPieces_block hblock, ← setBlock]
    intro p hp q hq
    obtain ⟨hplink, hpanchor⟩ := hblock.same p (List.mem_of_mem_getLast? hp)
    rw [Bool.eq_false_iff, Ne, sameTarget_iff, hplink, hpanchor, hlink, hanchor]
    exact hrest q hq
  · -- There is no link and the place is known, so all pieces of the block are just runs.
    simp only [not_forall, not_not] at hwhole
    obtain ⟨a, ha, r, hr, hmixed⟩ := hwhole
    obtain ⟨hnone, hknown⟩ := hkeeps a ha ⟨r, hr, hmixed⟩
    have hplain : ∀ q ∈ splitScripts b, q.link = none ∧
        ∀ a', q.anchor = some a' → a' ∈ marks.anchors := by
      intro q hq
      obtain ⟨s, hs, hqlink, hqanchor⟩ := exists_of_mem_splitScripts hq
      obtain ⟨hslink, hsanchor⟩ := hb.same s hs
      refine ⟨(hqlink.trans hslink).trans hnone, fun a' ha' => ?_⟩
      rcases hqanchor with hqanchor | ⟨hqanchor, -⟩
      · have hsame := (((ha'.symm.trans hqanchor).trans hsanchor).trans ha)
        exact Option.some.inj hsame ▸ hknown
      · exact nomatch hqanchor.symm.trans ha'
    have hset : setBlock size b marks
        = ((splitScripts b).map fun r => .run (runOf size r), marks) :=
      run_groupInlines_plain (hlink.trans hnone) fun a' ha' =>
        Option.some.inj ((ha'.symm.trans hanchor).trans ha) ▸ hknown
    rw [setPieces_plain hplain, hset]

lemma filterMap_labelText?_cons (b : Runes) (bs : List Runes) :
    (b :: bs).filterMap labelText? = (labelText? b).toList ++ bs.filterMap labelText? := by
  rw [List.filterMap_cons]
  cases labelText? b <;> rfl

/-- Where all blocks are covered, what comes behind the first covers the others. -/
lemma CoversLabels.tail {bs : List Runes} {later : List Word.Inline}
    (h : CoversLabels size (b :: bs) marks.anchors ((setBlock size b marks).1 ++ later)) :
    CoversLabels size bs (setBlock size b marks).2.anchors later := by
  obtain ⟨hlinks, hbookmarks⟩ := h
  rw [linkTexts_append, linkTexts_setBlock, filterMap_labelText?_cons] at hlinks
  refine ⟨List.append_cancel_left hlinks, ?_⟩
  intro before c after a hbs ha hnew hbefore
  rw [mem_anchors_setBlock, not_or] at hnew
  obtain ⟨id, pre, post, heq, hpre, hpost⟩ := hbookmarks (b :: before) c after a
    (congrArg (b :: ·) hbs) ha hnew.2 (List.forall_mem_cons.mpr ⟨hnew.1, hbefore⟩)
  have hnot : a ∉ placesOf (setBlock size b marks).1 :=
    fun h => hnew.1 (mem_placesOf_setBlock.mp h).1
  -- The bookmark does not begin in the first block, so it begins behind that.
  rw [List.append_assoc] at heq
  rcases List.append_eq_append_iff.mp heq with ⟨pre', rfl, hcut⟩ | ⟨rest, hcut, hrest⟩
  · refine ⟨id, pre', post, by rw [hcut, List.append_assoc], fun h => hpre ?_, hpost⟩
    rw [placesOf_append]
    exact List.mem_append_right _ h
  · cases rest with
    | nil => exact ⟨id, [], post, hrest.symm, List.not_mem_nil, hpost⟩
    | cons i rest =>
        obtain ⟨rfl, -⟩ := List.cons.inj hrest
        refine absurd ?_ hnot
        rw [hcut, placesOf_append]
        exact List.mem_append_right _ List.mem_cons_self

/-- A block that is set as one group is covered, if its place is not marked again behind it. -/
lemma CoversLabels.cons {bs : List Runes} {later : List Word.Inline}
    (hlater : ∀ a ∈ placesOf later, a ∉ (setBlock size b marks).2.anchors)
    (h : CoversLabels size bs (setBlock size b marks).2.anchors later) :
    CoversLabels size (b :: bs) marks.anchors ((setBlock size b marks).1 ++ later) := by
  obtain ⟨hlinks, hbookmarks⟩ := h
  refine ⟨?_, ?_⟩
  · rw [linkTexts_append, linkTexts_setBlock, filterMap_labelText?_cons, hlinks]
  intro before c after a hbs ha hnew hbefore
  cases before with
  | nil =>
      obtain ⟨rfl, -⟩ := List.cons.inj hbs
      refine ⟨marks.next, [], later, by rw [setBlock_of_new ha hnew]; simp, List.not_mem_nil, ?_⟩
      exact fun h => hlater a h (mem_anchors_setBlock.mpr (Or.inl ha))
  | cons first before =>
      obtain ⟨rfl, hrest⟩ := List.cons.inj hbs
      obtain ⟨hfirst, hbefore⟩ := List.forall_mem_cons.mp hbefore
      obtain ⟨id, pre, post, heq, hpre, hpost⟩ := hbookmarks before c after a hrest ha
        (fun h => (mem_anchors_setBlock.mp h).elim hfirst hnew) hbefore
      refine ⟨id, (setBlock size b marks).1 ++ pre, post, by rw [heq]; simp, ?_, hpost⟩
      rw [placesOf_append, List.mem_append, not_or]
      exact ⟨fun h => hfirst (mem_placesOf_setBlock.mp h).1, hpre⟩

/-! ## Blocks that are broken -/

section Broken

variable {g more : Runes} {bs : List Runes} (later : List Word.Inline)
  (hsplit : splitScripts b = g ++ p :: more) (hlink : groupLink? g = groupLink? b)
include hsplit hlink

/-- A link for a first part of a block does not have all the text. -/
lemma not_coversLabels_of_link {target : LinkTarget} (htarget : groupLink? b = some target)
    (htext : collapsed p.text ≠ "") : ¬ CoversLabels size (b :: bs) marks.anchors
      (((groupInlines size g).run marks).1 ++ later) := by
  have hgroup : labelText? g = some (target, runesText g) := by
    rw [labelText?, hlink, htarget]
    rfl
  have hblock : labelText? b = some (target, runesText b) := by
    rw [labelText?, htarget]
    rfl
  intro h
  have hlinks := h.links
  rw [linkTexts_append, linkTexts_groupInlines, hgroup, List.filterMap_cons_some hblock] at hlinks
  have htexts : runesText g = runesText b := (Prod.mk.inj (List.cons.inj hlinks).1).2
  rw [← runesText_splitScripts b, hsplit, runesText_append, runesText_cons] at htexts
  have hrest := congrArg String.toList htexts
  rw [String.toList_append, List.self_eq_append_right, String.toList_append,
    List.append_eq_nil_iff] at hrest
  exact htext (String.toList_eq_nil_iff.mp hrest.1)

/-- A bookmark around a first part of a block ends too early. -/
lemma not_coversLabels_of_new {a : String} (hnone : groupLink? b = none)
    (ha : groupAnchor? b = some a) (hanchor : groupAnchor? g = some a) (hnew : a ∉ marks.anchors) :
    ¬ CoversLabels size (b :: bs) marks.anchors
      (((groupInlines size g).run marks).1 ++ later) := by
  have hstart : ((groupInlines size g).run marks).1
      = .bookmarkStart marks.next a :: (g.map fun r => .run (runOf size r))
        ++ [.bookmarkEnd marks.next] := by
    rw [run_groupInlines, hanchor, Option.toList_some, fresh, if_neg hnew, groupContent,
      ← groupLink?, hlink, hnone, linkedRuns, List.map_map]
    rfl
  have hcontent : blockContent size b
      = (g.map fun r => .run (runOf size r)) ++
        .run (runOf size p) :: more.map fun r => .run (runOf size r) := by
    rw [blockContent, hnone, hsplit, linkedRuns, List.map_map, List.map_append]
    rfl
  intro h
  obtain ⟨id, pre, post, heq, hpre, -⟩ := h.bookmarks [] b bs a rfl ha hnew (by simp)
  rw [hstart, hcontent] at heq
  cases pre with
  | cons i pre =>
      obtain ⟨rfl, -⟩ := List.cons.inj heq
      exact hpre List.mem_cons_self
  | nil =>
      have hrest := (List.cons.inj heq).2
      simp only [List.append_eq, List.append_assoc, List.append_cancel_left_eq] at hrest
      exact absurd (List.cons.inj hrest).1 (by simp)

end Broken

/-- The label of a block that does not keep it is not covered. -/
lemma not_coversLabels (hb : IsBlock b) (hkeeps : ¬ KeepsLabel marks.anchors b) (rest : Runes)
    (bs : List Runes) : ¬ CoversLabels size (b :: bs) marks.anchors
      (setPieces size (splitScripts b ++ rest) marks).1 := by
  simp only [KeepsLabel, not_forall] at hkeeps
  obtain ⟨a, ha, hmixed, hnot⟩ := hkeeps
  obtain ⟨g, p, more, hsplit, hg, hglink, hganchor, hp, htext⟩ :=
    hb.exists_splitScripts_eq ha hmixed
  -- The first group ends in the middle of the block.
  have hset : (setPieces size (splitScripts b ++ rest) marks).1
      = ((groupInlines size g).run marks).1
        ++ (setPieces size (p :: (more ++ rest)) ((groupInlines size g).run marks).2).1 := by
    rw [hsplit, List.append_assoc, List.cons_append, setPieces_append, setPieces_block hg]
    intro q hq s hs
    obtain ⟨-, hqanchor⟩ := hg.same q (List.mem_of_mem_getLast? hq)
    obtain rfl : p = s := Option.some.inj hs
    rw [Bool.eq_false_iff, Ne, sameTarget_iff, hqanchor, hganchor, hp]
    exact fun h => nomatch h.2
  rw [hset]
  cases hlink : groupLink? b with
  | some target => exact not_coversLabels_of_link _ hsplit hglink hlink htext
  | none =>
      exact not_coversLabels_of_new _ hsplit hglink hlink ha hganchor fun h => hnot ⟨hlink, h⟩

/-! ## All blocks -/

/-- The pieces of the next block belong to another group. -/
lemma AreBlocks.ne_of_mem_head? {bs : List Runes} (h : AreBlocks (b :: bs)) :
    ∀ q ∈ (splitScripts bs.flatten).head?,
      ¬ (groupLink? b = q.link ∧ groupAnchor? b = q.anchor) := by
  obtain ⟨hblock, hchange⟩ := h
  intro q hq
  cases bs with
  | nil => exact nomatch hq
  | cons c bs =>
      obtain ⟨s, more, rfl⟩ := List.exists_cons_of_ne_nil (hblock c (by simp)).ne_nil
      obtain ⟨p, pieces, hpieces, hlink, hanchor⟩ :=
        exists_splitScripts_cons s (more ++ bs.flatten)
      rw [List.flatten_cons, List.cons_append, hpieces] at hq
      obtain rfl : p = q := Option.some.inj hq
      rw [hlink, hanchor]
      exact (List.isChain_cons_cons.mp hchange).1

/-- Only new places are marked. -/
lemma not_mem_anchors_of_mem_placesOf {a : String}
    (ha : a ∈ placesOf (setPieces size pieces marks).1) : a ∉ marks.anchors := by
  rw [setPieces, (mapM_groupInlines_marks size (pieces.splitBy sameTarget) marks).places] at ha
  exact (mem_fresh.mp ha).2

/-- A list of blocks is covered just when all of them keep their labels. -/
lemma coversLabels_iff : ∀ {bs : List Runes}, AreBlocks bs → ∀ marks : Bookmarks,
    (CoversLabels size bs marks.anchors (setPieces size (splitScripts bs.flatten) marks).1 ↔
      KeepsLabels marks.anchors bs)
  | [], _, _ => by
      refine iff_of_true ⟨rfl, fun before b after a h => ?_⟩ trivial
      exact absurd h.symm (List.append_ne_nil_of_right_ne_nil _ (List.cons_ne_nil _ _))
  | b :: bs, h, marks => by
      obtain ⟨hb, hbs⟩ := List.forall_mem_cons.mp h.block
      have hrest := coversLabels_iff ⟨hbs, h.change.tail⟩ (setBlock size b marks).2
      have hsplit : splitScripts (b :: bs).flatten
          = splitScripts b ++ splitScripts bs.flatten := by
        rw [List.flatten_cons, splitScripts, List.flatMap_append]
        rfl
      rw [hsplit, KeepsLabels]
      by_cases hkeeps : KeepsLabel marks.anchors b
      · have hknown : ∀ a, a ∈ (setBlock size b marks).2.anchors ↔
            a ∈ (groupAnchor? b).toList ++ marks.anchors := by
          intro a
          rw [mem_anchors_setBlock, List.mem_append, Option.mem_toList]
        rw [setPieces_kept hb hkeeps h.ne_of_mem_head?, ← KeepsLabels.congr hknown, ← hrest]
        exact ⟨fun h => ⟨hkeeps, h.tail⟩,
          fun h => h.2.cons fun _ => not_mem_anchors_of_mem_placesOf⟩
      · exact iff_of_false (not_coversLabels hb hkeeps _ _) fun h => hkeeps h.1

/-- Blocks of runes that need no cut keep their labels. -/
lemma keepsLabels_of_forall {known : List String} : ∀ {bs : List Runes},
    (∀ b ∈ bs, ∀ r ∈ b, ¬ IsMixed r) → KeepsLabels known bs
  | [], _ => trivial
  | b :: bs, h => by
      obtain ⟨hb, hbs⟩ := List.forall_mem_cons.mp h
      exact ⟨fun _ _ ⟨r, hr, hmixed⟩ => absurd hmixed (hb r hr), keepsLabels_of_forall hbs⟩

lemma not_isMixed_of_mem_splitScripts (hp : p ∈ splitScripts runes) : ¬ IsMixed p := by
  rw [isMixed_iff, splitScript_of_mem_splitScripts hp]
  exact not_not_intro rfl

/-! ## The result -/

/-- **What is covered.**  Of the runes as they are cut, every block has one link around all its text
and every new place one bookmark around all its block.  Of the runes as they are given that is so
just when every block keeps its label: when an anchored block with a rune of two alphabets has no
link, and its place is marked already. -/
theorem coversLabels_inlinesOf (size : Option Nat) (runes : Runes) (marks : Bookmarks) :
    let inlines := ((inlinesOf size runes).run marks).1
    CoversLabels size (blocks (splitScripts runes)) marks.anchors inlines ∧
      (CoversLabels size (blocks runes) marks.anchors inlines ↔
        KeepsLabels marks.anchors (blocks runes)) := by
  have hblocks (runes : Runes) :
      CoversLabels size (blocks runes) marks.anchors ((inlinesOf size runes).run marks).1 ↔
        KeepsLabels marks.anchors (blocks runes) := by
    have hflatten : (blocks runes).flatten = runes := List.flatten_splitBy sameTarget runes
    rw [← coversLabels_iff (areBlocks_blocks runes) marks, hflatten, run_inlinesOf]
  have hpieces := hblocks (splitScripts runes)
  rw [run_inlinesOf, splitScripts_splitScripts, ← run_inlinesOf] at hpieces
  refine ⟨hpieces.mpr (keepsLabels_of_forall fun b hb r hr => ?_), hblocks runes⟩
  have hpiece := List.mem_flatten_of_mem hb hr
  rw [blocks, List.flatten_splitBy] at hpiece
  exact not_isMixed_of_mem_splitScripts hpiece

/-- A place that is marked with words of two alphabets. -/
def mixedPlace : Rune := { text := "Глава one", anchor := some "x" }

/-- The bookmark of such a place ends where the second alphabet begins. -/
theorem not_coversLabels_mixedPlace :
    ((inlinesOf none [mixedPlace]).run {}).1 = [.bookmarkStart 0 "x",
        .run { content := .text "Глава ", format := { language := some "ru-RU" } },
        .bookmarkEnd 0, .run { content := .text "one", format := { language := some "en-US" } }] ∧
      ¬ CoversLabels none (blocks [mixedPlace]) [] ((inlinesOf none [mixedPlace]).run {}).1 := by
  constructor
  · have hgroups : (splitScripts [mixedPlace]).splitBy sameTarget
        = [[{ text := "Глава ", anchor := some "x", script := some .cyrillic }],
            [{ text := "one", script := some .latin }]] := by
      decide +kernel
    have hfirst : collapsed "Глава " = "Глава " := by decide +kernel
    have hsecond : collapsed "one" = "one" := by decide +kernel
    rw [run_inlinesOf, setPieces, hgroups, ← hfirst, ← hsecond]
    rfl
  · have hmixed : IsMixed mixedPlace := ⟨⟨'o', by decide, by decide⟩, 'Г', by decide, by decide⟩
    intro h
    have hkeeps := (coversLabels_iff (areBlocks_blocks [mixedPlace]) {}).mp h
    have hknown := (hkeeps.1 "x" rfl ⟨mixedPlace, List.mem_singleton_self _, hmixed⟩).2
    exact List.not_mem_nil hknown

end ReportPress.Typeset
