import ReportPress.Inline.Resolve
import ReportPress.Inline.ScriptRuns
import ReportPress.Proofs.Document.Parts
import ReportPress.Proofs.Text.Scan
import ReportPress.Proofs.Text.Words

/-!
# What runes are made of

Resolving cuts a raw text into runes.  Whatever a rune says comes from the text, from the marks of
typography, or from the circle of hues.

* `typographyMarks` — what typography and collapsing put in place of something else.
* `Rune.IsWithin` — the text and the address of a rune consist of characters with some property,
  and its colour, if it has one, is that of a hue.

**Through the passes.**  Every pass makes its runes from those of the pass before
(`splitRuneLines_isWithin`, `emphasize_isWithin`, `colorizeRune_isWithin`,
`splitScripts_isWithin`), and `resolveDocument_isWithin` says so of all runes of a report.
-/

namespace ReportPress

open Text

/-- A piece of text and a link whose characters have a property; a colour is that of a hue. -/
structure Rune.IsWithin (P : Char → Prop) (r : Rune) : Prop where
  text : ∀ c ∈ r.text.toList, P c
  address : ∀ address, r.link = some (.external address) → ∀ c ∈ address.toList, P c
  color : r.color = none ∨ ∃ hue : Inline.Hue, r.color = some hue.color

namespace Inline

variable {P : Char → Prop} {cs : List Char} {r : Rune} {runes : Runes}

/-! ## Typography -/

/-- What is put in place of break tokens, dashes, quotation marks and white space. -/
def typographyMarks : List Char := ['\n', ' ', '-', '–', '«', '»']

lemma mem_or_of_mem_quotation {tail new : List Char} {n : Nat}
    (h : quotation? tail = some (new, n)) {c : Char} (hc : c ∈ new) :
    c ∈ tail ∨ c ∈ typographyMarks := by
  unfold quotation? at h
  split at h
  case h_2 => simp at h
  case h_1 cs =>
    dsimp only at h
    split_ifs at h
    simp only [Option.some.injEq, Prod.mk.injEq] at h
    rw [← h.1] at hc
    simp only [List.cons_append, List.mem_cons, List.mem_append, List.not_mem_nil, or_false] at hc
    rcases hc with rfl | hc | rfl
    · exact Or.inr (by decide)
    · exact Or.inl (List.mem_cons_of_mem _ ((List.takeWhile_prefix _).subset hc))
    · exact Or.inr (by decide)

lemma mem_or_of_mem_breakToken {tail new : List Char} {n : Nat}
    (h : breakToken? tail = some (new, n)) {c : Char} (hc : c ∈ new) : c ∈ typographyMarks := by
  obtain ⟨rest, -, heq⟩ := Option.map_eq_some_iff.mp h
  simp only [Prod.mk.injEq] at heq
  rw [← heq.1, List.mem_singleton] at hc
  simp [hc, typographyMarks]

/-- Typography puts in nothing but its marks. -/
lemma mem_or_of_mem_typography {c : Char} (h : c ∈ typography cs) :
    c ∈ cs ∨ c ∈ typographyMarks := by
  have hbreaks : c ∈ substitute breakToken? cs → c ∈ cs ∨ c ∈ typographyMarks := by
    intro h
    rcases mem_or_of_mem_substitute h with h | ⟨tail, new, n, -, hfound, hc⟩
    · exact Or.inl h
    · exact Or.inr (mem_or_of_mem_breakToken hfound hc)
  have hhyphens : c ∈ replaceAll ['—'] ['-'] (substitute breakToken? cs) →
      c ∈ cs ∨ c ∈ typographyMarks := by
    intro h
    rcases mem_or_of_mem_replaceAll h with h | h
    · exact hbreaks h
    · exact Or.inr (by simp [List.mem_singleton.mp h, typographyMarks])
  have hdashes : c ∈ replaceAll " - ".toList " – ".toList
      (replaceAll ['—'] ['-'] (substitute breakToken? cs)) → c ∈ cs ∨ c ∈ typographyMarks := by
    intro h
    rcases mem_or_of_mem_replaceAll h with h | h
    · exact hhyphens h
    · have hmarks : ∀ c ∈ " – ".toList, c ∈ typographyMarks := by simp [typographyMarks]
      exact Or.inr (hmarks c h)
  rcases mem_or_of_mem_substitute h with h | ⟨tail, new, n, htail, hfound, hc⟩
  · exact hdashes h
  · rcases mem_or_of_mem_quotation hfound hc with h | h
    · exact hdashes (htail.subset h)
    · exact Or.inr h

/-! ## Links and anchors -/

lemma upTo_subset {close : Char} {inner rest : List Char}
    (h : upTo? close cs = some (inner, rest)) :
    inner ⊆ cs ∧ rest ⊆ cs := by
  unfold upTo? at h
  dsimp only at h
  split at h
  case h_2 => simp at h
  case h_1 c after hdrop =>
    split_ifs at h
    simp only [Option.some.injEq, Prod.mk.injEq] at h
    have htake : inner ⊆ cs := h.1 ▸ (List.takeWhile_prefix _).subset
    have hafter : c :: after ⊆ cs := hdrop ▸ List.drop_subset _ _
    exact ⟨htake, h.2 ▸ List.Subset.trans (List.subset_cons_self c after) hafter⟩

/-- A rune that leads nowhere. -/
lemma plain_isWithin {text : List Char} {anchor : Option String} (htext : ∀ c ∈ text, P c) :
    Rune.IsWithin P { text := String.ofList text, anchor } :=
  ⟨by simpa using htext, by simp, Or.inl rfl⟩

/-- A rune that leads somewhere. -/
lemma linked_isWithin {text target : List Char} (htext : ∀ c ∈ text, P c)
    (htarget : ∀ c ∈ target, P c) :
    Rune.IsWithin P
      { text := String.ofList text, link := some (.ofString (String.ofList target)) } := by
  refine ⟨by simpa using htext, ?_, Or.inl rfl⟩
  intro address haddress
  have heq : LinkTarget.ofString (String.ofList target) = .external address :=
    Option.some.inj haddress
  unfold LinkTarget.ofString at heq
  split at heq
  · simp at heq
  · rw [LinkTarget.external.injEq] at heq
    simpa [← heq] using htarget

lemma link_isWithin {n : Nat} (hcs : ∀ c ∈ cs, P c) (h : link? cs = some (r, n)) :
    r.IsWithin P := by
  unfold link? at h
  split at h
  case h_2 => simp at h
  case h_1 cs =>
    have hrest : ∀ c ∈ cs, P c := fun c hc => hcs c (List.mem_cons_of_mem _ hc)
    simp only [Option.bind_eq_bind, Option.bind_eq_some_iff] at h
    obtain ⟨⟨label, rest⟩, hlabel, h⟩ := h
    obtain ⟨hlabels, hafter⟩ := upTo_subset hlabel
    dsimp only at h
    split at h
    case h_3 => simp at h
    case h_1 after =>
      simp only [Option.bind_eq_some_iff] at h
      obtain ⟨⟨target, more⟩, htarget, h⟩ := h
      obtain ⟨htargets, -⟩ := upTo_subset htarget
      simp only [Option.pure_def, Option.some.injEq, Prod.mk.injEq] at h
      rw [← h.1]
      exact linked_isWithin (fun c hc => hrest c (hlabels hc)) fun c hc =>
        hrest c (hafter (List.mem_cons_of_mem _ (htargets hc)))
    case h_2 after =>
      simp only [Option.bind_eq_some_iff] at h
      obtain ⟨⟨anchor, more⟩, -, h⟩ := h
      simp only [Option.pure_def, Option.some.injEq, Prod.mk.injEq] at h
      rw [← h.1]
      exact plain_isWithin fun c hc => hrest c (hlabels hc)

lemma linkRunes_isWithin : ∀ {pieces : List (Piece Rune)},
    (∀ c, Piece.char c ∈ pieces → P c) → (∀ r, Piece.found r ∈ pieces → r.IsWithin P) →
      (∀ c ∈ (linkRunes pieces).1, P c) ∧ ∀ r ∈ (linkRunes pieces).2, r.IsWithin P
  | [], _, _ => by simp [linkRunes]
  | .char c :: pieces, hchars, hfound => by
      obtain ⟨htext, hrunes⟩ := linkRunes_isWithin
        (fun d hd => hchars d (List.mem_cons_of_mem _ hd))
        (fun r hr => hfound r (List.mem_cons_of_mem _ hr))
      rw [linkRunes]
      refine ⟨fun d hd => ?_, hrunes⟩
      rcases List.mem_cons.mp hd with rfl | hd
      · exact hchars d List.mem_cons_self
      · exact htext d hd
  | .found rune :: pieces, hchars, hfound => by
      obtain ⟨htext, hrunes⟩ := linkRunes_isWithin
        (fun d hd => hchars d (List.mem_cons_of_mem _ hd))
        (fun r hr => hfound r (List.mem_cons_of_mem _ hr))
      rw [linkRunes]
      refine ⟨by simp, fun r hr => ?_⟩
      rcases List.mem_cons.mp hr with rfl | hr
      · exact hfound r List.mem_cons_self
      rcases List.mem_cons.mp hr with rfl | hr
      · exact plain_isWithin htext
      · exact hrunes r hr

lemma links_isWithin (hcs : ∀ c ∈ cs, P c) : ∀ r ∈ links cs, r.IsWithin P := by
  have hlinks : ∀ r, Piece.found r ∈ scan link? cs → r.IsWithin P := by
    intro r hr
    obtain ⟨tail, n, htail, hfound⟩ := exists_of_found_mem_scan hr
    exact link_isWithin (fun c hc => hcs c (htail.subset hc)) hfound
  obtain ⟨htext, hrunes⟩ :=
    linkRunes_isWithin (fun c hc => hcs c (mem_of_char_mem_scan hc)) hlinks
  intro r hr
  rw [links] at hr
  rcases List.mem_cons.mp hr with rfl | hr
  · exact plain_isWithin htext
  · exact hrunes r hr

/-! ## Lines, emphasis and colour -/

/-- A part of a rune keeps its link and its colour. -/
lemma Rune.IsWithin.part {text : List Char} (h : r.IsWithin P) (htext : ∀ c ∈ text, P c) :
    (r.part (String.ofList text)).IsWithin P :=
  ⟨by simpa [Rune.part] using htext, h.address, h.color⟩

/-- Lines are made of the characters that are in them once white space is collapsed. -/
lemma isWithin_of_mem_splitRuneLines (h : (r.part "").IsWithin P)
    (hlines : ∀ line ∈ splitOn '\n' r.text.toList, ∀ c ∈ collapse line, P c) :
    ∀ s ∈ splitRuneLines r, s.IsWithin P := by
  have hpart : ∀ line ∈ splitOn '\n' r.text.toList, ∀ lineBreak : Bool,
      Rune.IsWithin P { r.part (String.ofList (collapse line)) with lineBreak } := by
    intro line hline lineBreak
    refine ⟨fun c hc => ?_, h.address, h.color⟩
    rw [Rune.part, String.toList_ofList] at hc
    exact hlines line hline c hc
  intro s hs
  unfold splitRuneLines at hs
  split at hs
  case h_1 => simp at hs
  case h_2 line more hlines =>
    rcases List.mem_cons.mp hs with rfl | hs
    · exact hpart line (hlines ▸ List.mem_cons_self) _
    · obtain ⟨other, hother, rfl⟩ := List.mem_map.mp hs
      exact hpart other (hlines ▸ List.mem_cons_of_mem _ hother) _

lemma splitRuneLines_isWithin (hspace : P ' ') (h : r.IsWithin P) :
    ∀ s ∈ splitRuneLines r, s.IsWithin P := by
  refine isWithin_of_mem_splitRuneLines ⟨by simp [Rune.part], h.address, h.color⟩ ?_
  intro line hline c hc
  rcases mem_or_eq_of_mem_collapse hc with hc | rfl
  · exact h.text c (mem_of_mem_splitOn hline hc)
  · exact hspace

lemma alternate_isWithin {more : Emphasis} (h : r.IsWithin P) : ∀ {inside : Bool}
    {spans : List (List Char)}, (∀ span ∈ spans, ∀ c ∈ span, P c) →
      ∀ s ∈ alternate r more inside spans, s.IsWithin P
  | _, [], _, s, hs => by simp [alternate] at hs
  | inside, span :: spans, hspans, s, hs => by
      have hpiece := Rune.IsWithin.part h (hspans span List.mem_cons_self)
      rw [alternate] at hs
      rcases List.mem_cons.mp hs with rfl | hs
      · split_ifs
        · exact ⟨hpiece.text, hpiece.address, hpiece.color⟩
        · exact hpiece
      · exact alternate_isWithin h (fun t ht => hspans t (List.mem_cons_of_mem _ ht)) s hs

lemma emphasize_isWithin {delimiter : String} {more : Emphasis} (h : ∀ r ∈ runes, r.IsWithin P) :
    ∀ s ∈ emphasize delimiter more runes, s.IsWithin P := by
  intro s hs
  obtain ⟨r, hr, hs⟩ := List.mem_flatMap.mp hs
  have hspans : ∀ s ∈ alternate r more false (splitOnText delimiter.toList r.text.toList),
      s.IsWithin P :=
    alternate_isWithin (h r hr) fun span hspan c hc =>
      (h r hr).text c (mem_of_mem_splitOnText hspan hc)
  unfold emphasizeRune at hs
  split at hs
  case h_1 => simp at hs
  case h_2 first rest hpieces =>
    rw [hpieces] at hspans
    rcases List.mem_cons.mp hs with rfl | hs
    · obtain ⟨htext, haddress, hcolor⟩ := hspans first List.mem_cons_self
      exact ⟨htext, haddress, hcolor⟩
    · exact hspans s (List.mem_cons_of_mem _ hs)

/-- The runes of a raw text before any colouring. -/
lemma plainRunes_isWithin {text : String} (htext : ∀ c ∈ text.toList, P c)
    (hmarks : ∀ c ∈ typographyMarks, P c) : ∀ r ∈ plainRunes text, r.IsWithin P := by
  have hchars : ∀ c ∈ typography text.toList, P c := fun c hc =>
    (mem_or_of_mem_typography hc).elim (htext c) (hmarks c)
  have hlines : ∀ r ∈ (links (typography text.toList)).flatMap splitRuneLines, r.IsWithin P := by
    intro r hr
    obtain ⟨link, hlink, hr⟩ := List.mem_flatMap.mp hr
    exact splitRuneLines_isWithin (hmarks ' ' (by decide)) (links_isWithin hchars link hlink) r hr
  exact emphasize_isWithin (emphasize_isWithin (emphasize_isWithin hlines))

lemma colorChar_isWithin (h : r.IsWithin P) {c : Char} (hc : P c) (hue : Hue) :
    ((colorChar r c).run hue).1.IsWithin P := by
  refine ⟨fun d hd => ?_, h.address, Or.inr ⟨hue, rfl⟩⟩
  have hsingle : d ∈ (String.ofList [c]).toList := hd
  rw [String.toList_ofList, List.mem_singleton] at hsingle
  exact hsingle ▸ hc

lemma colorizeRune_isWithin (h : r.IsWithin P) (hue : Hue) :
    ∀ s ∈ ((colorizeRune r).run hue).1, s.IsWithin P := by
  have hpieces : ∀ s ∈ ((r.text.toList.mapM (colorChar r)).run hue).1, s.IsWithin P := by
    intro s hs
    obtain ⟨c, hc, hue', rfl⟩ := exists_of_mem_mapM hs
    exact colorChar_isWithin h (h.text c hc) hue'
  intro s hs
  rw [colorizeRune, StateT.run_bind] at hs
  cases hrun : (r.text.toList.mapM (colorChar r)).run hue with
  | mk pieces hue' =>
      rw [hrun] at hs hpieces
      cases pieces with
      | nil =>
          have hself : s ∈ [r] := hs
          exact List.mem_singleton.mp hself ▸ h
      | cons first rest =>
          have hmem : s ∈ { first with lineBreak := r.lineBreak } :: rest := hs
          rcases List.mem_cons.mp hmem with rfl | hmem
          · obtain ⟨htext, haddress, hcolor⟩ := hpieces first List.mem_cons_self
            exact ⟨htext, haddress, hcolor⟩
          · exact hpieces s (List.mem_cons_of_mem _ hmem)

/-- Colouring makes no other runes. -/
lemma resolve_isWithin_of_plainRunes {rainbow : Bool} {text : String}
    (h : ∀ r ∈ plainRunes text, r.IsWithin P) (hue : Hue) :
    ∀ r ∈ ((resolve rainbow text).run hue).1, r.IsWithin P := by
  unfold resolve
  generalize plainRunes text = runes at h
  cases rainbow with
  | false =>
      intro r hr
      have hmem : r ∈ runes.filter isVisible := hr
      exact h r (List.mem_filter.mp hmem).1
  | true =>
      intro r hr
      have hmem : r ∈ ((runes.mapM colorizeRune).run hue).1.flatten.filter isVisible := hr
      obtain ⟨pieces, hpieces, hr⟩ := List.mem_flatten.mp (List.mem_filter.mp hmem).1
      obtain ⟨whole, hwhole, hue', rfl⟩ := exists_of_mem_mapM hpieces
      exact colorizeRune_isWithin (h whole hwhole) hue' r hr

/-- The runes of a raw text. -/
theorem resolve_isWithin {rainbow : Bool} {text : String} (htext : ∀ c ∈ text.toList, P c)
    (hmarks : ∀ c ∈ typographyMarks, P c) (hue : Hue) :
    ∀ r ∈ ((resolve rainbow text).run hue).1, r.IsWithin P :=
  resolve_isWithin_of_plainRunes (plainRunes_isWithin htext hmarks) hue

/-- The runes of a report. -/
theorem resolveDocument_isWithin {d : RawDocument} {hue : Hue}
    (htexts : ∀ text ∈ d.texts, ∀ c ∈ text.toList, P c) (hmarks : ∀ c ∈ typographyMarks, P c) :
    ∀ n ∈ ((resolveDocument d).run hue).1.parts, ∀ runes ∈ n.ownTexts, ∀ r ∈ runes,
      r.IsWithin P := by
  intro n hn runes hruns r hr
  obtain ⟨k, hk, s, rfl⟩ := Document.exists_part_of_traverse hn
  obtain ⟨text, htext, s', rfl⟩ := Node.exists_text_of_traverse hruns
  exact resolve_isWithin (htexts text (List.mem_flatMap.mpr ⟨k, hk, htext⟩)) hmarks s' r hr

/-! ## Cuts between alphabets -/

lemma mem_of_mem_cutScripts {c : Char} : ∀ {current : Option Script} {cs : List Char}
    {piece : List Char × Option Script}, piece ∈ cutScripts current cs → c ∈ piece.1 → c ∈ cs := by
  have hcons {d : Char} {cs : List Char} {pieces : List (List Char × Option Script)}
      (ih : ∀ piece ∈ pieces, c ∈ piece.1 → c ∈ cs) :
      ∀ piece ∈ consPiece d pieces, c ∈ piece.1 → c ∈ d :: cs := by
    intro piece hpiece hc
    cases pieces with
    | nil =>
        rw [List.mem_singleton.mp hpiece] at hc
        exact List.mem_cons.mpr (Or.inl (List.mem_singleton.mp hc))
    | cons first rest =>
        rcases List.mem_cons.mp hpiece with rfl | hpiece
        · rcases List.mem_cons.mp hc with rfl | hc
          · exact List.mem_cons_self
          · exact List.mem_cons_of_mem _ (ih first List.mem_cons_self hc)
        · exact List.mem_cons_of_mem _ (ih piece (List.mem_cons_of_mem _ hpiece) hc)
  intro current cs
  fun_induction cutScripts current cs with
  | case1 current =>
      intro piece hpiece hc
      rw [List.mem_singleton.mp hpiece] at hc
      exact nomatch hc
  | case2 current d cs hscript ih => exact fun hpiece hc => hcons (fun _ => ih) _ hpiece hc
  | case3 d cs script hscript ih => exact fun hpiece hc => hcons (fun _ => ih) _ hpiece hc
  | case4 d cs active hscript ih => exact fun hpiece hc => hcons (fun _ => ih) _ hpiece hc
  | case5 d cs script active hscript hne ih =>
      intro piece hpiece hc
      rcases List.mem_cons.mp hpiece with rfl | hpiece
      · exact nomatch hc
      · exact hcons (fun _ => ih) _ hpiece hc

lemma splitScripts_isWithin (h : ∀ r ∈ runes, r.IsWithin P) :
    ∀ s ∈ splitScripts runes, s.IsWithin P := by
  intro s hs
  obtain ⟨r, hr, hs⟩ := List.mem_flatMap.mp hs
  have hpiece : ∀ piece ∈ cutScripts none r.text.toList, (scriptPiece r piece).IsWithin P := by
    intro piece hpiece
    refine ⟨fun c hc => ?_, (h r hr).address, (h r hr).color⟩
    rw [scriptPiece, Rune.part, String.toList_ofList] at hc
    exact (h r hr).text c (mem_of_mem_cutScripts hpiece hc)
  unfold splitScript at hs
  split at hs
  case h_1 => simp at hs
  case h_2 first rest hcut =>
    rw [hcut] at hpiece
    rcases List.mem_cons.mp hs with rfl | hs
    · obtain ⟨htext, haddress, hcolor⟩ := hpiece first List.mem_cons_self
      exact ⟨htext, haddress, hcolor⟩
    · obtain ⟨piece, hmem, rfl⟩ := List.mem_map.mp hs
      obtain ⟨htext, haddress, hcolor⟩ := hpiece piece (List.mem_cons_of_mem _ hmem)
      exact ⟨htext, haddress, hcolor⟩

end Inline

end ReportPress
