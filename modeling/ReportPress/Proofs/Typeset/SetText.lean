import ReportPress.Proofs.Code.Spans
import ReportPress.Proofs.Inline.Resolved
import ReportPress.Proofs.Typeset.Inlines
import ReportPress.Proofs.Typeset.Provenance
import ReportPress.Proofs.Word.Soundness

/-!
# What is set for a report

* `IsPlain` — names of letters, digits and hyphens.
* `IsRunWithin`, `IsWithin` — runs and contents of a paragraph whose texts, addresses and
  descriptions consist of characters with some property; the formats of the runs have plain names,
  and no run is a page number.

**Colours.**  The colours of hues and of code are hexadecimal numbers, so all formats are plain.

**From runes to paragraphs.**  `inlinesOf_isWithin` — the contents of a paragraph for runes.

**From nodes to paragraphs.**  `isWithin_of_comesFrom` — whatever is set for nodes consists of
their characters (`AreWithin`).
-/

namespace ReportPress.Typeset

open Inline

variable {P : Char → Prop}

/-- Text of letters, digits and hyphens. -/
def IsPlain (s : String) : Prop := ∀ c ∈ s.toList, c.isAlphanum = true ∨ c = '-'

instance : DecidablePred IsPlain := fun s =>
  List.decidableBAll (fun c : Char => c.isAlphanum = true ∨ c = '-') s.toList

lemma IsPlain.hasNoMarkup {s : String} (h : IsPlain s) : HasNoMarkup s := by
  intro c hc
  refine ⟨?_, ?_, ?_⟩
  all_goals
    rintro rfl
    exact absurd (h _ hc) (by decide)

/-- A run of text whose characters have a property, in a format with plain names. -/
structure IsRunWithin (P : Char → Prop) (r : Word.Run) : Prop where
  text : ∀ c ∈ r.text.toList, P c
  names : ∀ s ∈ r.format.names, IsPlain s
  content : r.content ≠ .pageNumber

/-- Contents of a paragraph whose characters have a property, in formats with plain names. -/
structure IsWithin (P : Char → Prop) (i : Word.Inline) : Prop where
  runs : ∀ r ∈ i.runs, IsRunWithin P r
  address : ∀ address runs, i = .link (.external address) runs → ∀ c ∈ address.toList, P c
  description : ∀ p, i = .picture p → ∀ c ∈ p.description.toList, P c

lemma IsWithin.isSafe {i : Word.Inline} (h : IsWithin P i) : i.IsSafe := by
  refine fun r hr => ⟨fun s hs => ?_, fun s hs => ?_⟩
  all_goals exact ((h.runs r hr).names s (by simp [Word.RunFormat.names, hs])).hasNoMarkup

/-! ## Colours -/

lemma isPlain_color (hue : Hue) : IsPlain hue.color := by
  have hdigit : ∀ n : Fin 16, (Nat.digitChar n.val).toUpper.isAlphanum = true := by decide
  have hbyte (n : Nat) : ∀ c ∈ hexByte n, c.isAlphanum = true := by
    intro c hc
    have hlt (m : Nat) : m % 16 < 16 := Nat.mod_lt _ (by omega)
    rw [hexByte, List.mem_cons, List.mem_singleton] at hc
    rcases hc with hc | hc
    · exact hc ▸ hdigit ⟨n / 16 % 16, hlt _⟩
    · exact hc ▸ hdigit ⟨n % 16, hlt _⟩
  intro c hc
  rw [Hue.color, hexColor, String.toList_ofList] at hc
  obtain ⟨offset, -, hc⟩ := List.mem_flatMap.mp hc
  exact Or.inl (hbyte _ c hc)

lemma isPlain_style {color : String} {language : String} {kind : Code.TokenKind}
    (h : (kind.style language).color = some color) : IsPlain color := by
  unfold Code.TokenKind.style at h
  split_ifs at h
  · cases h
    decide
  · cases h
    decide
  · cases kind <;> cases h <;> decide

lemma isPlain_languageTag (s : Script) : IsPlain s.languageTag := by
  cases s <;> decide

/-! ## Runs -/

lemma runOf_isRunWithin {r : Rune} (h : r.IsWithin P) (hspace : P ' ') (size : Option Nat) :
    IsRunWithin P (runOf size r) := by
  refine ⟨fun c hc => ?_, fun s hs => ?_, by simp [runOf]⟩
  · have hmem : c ∈ (Text.collapsed r.text).toList := hc
    rw [Text.collapsed, String.toList_ofList] at hmem
    rcases Text.mem_or_eq_of_mem_collapse hmem with hmem | rfl
    · exact h.text c hmem
    · exact hspace
  · have hmem : s ∈ r.color.toList ++ (r.script.map Script.languageTag).toList := hs
    rw [List.mem_append, Option.mem_toList, Option.mem_toList] at hmem
    rcases hmem with hcolor | hlanguage
    · rcases h.color with hnone | ⟨hue, hhue⟩
      · simp [hnone] at hcolor
      · rw [hhue, Option.some.injEq] at hcolor
        exact hcolor ▸ isPlain_color hue
    · obtain ⟨script, -, rfl⟩ := Option.map_eq_some_iff.mp hlanguage
      exact isPlain_languageTag script

lemma linkedRun_isRunWithin {r : Word.Run} (h : IsRunWithin P r) :
    IsRunWithin P (Word.linkedRun r) := by
  unfold Word.linkedRun
  split_ifs with hstyle
  · refine ⟨h.text, fun s hs => ?_, h.content⟩
    have hmem : s = "Hyperlink" ∨ s ∈ r.format.names := by
      simp only [Word.RunFormat.names, Option.toList_some, List.mem_append,
        List.mem_singleton] at hs ⊢
      tauto
    rcases hmem with rfl | hmem
    · decide
    · exact h.names s hmem
  · exact h

lemma isWithin_run {r : Word.Run} (h : IsRunWithin P r) : IsWithin P (.run r) :=
  ⟨fun s hs => List.mem_singleton.mp hs ▸ h, by simp, by simp⟩

lemma linkOver_isWithin {target : LinkTarget} {runs : List Word.Run}
    (hruns : ∀ r ∈ runs, IsRunWithin P r)
    (htarget : ∀ address, target = .external address → ∀ c ∈ address.toList, P c) :
    IsWithin P (.linkOver target runs) := by
  refine ⟨fun r hr => ?_, ?_, ?_⟩
  · obtain ⟨s, hs, rfl⟩ := List.mem_map.mp hr
    exact linkedRun_isRunWithin (hruns s hs)
  · intro address others h
    simp only [Word.Inline.linkOver, Word.Inline.link.injEq] at h
    exact htarget address h.1
  · simp [Word.Inline.linkOver]

/-! ## From runes to paragraphs -/

lemma linkedRuns_isWithin {size : Option Nat} {first : Rune} {group : Runes}
    (h : ∀ r ∈ group, r.IsWithin P) (hfirst : first ∈ group) (hspace : P ' ') :
    ∀ i ∈ linkedRuns size first.link group, IsWithin P i := by
  have hruns : ∀ r ∈ group.map (runOf size), IsRunWithin P r := by
    intro r hr
    obtain ⟨rune, hrune, rfl⟩ := List.mem_map.mp hr
    exact runOf_isRunWithin (h rune hrune) hspace size
  intro i hi
  unfold linkedRuns at hi
  dsimp only at hi
  split at hi
  case h_1 target htarget =>
    rw [List.mem_singleton.mp hi]
    refine linkOver_isWithin hruns fun address haddress => ?_
    exact (h first hfirst).address address (by rw [htarget, haddress])
  case h_2 =>
    obtain ⟨r, hr, rfl⟩ := List.mem_map.mp hi
    exact isWithin_run (hruns r hr)

lemma groupInlines_isWithin {size : Option Nat} {group : Runes} (h : ∀ r ∈ group, r.IsWithin P)
    (hspace : P ' ') (marks : Bookmarks) :
    ∀ i ∈ ((groupInlines size group).run marks).1, IsWithin P i := by
  have hstart (id : Nat) (anchor : String) : IsWithin P (.bookmarkStart id anchor) :=
    ⟨by simp [Word.Inline.runs], by simp, by simp⟩
  have hend (id : Nat) : IsWithin P (.bookmarkEnd id) :=
    ⟨by simp [Word.Inline.runs], by simp, by simp⟩
  cases group with
  | nil => exact fun i hi => absurd hi List.not_mem_nil
  | cons first rest =>
      have hcontent : ∀ i ∈ linkedRuns size first.link (first :: rest), IsWithin P i :=
        linkedRuns_isWithin h List.mem_cons_self hspace
      intro i hi
      cases ha : first.anchor with
      | none =>
          simp only [groupInlines, List.head?_cons, ha] at hi
          exact hcontent i hi
      | some a =>
          simp only [groupInlines, List.head?_cons, ha, StateT.run_bind, run_claim] at hi
          split_ifs at hi
          · exact hcontent i hi
          · have hmem : i ∈ .bookmarkStart marks.next a ::
                linkedRuns size first.link (first :: rest) ++ [.bookmarkEnd marks.next] := hi
            rw [List.cons_append, List.mem_cons, List.mem_append, List.mem_singleton] at hmem
            rcases hmem with rfl | hmem | rfl
            · exact hstart _ _
            · exact hcontent i hmem
            · exact hend _

/-- The contents of a paragraph for runes. -/
theorem inlinesOf_isWithin {size : Option Nat} {runes : Runes} (h : ∀ r ∈ runes, r.IsWithin P)
    (hspace : P ' ') (marks : Bookmarks) :
    ∀ i ∈ ((inlinesOf size runes).run marks).1, IsWithin P i := by
  intro i hi
  have hmem : i ∈ (((runeGroups runes).mapM (groupInlines size)).run marks).1.flatten := hi
  obtain ⟨inlines, hinlines, hi⟩ := List.mem_flatten.mp hmem
  obtain ⟨group, hgroup, marks', rfl⟩ := exists_of_mem_mapM hinlines
  refine groupInlines_isWithin (fun r hr => ?_) hspace marks' i hi
  refine splitScripts_isWithin h r ?_
  rw [← List.flatten_splitBy sameTarget (splitScripts runes)]
  exact List.mem_flatten.mpr ⟨group, hgroup, hr⟩

/-! ## From nodes to paragraphs -/

/-- Lines of code of characters with a property are cut into pieces of such characters. -/
def Tools.Keeps (P : Char → Prop) (tools : Tools) : Prop :=
  ∀ token, ∀ t ∈ tools.tokenizerOf token, t.Keeps P

/-- Nodes whose texts consist of characters with a property, and stay so when their code is cut. -/
structure AreWithin (P : Char → Prop) (s : Surroundings) (ns : List (Node Runes)) : Prop where
  cut : s.tools.Keeps P
  runes : ∀ n ∈ ns, ∀ runes ∈ n.ownTexts, ∀ r ∈ runes, r.IsWithin P
  code : ∀ c, Node.code c ∈ ns → ∀ ch ∈ c.body.toList, P ch
  external : ∀ d, Node.external d ∈ ns → ∀ text, placeholder s.files s.directory d = .ok text →
    ∀ c ∈ text.toList, P c

lemma mem_plainText {runes : Runes} {c : Char} (h : c ∈ (plainText runes).toList) :
    ∃ r ∈ runes, c ∈ r.text.toList := by
  induction runes with
  | nil => simp [plainText] at h
  | cons r runes ih =>
      have hjoin : plainText (r :: runes) = r.text ++ plainText runes := by
        simp [plainText, String.join_cons]
      rw [hjoin, String.toList_append, List.mem_append] at h
      rcases h with h | h
      · exact ⟨r, List.mem_cons_self, h⟩
      · obtain ⟨s, hs, hc⟩ := ih h
        exact ⟨s, List.mem_cons_of_mem _ hs, hc⟩

/-- What a node shows consists of its characters. -/
lemma isWithin_of_shows {s : Surroundings} {ns : List (Node Runes)} {n : Node Runes}
    {i : Word.Inline} (h : AreWithin P s ns) (hspace : P ' ') (hn : n ∈ ns) (hshows : Shows s n i) :
    IsWithin P i := by
  cases hshows with
  | runes hruns hi => exact inlinesOf_isWithin (h.runes n hn _ hruns) hspace _ i hi
  | picture image picture =>
      refine ⟨by simp [Word.Inline.runs], by simp, ?_⟩
      rintro p ⟨⟩ c hc
      obtain ⟨r, hr, hc⟩ := mem_plainText hc
      exact (h.runes _ hn image.alt (by simp [Node.ownTexts]) r hr).text c hc
  | @code block line span hline hspan =>
      have hof := Code.isSpanOf_of_mem_linesBy h.cut (h.code block hn) line hline span hspan
      refine isWithin_run ⟨hof.text, ?_, by simp [spanRun]⟩
      intro color hcolor
      have hmem : color ∈ span.style.color := by
        simpa [spanRun, Word.RunFormat.names] using hcolor
      rcases hof.style with hplain | ⟨kind, language, hstyle⟩
      · simp [hplain] at hmem
      · rw [hstyle] at hmem
        exact isPlain_style hmem
  | @placeholder d text htext =>
      refine isWithin_run ⟨?_, by simp [Word.Run.ofText, Word.RunFormat.names],
        by simp [Word.Run.ofText]⟩
      exact h.external d hn text htext

/-- All that is set for nodes consists of their characters. -/
theorem isWithin_of_comesFrom {s : Surroundings} {ns : List (Node Runes)} {i : Word.Inline}
    (h : AreWithin P s ns) (hspace : P ' ') (hfrom : ComesFrom s ns i) : IsWithin P i := by
  rcases hfrom with rfl | ⟨n, hn, hshows⟩
  · exact isWithin_run ⟨by simp [Word.Run.text, Word.Run.pageBreak],
      by simp [Word.Run.pageBreak, Word.RunFormat.names], by simp [Word.Run.pageBreak]⟩
  · exact isWithin_of_shows h hspace hn hshows

end ReportPress.Typeset
