import ReportPress.Proofs.Inline.Rainbow
import ReportPress.Text.Alphanumeric

/-!
# Texts of letters

Resolving acts on white space and on a few marks.  Letters are neither, so a text of letters goes
through every pass as it is, and through those before the emphasis also with stars among it.

* `Letters` — a text of letters, not empty.
* `IsCalm` — what typography leaves alone wherever it stands.

**Through the passes.**  `typography_append`, `links_of_not_mem`, `splitRuneLines_of_forall` and
`emphasizeAll_of_not_mem` say for each pass what it has nothing to do with.
-/

namespace ReportPress

open Text

variable {c : Char} {cs : List Char}

/-! ## Letters -/

namespace Text

/-- Letters and white space are different characters. -/
lemma isBlank_of_isLetter (h : isLetter c = true) : isBlank c = false := by
  have htables : ∀ r ∈ letters ++ recentLetters, ∀ b ∈ blanks,
      r.last < b.first ∨ b.last < r.first := by
    decide +kernel
  rw [isLetter] at h
  split_ifs at h with hascii
  · have halpha := toNat_of_isAlpha h
    refine isBlank_eq_false ?_
    simp only [blanks, List.forall_mem_cons, List.not_mem_nil, false_implies, implies_true,
      and_true]
    omega
  · have hletter : inRanges (letters ++ recentLetters) c = true := by
      rw [inRanges, List.any_append]
      exact h
    obtain ⟨r, hr, hfirst, hlast⟩ := inRanges_iff.mp hletter
    refine isBlank_eq_false fun b hb => ?_
    have hapart := htables r hr b hb
    omega

lemma ne_of_isLetter {mark : Char} (h : isLetter c = true) (hmark : isLetter mark = false) :
    c ≠ mark := by
  rintro rfl
  rw [h] at hmark
  exact absurd hmark (by decide)

lemma collapse_of_forall : ∀ {cs : List Char}, (∀ c ∈ cs, isBlank c = false) → collapse cs = cs
  | [], _ => rfl
  | c :: cs, h => by
      obtain ⟨hc, hcs⟩ := List.forall_mem_cons.mp h
      rw [collapse, if_neg (Bool.eq_false_iff.mp hc), collapse_of_forall hcs]

end Text

/-- A text of letters, not empty. -/
structure Letters where
  text : String
  ne_nil : text.toList ≠ []
  isLetter : ∀ c ∈ text.toList, isLetter c = true

namespace Letters

variable {w : Letters}

lemma isBlank (w : Letters) : ∀ c ∈ w.text.toList, isBlank c = false :=
  fun c hc => isBlank_of_isLetter (w.isLetter c hc)

lemma not_mem {mark : Char} (hmark : Text.isLetter mark = false) (w : Letters) :
    mark ∉ w.text.toList :=
  fun h => ne_of_isLetter (w.isLetter mark h) hmark rfl

lemma isEmpty_text (w : Letters) : w.text.isEmpty = false := by
  rw [Bool.eq_false_iff, Ne, String.isEmpty_iff]
  intro h
  exact w.ne_nil (by rw [h]; rfl)

end Letters

namespace Inline

variable {r : Rune} {runes : Runes}

/-! ## Typography -/

/-- What typography leaves alone wherever it stands. -/
def IsCalm (c : Char) : Prop := isBlank c = false ∧ c ∉ ['<', '—', '\x22']

instance : DecidablePred IsCalm := fun c =>
  inferInstanceAs (Decidable (isBlank c = false ∧ c ∉ ['<', '—', '\x22']))

lemma isCalm_of_isLetter (h : isLetter c = true) : IsCalm c := by
  have hmarks : ∀ mark ∈ ['<', '—', '\x22'], isLetter mark = false := by decide +kernel
  exact ⟨isBlank_of_isLetter h, fun hmem => ne_of_isLetter h (hmarks c hmem) rfl⟩

lemma IsCalm.breakToken? (h : IsCalm c) (rest : List Char) : breakToken? (c :: rest) = none := by
  have hlead : c ≠ '<' := fun heq => h.2 (by simp [heq])
  have hstart : dropLead? "<br>".toList (c :: rest) = none := dropLead?_cons_of_ne hlead _ rest
  rw [Inline.breakToken?, List.dropWhile_cons_of_neg (by simp [h.1]), hstart]
  rfl

lemma quotation?_cons_of_ne (h : c ≠ '\x22') (rest : List Char) :
    quotation? (c :: rest) = none := by
  unfold quotation?
  split
  case h_1 heq => exact absurd (List.cons.inj heq).1 h
  case h_2 => rfl

/-- Typography begins behind calm characters. -/
lemma typography_append {before : List Char} (h : ∀ c ∈ before, IsCalm c) (cs : List Char) :
    typography (before ++ cs) = before ++ typography cs := by
  have hnot {mark : Char} (hmark : ¬ IsCalm mark) : mark ∉ before := fun hmem => hmark (h _ hmem)
  have hdash : '—' ∉ before := hnot fun hcalm => hcalm.2 (by simp)
  have hspace : ' ' ∉ before := hnot fun hcalm => absurd hcalm.1 (by decide)
  have hspaced : " - ".toList = ' ' :: "- ".toList := rfl
  rw [typography, substitute_append_of_forall cs fun c hc => (h c hc).breakToken?,
    replaceAll_append hdash, hspaced, replaceAll_append hspace, ← hspaced]
  exact substitute_append_of_forall _ fun c hc =>
    quotation?_cons_of_ne fun heq => (h c hc).2 (by simp [heq])

lemma typography_of_forall (h : ∀ c ∈ cs, IsCalm c) : typography cs = cs := by
  have hcs := typography_append h []
  rwa [List.append_nil, show typography [] = [] from rfl, List.append_nil] at hcs

/-! ## Links and lines -/

lemma link?_cons_of_ne (h : c ≠ '[') (rest : List Char) : link? (c :: rest) = none := by
  unfold link?
  split
  case h_1 heq => exact absurd (List.cons.inj heq).1 h
  case h_2 => rfl

/-- Without brackets there are no links. -/
lemma links_of_not_mem (h : '[' ∉ cs) : links cs = [.plain (String.ofList cs)] := by
  have hmatch : ¬ HasMatch link? cs := by
    rintro ⟨tail, hne, htail, hfound⟩
    obtain ⟨c, rest, rfl⟩ := List.exists_cons_of_ne_nil hne
    refine hfound (link?_cons_of_ne (fun heq => h ?_) rest)
    exact heq ▸ htail.subset List.mem_cons_self
  have hchars : ∀ cs : List Char, linkRunes (cs.map .char) = (cs, []) := by
    intro cs
    induction cs with
    | nil => rfl
    | cons c cs ih => rw [List.map_cons, linkRunes, ih, consChar]
  rw [links, scan_of_not_hasMatch hmatch, hchars]

/-- A rune without white space is a line. -/
lemma splitRuneLines_of_forall (h : ∀ c ∈ r.text.toList, isBlank c = false) :
    splitRuneLines r = [r] := by
  have hline : '\n' ∉ r.text.toList := fun hmem => absurd (h _ hmem) (by decide)
  rw [splitRuneLines, splitOn_of_not_mem hline]
  simp [Rune.part, collapse_of_forall h]

/-! ## Emphasis -/

/-- A text in which no delimiter can begin is one piece. -/
lemma splitOnText_of_not_mem {p : Char} (pattern : List Char) (h : p ∉ cs) :
    splitOnText (p :: pattern) cs = [cs] := by
  have hmatch : ¬ HasMatch
      (fun cs => (dropLead? (p :: pattern) cs).map fun _ => ((), (p :: pattern).length)) cs := by
    rintro ⟨tail, hne, htail, hfound⟩
    obtain ⟨c, rest, rfl⟩ := List.exists_cons_of_ne_nil hne
    have hne : c ≠ p := fun heq => h (heq ▸ htail.subset List.mem_cons_self)
    exact hfound (congrArg (Option.map _) (dropLead?_cons_of_ne hne pattern rest))
  rw [splitOnText, scan_of_not_hasMatch hmatch]
  generalize cs = text
  induction text with
  | nil => rfl
  | cons c text ih => rw [List.map_cons, List.foldr_cons, ih]

lemma emphasizeRune_of_not_mem {delimiter : String}
    (hstars : ∃ more, delimiter.toList = '*' :: more) (more : Emphasis) (h : '*' ∉ r.text.toList) :
    emphasizeRune delimiter more r = [r] := by
  obtain ⟨stars, hstars⟩ := hstars
  rw [emphasizeRune, hstars, splitOnText_of_not_mem stars h]
  simp [alternate, Rune.part]

/-- Without stars there is no emphasis. -/
lemma emphasizeAll_of_not_mem (h : ∀ r ∈ runes, '*' ∉ r.text.toList) :
    emphasizeAll runes = runes := by
  have hpass {delimiter : String} (hstars : ∃ more, delimiter.toList = '*' :: more)
      (more : Emphasis) : emphasize delimiter more runes = runes := by
    rw [emphasize, List.flatMap_congr fun r hr => emphasizeRune_of_not_mem hstars more (h r hr)]
    exact List.flatMap_singleton' runes
  rw [emphasizeAll, hpass ⟨_, rfl⟩, hpass ⟨_, rfl⟩, hpass ⟨_, rfl⟩]

end Inline

end ReportPress
