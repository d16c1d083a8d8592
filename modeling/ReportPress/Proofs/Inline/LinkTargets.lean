import ReportPress.Proofs.Inline.LetterTexts

/-!
# Where links lead

A link leads to the target that is written behind its label, but typography comes first: it acts on
targets as it does on any other text.

* `IsUntouched` — a text that typography has nothing to do with: there is no break token in it, no
  long dash, no hyphen between spaces and nothing between straight quotation marks on one line.

**What typography takes out.**  Each pass takes out a mark of its own (as in `takesOut_breakToken`),
and no later pass puts that in again.  So a text that typography leaves as it is has none of the
marks, and `typography_eq_self_iff` follows.

**Around a target.**  No match reaches into the text of a link before its target or behind it
(`typography_linkText`), so the link is found around the target as typography leaves it.

**The result.**  `run_resolve_linkText` — the rune of a link, and the targets that are kept.
-/

namespace ReportPress

open Text

namespace Inline

variable {cs : List Char} {mark : Char}

/-- A text that typography has nothing to do with. -/
structure IsUntouched (cs : List Char) : Prop where
  breaks : ¬ "<br>".toList <:+: cs
  dashes : '—' ∉ cs
  hyphens : ¬ " - ".toList <:+: cs
  quotations : ∀ inner, IsEnclosed '\x22' inner → ¬ '\x22' :: inner ++ ['\x22'] <:+: cs

/-! ## What is found -/

/-- A break token takes the white space around it along. -/
lemma exists_of_breakToken? {new : List Char} {n : Nat} (h : breakToken? cs = some (new, n)) :
    new = ['\n'] ∧ n ≤ cs.length ∧ "<br>".toList <:+: cs.take n := by
  obtain ⟨rest, hrest, heq⟩ := Option.map_eq_some_iff.mp h
  obtain ⟨rfl, rfl⟩ := Prod.mk.inj heq
  have hcut := dropLead?_eq_some_iff.mp hrest
  have hlead := List.takeWhile_append_dropWhile (p := isBlank) (l := cs)
  have htrail := List.takeWhile_append_dropWhile (p := isBlank) (l := rest)
  rw [hcut, ← htrail, ← List.append_assoc, ← List.append_assoc] at hlead
  refine ⟨rfl, Nat.sub_le _ _, ?_⟩
  rw [← hlead, List.length_append, Nat.add_sub_cancel, List.take_left]
  exact ⟨_, _, rfl⟩

/-- A replaced text is found where it begins. -/
lemma eq_of_replaceAll? {pattern new found : List Char} {n : Nat}
    (h : ((dropLead? pattern cs).map fun _ => (new, pattern.length)) = some (found, n)) :
    found = new ∧ n ≤ cs.length ∧ cs.take n = pattern := by
  obtain ⟨rest, hrest, heq⟩ := Option.map_eq_some_iff.mp h
  obtain ⟨rfl, rfl⟩ := Prod.mk.inj heq
  rw [dropLead?_eq_some_iff.mp hrest, List.take_left]
  exact ⟨rfl, by simp, rfl⟩

/-- A quotation is a text between two straight quotation marks on one line. -/
lemma quotation?_eq_some_iff {new : List Char} {n : Nat} :
    quotation? cs = some (new, n) ↔ ∃ inner rest, cs = '\x22' :: inner ++ '\x22' :: rest ∧
      IsEnclosed '\x22' inner ∧ new = '«' :: inner ++ ['»'] ∧ n = inner.length + 2 := by
  have hupTo (cs : List Char) : quotation? ('\x22' :: cs)
      = (upTo? '\x22' cs).map fun p => ('«' :: p.1 ++ ['»'], p.1.length + 2) := by
    rw [quotation?, upTo?]
    cases hdrop : cs.drop (cs.takeWhile fun c => c ≠ '\x22' && c ≠ '\n').length with
    | nil => simp
    | cons c rest => by_cases hc : c = '\x22' <;> simp [hc]
  constructor
  · intro h
    cases cs with
    | nil => exact nomatch h
    | cons c cs =>
        by_cases hc : c = '\x22'
        · rw [hc, hupTo] at h
          obtain ⟨⟨inner, rest⟩, hinner, heq⟩ := Option.map_eq_some_iff.mp h
          obtain ⟨rfl, henclosed⟩ := upTo?_eq_some_iff.mp hinner
          obtain ⟨rfl, rfl⟩ := Prod.mk.inj heq
          exact ⟨inner, rest, by rw [hc, List.cons_append], henclosed, rfl, rfl⟩
        · rw [quotation?_cons_of_ne hc] at h
          exact nomatch h
  · rintro ⟨inner, rest, rfl, hinner, rfl, rfl⟩
    rw [List.cons_append, hupTo, upTo?_eq_some_iff.mpr ⟨rfl, hinner⟩]
    rfl

lemma hasMatch_breakToken : HasMatch breakToken? cs ↔ "<br>".toList <:+: cs := by
  constructor
  · rintro ⟨tail, -, htail, hfound⟩
    obtain ⟨⟨new, n⟩, hfound⟩ := Option.ne_none_iff_exists'.mp hfound
    exact (exists_of_breakToken? hfound).2.2.trans
      ((List.take_prefix n tail).isInfix.trans htail.isInfix)
  · intro h
    obtain ⟨tail, ⟨rest, rfl⟩, htail⟩ := List.infix_iff_prefix_suffix.mp h
    have hlead : ("<br>".toList ++ rest).dropWhile isBlank = "<br>".toList ++ rest :=
      List.dropWhile_cons_of_neg (by decide)
    refine ⟨_, by simp, htail, ?_⟩
    rw [breakToken?, hlead, dropLead?_append]
    simp

lemma hasMatch_replaceAll {pattern new : List Char} (hne : pattern ≠ []) :
    HasMatch (fun cs => (dropLead? pattern cs).map fun _ => (new, pattern.length)) cs
      ↔ pattern <:+: cs := by
  constructor
  · rintro ⟨tail, -, htail, hfound⟩
    obtain ⟨⟨found, n⟩, hfound⟩ := Option.ne_none_iff_exists'.mp hfound
    obtain ⟨-, -, htake⟩ := eq_of_replaceAll? hfound
    exact htake ▸ (List.take_prefix n tail).isInfix.trans htail.isInfix
  · intro h
    obtain ⟨tail, ⟨rest, rfl⟩, htail⟩ := List.infix_iff_prefix_suffix.mp h
    exact ⟨_, by simp [hne], htail, by simp [dropLead?_append]⟩

lemma hasMatch_quotation : HasMatch quotation? cs ↔
    ∃ inner, IsEnclosed '\x22' inner ∧ '\x22' :: inner ++ ['\x22'] <:+: cs := by
  constructor
  · rintro ⟨tail, -, htail, hfound⟩
    obtain ⟨⟨new, n⟩, hfound⟩ := Option.ne_none_iff_exists'.mp hfound
    obtain ⟨inner, rest, rfl, hinner, -⟩ := quotation?_eq_some_iff.mp hfound
    refine ⟨inner, hinner, List.infix_iff_prefix_suffix.mpr ⟨_, ⟨rest, ?_⟩, htail⟩⟩
    simp
  · rintro ⟨inner, hinner, h⟩
    obtain ⟨tail, ⟨rest, rfl⟩, htail⟩ := List.infix_iff_prefix_suffix.mp h
    exact ⟨_, by simp, htail, Option.ne_none_iff_exists'.mpr ⟨_, quotation?_eq_some_iff.mpr
      ⟨inner, rest, by simp, hinner, rfl, rfl⟩⟩⟩

/-! ## What each pass takes out -/

lemma pos_of_infix_take {pattern : List Char} {n : Nat} (hne : pattern ≠ [])
    (h : pattern <:+: cs.take n) : 0 < n := by
  refine Nat.pos_of_ne_zero ?_
  rintro rfl
  exact hne (List.infix_nil.mp h)

lemma takesOut_breakToken : TakesOut breakToken? '<' := by
  intro cs new n h
  obtain ⟨rfl, -, htoken⟩ := exists_of_breakToken? h
  refine ⟨pos_of_infix_take (by decide) htoken, ?_⟩
  exact List.count_pos_iff.mpr (htoken.subset (by decide))

lemma addsNone_replaceAll {pattern new : List Char} (hne : pattern ≠ [])
    (h : new.count mark ≤ pattern.count mark) :
    AddsNone (fun cs => (dropLead? pattern cs).map fun _ => (new, pattern.length)) mark := by
  intro cs found n hfound
  obtain ⟨rfl, -, htake⟩ := eq_of_replaceAll? hfound
  exact ⟨pos_of_infix_take hne (by rw [htake]), htake ▸ h⟩

lemma takesOut_replaceAll {pattern new : List Char} (hne : pattern ≠ [])
    (h : new.count mark < pattern.count mark) :
    TakesOut (fun cs => (dropLead? pattern cs).map fun _ => (new, pattern.length)) mark := by
  intro cs found n hfound
  obtain ⟨rfl, -, htake⟩ := eq_of_replaceAll? hfound
  exact ⟨pos_of_infix_take hne (by rw [htake]), htake ▸ h⟩

/-- What stands for a quotation has other marks around the same text. -/
lemma count_of_quotation? {new : List Char} {n : Nat} (h : quotation? cs = some (new, n)) :
    0 < n ∧ ∃ inner, new = '«' :: inner ++ ['»'] ∧ cs.take n = '\x22' :: inner ++ ['\x22'] := by
  obtain ⟨inner, rest, rfl, -, rfl, rfl⟩ := quotation?_eq_some_iff.mp h
  refine ⟨Nat.succ_pos _, inner, rfl, ?_⟩
  rw [List.append_cons]
  exact List.take_left' (by simp)

lemma count_enclosed (l r : Char) (inner : List Char) : (l :: inner ++ [r]).count mark
    = inner.count mark + ((if l = mark then 1 else 0) + if r = mark then 1 else 0) := by
  rw [List.cons_append, List.count_cons, List.count_append, List.count_singleton]
  simp only [beq_iff_eq]
  omega

lemma takesOut_quotation : TakesOut quotation? '\x22' := by
  intro cs new n h
  obtain ⟨hpos, inner, rfl, htake⟩ := count_of_quotation? h
  refine ⟨hpos, ?_⟩
  rw [htake, count_enclosed, count_enclosed]
  exact Nat.add_lt_add_left (by decide) _

lemma addsNone_quotation (hopen : mark ≠ '«') (hclose : mark ≠ '»') :
    AddsNone quotation? mark := by
  intro cs new n h
  obtain ⟨hpos, inner, rfl, htake⟩ := count_of_quotation? h
  refine ⟨hpos, ?_⟩
  rw [htake, count_enclosed, count_enclosed, if_neg hopen.symm, if_neg hclose.symm]
  exact Nat.add_le_add_left (Nat.zero_le _) _

lemma count_quotations_le (hopen : mark ≠ '«') (hclose : mark ≠ '»') (cs : List Char) :
    (substitute quotation? cs).count mark ≤ cs.count mark :=
  (addsNone_quotation hopen hclose).count_substitute_le cs

lemma count_dashes_le (hopen : mark ≠ '«') (hclose : mark ≠ '»')
    (h : " – ".toList.count mark ≤ " - ".toList.count mark) (cs : List Char) :
    (substitute quotation? (replaceAll " - ".toList " – ".toList cs)).count mark ≤ cs.count mark :=
  (count_quotations_le hopen hclose _).trans
    ((addsNone_replaceAll (by decide) h).count_substitute_le cs)

lemma count_hyphens_le (hopen : mark ≠ '«') (hclose : mark ≠ '»')
    (h : " – ".toList.count mark ≤ " - ".toList.count mark)
    (h' : ['-'].count mark ≤ ['—'].count mark) (cs : List Char) :
    (substitute quotation? (replaceAll " - ".toList " – ".toList
      (replaceAll ['—'] ['-'] cs))).count mark ≤ cs.count mark :=
  (count_dashes_le hopen hclose h _).trans
    ((addsNone_replaceAll (by simp) h').count_substitute_le cs)

/-- Typography leaves a text as it is just when it has nothing to do with it. -/
theorem typography_eq_self_iff : typography cs = cs ↔ IsUntouched cs := by
  have hspaced : " - ".toList ≠ [] := by decide
  constructor
  · intro h
    -- One pass after another has found nothing, so the next is done to the text itself.
    have hbreak : ¬ HasMatch breakToken? cs :=
      takesOut_breakToken.not_hasMatch
        (count_hyphens_le (by decide) (by decide) (by decide) (by decide)) h
    rw [typography, substitute_of_not_hasMatch hbreak] at h
    have hdash := (@takesOut_replaceAll '—' ['—'] ['-'] (by simp) (by decide)).not_hasMatch
      (count_dashes_le (by decide) (by decide) (by decide)) h
    have hkept : replaceAll ['—'] ['-'] cs = cs := substitute_of_not_hasMatch hdash
    rw [hkept] at h
    have hhyphen := (@takesOut_replaceAll '-' _ " – ".toList hspaced (by decide)).not_hasMatch
      (count_quotations_le (by decide) (by decide)) h
    rw [replaceAll, substitute_of_not_hasMatch hhyphen] at h
    have hquote : ¬ HasMatch quotation? cs :=
      takesOut_quotation.not_hasMatch (fun cs => Nat.le_refl ((id cs).count '\x22')) h
    rw [hasMatch_breakToken] at hbreak
    rw [hasMatch_replaceAll (by simp), List.singleton_infix_iff] at hdash
    rw [hasMatch_replaceAll hspaced] at hhyphen
    rw [hasMatch_quotation, not_exists] at hquote
    exact ⟨hbreak, hdash, hhyphen, fun inner hinner h => hquote inner ⟨hinner, h⟩⟩
  · rintro ⟨hbreaks, hdashes, hhyphens, hquotations⟩
    rw [← hasMatch_breakToken] at hbreaks
    rw [← List.singleton_infix_iff, ← hasMatch_replaceAll (by simp)] at hdashes
    rw [← hasMatch_replaceAll hspaced] at hhyphens
    rw [typography, substitute_of_not_hasMatch hbreaks, replaceAll, replaceAll,
      substitute_of_not_hasMatch hdashes, substitute_of_not_hasMatch hhyphens]
    refine substitute_of_not_hasMatch fun h => ?_
    obtain ⟨inner, hinner, h⟩ := hasMatch_quotation.mp h
    exact hquotations inner hinner h

/-! ## Around a target -/

lemma dropLead?_concat {lead : List Char} {c : Char} (h : c ∉ lead) : ∀ cs : List Char,
    dropLead? lead (cs ++ [c]) = (dropLead? lead cs).map (· ++ [c]) := by
  induction lead with
  | nil => exact fun cs => rfl
  | cons l lead ih =>
      rw [List.mem_cons, not_or] at h
      obtain ⟨hl, hlead⟩ := h
      intro cs
      cases cs with
      | nil => exact if_neg (Ne.symm hl)
      | cons d cs =>
          rw [List.cons_append, dropLead?, dropLead?, ih hlead]
          split_ifs <;> rfl

lemma breakToken?_concat {c : Char} (hblank : isBlank c = false) (hc : c ∉ "<br>".toList)
    (tail : List Char) : breakToken? (tail ++ [c]) = breakToken? tail := by
  have hdrop (cs : List Char) : (cs ++ [c]).dropWhile isBlank = cs.dropWhile isBlank ++ [c] := by
    induction cs with
    | nil => simp [hblank]
    | cons d cs ih =>
        rw [List.cons_append, List.dropWhile_cons, List.dropWhile_cons, ih]
        split_ifs <;> rfl
  rw [breakToken?, breakToken?, hdrop, dropLead?_concat hc, Option.map_map]
  congr 1
  funext rest
  rw [Function.comp_apply, hdrop, List.length_append, List.length_append, Nat.add_sub_add_right]

lemma quotation?_concat {c : Char} (hc : c ≠ '\x22') (tail : List Char) :
    quotation? (tail ++ [c]) = quotation? tail := by
  refine Option.ext fun ⟨new, n⟩ => ?_
  rw [quotation?_eq_some_iff, quotation?_eq_some_iff]
  constructor
  · rintro ⟨inner, rest, hcut, h⟩
    obtain rfl | ⟨rest, last, rfl⟩ := List.eq_nil_or_concat' rest
    · exact absurd (List.append_inj_right' hcut rfl) (by simpa using hc)
    · rw [← List.cons_append, ← List.append_assoc] at hcut
      exact ⟨inner, rest, (List.append_inj' hcut rfl).1, h⟩
  · rintro ⟨inner, rest, rfl, h⟩
    exact ⟨inner, rest ++ [c], by simp, h⟩

/-- No match reaches a closing parenthesis at the end. -/
lemma typography_concat (cs : List Char) : typography (cs ++ [')']) = typography cs ++ [')'] := by
  have hbreaks : ∀ cs, substitute breakToken? (cs ++ [')']) = substitute breakToken? cs ++ [')'] :=
    substitute_concat rfl (breakToken?_concat (by decide) (by decide))
      fun _ _ _ h => (exists_of_breakToken? h).2.1
  have hpattern {pattern new : List Char} (hne : dropLead? pattern [] = none) (hc : ')' ∉ pattern) :
      ∀ cs, replaceAll pattern new (cs ++ [')']) = replaceAll pattern new cs ++ [')'] :=
    substitute_concat (by rw [hne]; rfl)
      (fun tail => by rw [dropLead?_concat hc, Option.map_map]; rfl)
      fun _ _ _ h => (eq_of_replaceAll? h).2.1
  have hquotes : ∀ cs, substitute quotation? (cs ++ [')']) = substitute quotation? cs ++ [')'] :=
    substitute_concat rfl (quotation?_concat (by decide)) fun cs _ n h => by
      obtain ⟨inner, rest, rfl, -, -, rfl⟩ := quotation?_eq_some_iff.mp h
      simp
  rw [typography, hbreaks, hpattern rfl (by decide), hpattern rfl (by decide), hquotes, typography]

/-- The text of a link. -/
def linkText (label target : List Char) : List Char :=
  '[' :: label ++ ']' :: '(' :: target ++ [')']

/-- Typography acts on the target of a link as on any other text. -/
lemma typography_linkText (label : Letters) (target : List Char) :
    typography (linkText label.text.toList target)
      = linkText label.text.toList (typography target) := by
  have hmarks : ∀ c ∈ ['[', ']', '('], IsCalm c := by decide
  have hcalm : ∀ c ∈ '[' :: label.text.toList ++ [']', '('], IsCalm c := by
    intro c hc
    rcases List.mem_append.mp hc with hc | hc
    · rcases List.mem_cons.mp hc with rfl | hc
      · exact hmarks _ (by simp)
      · exact isCalm_of_isLetter (label.isLetter c hc)
    · exact hmarks c (List.mem_cons_of_mem _ hc)
  have hcut (target : List Char) : linkText label.text.toList target
      = ('[' :: label.text.toList ++ [']', '(']) ++ (target ++ [')']) := by
    simp [linkText]
  rw [hcut, typography_append hcalm, typography_concat, ← hcut]

/-- No parenthesis comes from typography. -/
lemma not_mem_typography (hmark : mark ∉ typographyMarks) (h : mark ∉ cs) :
    mark ∉ typography cs :=
  fun hmem => (mem_or_of_mem_typography hmem).elim h hmark

/-- Without break tokens, a target that is on one line stays there. -/
lemma isEnclosed_typography (hclose : ')' ∉ cs) (hline : '\n' ∉ cs)
    (hbreaks : ¬ "<br>".toList <:+: cs) : IsEnclosed ')' (typography cs) := by
  have hle := @count_hyphens_le '\n' (by decide) (by decide) (by decide) (by decide) cs
  rw [List.count_eq_zero.mpr hline, Nat.le_zero, List.count_eq_zero] at hle
  rw [← hasMatch_breakToken] at hbreaks
  refine ⟨not_mem_typography (by decide) hclose, ?_⟩
  rwa [typography, substitute_of_not_hasMatch hbreaks]

/-! ## The result -/

/-- How a target is written. -/
def writtenTarget : LinkTarget → String
  | .anchor name => "#" ++ name
  | .external address => address

lemma writtenTarget_ofString (target : String) : writtenTarget (.ofString target) = target := by
  rw [LinkTarget.ofString]
  split
  case h_1 name h =>
    have hname : (String.ofList name).toList = name := String.toList_ofList
    refine String.toList_injective ?_
    rw [h, writtenTarget, String.toList_append, hname]
    rfl
  case h_2 => rfl

/-- The rune of a label under a link. -/
def linkRune (label : Letters) (target : String) : Rune :=
  { text := label.text, link := some (.ofString target) }

lemma links_linkText (label : Letters) {target : List Char} (h : IsEnclosed ')' target) :
    links (linkText label.text.toList target)
      = [.plain "", linkRune label (String.ofList target), .plain ""] := by
  have hlabel : IsEnclosed ']' label.text.toList :=
    ⟨label.not_mem (by decide), label.not_mem (by decide)⟩
  have hlink := IsLink.target [] hlabel h
  rw [String.ofList_toList, ← linkRune] at hlink
  have hlength : (linkText label.text.toList target).length
      = label.text.toList.length + target.length + 4 := by
    simp only [linkText, List.length_cons, List.length_append, List.length_nil, List.cons_append]
    omega
  have hfound := link?_eq_some_iff.mpr hlink
  rw [← linkText, ← hlength] at hfound
  rw [links, scan_of_covered (by simp [linkText]) hfound]
  rfl

/-- A link whose target is on one line gives a rune of its label, and no other rune. -/
lemma visibleRunes_of_typography {text : String} (label : Letters) {target : List Char}
    (htext : typography text.toList = linkText label.text.toList target)
    (h : IsEnclosed ')' target) : visibleRunes text = [linkRune label (String.ofList target)] := by
  generalize hrune : linkRune label (String.ofList target) = rune
  have hlabel : rune.text = label.text := by rw [← hrune, linkRune]
  have hlines : [Rune.plain "", rune, .plain ""].flatMap splitRuneLines
      = [.plain "", rune, .plain ""] := by
    have hempty : splitRuneLines (.plain "") = [.plain ""] := by decide
    rw [List.flatMap_cons, List.flatMap_cons, List.flatMap_cons, hempty,
      splitRuneLines_of_forall (hlabel ▸ label.isBlank)]
    rfl
  have hstar : ∀ r ∈ [Rune.plain "", rune, .plain ""], '*' ∉ r.text.toList := by
    have hmem : '*' ∉ rune.text.toList := hlabel ▸ label.not_mem (by decide)
    simp [Rune.plain, hmem]
  have hvisible : isVisible rune = true := by
    rw [isVisible, hlabel, label.isEmpty_text]
    rfl
  rw [visibleRunes, plainRunes, htext, links_linkText label h, hrune, hlines,
    emphasizeAll_of_not_mem hstar, List.filter_cons, if_neg (by decide), List.filter_cons,
    if_pos hvisible]
  rfl

/-- The target of a link is kept up to typography.  A link with a label of letters and a target
without a break token gives one rune, with the label and with what typography makes of the target;
and the link leads to the target itself just when typography has nothing to do with it. -/
theorem run_resolve_linkText (label : Letters) {target : String} (hclose : ')' ∉ target.toList)
    (hline : '\n' ∉ target.toList) (hue : Hue) :
    let result := (resolve false ("[" ++ label.text ++ "](" ++ target ++ ")")).run hue
    (¬ "<br>".toList <:+: target.toList →
        result = ([linkRune label (String.ofList (typography target.toList))], hue)) ∧
      (result = ([linkRune label target], hue) ↔ IsUntouched target.toList) := by
  generalize htext : "[" ++ label.text ++ "](" ++ target ++ ")" = text
  replace htext : typography text.toList
      = linkText label.text.toList (typography target.toList) := by
    rw [← typography_linkText, ← htext]
    congr 1
    simp [linkText]
  have hresult : IsEnclosed ')' (typography target.toList) →
      (resolve false text).run hue
        = ([linkRune label (String.ofList (typography target.toList))], hue) := by
    intro h
    rw [← visibleRunes_of_typography label htext h]
    exact run_resolve_false text hue
  refine ⟨fun hbreaks => hresult (isEnclosed_typography hclose hline hbreaks), ?_, ?_⟩
  · intro h
    -- The expected rune begins no line, so typography has put no line feed into the target.
    have hline' : '\n' ∉ typography target.toList := by
      have hcount := countP_lineBreak_run_resolve false text hue
      rw [h, htext] at hcount
      have hnone := List.count_eq_zero.mp hcount.symm
      exact fun hmem => hnone (by simp [linkText, hmem])
    have hclose' : ')' ∉ typography target.toList := not_mem_typography (by decide) hclose
    have hrunes := congrArg Prod.fst ((hresult ⟨hclose', hline'⟩).symm.trans h)
    have hlink := congrArg Rune.link (List.cons.inj hrunes).1
    have hwritten := congrArg writtenTarget (Option.some.inj hlink)
    rw [writtenTarget_ofString, writtenTarget_ofString] at hwritten
    have hself := congrArg String.toList hwritten
    rw [String.toList_ofList] at hself
    exact typography_eq_self_iff.mp hself
  · intro h
    have hrun := hresult (isEnclosed_typography hclose hline h.breaks)
    rwa [typography_eq_self_iff.mpr h, String.ofList_toList] at hrun

/-- A target with marks that alone mean nothing to typography: one hyphen beside a space, a break
token that is not closed and one quotation mark. -/
theorem run_resolve_keptTarget :
    ')' ∉ "x- y<br \x22.md".toList ∧ '\n' ∉ "x- y<br \x22.md".toList ∧
      (resolve false "[Отчёт](x- y<br \x22.md)").run 0
        = ([{ text := "Отчёт", link := some (.external "x- y<br \x22.md") }], 0) ∧
      IsUntouched "x- y<br \x22.md".toList := by
  have hclose : ')' ∉ "x- y<br \x22.md".toList := by decide +kernel
  have hline : '\n' ∉ "x- y<br \x22.md".toList := by decide +kernel
  have hrun : (resolve false "[Отчёт](x- y<br \x22.md)").run 0
      = ([{ text := "Отчёт", link := some (.external "x- y<br \x22.md") }], 0) :=
    Prod.ext (by decide +kernel) (by decide +kernel)
  exact ⟨hclose, hline, hrun, (run_resolve_linkText
    ⟨"Отчёт", by decide +kernel, by decide +kernel⟩ hclose hline 0).2.mp hrun⟩

/-- A long dash in a target becomes a hyphen, and the link leads elsewhere. -/
theorem run_resolve_dashedTarget :
    ((resolve false "[a](b—c)").run 0).1 = [{ text := "a", link := some (.external "b-c") }] ∧
      ((resolve false "[a](b—c)").run 0).1
        ≠ [{ text := "a", link := some (.ofString "b—c") }] := by
  decide +kernel

end Inline

end ReportPress
