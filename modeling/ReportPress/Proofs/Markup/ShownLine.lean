import ReportPress.Proofs.Markup.ItemLine

/-!
# What is shown of a line

A line of prose is shown whole, or without its first word if that is a marker.

* `IsProse` — texts without the characters that directives, tables, comments and blocks of code
  need.
* `IsMarkerWord`, `IsShownAs` — the words that can mark a line, and what may be left of a line.
* `IsReadAs` — a line that the classification reads whole, or with a marker.

**What is read.**  `classify_cases` — a line of prose is indented, or it is read so;
`isReadAs_of_bare` — without its indentation it always is.

**What is shown.**  `IsReadAs.isShownAs`, and `IsReadAs.isBlank_eq`: a line is blank exactly if
trimming leaves nothing of it.  `IsShownAs.mem` says where the characters come from.
-/

namespace ReportPress.Markup

open Text

/-- Text for paragraphs, titles and lists alone: none of the characters without which there is no
directive, table, comment or block of code. -/
def IsProse (cs : List Char) : Prop := ∀ c ∈ cs, c ≠ '!' ∧ c ≠ '|' ∧ c ≠ '<' ∧ c ≠ '\x60'

instance : DecidablePred IsProse := fun cs =>
  List.decidableBAll (fun c => c ≠ '!' ∧ c ≠ '|' ∧ c ≠ '<' ∧ c ≠ '\x60') cs

/-- A word that can mark a line as a heading or as an item of a list. -/
def IsMarkerWord (w : List Char) : Prop :=
  w = ['*'] ∨ w = ['-'] ∨ (w ≠ [] ∧ ∀ c ∈ w, c = '#') ∨
    ∃ digits : List Char, digits ≠ [] ∧ (∀ d ∈ digits, d.isDigit = true) ∧
      (w = digits ++ ['.'] ∨ w = digits ++ [')'])

/-- A line is shown without white space at its ends, or without its first word if that is a
marker: the other words with single spaces between them. -/
def IsShownAs (line shown : String) : Prop :=
  shown = trimmed line ∨
    ∃ w ws, words line.toList = w :: ws ∧ IsMarkerWord w ∧
      shown = String.ofList (joinWith [' '] ws)

/-- What a line of prose is read as once its indentation is off: all of it is text, or its first
word is a marker and the others are text. -/
inductive IsReadAs (cs : List Char) (line : Line) : Prop
  | whole : line.marker = .plain → line.text = String.ofList (trim cs) → IsReadAs cs line
  | marked {w : List Char} {ws : List (List Char)} : words cs = w :: ws → IsMarkerWord w →
      (line.marker = .bullet ∨ (∃ index, line.marker = .ordered index) ∨
        ∃ level, line.marker = .heading level) →
      line.text = String.ofList (joinWith [' '] ws) → IsReadAs cs line

variable {cs : List Char} {raw shown : String} {line bare : Line}

lemma IsProse.mono {ds : List Char} (h : IsProse cs) (hds : ∀ c ∈ ds, c ∈ cs) : IsProse ds :=
  fun c hc => h c (hds c hc)

/-! ## Markers -/

/-- A character that is no letter is the small form of itself alone. -/
lemma eq_of_toLower_eq {c d : Char} (h : c.toLower = d) (hd : d.toNat < 'a'.toNat) : c = d := by
  delta Char.toLower at h
  split_ifs at h with hc
  · exfalso
    have hA : 'A'.toNat ≤ c.toNat := hc.1
    have hlower : d.toNat = (c.val + ('a'.val - 'A'.val)).toNat := by rw [← h]; rfl
    have hZ : c.toNat ≤ 'Z'.toNat := hc.2
    have h32 : ('a'.val - 'A'.val).toNat = 32 := rfl
    rw [UInt32.toNat_add, h32] at hlower
    have hval : c.val.toNat = c.toNat := rfl
    have hAn : 'A'.toNat = 65 := rfl
    have hZn : 'Z'.toNat = 90 := rfl
    have han : 'a'.toNat = 97 := rfl
    omega
  · exact h

/-- A word that is one of the marks of a bulleted list, whatever its case. -/
lemma eq_of_lower_eq {w : List Char} {mark : Char} (hmark : mark.toNat < 'a'.toNat)
    (h : String.ofList (w.map Char.toLower) = String.ofList [mark]) : w = [mark] := by
  have hmap : w.map Char.toLower = [mark] := by simpa using congrArg String.toList h
  cases w with
  | nil => simp at hmap
  | cons c rest =>
      rw [List.map_cons, List.cons.injEq, List.map_eq_nil_iff] at hmap
      rw [hmap.2, eq_of_toLower_eq hmap.1 hmark]

/-- A keyword with a mark that a word of prose has not is another word. -/
lemma lower_ne_of_not_mem {w : List Char} (keyword : String) {mark : Char}
    (hmark : mark.toNat < 'a'.toNat) (hw : mark ∉ w) (hk : mark ∈ keyword.toList) :
    String.ofList (w.map Char.toLower) ≠ keyword := by
  rintro rfl
  rw [String.toList_ofList, List.mem_map] at hk
  obtain ⟨c, hc, hlower⟩ := hk
  exact hw (eq_of_toLower_eq hlower hmark ▸ hc)

lemma isMarkerWord_of_orderedIndex? {w : List Char} {index : UInt32}
    (h : orderedIndex? w = some index) : IsMarkerWord w := by
  rw [orderedIndex?] at h
  split_ifs at h with hlast
  rw [Text.number?] at h
  split_ifs at h with hdigits
  have hall : ∀ d ∈ w.dropLast, d.isDigit = true := List.all_eq_true.mp hdigits.2.1
  refine Or.inr (Or.inr (Or.inr ⟨w.dropLast, hdigits.1, hall, ?_⟩))
  rcases hlast with hlast | hlast
  · exact Or.inl (List.dropLast_append_getLast? '.' hlast).symm
  · exact Or.inr (List.dropLast_append_getLast? ')' hlast).symm

/-- The marker that a word of prose is read as, if it is read as one. -/
lemma wordMarker?_of_isProse {w text : List Char} {marker : Marker} (hprose : IsProse w)
    (h : wordMarker? w text = .ok (some marker)) : IsMarkerWord w ∧
      (marker = .bullet ∨ (∃ index, marker = .ordered index) ∨
        ∃ level, marker = .heading level) := by
  have hbang : '!' ∉ w := fun hmem => (hprose '!' hmem).1 rfl
  rw [wordMarker?] at h
  simp only [lower_ne_of_not_mem "!!section" (by decide) hbang (by decide),
    lower_ne_of_not_mem "!!rule" (by decide) hbang (by decide), if_false] at h
  split_ifs at h with hbullet hsharp
  · refine ⟨?_, Or.inl (Option.some.inj (Except.ok.inj h)).symm⟩
    rcases hbullet with hstar | hdash
    · exact Or.inl (eq_of_lower_eq (by decide) hstar)
    · exact Or.inr (Or.inl (eq_of_lower_eq (by decide) hdash))
  · refine ⟨Or.inr (Or.inr (Or.inl ⟨hsharp.1, ?_⟩)),
      Or.inr (Or.inr ⟨_, (Option.some.inj (Except.ok.inj h)).symm⟩)⟩
    simpa using List.all_eq_true.mp hsharp.2
  · obtain ⟨index, hindex, rfl⟩ := Option.map_eq_some_iff.mp (Except.ok.inj h)
    exact ⟨isMarkerWord_of_orderedIndex? hindex, Or.inr (Or.inl ⟨index, rfl⟩)⟩

/-! ## Reading -/

/-- A line of prose that is not indented is read whole or with a marker. -/
lemma isReadAs_of_classifyBare (hprose : IsProse cs) (h : classifyBare cs = .ok line) :
    IsReadAs cs line := by
  have hfirst : IsProse ((words cs).headD []) := by
    cases hw : words cs with
    | nil => simp [IsProse]
    | cons w ws => exact hprose.mono fun c hc => mem_of_mem_words (by simp [hw]) hc
  have hstart (lead : List Char) (c : Char) {w : List Char} (hc : c ∉ w) :
      startsWith (c :: lead) w = false := by
    cases w with
    | nil => rfl
    | cons d ds =>
        have hcd : c ≠ d := fun e => hc (by simp [e])
        simp [startsWith, dropLead?, hcd]
  have hbang : ((words cs).headD []).head? ≠ some '!' := fun e =>
    (hfirst '!' (List.mem_of_mem_head? e)).1 rfl
  have hfence : startsWith "\x60\x60\x60".toList ((words cs).headD []) = false :=
    hstart _ '\x60' fun hmem => (hfirst '\x60' hmem).2.2.2 rfl
  have hcomment : startsWith "<!--".toList ((words cs).headD []) = false :=
    hstart _ '<' fun hmem => (hfirst '<' hmem).2.2.1 rfl
  rw [classifyBare] at h
  simp only [words_trim, if_neg hbang, hfence, hcomment, Bool.false_eq_true, if_false] at h
  cases hm : wordMarker? ((words cs).headD []) (joinWith [' '] ((words cs).drop 1)) with
  | error fault =>
      rw [hm] at h
      cases h
  | ok marker? =>
      rw [hm] at h
      cases marker? with
      | none =>
          rw [← Except.ok.inj h]
          exact .whole rfl rfl
      | some marker =>
          obtain ⟨hword, hmarker⟩ := wordMarker?_of_isProse hfirst hm
          rw [← Except.ok.inj h]
          cases hw : words cs with
          | nil => simp [hw, IsMarkerWord] at hword
          | cons w ws =>
              rw [hw] at hword
              exact .marked hw hword hmarker rfl

/-- Indentation is white space. -/
lemma exists_eq_append_unindent : ∀ cs : List Char,
    ∃ lead, cs = lead ++ (unindent cs).2 ∧ ∀ c ∈ lead, isBlank c = true := by
  intro cs
  fun_induction unindent cs with
  | case1 cs ih =>
      obtain ⟨lead, hlead, hblank⟩ := ih
      refine ⟨'\t' :: lead, by rw [List.cons_append, ← hlead], ?_⟩
      simpa [isBlank_of_isWhitespace] using hblank
  | case2 cs ih =>
      obtain ⟨lead, hlead, hblank⟩ := ih
      refine ⟨' ' :: ' ' :: ' ' :: ' ' :: lead, by simp only [List.cons_append, ← hlead], ?_⟩
      simpa [isBlank_of_isWhitespace] using hblank
  | case3 cs => exact ⟨[], by simp, by simp⟩

lemma trim_unindent (cs : List Char) : trim (unindent cs).2 = trim cs := by
  obtain ⟨lead, hlead, hblank⟩ := exists_eq_append_unindent cs
  conv_rhs => rw [hlead, trim_append hblank]

/-- What a trimmed line is read as, the line is read as. -/
lemma IsReadAs.of_trim (h : IsReadAs (trim cs) line) : IsReadAs cs line := by
  cases h with
  | whole hmarker htext => exact .whole hmarker (by rw [htext, trim_trim])
  | marked hwords hw hmarker htext => exact .marked (by rw [← words_trim, hwords]) hw hmarker htext

/-- A line of prose is indented, or read as it stands. -/
lemma classify_cases (hprose : IsProse raw.toList) (h : classify raw = .ok line) :
    (line.marker = .indent ∧ line.text = trimmed raw) ∨ IsReadAs raw.toList line := by
  rw [classify] at h
  simp only at h
  split_ifs at h with hdepth
  · exact Or.inr (isReadAs_of_classifyBare hprose h)
  · rw [← Except.ok.inj h, trim_unindent]
    exact Or.inl ⟨rfl, rfl⟩

/-- Without its indentation a line of prose is read whole or with a marker. -/
theorem isReadAs_of_bare (hprose : IsProse raw.toList) (h : classify raw = .ok line)
    (hbare : line.bare = .ok bare) : IsReadAs raw.toList bare := by
  rw [Line.bare] at hbare
  rcases classify_cases hprose h with ⟨hmarker, htext⟩ | hread
  · have hunits : unindent (trim raw.toList) = (0, trim raw.toList) :=
      unindent_units (fun _ => head_trim) []
    rw [if_pos hmarker, htext, trimmed, classify, String.toList_ofList, hunits] at hbare
    exact (isReadAs_of_classifyBare (hprose.mono fun c => mem_of_mem_trim) hbare).of_trim
  · have hmarker : line.marker ≠ .indent := by
      cases hread with
      | whole hm _ => simp [hm]
      | marked _ _ hm _ => rcases hm with hm | ⟨_, hm⟩ | ⟨_, hm⟩ <;> simp [hm]
    rw [if_neg hmarker] at hbare
    rwa [← Except.ok.inj hbare]

/-! ## Showing -/

/-- The text of a line as it is read may be shown of the line. -/
theorem IsReadAs.isShownAs (h : IsReadAs raw.toList line) : IsShownAs raw line.text := by
  cases h with
  | whole _ htext => exact Or.inl htext
  | marked hwords hw _ htext => exact Or.inr ⟨_, _, hwords, hw, htext⟩

/-- Only a line that is not blank has a marker. -/
lemma trimmed_ne_of_words {w : List Char} {ws : List (List Char)}
    (h : words raw.toList = w :: ws) : (trimmed raw).isEmpty = false := by
  rw [← Bool.not_eq_true, String.isEmpty_iff]
  intro hempty
  have htrim : trim raw.toList = [] := by simpa [trimmed] using congrArg String.toList hempty
  rw [words_of_forall_blank (trim_eq_nil_iff.mp htrim)] at h
  simp at h

/-- A line is read as a blank one exactly if trimming leaves nothing of it. -/
theorem IsReadAs.isBlank_eq (h : IsReadAs raw.toList line) :
    line.isBlank = (trimmed raw).isEmpty := by
  cases h with
  | whole hmarker htext => simp [Line.isBlank, hmarker, htext, trimmed]
  | marked hwords _ hmarker _ =>
      rw [trimmed_ne_of_words hwords, Line.isBlank]
      rcases hmarker with hm | ⟨_, hm⟩ | ⟨_, hm⟩ <;> simp [hm]

/-- What is shown of a line has the characters of the line, and spaces. -/
lemma IsShownAs.mem (h : IsShownAs raw shown) {c : Char} (hc : c ∈ shown.toList) :
    c ∈ raw.toList ∨ c = ' ' := by
  rcases h with rfl | ⟨w, ws, hwords, -, rfl⟩
  · rw [trimmed, String.toList_ofList] at hc
    exact Or.inl (mem_of_mem_trim hc)
  · rw [String.toList_ofList] at hc
    rcases mem_joinWith hc with hc | ⟨v, hv, hc⟩
    · exact Or.inr (List.mem_singleton.mp hc)
    · exact Or.inl (mem_of_mem_words (by rw [hwords]; exact List.mem_cons_of_mem w hv) hc)

end ReportPress.Markup
