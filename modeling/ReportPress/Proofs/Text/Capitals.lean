import ReportPress.Proofs.Text.LetterCase

/-!
# Capital letters

Characters that have a capital form other than themselves are letters, and so are the capital forms.
Neither are white space or marks of the markup of texts.

* `isMark` — white space, and the marks that markup and typography consist of.
* `IsCapital` — what a capital form consists of.

**Characters.**  `upperChar_cases` — a character stays, or it is no mark and its capital form
consists of capitals.  The capitals from А to Я stay (`upperChar_of_cyrillic`).
-/

namespace ReportPress.Text

/-- White space, and the marks of emphasis, links, anchors, quotations and dashes. -/
def markRanges : List CodeRange := blanks ++ [
  ⟨0x22, 0x23⟩, ⟨0x28, 0x2A⟩, ⟨0x2D, 0x2D⟩, ⟨0x5B, 0x5B⟩, ⟨0x5D, 0x5D⟩, ⟨0x7B, 0x7B⟩,
  ⟨0x7D, 0x7D⟩, ⟨0xAB, 0xAB⟩, ⟨0xBB, 0xBB⟩, ⟨0x2013, 0x2014⟩]

/-- Whether a character is a mark. -/
def isMark (c : Char) : Bool := inRanges markRanges c

/-- A character that capital forms consist of: no mark, and not the letter that the token for a line
break begins with. -/
structure IsCapital (d : Char) : Prop where
  notMark : isMark d = false
  ne_b : d ≠ 'b'

instance : DecidablePred IsCapital := fun d =>
  decidable_of_iff (isMark d = false ∧ d ≠ 'b') ⟨fun h => ⟨h.1, h.2⟩, fun h => ⟨h.1, h.2⟩⟩

variable {c : Char}

lemma isMark_of_isBlank (h : isBlank c = true) : isMark c = true := by
  obtain ⟨r, hr, hrange⟩ := inRanges_iff.mp h
  exact inRanges_iff.mpr ⟨r, List.mem_append_left _ hr, hrange⟩

lemma isMark_eq_false (h : ∀ r ∈ markRanges, c.toNat < r.first ∨ r.last < c.toNat) :
    isMark c = false := by
  rw [← Bool.not_eq_true]
  intro hmark
  obtain ⟨r, hr, hfirst, hlast⟩ := inRanges_iff.mp hmark
  have hout := h r hr
  omega

/-- What holds for each run of small letters beyond ASCII: neither they nor their capital forms are
marks, and the capital forms are other letters than small ones of ASCII. -/
lemma forall_upperRanges : ∀ r ∈ upperRanges, 0 ≤ r.first + r.shift ∧
    (r.last + r.shift < 0xD800 ∨ 0xDFFF < r.first + r.shift ∧ r.last + r.shift < 0x110000) ∧
      (r.last + r.shift < 98 ∨ 98 < r.first + r.shift) ∧
      ∀ m ∈ markRanges, (r.last < m.first ∨ m.last < r.first) ∧
        (r.last + r.shift < m.first ∨ (m.last : Int) < r.first + r.shift) := by
  decide +kernel

lemma forall_upperSpecials : ∀ s ∈ upperSpecials,
    isMark s.1 = false ∧ s.2.toList ≠ [] ∧ ∀ d ∈ s.2.toList, IsCapital d := by
  decide +kernel

/-- In ASCII only small letters have another capital form, which is a capital letter. -/
lemma toUpper_ascii (hc : c.toNat < 0x80) :
    c.toUpper = c ∧ c ≠ 'b' ∨ isMark c = false ∧ IsCapital c.toUpper :=
  of_forall_ascii (P := fun c => c.toUpper = c ∧ c ≠ 'b' ∨ isMark c = false ∧ IsCapital c.toUpper)
    (by decide +kernel) hc

/-- The capital form of a letter in a run is a capital. -/
lemma isCapital_shifted {r : CaseRange} (hr : r ∈ upperRanges) (hc : r.holds c.toNat = true) :
    isMark c = false ∧ IsCapital (Char.ofNat (shiftCode c.toNat r.shift)) := by
  obtain ⟨hstart, hvalid, hb, hmarks⟩ := forall_upperRanges r hr
  simp only [CaseRange.holds, Bool.and_eq_true, decide_eq_true_eq] at hc
  obtain ⟨⟨hfirst, hlast⟩, -⟩ := hc
  have hcode : ((shiftCode c.toNat r.shift : Nat) : Int) = c.toNat + r.shift := by
    unfold shiftCode
    omega
  generalize shiftCode c.toNat r.shift = n at hcode
  have hn : n.isValidChar := by
    rcases hvalid with h | ⟨h, h'⟩
    · exact Or.inl (by omega)
    · exact Or.inr ⟨by omega, by omega⟩
  have htoNat : (Char.ofNat n).toNat = n := toNat_ofNat hn
  refine ⟨isMark_eq_false fun m hm => ?_, isMark_eq_false fun m hm => ?_, fun heq => ?_⟩
  · have := (hmarks m hm).1
    omega
  · have := (hmarks m hm).2
    omega
  · have hvalue : n = 98 := by rw [← htoNat, heq]; rfl
    omega

/-- A character stays, or it is no mark and its capital form consists of capitals. -/
theorem upperChar_cases (c : Char) : upperChar c = [c] ∧ c ≠ 'b' ∨
    isMark c = false ∧ upperChar c ≠ [] ∧ ∀ d ∈ upperChar c, IsCapital d := by
  rw [upperChar]
  split_ifs with hlt
  · obtain ⟨hsame, hb⟩ | ⟨hmark, hcapital⟩ := toUpper_ascii hlt
    · exact Or.inl ⟨by rw [hsame], hb⟩
    · exact Or.inr ⟨hmark, by simp, fun d hd => List.mem_singleton.mp hd ▸ hcapital⟩
  rw [mapCase]
  split
  case h_1 special long hfind =>
    have hspecial := forall_upperSpecials _ (List.mem_of_find?_eq_some hfind)
    have hc : special = c := by simpa using List.find?_some hfind
    exact Or.inr (hc ▸ hspecial)
  case h_2 =>
    split
    case h_1 r hfind =>
      have hholds : r.holds c.toNat = true := by simpa using List.find?_some hfind
      have hcapital := isCapital_shifted (List.mem_of_find?_eq_some hfind) hholds
      exact Or.inr ⟨hcapital.1, by simp, fun d hd => List.mem_singleton.mp hd ▸ hcapital.2⟩
    case h_2 =>
      refine Or.inl ⟨rfl, ?_⟩
      rintro rfl
      exact hlt (by decide)

/-- The capitals from А to Я have no other capital form. -/
lemma upperChar_of_cyrillic (hc : 0x410 ≤ c.toNat) (hc' : c.toNat ≤ 0x42F) :
    upperChar c = [c] := by
  have hspecials : ∀ s ∈ upperSpecials, s.1.toNat < 0x410 ∨ 0x42F < s.1.toNat := by decide +kernel
  have hranges : ∀ r ∈ upperRanges, r.last < 0x410 ∨ 0x42F < r.first := by decide +kernel
  have hnoSpecial : (upperSpecials.find? fun s => s.1 == c) = none := by
    rw [List.find?_eq_none]
    intro s hs heq
    have := hspecials s hs
    rw [beq_iff_eq.mp heq] at this
    omega
  have hnoRange : (upperRanges.find? fun r => r.holds c.toNat) = none := by
    rw [List.find?_eq_none]
    intro r hr hholds
    simp only [CaseRange.holds, Bool.and_eq_true, decide_eq_true_eq] at hholds
    have := hranges r hr
    omega
  rw [upperChar, if_neg (by omega), mapCase, hnoSpecial, hnoRange]

end ReportPress.Text
