import ReportPress.Proofs.Text.Words
import ReportPress.Text.LetterCase

/-!
# Small letters

Only capital letters have a small form other than themselves, and a small form has no other either.

* `IsSmall` — what a small form consists of: characters beyond the marks of ASCII, which are no
  white space and stay as they are in small form.
* `areApart` — a run of capitals whose small forms are not among the capitals of another run.
* **`lowerChar_cases`** — a character stays, or it is no white space and its small form consists of
  small characters.

`lowerFirst_lowerFirst` and `getLast?_lowerFirst` are drawn from it for texts.

**Keywords.**  A text is compared with a keyword in small letters.  For the keywords that no letter
beyond ASCII has a part in it is enough to lower the letters of ASCII (`IsLowered.prefix_iff`,
`IsLowered.eq_iff`), and what is found has as many bytes as the keyword (`IsLowered.exists_lead`).
-/

namespace ReportPress.Text

/-- A character that small forms consist of. -/
structure IsSmall (d : Char) : Prop where
  beyondMarks : 97 ≤ d.toNat
  notBlank : isBlank d = false
  lowerChar_eq : lowerChar d = [d]

variable {c d : Char} {s : String}

/-! ## The tables -/

/-- No small form of a letter in the first run is a letter in the second: the runs keep clear of
each other, or every other letter is a capital in both. -/
def areApart (r q : CaseRange) : Bool :=
  Nat.blt (shiftCode r.last r.shift) q.first || Nat.blt q.last (shiftCode r.first r.shift) ||
    (Nat.beq q.step 2 && (Nat.beq r.step 2 || Nat.beq r.first r.last) &&
      Nat.beq ((shiftCode r.first r.shift + q.first) % 2) 1)

/-- The small forms of the letters of a run are not in a run that is apart from it. -/
lemma holds_eq_false_of_areApart {r q : CaseRange} {n m : Nat} (h : areApart r q = true)
    (hr : r.holds n = true) (hfirst : (0 : Int) ≤ r.first + r.shift)
    (hm : (m : Int) = n + r.shift) : q.holds m = false := by
  rw [← Bool.not_eq_true]
  intro hq
  simp only [CaseRange.holds, Bool.and_eq_true, decide_eq_true_eq, beq_iff_eq] at hr hq
  obtain ⟨⟨hlower, hupper⟩, hstep⟩ := hr
  obtain ⟨⟨hlower', hupper'⟩, hstep'⟩ := hq
  simp only [areApart, shiftCode, Bool.or_eq_true, Bool.and_eq_true, Nat.blt_eq, Nat.beq_eq,
    or_assoc, and_assoc] at h
  obtain h | h | ⟨hq, hr | hr, hodd⟩ := h
  · omega
  · omega
  · rw [hr] at hstep
    rw [hq] at hstep'
    omega
  · rw [hq] at hstep'
    omega

/-- What holds for each run of capitals: its small forms lie beyond the marks of ASCII, and neither
the capitals nor the small forms are white space. -/
lemma forall_lowerRanges : ∀ r ∈ lowerRanges,
    97 ≤ r.first + r.shift ∧
      (r.last + r.shift < 0xD800 ∨ 0xDFFF < r.first + r.shift ∧ r.last + r.shift < 0x110000) ∧
      (r.last + r.shift < 0x130 ∨ 0x130 < r.first + r.shift) ∧
      ∀ b ∈ blanks, (r.last < b.first ∨ b.last < r.first) ∧
        (r.last + r.shift < b.first ∨ (b.last : Int) < r.first + r.shift) := by
  decide +kernel

lemma areApart_lowerRanges : ∀ r ∈ lowerRanges, ∀ q ∈ lowerRanges, areApart r q = true := by
  have hall : (lowerRanges.all fun r => lowerRanges.all fun q => areApart r q) = true := by
    decide +kernel
  simpa only [List.all_eq_true] using hall

/-! ## Characters -/

lemma toNat_ofNat {n : Nat} (h : n.isValidChar) : (Char.ofNat n).toNat = n := by
  rw [Char.ofNat, dif_pos h]
  rfl

/-- What holds for the characters of ASCII, one by one. -/
lemma of_forall_ascii {P : Char → Prop} (h : ∀ n : Fin 0x80, P (Char.ofNat n))
    (hc : c.toNat < 0x80) : P c := by
  have hcode := h ⟨c.toNat, hc⟩
  rwa [Char.ofNat_toNat] at hcode

/-- In ASCII the small form of a capital is a small letter. -/
lemma toLower_ascii (hc : c.toNat < 0x80) :
    c.toLower = c ∨ isBlank c = false ∧ 97 ≤ c.toLower.toNat ∧ c.toLower.toNat < 0x80 ∧
      isBlank c.toLower = false :=
  of_forall_ascii (P := fun c => c.toLower = c ∨ isBlank c = false ∧ 97 ≤ c.toLower.toNat ∧
    c.toLower.toNat < 0x80 ∧ isBlank c.toLower = false) (by decide +kernel) hc

lemma lowerChar_of_small_ascii (hd : 97 ≤ d.toNat) (hlt : d.toNat < 0x80) :
    lowerChar d = [d] := by
  have hself : d.toLower = d :=
    of_forall_ascii (P := fun d => 97 ≤ d.toNat → d.toLower = d) (by decide +kernel) hlt hd
  rw [lowerChar, if_pos hlt, hself]

/-- The letters of a run are moved by its distance. -/
lemma toNat_shifted {r : CaseRange} (hr : r ∈ lowerRanges) (hc : r.holds c.toNat = true) :
    ((Char.ofNat (shiftCode c.toNat r.shift)).toNat : Int) = c.toNat + r.shift := by
  obtain ⟨hmarks, hvalid, -, -⟩ := forall_lowerRanges r hr
  simp only [CaseRange.holds, Bool.and_eq_true, decide_eq_true_eq] at hc
  obtain ⟨⟨hfirst, hlast⟩, -⟩ := hc
  have hcode : ((shiftCode c.toNat r.shift : Nat) : Int) = c.toNat + r.shift := by
    unfold shiftCode
    omega
  have hn : (shiftCode c.toNat r.shift).isValidChar := by
    rcases hvalid with h | ⟨h, h'⟩
    · exact Or.inl (by omega)
    · exact Or.inr ⟨by omega, by omega⟩
  rw [toNat_ofNat hn, hcode]

/-- The small form of a letter in a run is small. -/
lemma isSmall_shifted {r : CaseRange} (hr : r ∈ lowerRanges) (hc : r.holds c.toNat = true) :
    isBlank c = false ∧ IsSmall (Char.ofNat (shiftCode c.toNat r.shift)) := by
  obtain ⟨hmarks, -, hspecial, hblanks⟩ := forall_lowerRanges r hr
  have hrange := hc
  simp only [CaseRange.holds, Bool.and_eq_true, decide_eq_true_eq] at hrange
  obtain ⟨⟨hfirst, hlast⟩, -⟩ := hrange
  have hcode := toNat_shifted hr hc
  generalize Char.ofNat (shiftCode c.toNat r.shift) = d at hcode
  refine ⟨isBlank_eq_false fun b hb => ?_, ⟨by omega, isBlank_eq_false fun b hb => ?_, ?_⟩⟩
  · have := (hblanks b hb).1
    omega
  · have := (hblanks b hb).2
    omega
  by_cases hlt : d.toNat < 0x80
  · exact lowerChar_of_small_ascii (by omega) hlt
  · have hspecials : (lowerSpecials.find? fun s => s.1 == d) = none := by
      have hne : Char.ofNat 0x130 ≠ d := by
        rintro rfl
        have hvalue : (Char.ofNat 0x130).toNat = 0x130 := rfl
        omega
      simp [lowerSpecials, hne]
    have hranges : (lowerRanges.find? fun q => q.holds d.toNat) = none := by
      rw [List.find?_eq_none]
      intro q hq
      rw [holds_eq_false_of_areApart (areApart_lowerRanges r hr q hq) hc (by omega) hcode]
      exact Bool.false_ne_true
    rw [lowerChar, if_neg hlt, mapCase, hspecials, hranges]

/-- A character stays, or it is no white space and its small form consists of small characters. -/
theorem lowerChar_cases (c : Char) : lowerChar c = [c] ∨
    isBlank c = false ∧ lowerChar c ≠ [] ∧ ∀ d ∈ lowerChar c, IsSmall d := by
  rw [lowerChar]
  split_ifs with hlt
  · obtain hsame | ⟨hblank, hsmall, hascii, hblank'⟩ := toLower_ascii hlt
    · exact Or.inl (by rw [hsame])
    · refine Or.inr ⟨hblank, by simp, fun d hd => ?_⟩
      obtain rfl := List.mem_singleton.mp hd
      exact ⟨hsmall, hblank', lowerChar_of_small_ascii hsmall hascii⟩
  rw [mapCase]
  split
  case h_1 special long hfind =>
    refine Or.inr ?_
    obtain ⟨rfl, rfl⟩ : special = Char.ofNat 0x130 ∧ long = "\u0069\u0307" := by
      simpa [lowerSpecials] using List.mem_of_find?_eq_some hfind
    have hc : Char.ofNat 0x130 = c := by simpa using List.find?_some hfind
    rw [← hc]
    refine ⟨by decide +kernel, by decide, fun d hd => ?_⟩
    obtain rfl | rfl : d = '\u0069' ∨ d = '\u0307' := by simpa using hd
    · exact ⟨by decide, by decide +kernel, by decide +kernel⟩
    · exact ⟨by decide, by decide +kernel, by decide +kernel⟩
  case h_2 =>
    split
    case h_1 r hfind =>
      have hholds : r.holds c.toNat = true := by simpa using List.find?_some hfind
      have hsmall := isSmall_shifted (List.mem_of_find?_eq_some hfind) hholds
      exact Or.inr ⟨hsmall.1, by simp, fun d hd => List.mem_singleton.mp hd ▸ hsmall.2⟩
    case h_2 => exact Or.inl rfl

/-- The small form of a character begins with its own small form. -/
lemma exists_lowerChar_eq (c : Char) : ∃ d ds, lowerChar c = d :: ds ∧ lowerChar d = [d] := by
  obtain hstays | ⟨-, hne, hsmall⟩ := lowerChar_cases c
  · exact ⟨c, [], hstays, hstays⟩
  · obtain ⟨d, ds, hds⟩ := List.exists_cons_of_ne_nil hne
    exact ⟨d, ds, hds, (hsmall d (hds ▸ List.mem_cons_self)).lowerChar_eq⟩

/-! ## Texts -/

lemma toList_lowerFirst_cons {cs : List Char} (hs : s.toList = c :: cs) :
    (lowerFirst s).toList = lowerChar c ++ cs := by
  simp [lowerFirst, hs]

lemma lowerFirst_of_nil (hs : s.toList = []) : lowerFirst s = s := by
  simp [lowerFirst, hs]

/-- A small first letter stays. -/
theorem lowerFirst_lowerFirst (s : String) : lowerFirst (lowerFirst s) = lowerFirst s := by
  cases hs : s.toList with
  | nil => rw [lowerFirst_of_nil hs, lowerFirst_of_nil hs]
  | cons c cs =>
      obtain ⟨d, ds, hlower, hstays⟩ := exists_lowerChar_eq c
      have hlist : (lowerFirst s).toList = d :: (ds ++ cs) := by
        rw [toList_lowerFirst_cons hs, hlower, List.cons_append]
      rw [← String.toList_inj, toList_lowerFirst_cons hlist, hlist, hstays, List.singleton_append]

/-- The last character of a text stays when the first is put in small form, or it is small. -/
lemma getLast?_lowerFirst (hd : (lowerFirst s).toList.getLast? = some d) :
    s.toList.getLast? = some d ∨ IsSmall d := by
  cases hs : s.toList with
  | nil =>
      rw [lowerFirst_of_nil hs, hs] at hd
      exact nomatch hd
  | cons c cs =>
      rw [toList_lowerFirst_cons hs, List.getLast?_append] at hd
      rw [List.getLast?_cons]
      cases hcs : cs.getLast? with
      | some last =>
          rw [hcs] at hd
          exact Or.inl hd
      | none =>
          rw [hcs, Option.none_or] at hd
          obtain hstays | ⟨-, -, hsmall⟩ := lowerChar_cases c
          · rw [hstays] at hd
            exact Or.inl (by simpa using hd)
          · exact Or.inr (hsmall d (List.mem_of_getLast? hd))

/-! ## Keywords -/

/-- A text in small letters.  A capital sigma has two small forms; which of them it gets depends on
the letters around it. -/
inductive IsLowered : (cs small : List Char) → Prop
  | nil : IsLowered [] []
  | char {cs small : List Char} (c : Char) :
      IsLowered cs small → IsLowered (c :: cs) (lowerChar c ++ small)
  | finalSigma {cs small : List Char} : IsLowered cs small → IsLowered ('Σ' :: cs) ('ς' :: small)

/-- A keyword that no letter beyond ASCII has a part in: besides the Kelvin sign, the small form of
which is a `k`, only a capital `I` with a dot has one of ASCII, and a combining dot follows. -/
structure IsKeyword (keyword : List Char) : Prop where
  ascii : ∀ d ∈ keyword, d.toNat < 0x80 ∧ d ≠ 'k'
  last : keyword.getLast? ≠ some 'i'

instance : DecidablePred IsKeyword := fun keyword =>
  decidable_of_iff ((∀ d ∈ keyword, d.toNat < 0x80 ∧ d ≠ 'k') ∧ keyword.getLast? ≠ some 'i')
    ⟨fun h => ⟨h.1, h.2⟩, fun h => ⟨h.ascii, h.last⟩⟩

section IsLowered

variable {cs small keyword : List Char}

lemma IsKeyword.tail (h : IsKeyword (d :: keyword)) : IsKeyword keyword where
  ascii e he := h.ascii e (List.mem_cons_of_mem d he)
  last := by
    cases keyword with
    | nil => simp
    | cons e keyword => simpa using h.last

/-- What holds for each run of capitals beyond ASCII but the Kelvin sign. -/
lemma forall_lowerRanges_beyond : ∀ r ∈ lowerRanges, r.last < 0x80 ∨ 0x80 ≤ r.first + r.shift ∨
    (r.first = 0x212A ∧ r.last = 0x212A ∧ r.shift = 107 - 0x212A) := by
  decide +kernel

/-- The small forms of characters beyond ASCII. -/
lemma lowerChar_beyond_ascii (hc : 0x80 ≤ c.toNat) :
    lowerChar c = ['k'] ∨ lowerChar c = ['i', '\u0307'] ∨
      ∃ d, lowerChar c = [d] ∧ 0x80 ≤ d.toNat := by
  rw [lowerChar, if_neg (by omega), mapCase]
  split
  case h_1 special long hfind =>
    obtain ⟨-, rfl⟩ : special = Char.ofNat 0x130 ∧ long = "\u0069\u0307" := by
      simpa [lowerSpecials] using List.mem_of_find?_eq_some hfind
    exact Or.inr (Or.inl rfl)
  case h_2 =>
    split
    case h_1 r hfind =>
      have hr : r ∈ lowerRanges := List.mem_of_find?_eq_some hfind
      have hc' : r.holds c.toNat = true := by simpa using List.find?_some hfind
      have hcode := toNat_shifted hr hc'
      simp only [CaseRange.holds, Bool.and_eq_true, decide_eq_true_eq] at hc'
      obtain ⟨⟨hfirst, hlast⟩, -⟩ := hc'
      obtain hascii | hbeyond | ⟨hkelvin, hkelvin', hshift⟩ := forall_lowerRanges_beyond r hr
      · omega
      · exact Or.inr (Or.inr ⟨_, rfl, by omega⟩)
      · obtain hn : c.toNat = 0x212A := by omega
        left
        rw [hn, hshift]
        rfl
    case h_2 => exact Or.inr (Or.inr ⟨c, rfl, hc⟩)

/-- Beyond ASCII nothing is lowered by the mapping of ASCII. -/
lemma toLower_beyond_ascii (hc : 0x80 ≤ c.toNat) : c.toLower = c := by
  have hnot : ¬ (c.val ≥ 'A'.val ∧ c.val ≤ 'Z'.val) := by
    rintro ⟨-, hle⟩
    have hlt : c.toNat ≤ 'Z'.toNat := hle
    have hZ : 'Z'.toNat = 90 := rfl
    omega
  exact dif_neg hnot

/-- A text in small letters that begins with the letter of a keyword. -/
lemma IsLowered.exists_cons (h : IsLowered cs (d :: small)) (hd : d.toNat < 0x80) (hk : d ≠ 'k')
    (hdot : d = 'i' → small.head? ≠ some '\u0307') :
    ∃ c rest, cs = c :: rest ∧ c.toNat < 0x80 ∧ c.toLower = d ∧ IsLowered rest small := by
  generalize hsmall : d :: small = whole at h
  cases h with
  | nil => exact absurd hsmall (List.cons_ne_nil d small)
  | @char rest restSmall c h =>
      by_cases hc : c.toNat < 0x80
      · rw [lowerChar, if_pos hc] at hsmall
        obtain ⟨rfl, rfl⟩ := List.cons.inj hsmall
        exact ⟨c, rest, rfl, hc, rfl, h⟩
      · obtain hlower | hlower | ⟨e, hlower, he⟩ := lowerChar_beyond_ascii (Nat.le_of_not_lt hc)
        · rw [hlower] at hsmall
          exact absurd (List.cons.inj hsmall).1 hk
        · rw [hlower] at hsmall
          obtain ⟨rfl, rfl⟩ := List.cons.inj hsmall
          exact absurd rfl (hdot rfl)
        · rw [hlower] at hsmall
          obtain ⟨rfl, -⟩ := List.cons.inj hsmall
          omega
  | finalSigma h =>
      obtain ⟨rfl, -⟩ := List.cons.inj hsmall
      exact absurd hd (by decide)

/-- A text that begins with a keyword in small letters begins with as many characters of ASCII. -/
theorem IsLowered.exists_lead (h : IsLowered cs (keyword ++ small)) (hk : IsKeyword keyword) :
    ∃ lead rest, cs = lead ++ rest ∧ (∀ c ∈ lead, c.toNat < 0x80) ∧
      lead.map Char.toLower = keyword ∧ IsLowered rest small := by
  induction keyword generalizing cs with
  | nil => exact ⟨[], cs, rfl, by simp, rfl, h⟩
  | cons d keyword ih =>
      obtain ⟨hd, hnotk⟩ := hk.ascii d List.mem_cons_self
      have hdot : d = 'i' → (keyword ++ small).head? ≠ some '\u0307' := by
        rintro rfl
        cases keyword with
        | nil => exact absurd rfl hk.last
        | cons e keyword =>
            rintro he
            obtain rfl : e = '\u0307' := by simpa using he
            exact absurd (hk.ascii '\u0307' (by simp)).1 (by decide)
      obtain ⟨c, rest, rfl, hc, hlower, hrest⟩ := IsLowered.exists_cons h hd hnotk hdot
      obtain ⟨lead, rest', rfl, hlead, hkeyword, hrest'⟩ := ih hrest hk.tail
      exact ⟨c :: lead, rest', rfl, List.forall_mem_cons.mpr ⟨hc, hlead⟩,
        by rw [List.map_cons, hlower, hkeyword], hrest'⟩

/-- Characters of ASCII are lowered one by one. -/
lemma IsLowered.exists_of_ascii {lead rest : List Char} (h : IsLowered (lead ++ rest) small)
    (hlead : ∀ c ∈ lead, c.toNat < 0x80) :
    ∃ more, small = lead.map Char.toLower ++ more ∧ IsLowered rest more := by
  induction lead generalizing small with
  | nil => exact ⟨small, rfl, h⟩
  | cons c lead ih =>
      obtain ⟨hc, hlead⟩ := List.forall_mem_cons.mp hlead
      cases h with
      | @char _ restSmall _ h =>
          obtain ⟨more, rfl, hmore⟩ := ih h hlead
          exact ⟨more, by rw [lowerChar, if_pos hc]; rfl, hmore⟩
      | finalSigma h => exact absurd hc (by decide)

/-- The letters that are lowered to a keyword are in ASCII. -/
lemma IsKeyword.ascii_of_toLower (hk : IsKeyword keyword) {lead : List Char}
    (h : lead.map Char.toLower = keyword) : ∀ c ∈ lead, c.toNat < 0x80 := by
  intro c hc
  by_contra hbeyond
  have hmem : c.toLower ∈ keyword := h ▸ List.mem_map_of_mem hc
  rw [toLower_beyond_ascii (Nat.le_of_not_lt hbeyond)] at hmem
  exact hbeyond (hk.ascii c hmem).1

/-- A text begins with a keyword in small letters exactly if it does with the letters of ASCII
lowered. -/
theorem IsLowered.prefix_iff (h : IsLowered cs small) (hk : IsKeyword keyword) :
    keyword <+: small ↔ keyword <+: cs.map Char.toLower := by
  constructor
  · rintro ⟨more, rfl⟩
    obtain ⟨lead, rest, rfl, -, rfl, -⟩ := h.exists_lead hk
    exact ⟨rest.map Char.toLower, List.map_append.symm⟩
  · rintro ⟨more, hmore⟩
    obtain ⟨lead, rest, rfl, hlead, -⟩ := List.map_eq_append_iff.mp hmore.symm
    obtain ⟨more', rfl, -⟩ := h.exists_of_ascii (hk.ascii_of_toLower hlead)
    exact ⟨more', by rw [hlead]⟩

/-- A text is a keyword in small letters exactly if it is with the letters of ASCII lowered. -/
theorem IsLowered.eq_iff (h : IsLowered cs small) (hk : IsKeyword keyword) :
    small = keyword ↔ cs.map Char.toLower = keyword := by
  constructor
  · rintro rfl
    rw [← List.append_nil small] at h
    obtain ⟨lead, rest, rfl, -, hlead, hrest⟩ := h.exists_lead hk
    generalize hnil : ([] : List Char) = tail at hrest
    cases hrest with
    | nil => rw [List.append_nil, hlead]
    | @char rest restSmall c hrest =>
        obtain ⟨d, ds, hlower, -⟩ := exists_lowerChar_eq c
        simp [hlower] at hnil
    | finalSigma hrest => simp at hnil
  · intro hcs
    rw [← List.append_nil cs] at h
    obtain ⟨more, rfl, hmore⟩ := h.exists_of_ascii (hk.ascii_of_toLower hcs)
    cases hmore
    rw [List.append_nil, hcs]

end IsLowered

end ReportPress.Text
