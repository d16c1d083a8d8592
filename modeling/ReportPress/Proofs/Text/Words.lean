import Mathlib.Data.List.Infix
import Mathlib.Data.List.TakeWhile
import ReportPress.Text.Words

/-!
# Laws of cutting and trimming

What the proofs about markup need to know of the operations on text, in three groups.

**Cutting and joining.**  Cutting a text at a separator and joining the pieces with it are inverse
to each other: `joinWith_splitOn` holds of every text, `splitOn_joinWith` of all pieces without
the separator.  There is one more piece than there are separators (`length_splitOn`).

**White space.**  Trimming takes off white space and nothing else: white space added at an end is
gone again (`trim_append`, `trim_trim`), and a text keeps its words (`words_trim`).  Words joined by
single spaces are found again (`words_joinWith`), and another word at an end leaves as many words
(`length_words_word_append`, `length_words_append_word`).  White space can be collapsed piece by
piece where pieces begin with words (`collapse_flatten`).

**Characters.**  `ConsistsOf` — texts whose characters have a property.  The operations bring in no
characters but their marks.

**Numbers.**  A number below `2 ^ 32` is read back from its decimal digits (`number?_toDigits`).
-/

namespace ReportPress.Text

/-- To decide something about the characters of a text, these are looked at, not all characters that
there are. -/
instance decidableForallMem {p : Char → Prop} [DecidablePred p] (cs : List Char) :
    Decidable (∀ c ∈ cs, p c) :=
  List.decidableBAll p cs

variable {c sep : Char} {cs : List Char}

/-! ## Cutting and joining -/

lemma splitOn_ne_nil (sep : Char) : ∀ cs : List Char, splitOn sep cs ≠ []
  | [] => by simp [splitOn]
  | c :: cs => by
      rw [splitOn]
      split_ifs with h
      · simp
      · split <;> simp

/-- A separator between two texts is a place where the whole is cut. -/
lemma splitOn_append_cons (sep : Char) (after : List Char) : ∀ before : List Char,
    splitOn sep (before ++ sep :: after) = splitOn sep before ++ splitOn sep after
  | [] => by simp [splitOn]
  | c :: before => by
      rw [List.cons_append, splitOn, splitOn_append_cons sep after before, splitOn]
      split_ifs with h
      · rfl
      · cases hb : splitOn sep before with
        | nil => exact absurd hb (splitOn_ne_nil sep before)
        | cons piece pieces => rfl

lemma splitOn_of_not_mem : ∀ {cs : List Char}, sep ∉ cs → splitOn sep cs = [cs]
  | [], _ => rfl
  | c :: cs, h => by
      have hc : c ≠ sep := fun e => h (by simp [e])
      have hcs : sep ∉ cs := fun e => h (by simp [e])
      simp [splitOn, hc, splitOn_of_not_mem hcs]

lemma not_mem_of_mem_splitOn : ∀ {cs piece : List Char}, piece ∈ splitOn sep cs → sep ∉ piece
  | [], piece, h => by
      have hp : piece = [] := by simpa [splitOn] using h
      simp [hp]
  | c :: cs, piece, h => by
      have ih {p : List Char} (hp : p ∈ splitOn sep cs) : sep ∉ p := not_mem_of_mem_splitOn hp
      rw [splitOn] at h
      split_ifs at h with hc
      · rcases List.mem_cons.mp h with rfl | h
        · simp
        · exact ih h
      · cases hs : splitOn sep cs with
        | nil => exact absurd hs (splitOn_ne_nil sep cs)
        | cons first pieces =>
            rw [hs] at h ih
            rcases List.mem_cons.mp h with rfl | h
            · have hf : sep ∉ first := ih List.mem_cons_self
              simp [Ne.symm hc, hf]
            · exact ih (List.mem_cons_of_mem _ h)

/-- The characters of a piece are characters of the text. -/
lemma mem_of_mem_splitOn : ∀ {cs piece : List Char}, piece ∈ splitOn sep cs → c ∈ piece → c ∈ cs
  | [], piece, h, hc => by simp [List.mem_singleton.mp h] at hc
  | d :: cs, piece, h, hc => by
      have ih {p : List Char} (hp : p ∈ splitOn sep cs) (hc : c ∈ p) : c ∈ cs :=
        mem_of_mem_splitOn hp hc
      rw [splitOn] at h
      split_ifs at h with hd
      · rcases List.mem_cons.mp h with rfl | h
        · simp at hc
        · exact List.mem_cons_of_mem d (ih h hc)
      · cases hs : splitOn sep cs with
        | nil => exact absurd hs (splitOn_ne_nil sep cs)
        | cons first pieces =>
            rw [hs] at h ih
            rcases List.mem_cons.mp h with rfl | h
            · rcases List.mem_cons.mp hc with rfl | hc
              · exact List.mem_cons_self
              · exact List.mem_cons_of_mem d (ih List.mem_cons_self hc)
            · exact List.mem_cons_of_mem d (ih (List.mem_cons_of_mem first h) hc)

/-- A text before the first separator joins the first piece. -/
lemma splitOn_append_of_not_mem {piece : List Char} {pieces : List (List Char)}
    (h : splitOn sep cs = piece :: pieces) : ∀ {lead : List Char}, sep ∉ lead →
      splitOn sep (lead ++ cs) = (lead ++ piece) :: pieces
  | [], _ => h
  | c :: lead, hlead => by
      have hc : c ≠ sep := fun e => hlead (by simp [e])
      have ih := splitOn_append_of_not_mem h fun e => hlead (List.mem_cons_of_mem c e)
      rw [List.cons_append, splitOn, if_neg hc, ih]
      rfl

/-- A text behind the last separator joins the last piece. -/
lemma exists_splitOn_append {tail : List Char} (htail : sep ∉ tail) : ∀ cs : List Char,
    ∃ pieces last, splitOn sep cs = pieces ++ [last] ∧
      splitOn sep (cs ++ tail) = pieces ++ [last ++ tail]
  | [] => ⟨[], [], rfl, splitOn_of_not_mem htail⟩
  | c :: cs => by
      obtain ⟨pieces, last, hcs, htail⟩ := exists_splitOn_append htail cs
      by_cases hc : c = sep
      · exact ⟨[] :: pieces, last, by simp [splitOn, hc, hcs], by simp [splitOn, hc, htail]⟩
      · cases pieces with
        | nil => exact ⟨[], c :: last, by simp [splitOn, hc, hcs], by simp [splitOn, hc, htail]⟩
        | cons piece pieces =>
            exact ⟨(c :: piece) :: pieces, last, by simp [splitOn, hc, hcs],
              by simp [splitOn, hc, htail]⟩

lemma joinWith_cons (sep piece : List Char) {pieces : List (List Char)} (h : pieces ≠ []) :
    joinWith sep (piece :: pieces) = piece ++ sep ++ joinWith sep pieces := by
  cases pieces with
  | nil => exact absurd rfl h
  | cons next pieces => rfl

lemma joinWith_concat (sep piece : List Char) : ∀ {pieces : List (List Char)}, pieces ≠ [] →
    joinWith sep (pieces ++ [piece]) = joinWith sep pieces ++ sep ++ piece
  | [], h => absurd rfl h
  | [_], _ => rfl
  | first :: next :: pieces, _ => by
      have ih : joinWith sep (next :: pieces ++ [piece])
          = joinWith sep (next :: pieces) ++ sep ++ piece := joinWith_concat sep piece (by simp)
      rw [List.cons_append, joinWith_cons sep first (by simp), ih,
        joinWith_cons sep first (by simp)]
      simp only [List.append_assoc]

/-- Pieces that begin with one that is not empty make a text that is not empty. -/
lemma joinWith_ne_nil (sep : List Char) {piece : List Char} {pieces : List (List Char)}
    (h : piece ≠ []) : joinWith sep (piece :: pieces) ≠ [] := by
  cases pieces with
  | nil => exact h
  | cons next pieces => simp [joinWith, h]

/-- Joined pieces begin as the first one does. -/
lemma head?_joinWith (sep : List Char) {piece : List Char} (pieces : List (List Char))
    (h : piece ≠ []) : (joinWith sep (piece :: pieces)).head? = piece.head? := by
  cases pieces with
  | nil => rfl
  | cons next pieces =>
      rw [joinWith_cons _ _ (by simp), List.append_assoc, List.head?_append_of_ne_nil _ h]

/-- Joined pieces end as the last one does. -/
lemma getLast?_joinWith_concat (sep : List Char) {piece : List Char} (pieces : List (List Char))
    (h : piece ≠ []) : (joinWith sep (pieces ++ [piece])).getLast? = piece.getLast? := by
  cases pieces with
  | nil => rfl
  | cons first pieces =>
      rw [joinWith_concat _ _ (by simp), List.getLast?_append_of_ne_nil _ h]

/-- Every character of joined pieces comes from a piece or from the separator. -/
lemma mem_joinWith {sep : List Char} : ∀ {pieces : List (List Char)},
    c ∈ joinWith sep pieces → c ∈ sep ∨ ∃ piece ∈ pieces, c ∈ piece
  | [], h => by simp [joinWith] at h
  | [piece], h => Or.inr ⟨piece, by simp, h⟩
  | piece :: next :: pieces, h => by
      rw [joinWith_cons _ _ (by simp), List.mem_append, List.mem_append] at h
      rcases h with (h | h) | h
      · exact Or.inr ⟨piece, by simp, h⟩
      · exact Or.inl h
      · rcases mem_joinWith h with h | ⟨p, hp, h⟩
        · exact Or.inl h
        · exact Or.inr ⟨p, List.mem_cons_of_mem _ hp, h⟩

/-- Joined pieces without the separator are found again. -/
theorem splitOn_joinWith : ∀ {pieces : List (List Char)}, pieces ≠ [] →
    (∀ piece ∈ pieces, sep ∉ piece) → splitOn sep (joinWith [sep] pieces) = pieces
  | [], h, _ => absurd rfl h
  | [piece], _, h => splitOn_of_not_mem (h piece (by simp))
  | piece :: next :: pieces, _, h => by
      have hp : sep ∉ piece := h piece (by simp)
      have ih : splitOn sep (joinWith [sep] (next :: pieces)) = next :: pieces :=
        splitOn_joinWith (by simp) fun p hp => h p (List.mem_cons_of_mem _ hp)
      rw [joinWith_cons _ _ (by simp), List.append_assoc, List.singleton_append,
        splitOn_append_cons, splitOn_of_not_mem hp, ih, List.singleton_append]

/-- The pieces of a text make up the text. -/
theorem joinWith_splitOn (sep : Char) : ∀ cs : List Char,
    joinWith [sep] (splitOn sep cs) = cs
  | [] => rfl
  | c :: cs => by
      have ih := joinWith_splitOn sep cs
      rw [splitOn]
      split_ifs with h
      · rw [joinWith_cons _ _ (splitOn_ne_nil sep cs), ih, h]
        rfl
      · cases hs : splitOn sep cs with
        | nil => exact absurd hs (splitOn_ne_nil sep cs)
        | cons piece pieces =>
            rw [hs] at ih
            cases pieces with
            | nil => simpa [joinWith] using ih
            | cons next pieces =>
                rw [joinWith_cons _ _ (by simp)] at ih ⊢
                simpa using ih

lemma count_joinWith : ∀ {pieces : List (List Char)}, pieces ≠ [] →
    (∀ piece ∈ pieces, sep ∉ piece) → (joinWith [sep] pieces).count sep + 1 = pieces.length
  | [], hne, _ => absurd rfl hne
  | [piece], _, h => by
      rw [joinWith, List.count_eq_zero.mpr (h piece List.mem_cons_self)]
      rfl
  | piece :: next :: pieces, _, h => by
      have hpiece : piece.count sep = 0 := List.count_eq_zero.mpr (h piece List.mem_cons_self)
      have ih : (joinWith [sep] (next :: pieces)).count sep + 1 = (next :: pieces).length :=
        count_joinWith (by simp) fun p hp => h p (List.mem_cons_of_mem _ hp)
      rw [joinWith, List.count_append, List.count_append, hpiece, List.count_singleton_self,
        List.length_cons, ← ih]
      · omega
      · simp

/-- There is one more piece than there are separators. -/
lemma length_splitOn (sep : Char) (cs : List Char) :
    (splitOn sep cs).length = cs.count sep + 1 := by
  rw [← count_joinWith (splitOn_ne_nil sep cs) fun _ => not_mem_of_mem_splitOn, joinWith_splitOn]

/-! ## Off the ends -/

lemma dropEnd_of_not_mem {mark : Char} (h : mark ∉ cs) : dropEnd mark cs = cs := by
  have hl : cs.getLast? ≠ some mark := fun e => h (List.mem_of_getLast? e)
  rw [dropEnd, if_neg hl]

lemma mem_of_mem_dropEnd {mark : Char} (h : c ∈ dropEnd mark cs) : c ∈ cs := by
  rw [dropEnd] at h
  split_ifs at h with he
  · exact List.mem_of_mem_dropLast h
  · exact h

lemma dropEndWhile_eq_nil_iff {p : Char → Bool} : ∀ {cs : List Char},
    dropEndWhile p cs = [] ↔ ∀ c ∈ cs, p c = true
  | [] => by simp [dropEndWhile]
  | c :: cs => by
      have ih : dropEndWhile p cs = [] ↔ ∀ c ∈ cs, p c = true := dropEndWhile_eq_nil_iff
      rw [dropEndWhile]
      cases hd : dropEndWhile p cs with
      | nil => simpa using fun _ => ih.mp hd
      | cons d ds =>
          have hne : ¬ ∀ c ∈ cs, p c = true := fun h => by simp [ih.mpr h] at hd
          simp only [List.mem_cons, forall_eq_or_imp, reduceCtorEq, false_iff, not_and]
          exact fun _ => hne

/-- What `dropEndWhile` takes off the end is made of the characters it looks for. -/
lemma dropEndWhile_append (p : Char → Bool) : ∀ cs : List Char,
    ∃ tail, cs = dropEndWhile p cs ++ tail ∧ ∀ c ∈ tail, p c = true
  | [] => ⟨[], by simp [dropEndWhile]⟩
  | c :: cs => by
      obtain ⟨tail, htail, hall⟩ := dropEndWhile_append p cs
      rw [dropEndWhile]
      cases hd : dropEndWhile p cs with
      | nil =>
          rw [hd, List.nil_append] at htail
          by_cases hc : p c = true
          · refine ⟨c :: cs, by simp [hc], ?_⟩
            rw [htail]
            simpa [hc] using hall
          · exact ⟨tail, by simp [hc, htail], hall⟩
      | cons d ds =>
          rw [hd] at htail
          exact ⟨tail, by rw [htail]; rfl, hall⟩

lemma mem_of_mem_dropEndWhile {p : Char → Bool} (h : c ∈ dropEndWhile p cs) : c ∈ cs := by
  obtain ⟨tail, htail, -⟩ := dropEndWhile_append p cs
  rw [htail]
  exact List.mem_append_left _ h

lemma mem_of_mem_trim (h : c ∈ trim cs) : c ∈ cs := by
  have hstart : c ∈ trimStart cs := mem_of_mem_dropEndWhile h
  exact (List.dropWhile_sublist isBlank).subset hstart

lemma trim_eq_nil_iff : trim cs = [] ↔ ∀ c ∈ cs, isBlank c = true := by
  rw [trim, trimEnd, dropEndWhile_eq_nil_iff, trimStart]
  constructor
  · intro h c hc
    have hcut : cs = cs.takeWhile isBlank ++ cs.dropWhile isBlank :=
      List.takeWhile_append_dropWhile.symm
    rw [hcut, List.mem_append] at hc
    rcases hc with hc | hc
    · exact List.mem_takeWhile_imp hc
    · exact h c hc
  · exact fun h c hc => h c (List.dropWhile_sublist isBlank |>.subset hc)

/-- A trimmed text begins with a character that is not white space, if it has any. -/
lemma head_trim (h : (trim cs).head? = some c) : isBlank c = false := by
  have hs : (trimStart cs).head? = some c := by
    obtain ⟨tail, htail, -⟩ := dropEndWhile_append isBlank (trimStart cs)
    change trimStart cs = trim cs ++ tail at htail
    rw [htail, List.head?_append, h]
    rfl
  rw [trimStart] at hs
  have hne : cs.dropWhile isBlank ≠ [] := by
    intro e
    simp [e] at hs
  have hhead := List.head_dropWhile_not isBlank hne
  rw [List.head?_eq_some_head hne, Option.some.injEq] at hs
  rwa [hs] at hhead

lemma getLast_dropEndWhile {p : Char → Bool} : ∀ {cs : List Char},
    (dropEndWhile p cs).getLast? = some c → p c = false
  | [], h => by simp [dropEndWhile] at h
  | d :: cs, h => by
      rw [dropEndWhile] at h
      cases hd : dropEndWhile p cs with
      | nil =>
          rw [hd] at h
          by_cases hp : p d = true
          · simp [hp] at h
          · simp only [hp, Bool.false_eq_true, if_false, List.getLast?_singleton,
              Option.some.injEq] at h
            simpa [h] using hp
      | cons e es =>
          rw [hd] at h
          simp only [List.getLast?_cons_cons] at h
          exact getLast_dropEndWhile (by rw [hd, h] : (dropEndWhile p cs).getLast? = some c)

/-- Nothing is taken off the end of a text whose last character is not looked for. -/
lemma dropEndWhile_eq_self {p : Char → Bool} (h : ∀ c, cs.getLast? = some c → p c = false) :
    dropEndWhile p cs = cs := by
  obtain ⟨tail, htail, hall⟩ := dropEndWhile_append p cs
  rcases List.eq_nil_or_concat tail with rfl | ⟨init, c, rfl⟩
  · rw [List.append_nil] at htail
    exact htail.symm
  · have hlast : cs.getLast? = some c := by rw [htail]; simp
    exact absurd (hall c (by simp)) (by simp [h c hlast])

/-- A text is what is left of it without a mark at its end, and that mark any number of times. -/
lemma exists_eq_append_trimEndOf (mark : Char) (s : String) : ∃ n,
    s = String.ofList (trimEndOf [mark] s.toList) ++ String.ofList (List.replicate n mark) ∧
      (trimEndOf [mark] s.toList).getLast? ≠ some mark := by
  obtain ⟨tail, hcut, htail⟩ := dropEndWhile_append ([mark].contains ·) s.toList
  have hreplicate : tail = List.replicate tail.length mark :=
    List.eq_replicate_iff.mpr ⟨rfl, by simpa using htail⟩
  refine ⟨tail.length, ?_, fun hlast => ?_⟩
  · rw [← String.toList_inj, String.toList_append, String.toList_ofList, String.toList_ofList,
      ← hreplicate]
    exact hcut
  · simpa using getLast_dropEndWhile hlast

/-- A trimmed text ends in a character that is not white space, if it has any. -/
lemma getLast_trim (h : (trim cs).getLast? = some c) : isBlank c = false := getLast_dropEndWhile h

/-- White space at the start of a text is trimmed off. -/
lemma trim_append {lead : List Char} (hlead : ∀ c ∈ lead, isBlank c = true) (cs : List Char) :
    trim (lead ++ cs) = trim cs := by
  rw [trim, trimStart, List.dropWhile_append_of_pos hlead]
  rfl

lemma dropEndWhile_append_of_pos {p : Char → Bool} {tail : List Char}
    (htail : ∀ c ∈ tail, p c = true) : ∀ cs : List Char,
      dropEndWhile p (cs ++ tail) = dropEndWhile p cs
  | [] => dropEndWhile_eq_nil_iff.mpr htail
  | c :: cs => by
      rw [List.cons_append, dropEndWhile, dropEndWhile_append_of_pos htail cs, dropEndWhile]

/-- White space at the end of a text is trimmed off. -/
lemma trim_append_blanks {tail : List Char} (htail : ∀ c ∈ tail, isBlank c = true)
    (cs : List Char) : trim (cs ++ tail) = trim cs := by
  by_cases hcs : ∀ c ∈ cs, isBlank c = true
  · rw [trim_append hcs, trim_eq_nil_iff.mpr hcs, trim_eq_nil_iff.mpr htail]
  · have hne : ¬ (cs.dropWhile isBlank).isEmpty = true := by
      simpa [List.isEmpty_iff, List.dropWhile_eq_nil_iff] using hcs
    rw [trim, trimStart, List.dropWhile_append, if_neg hne, trimEnd,
      dropEndWhile_append_of_pos htail]
    rfl

/-- A text is what trimming leaves of it, between white space. -/
lemma exists_eq_append_trim (cs : List Char) : ∃ lead tail, cs = lead ++ trim cs ++ tail ∧
    (∀ c ∈ lead, isBlank c = true) ∧ ∀ c ∈ tail, isBlank c = true := by
  obtain ⟨tail, htail, hblank⟩ := dropEndWhile_append isBlank (trimStart cs)
  refine ⟨cs.takeWhile isBlank, tail, ?_, fun c => List.mem_takeWhile_imp, hblank⟩
  rw [List.append_assoc, trim, trimEnd, ← htail, trimStart, List.takeWhile_append_dropWhile]

lemma trim_trim (cs : List Char) : trim (trim cs) = trim cs := by
  obtain ⟨lead, tail, hcut, hlead, htail⟩ := exists_eq_append_trim cs
  conv_rhs => rw [hcut, trim_append_blanks htail, trim_append hlead]

/-- A text with no white space at its ends is trimmed. -/
lemma trim_eq_self (hhead : ∀ c, cs.head? = some c → isBlank c = false)
    (hlast : ∀ c, cs.getLast? = some c → isBlank c = false) : trim cs = cs := by
  obtain ⟨lead, tail, hcut, hlead, htail⟩ := exists_eq_append_trim cs
  have hnolead : lead = [] := by
    cases lead with
    | nil => rfl
    | cons b lead =>
        have hb := hhead b (by rw [hcut]; rfl)
        rw [hlead b List.mem_cons_self] at hb
        exact absurd hb (by decide)
  have hnotail : tail = [] := by
    rcases List.eq_nil_or_concat tail with h | ⟨tail, b, rfl⟩
    · exact h
    · have hb := hlast b (by rw [hcut]; simp)
      rw [htail b (by simp)] at hb
      exact absurd hb (by decide)
  rw [hnolead, hnotail, List.nil_append, List.append_nil] at hcut
  exact hcut.symm

/-- Trimming a text changes its pieces at their ends only, unless it is cut at white space. -/
theorem map_trim_splitOn_trim (hsep : isBlank sep = false) (cs : List Char) :
    (splitOn sep (trim cs)).map trim = (splitOn sep cs).map trim := by
  have hnot {blanks : List Char} (h : ∀ c ∈ blanks, isBlank c = true) : sep ∉ blanks := by
    intro hmem
    rw [h sep hmem] at hsep
    exact absurd hsep (by decide)
  obtain ⟨lead, tail, hcut, hlead, htail⟩ := exists_eq_append_trim cs
  obtain ⟨pieces, last, hpieces, happend⟩ := exists_splitOn_append (hnot htail) (lead ++ trim cs)
  have hfirst : (splitOn sep (lead ++ trim cs)).map trim = (splitOn sep (trim cs)).map trim := by
    cases hs : splitOn sep (trim cs) with
    | nil => exact absurd hs (splitOn_ne_nil sep _)
    | cons piece more =>
        rw [splitOn_append_of_not_mem hs (hnot hlead), List.map_cons, List.map_cons,
          trim_append hlead]
  conv_rhs => rw [hcut, happend]
  rw [← hfirst, hpieces, List.map_append, List.map_append, List.map_singleton,
    List.map_singleton, trim_append_blanks htail]

/-- A mark that is white space makes no difference to what is left after trimming. -/
lemma trim_dropEnd {mark : Char} (hmark : isBlank mark = true) (cs : List Char) :
    trim (dropEnd mark cs) = trim cs := by
  rw [dropEnd]
  split_ifs with hlast
  · have hcut : cs.dropLast ++ [mark] = cs := List.dropLast_append_getLast? mark hlast
    conv_rhs => rw [← hcut, trim_append_blanks (by simpa using hmark)]
  · rfl

/-- A character outside of the ranges of white space. -/
lemma isBlank_eq_false (h : ∀ r ∈ blanks, c.toNat < r.first ∨ r.last < c.toNat) :
    isBlank c = false := by
  rw [← Bool.not_eq_true]
  intro hb
  obtain ⟨r, hr, hf, hl⟩ := inRanges_iff.mp hb
  have hout := h r hr
  omega

lemma isBlank_of_isDigit (h : c.isDigit = true) : isBlank c = false := by
  rw [Char.isDigit_iff_toNat] at h
  have h0 : '0'.toNat = 48 := rfl
  have h9 : '9'.toNat = 57 := rfl
  refine isBlank_eq_false ?_
  simp only [blanks, List.forall_mem_cons, List.not_mem_nil, false_implies, implies_true, and_true]
  omega

/-- The letters of ASCII. -/
lemma toNat_of_isAlpha (h : c.isAlpha = true) :
    (65 ≤ c.toNat ∧ c.toNat ≤ 90) ∨ (97 ≤ c.toNat ∧ c.toNat ≤ 122) := by
  delta Char.isAlpha Char.isUpper Char.isLower at h
  simp only [Bool.or_eq_true, Bool.and_eq_true, decide_eq_true_eq, ge_iff_le,
    UInt32.le_iff_toNat_le] at h
  exact h

/-! ## Collapsing -/

/-- Collapsing does not reach over the beginning of a word. -/
lemma collapse_append {rest : List Char} (hrest : ∀ c, rest.head? = some c → isBlank c = false) :
    ∀ cs : List Char, collapse (cs ++ rest) = collapse cs ++ collapse rest
  | [] => rfl
  | c :: cs => by
      have ih := collapse_append hrest cs
      have hhead : (cs ++ rest).head?.any isBlank = cs.head?.any isBlank := by
        cases cs with
        | cons d cs => rfl
        | nil =>
            cases hr : rest.head? with
            | none => simp [hr]
            | some d => simp [hr, hrest d hr]
      rw [List.cons_append, collapse, collapse, hhead, ih]
      split_ifs <;> rfl

/-- Pieces of which all but the first begin with words are collapsed one by one. -/
lemma collapse_flatten {pieces : List (List Char)} :
    ∀ first : List Char, (∀ piece ∈ pieces, ∃ c cs, piece = c :: cs ∧ isBlank c = false) →
      collapse (first :: pieces).flatten = (first :: pieces).flatMap collapse := by
  induction pieces with
  | nil => simp
  | cons piece pieces ih =>
      intro first hpieces
      obtain ⟨d, cs, rfl, hd⟩ := hpieces piece List.mem_cons_self
      have hrest : ∀ p ∈ pieces, ∃ c cs, p = c :: cs ∧ isBlank c = false :=
        fun p hp => hpieces p (List.mem_cons_of_mem _ hp)
      have hhead : ∀ c, ((d :: cs) :: pieces).flatten.head? = some c → isBlank c = false := by
        intro c hc
        rw [List.flatten_cons, List.cons_append, List.head?_cons, Option.some.injEq] at hc
        exact hc ▸ hd
      rw [List.flatten_cons, collapse_append hhead, ih _ hrest, ← List.flatMap_cons]

/-! ## Beginnings -/

lemma dropLead?_append : ∀ lead cs : List Char, dropLead? lead (lead ++ cs) = some cs
  | [], cs => rfl
  | l :: lead, cs => by rw [List.cons_append, dropLead?, if_pos rfl, dropLead?_append]

lemma dropLead?_cons_of_ne {c p : Char} (h : c ≠ p) (pattern rest : List Char) :
    dropLead? (p :: pattern) (c :: rest) = none :=
  if_neg (Ne.symm h)

lemma dropLead?_eq_some_iff {rest : List Char} : ∀ {lead cs : List Char},
    dropLead? lead cs = some rest ↔ cs = lead ++ rest
  | [], cs => by simp [dropLead?]
  | l :: lead, [] => by simp [dropLead?]
  | l :: lead, d :: cs => by
      rw [dropLead?]
      split_ifs with h
      · rw [dropLead?_eq_some_iff, h, List.cons_append, List.cons.injEq]
        simp
      · simp [Ne.symm h]

/-! ## Words -/

/-- A word: not empty, and without white space. -/
def IsWord (w : List Char) : Prop := w ≠ [] ∧ ∀ c ∈ w, isBlank c = false

instance : DecidablePred IsWord := fun w =>
  @instDecidableAnd _ _ _ (List.decidableBAll (fun c => isBlank c = false) w)

lemma words_cons_blank (h : isBlank c = true) (cs : List Char) : words (c :: cs) = words cs := by
  cases cs <;> simp [words, h]

lemma words_of_forall_blank : ∀ {cs : List Char}, (∀ c ∈ cs, isBlank c = true) → words cs = []
  | [], _ => rfl
  | c :: cs, h => by
      rw [words_cons_blank (h c (by simp))]
      exact words_of_forall_blank fun d hd => h d (List.mem_cons_of_mem _ hd)

/-- A word ends where the text ends or white space begins. -/
lemma words_append {rest : List Char} (hrest : ∀ c, rest.head? = some c → isBlank c = true) :
    ∀ {w : List Char}, IsWord w → words (w ++ rest) = w :: words rest
  | [], h => absurd rfl h.1
  | [c], h => by
      have hc : isBlank c = false := h.2 c (by simp)
      cases rest with
      | nil => simp [words, hc]
      | cons b rest => simp [words, hc, hrest b rfl]
  | c :: d :: w, h => by
      have hc : isBlank c = false := h.2 c (by simp)
      have hd : isBlank d = false := h.2 d (by simp)
      have hw : IsWord (d :: w) := ⟨by simp, fun x hx => h.2 x (List.mem_cons_of_mem _ hx)⟩
      have ih := words_append hrest hw
      rw [List.cons_append] at ih ⊢
      rw [List.cons_append, words]
      simp only [hc, hd, ih, Bool.false_eq_true, if_false]

lemma isWord_singleton : IsWord [c] ↔ isBlank c = false := by simp [IsWord]

lemma IsWord.append {w tail : List Char} (hw : IsWord w) (htail : ∀ c ∈ tail, isBlank c = false) :
    IsWord (w ++ tail) := by
  refine ⟨fun h => hw.1 (List.append_eq_nil_iff.mp h).1, fun c hc => ?_⟩
  rcases List.mem_append.mp hc with hc | hc
  · exact hw.2 c hc
  · exact htail c hc

lemma words_word {w : List Char} (hw : IsWord w) : words w = [w] := by
  have hwords : words (w ++ []) = w :: words [] := words_append (by simp) hw
  simpa [words] using hwords

/-- The first word of a text that begins with a word goes on up to the next white space. -/
lemma words_word_append {w : List Char} (hw : IsWord w) (cs : List Char) :
    words (w ++ cs) = (w ++ cs.takeWhile fun c => !isBlank c) ::
      words (cs.dropWhile fun c => !isBlank c) := by
  have hword : IsWord (w ++ cs.takeWhile fun c => !isBlank c) :=
    hw.append fun c hc => by simpa using List.mem_takeWhile_imp hc
  have hrest : ∀ c, (cs.dropWhile fun c => !isBlank c).head? = some c → isBlank c = true := by
    intro c hc
    have hne : cs.dropWhile (fun c => !isBlank c) ≠ [] := by
      intro e
      simp [e] at hc
    have hhead := List.head_dropWhile_not (fun c => !isBlank c) hne
    rw [List.head?_eq_some_head hne, Option.some.injEq] at hc
    simpa [hc] using hhead
  conv_lhs => rw [← List.takeWhile_append_dropWhile (p := fun c => !isBlank c) (l := cs)]
  rw [← List.append_assoc, words_append hrest hword]

/-- A text that begins with a word has a first word that begins with it. -/
lemma exists_words_append {w : List Char} (hw : IsWord w) (cs : List Char) :
    ∃ more ws, words (w ++ cs) = (w ++ more) :: ws :=
  ⟨_, _, words_word_append hw cs⟩

/-- Another word at the start of a text leaves as many words. -/
lemma length_words_word_append {w v : List Char} (hw : IsWord w) (hv : IsWord v)
    (cs : List Char) : (words (w ++ cs)).length = (words (v ++ cs)).length := by
  rw [words_word_append hw, words_word_append hv, List.length_cons, List.length_cons]

lemma words_append_word_ne_nil {w : List Char} (hw : IsWord w) :
    ∀ cs : List Char, words (cs ++ w) ≠ []
  | [] => by simp [words_word hw]
  | c :: cs => by
      rw [List.cons_append]
      by_cases hc : isBlank c = true
      · rw [words_cons_blank hc]
        exact words_append_word_ne_nil hw cs
      · have hword : IsWord [c] := isWord_singleton.mpr (by simpa using hc)
        rw [← List.singleton_append, words_word_append hword]
        exact List.cons_ne_nil _ _

/-- Another word at the end of a text leaves as many words. -/
lemma length_words_append_word {w v : List Char} (hw : IsWord w) (hv : IsWord v) :
    ∀ cs : List Char, (words (cs ++ w)).length = (words (cs ++ v)).length
  | [] => by
      rw [List.nil_append, List.nil_append, words_word hw, words_word hv]
      rfl
  | c :: cs => by
      have ih := length_words_append_word hw hv cs
      rw [List.cons_append, List.cons_append]
      by_cases hc : isBlank c = true
      · rw [words_cons_blank hc, words_cons_blank hc, ih]
      have hword : IsWord [c] := isWord_singleton.mpr (by simpa using hc)
      cases cs with
      | nil =>
          have hcw : IsWord (c :: w) := hword.append hw.2
          have hcv : IsWord (c :: v) := hword.append hv.2
          rw [List.nil_append, List.nil_append, words_word hcw, words_word hcv]
          rfl
      | cons d cs =>
          simp only [List.cons_append] at ih ⊢
          rw [words, words]
          simp only [hc, Bool.false_eq_true, if_false]
          split_ifs with hd
          · rw [List.length_cons, List.length_cons, ih]
          · cases hws : words (d :: (cs ++ w)) <;> cases hvs : words (d :: (cs ++ v)) <;>
              simp_all

/-- White space at the end of a text is no part of a word. -/
lemma words_append_blanks {tail : List Char} (htail : ∀ c ∈ tail, isBlank c = true) :
    ∀ cs : List Char, words (cs ++ tail) = words cs
  | [] => words_of_forall_blank htail
  | [c] => by
      cases tail with
      | nil => rfl
      | cons b tail =>
          have hb : words (b :: tail) = [] := words_of_forall_blank htail
          have hbb : isBlank b = true := htail b (by simp)
          simp only [List.cons_append, List.nil_append, words, hbb, if_true] at hb ⊢
          split_ifs <;> simp [hb]
  | c :: d :: cs => by
      have ih := words_append_blanks htail (d :: cs)
      rw [List.cons_append] at ih ⊢
      rw [List.cons_append, words, words, ih]

lemma words_trimEnd (cs : List Char) : words (trimEnd cs) = words cs := by
  obtain ⟨tail, htail, hblank⟩ := dropEndWhile_append isBlank cs
  conv_rhs => rw [htail, words_append_blanks hblank]
  rfl

/-- Trimming keeps the words of a text. -/
theorem words_trim (cs : List Char) : words (trim cs) = words cs := by
  have hstart : words (trimStart cs) = words cs := by
    rw [trimStart]
    induction cs with
    | nil => rfl
    | cons c cs ih =>
        rw [List.dropWhile_cons]
        split_ifs with hc
        · rw [ih, words_cons_blank hc]
        · rfl
  rw [trim, words_trimEnd, hstart]

/-- Words joined by single spaces are found again. -/
theorem words_joinWith : ∀ {ws : List (List Char)}, (∀ w ∈ ws, IsWord w) →
    words (joinWith [' '] ws) = ws
  | [], _ => rfl
  | [w], h => words_word (h w (by simp))
  | w :: v :: ws, h => by
      have ih : words (joinWith [' '] (v :: ws)) = v :: ws :=
        words_joinWith fun x hx => h x (List.mem_cons_of_mem _ hx)
      rw [joinWith_cons _ _ (by simp), List.append_assoc, List.singleton_append,
        words_append (by simp [isBlank_of_isWhitespace]) (h w (by simp)),
        words_cons_blank (by decide), ih]

lemma mem_of_mem_words : ∀ {cs w : List Char}, w ∈ words cs → c ∈ w → c ∈ cs := by
  intro cs
  fun_induction words cs with
  | case1 => simp
  | case2 d cs hd ih => exact fun hw hc => List.mem_cons_of_mem d (ih hw hc)
  | case3 d hd => simp
  | case4 d hd e cs he ih =>
      intro w hw hc
      rcases List.mem_cons.mp hw with rfl | hw
      · simp [List.mem_singleton.mp hc]
      · exact List.mem_cons_of_mem d (ih hw hc)
  | case5 d hd e cs he hnil ih =>
      intro w hw hc
      rw [hnil] at hw
      rw [List.mem_singleton.mp hw] at hc
      simp [List.mem_singleton.mp hc]
  | case6 d hd e cs he v vs hcons ih =>
      intro w hw hc
      rw [hcons] at ih hw
      rcases List.mem_cons.mp hw with rfl | hw
      · rcases List.mem_cons.mp hc with rfl | hc
        · simp
        · exact List.mem_cons_of_mem d (ih List.mem_cons_self hc)
      · exact List.mem_cons_of_mem d (ih (List.mem_cons_of_mem v hw) hc)

lemma isWord_of_mem_words : ∀ {cs w : List Char}, w ∈ words cs → IsWord w := by
  intro cs
  fun_induction words cs with
  | case1 => simp
  | case2 c cs hc ih => exact ih
  | case3 c hc =>
      intro w hw
      rw [List.mem_singleton.mp hw]
      exact isWord_singleton.mpr (by simpa using hc)
  | case4 c hc d cs hd ih =>
      intro w hw
      rcases List.mem_cons.mp hw with rfl | hw
      · exact isWord_singleton.mpr (by simpa using hc)
      · exact ih hw
  | case5 c hc d cs hd hnil ih =>
      intro w hw
      rw [hnil] at hw
      rw [List.mem_singleton.mp hw]
      exact isWord_singleton.mpr (by simpa using hc)
  | case6 c hc d cs hd v vs hcons ih =>
      intro w hw
      rw [hcons] at ih hw
      rcases List.mem_cons.mp hw with rfl | hw
      · have hv : IsWord v := ih List.mem_cons_self
        have hcv : IsWord ([c] ++ v) :=
          IsWord.append (isWord_singleton.mpr (by simpa using hc)) hv.2
        exact hcv
      · exact ih (List.mem_cons_of_mem v hw)

/-- Nothing is trimmed off words with single spaces between them. -/
lemma trim_joinWith {ws : List (List Char)} (h : ∀ w ∈ ws, IsWord w) :
    trim (joinWith [' '] ws) = joinWith [' '] ws := by
  refine trim_eq_self (fun c hc => ?_) fun c hc => ?_
  · cases ws with
    | nil => simp [joinWith] at hc
    | cons w ws =>
        have hw : IsWord w := h w List.mem_cons_self
        rw [head?_joinWith _ _ hw.1] at hc
        exact hw.2 c (List.mem_of_mem_head? hc)
  · rcases List.eq_nil_or_concat ws with rfl | ⟨ws, w, rfl⟩
    · simp [joinWith] at hc
    · have hw : IsWord w := h w (by simp)
      rw [List.concat_eq_append, getLast?_joinWith_concat _ _ hw.1] at hc
      exact hw.2 c (List.mem_of_getLast? hc)

/-! ## Characters -/

/-- A text whose characters have a property. -/
def ConsistsOf (P : Char → Prop) (s : String) : Prop := ∀ c ∈ s.toList, P c

section ConsistsOf

variable {P : Char → Prop} {s t : String}

@[simp] lemma consistsOf_ofList : ConsistsOf P (String.ofList cs) ↔ ∀ c ∈ cs, P c := by
  simp [ConsistsOf]

@[simp] lemma consistsOf_append : ConsistsOf P (s ++ t) ↔ ConsistsOf P s ∧ ConsistsOf P t := by
  simp only [ConsistsOf, String.toList_append, List.mem_append, or_imp, forall_and]

lemma ConsistsOf.trimmed (h : ConsistsOf P s) : ConsistsOf P (trimmed s) :=
  consistsOf_ofList.mpr fun c hc => h c (mem_of_mem_trim hc)

lemma ConsistsOf.of_mem_lines {line : String} (h : ConsistsOf P s) (hline : line ∈ lines s) :
    ConsistsOf P line := by
  obtain ⟨piece, hpiece, rfl⟩ := List.mem_map.mp hline
  exact consistsOf_ofList.mpr fun c hc => h c (mem_of_mem_splitOn hpiece hc)

end ConsistsOf

/-! ## Numbers -/

/-- The decimal digits of a number below `2 ^ 32` are read as that number. -/
theorem number?_toDigits (n : UInt32) : number? (Nat.toDigits 10 n.toNat) = some n := by
  have hvalue : digitsValue (Nat.toDigits 10 n.toNat) = n.toNat :=
    Nat.ofDigitChars_ten_toDigits
  have hdigits : (Nat.toDigits 10 n.toNat).all Char.isDigit = true := by
    rw [List.all_eq_true]
    exact fun c hc => Nat.isDigit_of_mem_toDigits (by omega) (by omega) hc
  rw [number?, hvalue, if_pos ⟨Nat.toDigits_ne_nil, hdigits, n.toNat_lt_size⟩]
  simp

end ReportPress.Text
