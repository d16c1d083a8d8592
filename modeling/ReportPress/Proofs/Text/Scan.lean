import Mathlib.Tactic.Common
import ReportPress.Proofs.Text.Words

/-!
# Where characters come from and where they go

Cutting, joining and replacing make up no characters: whatever stands in the result stands in the
text, or in what was put in place of a match.  And they lose none but those that a match covers.

* `mem_of_char_mem_scan`, `exists_of_found_mem_scan` — the two kinds of pieces of a scanned text.
* `filter_unmatched_scan` — characters that no match covers are all there, in their order.
* `flatten_splitOnText` — for a cut text these are the pieces one after another.
* `mem_or_of_mem_substitute`, `mem_or_of_mem_replaceAll`, `mem_of_mem_splitOnText`,
  `mem_or_eq_of_mem_collapse` — the operations that are built on them.
* `HasMatch` — whether there is a match at all.  Without one a text stays as it is.
* `AddsNone`, `TakesOut` — what replacing does to the number of some character.  A text from which
  it takes some out cannot be the same in the end (`TakesOut.not_hasMatch`).
-/

namespace ReportPress.Text

variable {α : Type} {c : Char} {cs : List Char}

/-! ## Pieces of a scanned text -/

lemma mem_of_char_mem_scan {find : List Char → Option (α × Nat)}
    (h : Piece.char c ∈ scan find cs) : c ∈ cs := by
  have hfrom : ∀ (cs : List Char) (skip : Nat), Piece.char c ∈ scanFrom find skip cs → c ∈ cs := by
    intro cs skip
    fun_induction scanFrom find skip cs with
    | case1 => simp
    | case2 skip d cs ih => exact fun h => List.mem_cons_of_mem _ (ih h)
    | case3 d cs a covered hfind ih =>
        intro h
        rcases List.mem_cons.mp h with h | h
        · simp at h
        · exact List.mem_cons_of_mem _ (ih h)
    | case4 d cs hfind ih =>
        intro h
        rcases List.mem_cons.mp h with h | h
        · simp only [Piece.char.injEq] at h
          simp [h]
        · exact List.mem_cons_of_mem _ (ih h)
  exact hfrom cs 0 h

/-- A match was found somewhere in the text. -/
lemma exists_of_found_mem_scan {find : List Char → Option (α × Nat)} {a : α}
    (h : Piece.found a ∈ scan find cs) : ∃ tail n, tail <:+ cs ∧ find tail = some (a, n) := by
  have hfrom : ∀ (cs : List Char) (skip : Nat), Piece.found a ∈ scanFrom find skip cs →
      ∃ tail n, tail <:+ cs ∧ find tail = some (a, n) := by
    intro cs skip
    fun_induction scanFrom find skip cs with
    | case1 => simp
    | case2 skip d cs ih =>
        intro h
        obtain ⟨tail, n, htail, hfound⟩ := ih h
        exact ⟨tail, n, htail.trans (List.suffix_cons d cs), hfound⟩
    | case3 d cs b covered hfind ih =>
        intro h
        rcases List.mem_cons.mp h with h | h
        · simp only [Piece.found.injEq] at h
          exact ⟨d :: cs, covered, List.suffix_rfl, by rw [hfind, h]⟩
        · obtain ⟨tail, n, htail, hfound⟩ := ih h
          exact ⟨tail, n, htail.trans (List.suffix_cons d cs), hfound⟩
    | case4 d cs hfind ih =>
        intro h
        rcases List.mem_cons.mp h with h | h
        · simp at h
        · obtain ⟨tail, n, htail, hfound⟩ := ih h
          exact ⟨tail, n, htail.trans (List.suffix_cons d cs), hfound⟩
  exact hfrom cs 0 h

/-! ## What no match covers -/

/-- The characters outside of all matches. -/
def unmatched (pieces : List (Piece α)) : List Char :=
  pieces.flatMap fun
    | .char c => [c]
    | .found _ => []

/-- Characters that no match covers are all there, in their order. -/
lemma filter_unmatched_scan {find : List Char → Option (α × Nat)} {p : Char → Bool}
    (hfind : ∀ cs a n, find cs = some (a, n) → 0 < n ∧ ∀ c ∈ cs.take n, p c = false)
    (cs : List Char) : (unmatched (scan find cs)).filter p = cs.filter p := by
  -- The characters still to be skipped belong to a match, so none of them counts.
  have hfrom : ∀ (skip : Nat) (cs : List Char), (∀ c ∈ cs.take skip, p c = false) →
      (unmatched (scanFrom find skip cs)).filter p = cs.filter p := by
    intro skip cs
    fun_induction scanFrom find skip cs with
    | case1 => exact fun _ => rfl
    | case2 skip d cs ih =>
        intro hskip
        have hd : p d = false := hskip d List.mem_cons_self
        rw [List.filter_cons, hd, ih fun c hc => hskip c (List.mem_cons_of_mem _ hc)]
        rfl
    | case3 d cs a covered hfound ih =>
        intro _
        obtain ⟨hpos, hcovered⟩ := hfind _ _ _ hfound
        obtain ⟨n, rfl⟩ := Nat.exists_eq_succ_of_ne_zero (Nat.ne_of_gt hpos)
        have hd : p d = false := hcovered d List.mem_cons_self
        have hrest := ih fun c hc => hcovered c (List.mem_cons_of_mem _ hc)
        rw [List.filter_cons, hd]
        exact hrest
    | case4 d cs hfound ih =>
        intro _
        have hrest := ih (by simp)
        rw [unmatched, List.flatMap_cons, List.singleton_append, List.filter_cons, List.filter_cons,
          ← unmatched, hrest]
  exact hfrom 0 cs (by simp)

lemma splitOnText_ne_nil (pattern cs : List Char) : splitOnText pattern cs ≠ [] := by
  unfold splitOnText
  cases scan (fun cs => (dropLead? pattern cs).map fun _ => ((), pattern.length)) cs with
  | nil => simp
  | cons piece pieces =>
      rw [List.foldr_cons]
      split <;> simp

/-- The pieces of a cut text are what no delimiter covers. -/
lemma flatten_splitOnText (pattern cs : List Char) :
    (splitOnText pattern cs).flatten
      = unmatched
          (scan (fun cs => (dropLead? pattern cs).map fun _ => ((), pattern.length)) cs) := by
  unfold splitOnText
  generalize scan (fun cs => (dropLead? pattern cs).map fun _ => ((), pattern.length)) cs = pieces
  induction pieces with
  | nil => rfl
  | cons piece pieces ih =>
      rw [List.foldr_cons]
      generalize List.foldr _ _ pieces = rest at ih ⊢
      cases piece with
      | found u => exact ih
      | char c =>
          rw [unmatched, List.flatMap_cons, ← unmatched, ← ih]
          cases rest <;> rfl

/-- Cutting at a text of a single character is cutting at that character. -/
lemma splitOnText_singleton (c : Char) (cs : List Char) : splitOnText [c] cs = splitOn c cs := by
  induction cs with
  | nil => rfl
  | cons d cs ih =>
      unfold splitOnText scan at ih ⊢
      by_cases hd : c = d
      · simp [scanFrom, dropLead?, splitOn, hd] at ih ⊢
        exact ih
      · have hne : ¬ d = c := fun h => hd h.symm
        simp only [scanFrom, dropLead?, splitOn, if_neg hd, if_neg hne, Option.map_none,
          List.foldr_cons, ih]
        cases splitOn c cs <;> rfl

/-! ## Replacing and cutting -/

lemma mem_or_of_mem_substitute {find : List Char → Option (List Char × Nat)}
    (h : c ∈ substitute find cs) :
    c ∈ cs ∨ ∃ tail new n, tail <:+ cs ∧ find tail = some (new, n) ∧ c ∈ new := by
  obtain ⟨piece, hpiece, hc⟩ := List.mem_flatMap.mp h
  cases piece with
  | char d =>
      rw [List.mem_singleton.mp hc]
      exact Or.inl (mem_of_char_mem_scan hpiece)
  | found new =>
      obtain ⟨tail, n, htail, hfound⟩ := exists_of_found_mem_scan hpiece
      exact Or.inr ⟨tail, new, n, htail, hfound, hc⟩

lemma mem_or_of_mem_replaceAll {pattern new : List Char} (h : c ∈ replaceAll pattern new cs) :
    c ∈ cs ∨ c ∈ new := by
  rcases mem_or_of_mem_substitute h with h | ⟨tail, found, n, -, hfound, hc⟩
  · exact Or.inl h
  · obtain ⟨rest, -, heq⟩ := Option.map_eq_some_iff.mp hfound
    simp only [Prod.mk.injEq] at heq
    exact Or.inr (heq.1 ▸ hc)

lemma mem_of_mem_splitOnText {pattern piece : List Char} (h : piece ∈ splitOnText pattern cs)
    (hc : c ∈ piece) : c ∈ cs := by
  have hflatten : c ∈ (splitOnText pattern cs).flatten := List.mem_flatten.mpr ⟨piece, h, hc⟩
  rw [flatten_splitOnText] at hflatten
  obtain ⟨p, hp, hc⟩ := List.mem_flatMap.mp hflatten
  cases p with
  | char d =>
      rw [List.mem_singleton.mp hc]
      exact mem_of_char_mem_scan hp
  | found u => exact absurd hc List.not_mem_nil

lemma mem_or_eq_of_mem_collapse : ∀ {cs : List Char}, c ∈ collapse cs → c ∈ cs ∨ c = ' '
  | [], h => by simp [collapse] at h
  | d :: cs, h => by
      have hrest (h : c ∈ collapse cs) : c ∈ d :: cs ∨ c = ' ' :=
        (mem_or_eq_of_mem_collapse h).imp (List.mem_cons_of_mem _) id
      rw [collapse] at h
      split_ifs at h
      · exact hrest h
      · rcases List.mem_cons.mp h with h | h
        · exact Or.inr h
        · exact hrest h
      · rcases List.mem_cons.mp h with h | h
        · exact Or.inl (by simp [h])
        · exact hrest h

lemma not_mem_collapse (hc : c ≠ ' ') (h : c ∉ cs) : c ∉ collapse cs :=
  fun hmem => (mem_or_eq_of_mem_collapse hmem).elim h hc

/-! ## Texts without matches -/

/-- Whether a match begins somewhere in a text. -/
def HasMatch (find : List Char → Option (α × Nat)) (cs : List Char) : Prop :=
  ∃ tail, tail ≠ [] ∧ tail <:+ cs ∧ find tail ≠ none

section HasMatch

variable {find : List Char → Option (α × Nat)}

lemma not_hasMatch_nil : ¬ HasMatch find [] := by
  rintro ⟨tail, hne, htail, -⟩
  exact hne (List.suffix_nil.mp htail)

lemma hasMatch_cons : HasMatch find (c :: cs) ↔ find (c :: cs) ≠ none ∨ HasMatch find cs := by
  constructor
  · rintro ⟨tail, hne, htail, hfound⟩
    rcases List.suffix_cons_iff.mp htail with rfl | htail
    · exact Or.inl hfound
    · exact Or.inr ⟨tail, hne, htail, hfound⟩
  · rintro (hfound | ⟨tail, hne, htail, hfound⟩)
    · exact ⟨c :: cs, List.cons_ne_nil _ _, List.suffix_rfl, hfound⟩
    · exact ⟨tail, hne, htail.trans (List.suffix_cons c cs), hfound⟩

/-- Without matches a text is its characters. -/
lemma scan_of_not_hasMatch : ∀ {cs : List Char}, ¬ HasMatch find cs → scan find cs = cs.map .char
  | [], _ => rfl
  | c :: cs, h => by
      rw [hasMatch_cons, not_or, not_not] at h
      have hrest := scan_of_not_hasMatch h.2
      rw [scan] at hrest ⊢
      rw [scanFrom, h.1, List.map_cons, hrest]

/-- What is skipped makes no pieces. -/
lemma scanFrom_append (before rest : List Char) (skip : Nat) :
    scanFrom find (before.length + skip) (before ++ rest) = scanFrom find skip rest := by
  induction before with
  | nil => rw [List.length_nil, Nat.zero_add, List.nil_append]
  | cons c before ih =>
      rw [List.length_cons, Nat.add_right_comm, List.cons_append, scanFrom, ih]

/-- Behind a match the scan begins anew. -/
lemma scan_append_of_covered {before : List Char} {a : α} (hne : before ≠ [])
    (h : find (before ++ cs) = some (a, before.length)) :
    scan find (before ++ cs) = .found a :: scan find cs := by
  obtain ⟨c, before, rfl⟩ := List.exists_cons_of_ne_nil hne
  have hskip : scanFrom find before.length (before ++ cs) = scan find cs :=
    scanFrom_append before cs 0
  rw [List.cons_append] at h ⊢
  rw [scan, scanFrom, h, ← hskip]
  rfl

/-- A match that covers a text is all of it. -/
lemma scan_of_covered {a : α} (hne : cs ≠ []) (h : find cs = some (a, cs.length)) :
    scan find cs = [.found a] := by
  have hall : scan find (cs ++ []) = .found a :: scan find [] :=
    scan_append_of_covered hne (by rwa [List.append_nil])
  rwa [List.append_nil] at hall

end HasMatch

/-- What stands for a piece once matches are replaced. -/
def replaced : Piece (List Char) → List Char
  | .char c => [c]
  | .found new => new

section Substitute

variable {find : List Char → Option (List Char × Nat)} {mark : Char}

lemma substitute_eq (find : List Char → Option (List Char × Nat)) (cs : List Char) :
    substitute find cs = (scan find cs).flatMap replaced := by
  rw [substitute]
  congr 1

lemma substitute_of_not_hasMatch (h : ¬ HasMatch find cs) : substitute find cs = cs := by
  rw [substitute_eq, scan_of_not_hasMatch h, List.flatMap_map]
  exact List.flatMap_singleton' cs

/-- Where no match begins, nothing is replaced. -/
lemma substitute_append_of_forall {before : List Char} (cs : List Char)
    (h : ∀ c ∈ before, ∀ rest, find (c :: rest) = none) :
    substitute find (before ++ cs) = before ++ substitute find cs := by
  induction before with
  | nil => rfl
  | cons c before ih =>
      obtain ⟨hc, hbefore⟩ := List.forall_mem_cons.mp h
      have hrest := ih hbefore
      rw [substitute_eq, scan] at hrest ⊢
      rw [List.cons_append, scanFrom, hc, List.flatMap_cons, hrest]
      rfl

/-- A match is replaced by what was found. -/
lemma substitute_append_of_covered {before new : List Char} (hne : before ≠ [])
    (h : find (before ++ cs) = some (new, before.length)) :
    substitute find (before ++ cs) = new ++ substitute find cs := by
  rw [substitute_eq, scan_append_of_covered hne h, List.flatMap_cons, ← substitute_eq, replaced]

/-- An occurrence at the start of a text is replaced. -/
lemma replaceAll_pattern_append {pattern : List Char} (hne : pattern ≠ []) (new cs : List Char) :
    replaceAll pattern new (pattern ++ cs) = new ++ replaceAll pattern new cs :=
  substitute_append_of_covered hne (by rw [dropLead?_append, Option.map_some])

lemma replaceAll_append {p : Char} {pattern new before : List Char} (h : p ∉ before)
    (cs : List Char) :
    replaceAll (p :: pattern) new (before ++ cs) = before ++ replaceAll (p :: pattern) new cs :=
  substitute_append_of_forall cs fun c hc rest => by
    rw [dropLead?_cons_of_ne fun heq : c = p => h (heq ▸ hc)]
    rfl

/-- A character at the end that no match reaches stays there. -/
lemma substitute_concat (hnil : find [] = none) (hfind : ∀ tail, find (tail ++ [c]) = find tail)
    (hcovered : ∀ tail new n, find tail = some (new, n) → n ≤ tail.length) (cs : List Char) :
    substitute find (cs ++ [c]) = substitute find cs ++ [c] := by
  -- A match may be under way, but it ends before the last character.
  have hfrom : ∀ (skip : Nat) (cs : List Char), skip ≤ cs.length →
      scanFrom find skip (cs ++ [c]) = scanFrom find skip cs ++ [.char c] := by
    intro skip cs
    fun_induction scanFrom find skip cs with
    | case1 skip =>
        intro hskip
        obtain rfl : skip = 0 := Nat.le_zero.mp hskip
        have hlast : find [c] = none := (hfind []).trans hnil
        rw [List.nil_append, scanFrom, hlast, scanFrom]
        rfl
    | case2 skip d cs ih => exact fun hskip => ih (Nat.le_of_succ_le_succ hskip)
    | case3 d cs new covered hfound ih =>
        intro _
        have hle := hcovered _ _ _ hfound
        have hsame := (hfind (d :: cs)).trans hfound
        rw [List.cons_append] at hsame ⊢
        rw [scanFrom, hsame, List.cons_append, ← ih (by rw [List.length_cons] at hle; omega)]
    | case4 d cs hfound ih =>
        intro _
        have hsame := (hfind (d :: cs)).trans hfound
        rw [List.cons_append] at hsame ⊢
        rw [scanFrom, hsame, List.cons_append, ← ih (Nat.zero_le _)]
  rw [substitute_eq, substitute_eq, scan, scan, hfrom 0 cs (Nat.zero_le _), List.flatMap_append]
  rfl

/-- What stands for a match holds at most as many of a character as the match. -/
def AddsNone (find : List Char → Option (List Char × Nat)) (mark : Char) : Prop :=
  ∀ cs new n, find cs = some (new, n) → 0 < n ∧ new.count mark ≤ (cs.take n).count mark

/-- What stands for a match holds fewer of a character than the match. -/
def TakesOut (find : List Char → Option (List Char × Nat)) (mark : Char) : Prop :=
  ∀ cs new n, find cs = some (new, n) → 0 < n ∧ new.count mark < (cs.take n).count mark

lemma TakesOut.addsNone (h : TakesOut find mark) : AddsNone find mark :=
  fun cs new n hfound => (h cs new n hfound).imp_right Nat.le_of_lt

lemma AddsNone.count_scanFrom_le (hfind : AddsNone find mark) (skip : Nat) (cs : List Char) :
    ((scanFrom find skip cs).flatMap replaced).count mark ≤ (cs.drop skip).count mark := by
  fun_induction scanFrom find skip cs with
  | case1 skip => simp
  | case2 skip d cs ih => exact ih
  | case3 d cs new covered hfound ih =>
      obtain ⟨hpos, hcount⟩ := hfind _ _ _ hfound
      obtain ⟨n, rfl⟩ := Nat.exists_eq_succ_of_ne_zero (Nat.ne_of_gt hpos)
      have hcut := congrArg (List.count mark) (List.take_append_drop (n + 1) (d :: cs))
      rw [List.count_append] at hcut
      rw [List.flatMap_cons, List.count_append, List.drop_zero, ← hcut]
      exact Nat.add_le_add hcount ih
  | case4 d cs hfound ih =>
      rw [List.flatMap_cons, List.count_append, List.drop_zero, ← List.singleton_append,
        List.count_append]
      exact Nat.add_le_add_left ih _

lemma AddsNone.count_substitute_le (hfind : AddsNone find mark) (cs : List Char) :
    (substitute find cs).count mark ≤ cs.count mark := by
  rw [substitute_eq, scan]
  exact hfind.count_scanFrom_le 0 cs

/-- If every match takes out a character, a text with a match loses some of them. -/
lemma TakesOut.count_substitute_lt (hfind : TakesOut find mark) :
    ∀ {cs : List Char}, HasMatch find cs → (substitute find cs).count mark < cs.count mark
  | [], h => absurd h not_hasMatch_nil
  | c :: cs, h => by
      rw [substitute_eq, scan, scanFrom]
      cases hfound : find (c :: cs) with
      | some found =>
          obtain ⟨hpos, hcount⟩ := hfind _ _ _ hfound
          obtain ⟨n, hn⟩ := Nat.exists_eq_succ_of_ne_zero (Nat.ne_of_gt hpos)
          have hcut := congrArg (List.count mark) (List.take_append_drop found.2 (c :: cs))
          rw [List.count_append, hn, List.drop_succ_cons] at hcut
          rw [List.flatMap_cons, List.count_append, ← hcut]
          rw [hn] at hcount ⊢
          exact Nat.add_lt_add_of_lt_of_le hcount (hfind.addsNone.count_scanFrom_le n cs)
      | none =>
          have hrest := hfind.count_substitute_lt
            ((hasMatch_cons.mp h).resolve_left (not_not.mpr hfound))
          rw [substitute_eq, scan] at hrest
          rw [List.flatMap_cons, List.count_append, ← List.singleton_append, List.count_append]
          exact Nat.add_lt_add_left hrest _

/-- If every match takes out a character that nothing later puts in again, a text that is the same
in the end has no match. -/
theorem TakesOut.not_hasMatch (hfind : TakesOut find mark) {later : List Char → List Char}
    (hlater : ∀ cs, (later cs).count mark ≤ cs.count mark)
    (h : later (substitute find cs) = cs) : ¬ HasMatch find cs := by
  intro hmatch
  have hlt := Nat.lt_of_le_of_lt (hlater _) (hfind.count_substitute_lt hmatch)
  rw [h] at hlt
  exact Nat.lt_irrefl _ hlt

end Substitute

end ReportPress.Text
