import ReportPress.Proofs.Text.Capitals
import ReportPress.Proofs.Text.Scan

/-!
# Texts written in other characters

A text is respelled character by character, and each character may become several.  As long as marks
stay as they are and nothing else becomes one, whatever cuts a text at marks cuts the respelled text
at the same places.

* `KeepsMarks` — such a way to write characters.
* `Respells` — a search that finds in a respelled text what it finds in the text, respelled.

**Cutting.**  `trim_flatMap`, `splitOn_flatMap`, `collapse_flatMap`, `dropLead?_flatMap`.

**Scanning.**  **`scan_flatMap`**, by induction over the text and over what is left of a match, and
from it `substitute_flatMap`, `replaceAll_flatMap` and `splitOnText_flatMap`.
-/

namespace ReportPress.Text

/-- A way to write characters that leaves marks alone and puts in none. -/
structure KeepsMarks (f : Char → List Char) : Prop where
  cases : ∀ c, f c = [c] ∨ isMark c = false ∧ f c ≠ [] ∧ ∀ d ∈ f c, isMark d = false

lemma keepsMarks_upperChar : KeepsMarks upperChar where
  cases c := (upperChar_cases c).imp And.left
    (And.imp_right (And.imp_right fun h d hd => (h d hd).notMark))

variable {α : Type} {f : Char → List Char} {c m : Char} {cs : List Char} {p : Char → Bool}

namespace KeepsMarks

variable (h : KeepsMarks f)

include h

lemma eq_of_isMark (hm : isMark m = true) : f m = [m] := by
  obtain hstays | ⟨hnot, -⟩ := h.cases m
  · exact hstays
  · rw [hnot] at hm
    exact absurd hm (by decide)

lemma flatMap_of_forall (hcs : ∀ c ∈ cs, isMark c = true) : cs.flatMap f = cs := by
  induction cs with
  | nil => rfl
  | cons c cs ih =>
      obtain ⟨hc, hcs⟩ := List.forall_mem_cons.mp hcs
      rw [List.flatMap_cons, h.eq_of_isMark hc, ih hcs, List.singleton_append]

lemma mem_flatMap_iff (hm : isMark m = true) : m ∈ cs.flatMap f ↔ m ∈ cs := by
  rw [List.mem_flatMap]
  constructor
  · rintro ⟨c, hc, hmem⟩
    obtain hstays | ⟨-, -, hnone⟩ := h.cases c
    · rw [hstays, List.mem_singleton] at hmem
      rwa [hmem]
    · rw [hnone m hmem] at hm
      exact absurd hm (by decide)
  · intro hmem
    exact ⟨m, hmem, by simp [h.eq_of_isMark hm]⟩

lemma flatMap_eq_nil_iff : cs.flatMap f = [] ↔ cs = [] := by
  rw [List.flatMap_eq_nil_iff]
  constructor
  · intro hnil
    refine List.eq_nil_iff_forall_not_mem.mpr fun c hc => ?_
    obtain hstays | ⟨-, hne, -⟩ := h.cases c
    · rw [hnil c hc] at hstays
      cases hstays
    · exact hne (hnil c hc)
  · rintro rfl c hc
    cases hc

/-- A mark in a respelled text stands there in the text. -/
lemma exists_of_flatMap_eq (hm : isMark m = true) {after : List Char} :
    ∀ {cs before : List Char}, cs.flatMap f = before ++ m :: after →
      ∃ b a, cs = b ++ m :: a ∧ b.flatMap f = before ∧ a.flatMap f = after
  | [], before, heq => by simp at heq
  | c :: cs, before, heq => by
      have hcons {more : List Char} (hbefore : before = f c ++ more)
          (hcs : cs.flatMap f = more ++ m :: after) :
          ∃ b a, c :: cs = b ++ m :: a ∧ b.flatMap f = before ∧ a.flatMap f = after := by
        obtain ⟨b, a, rfl, rfl, ha⟩ := exists_of_flatMap_eq hm hcs
        exact ⟨c :: b, a, rfl, hbefore.symm, ha⟩
      rw [List.flatMap_cons] at heq
      rcases List.append_eq_append_iff.mp heq with ⟨more, hbefore, hcs⟩ | ⟨more, hc, hcs⟩
      · exact hcons hbefore hcs
      · cases more with
        | nil => exact @hcons [] (by simp [hc]) hcs.symm
        | cons d more =>
            obtain ⟨rfl, hmore⟩ := List.cons.inj hcs
            obtain hstays | ⟨-, -, hnone⟩ := h.cases c
            · obtain ⟨hbefore, hdm⟩ := List.append_eq_singleton_iff.mp (hc.symm.trans hstays)
                |>.resolve_right (by simp)
              obtain ⟨rfl, rfl⟩ := List.cons.inj hdm
              exact ⟨[], cs, rfl, hbefore.symm, hmore.symm⟩
            · have hmark := hnone m (by simp [hc])
              rw [hmark] at hm
              exact absurd hm (by decide)

lemma exists_of_flatMap_eq_cons (hm : isMark m = true) {after : List Char}
    (heq : cs.flatMap f = m :: after) : ∃ a, cs = m :: a ∧ a.flatMap f = after := by
  have hsplit : cs.flatMap f = [] ++ m :: after := heq
  obtain ⟨b, a, hcs, hb, ha⟩ := h.exists_of_flatMap_eq hm hsplit
  rw [h.flatMap_eq_nil_iff.mp hb] at hcs
  exact ⟨a, hcs, ha⟩

/-! ## Cutting -/

/-- White space comes only from white space. -/
lemma isBlank_of_mem {d : Char} (hc : isBlank c = false) (hd : d ∈ f c) : isBlank d = false := by
  obtain hstays | ⟨-, -, hnone⟩ := h.cases c
  · rw [hstays] at hd
    exact List.mem_singleton.mp hd ▸ hc
  · rw [← Bool.not_eq_true]
    intro hblank
    exact absurd (isMark_of_isBlank hblank) (by simp [hnone d hd])

/-- White space is trimmed off a respelled text as it is off the text. -/
lemma trim_flatMap (cs : List Char) : trim (cs.flatMap f) = (trim cs).flatMap f := by
  obtain ⟨lead, tail, hcut, hlead, htail⟩ := exists_eq_append_trim cs
  have hrespelled : cs.flatMap f = lead ++ (trim cs).flatMap f ++ tail := by
    conv_lhs => rw [hcut]
    rw [List.flatMap_append, List.flatMap_append,
      h.flatMap_of_forall fun c hc => isMark_of_isBlank (hlead c hc),
      h.flatMap_of_forall fun c hc => isMark_of_isBlank (htail c hc)]
  have hne (c : Char) : f c ≠ [] := fun hnil =>
    absurd (h.flatMap_eq_nil_iff.mp (by simp [hnil] : [c].flatMap f = [])) (List.cons_ne_nil c [])
  rw [hrespelled, trim_append_blanks htail, trim_append hlead]
  refine trim_eq_self (fun d hd => ?_) fun d hd => ?_
  · cases htrim : trim cs with
    | nil => simp [htrim] at hd
    | cons c rest =>
        rw [htrim, List.flatMap_cons, List.head?_append_of_ne_nil _ (hne c)] at hd
        have hc : isBlank c = false := head_trim (by rw [htrim, List.head?_cons])
        exact h.isBlank_of_mem hc (List.mem_of_mem_head? hd)
  · rcases List.eq_nil_or_concat (trim cs) with htrim | ⟨init, c, htrim⟩
    · simp [htrim] at hd
    · rw [htrim, List.concat_eq_append, List.flatMap_append, List.flatMap_singleton,
        List.getLast?_append_of_ne_nil _ (hne c)] at hd
      have hc : isBlank c = false := getLast_trim (by rw [htrim]; simp)
      exact h.isBlank_of_mem hc (List.mem_of_mem_getLast? hd)

lemma splitOn_flatMap {sep : Char} (hsep : isMark sep = true) : ∀ cs : List Char,
    splitOn sep (cs.flatMap f) = (splitOn sep cs).map (List.flatMap f)
  | [] => rfl
  | c :: cs => by
      have ih := splitOn_flatMap hsep cs
      by_cases hc : c = sep
      · rw [List.flatMap_cons, hc, h.eq_of_isMark hsep, List.singleton_append, splitOn, if_pos rfl,
          ih, splitOn, if_pos rfl]
        rfl
      · have hnot : sep ∉ f c := by
          intro hmem
          have hsingle : sep ∈ [c].flatMap f := by simpa using hmem
          exact hc (List.mem_singleton.mp ((h.mem_flatMap_iff hsep).mp hsingle)).symm
        cases hpieces : splitOn sep cs with
        | nil => exact absurd hpieces (splitOn_ne_nil sep cs)
        | cons piece pieces =>
            rw [hpieces, List.map_cons] at ih
            rw [List.flatMap_cons, splitOn_append_of_not_mem ih hnot, splitOn, if_neg hc, hpieces]
            rfl

lemma head?_flatMap_any (hp : ∀ c, isMark c = false → p c = false) :
    (cs.flatMap f).head?.any p = cs.head?.any p := by
  cases cs with
  | nil => rfl
  | cons c cs =>
      rw [List.flatMap_cons]
      obtain hstays | ⟨hnot, hne, hnone⟩ := h.cases c
      · rw [hstays]
        rfl
      · obtain ⟨d, ds, hds⟩ := List.exists_cons_of_ne_nil hne
        have hd : isMark d = false := hnone d (by simp [hds])
        simp [hds, hp d hd, hp c hnot]

lemma collapse_flatMap : ∀ cs : List Char, collapse (cs.flatMap f) = (collapse cs).flatMap f
  | [] => rfl
  | c :: cs => by
      have hblank : ∀ c, isMark c = false → isBlank c = false := fun c hc => by
        rw [← Bool.not_eq_true]
        intro hb
        rw [isMark_of_isBlank hb] at hc
        exact absurd hc (by decide)
      have ih := collapse_flatMap cs
      have hhead : (cs.flatMap f).head?.any isBlank = cs.head?.any isBlank :=
        h.head?_flatMap_any hblank
      have hspace : f ' ' = [' '] := h.eq_of_isMark (by decide)
      rw [List.flatMap_cons, collapse]
      split_ifs with hc hnext
      · rw [h.eq_of_isMark (isMark_of_isBlank hc), List.singleton_append, collapse, if_pos hc,
          if_pos (hhead.trans hnext), ih]
      · rw [h.eq_of_isMark (isMark_of_isBlank hc), List.singleton_append, collapse, if_pos hc,
          if_neg (hhead ▸ hnext), ih, List.flatMap_cons, hspace, List.singleton_append]
      · have hcalm : ∀ d ∈ f c, isBlank d = false := by
          intro d hd
          obtain hstays | ⟨-, -, hnone⟩ := h.cases c
          · rw [hstays, List.mem_singleton] at hd
            rwa [hd, ← Bool.not_eq_true]
          · exact hblank d (hnone d hd)
        have happend : ∀ {ds : List Char}, (∀ d ∈ ds, isBlank d = false) →
            collapse (ds ++ cs.flatMap f) = ds ++ collapse (cs.flatMap f) := by
          intro ds hds
          induction ds with
          | nil => rfl
          | cons d ds ihds =>
              obtain ⟨hd, hds⟩ := List.forall_mem_cons.mp hds
              rw [List.cons_append, collapse, if_neg (Bool.eq_false_iff.mp hd), ihds hds,
                List.cons_append]
        rw [happend hcalm, ih, List.flatMap_cons]

lemma dropLead?_flatMap : ∀ {lead : List Char}, (∀ c ∈ lead, isMark c = true) →
    ∀ cs : List Char, dropLead? lead (cs.flatMap f) = (dropLead? lead cs).map (List.flatMap f)
  | [], _, _ => rfl
  | _ :: _, _, [] => rfl
  | l :: lead, hlead, c :: cs => by
      obtain ⟨hl, hlead⟩ := List.forall_mem_cons.mp hlead
      rw [List.flatMap_cons]
      obtain hstays | ⟨hnot, hne, hnone⟩ := h.cases c
      · rw [hstays, List.singleton_append, dropLead?, dropLead?]
        split_ifs
        · exact dropLead?_flatMap hlead cs
        · rfl
      · obtain ⟨d, ds, hds⟩ := List.exists_cons_of_ne_nil hne
        have hne_of {e : Char} (he : isMark e = false) : e ≠ l := by
          rintro rfl
          rw [he] at hl
          exact absurd hl (by decide)
        rw [hds, List.cons_append, dropLead?_cons_of_ne (hne_of (hnone d (by simp [hds]))),
          dropLead?_cons_of_ne (hne_of hnot)]
        rfl

end KeepsMarks

/-! ## Scanning -/

/-- A search that begins at marks and finds in a respelled text what it finds in the text, with
`g` done to it. -/
structure Respells (f : Char → List Char) (g : α → α) (find : List Char → Option (α × Nat)) :
    Prop where
  notMark : ∀ {c : Char} (rest : List Char), isMark c = false → find (c :: rest) = none
  found : ∀ {cs : List Char} {a : α} {n : Nat}, find cs = some (a, n) →
    find (cs.flatMap f) = some (g a, ((cs.take n).flatMap f).length)
  none : ∀ {cs : List Char}, find cs = none → find (cs.flatMap f) = none

/-- A piece of a scanned text in the other characters. -/
def Piece.respelled (f : Char → List Char) (g : α → α) : Piece α → List (Piece α)
  | .char c => (f c).map .char
  | .found a => [.found (g a)]

section Scanning

variable {g : α → α} {find : List Char → Option (α × Nat)}

/-- Where no match begins there are only characters. -/
lemma scanFrom_append_of_forall {before : List Char} (rest : List Char)
    (h : ∀ c ∈ before, ∀ rest, find (c :: rest) = none) :
    scanFrom find 0 (before ++ rest) = before.map .char ++ scanFrom find 0 rest := by
  induction before with
  | nil => rfl
  | cons c before ih =>
      obtain ⟨hc, hbefore⟩ := List.forall_mem_cons.mp h
      rw [List.cons_append, scanFrom, hc]
      exact congrArg (Piece.char c :: ·) (ih hbefore)

/-- What is left of a match is respelled too. -/
lemma scanFrom_flatMap (h : KeepsMarks f) (hfind : Respells f g find) (skip : Nat)
    (cs : List Char) :
    scanFrom find ((cs.take skip).flatMap f).length (cs.flatMap f)
      = (scanFrom find skip cs).flatMap (Piece.respelled f g) := by
  fun_induction scanFrom find skip cs with
  | case1 skip => rfl
  | case2 skip c cs ih =>
      rw [List.take_succ_cons, List.flatMap_cons, List.flatMap_cons, List.length_append,
        scanFrom_append, ih]
  | case3 c cs a n hfound ih =>
      have hc : f c = [c] := by
        refine h.eq_of_isMark ?_
        rw [← Bool.not_eq_false]
        intro hnot
        rw [hfind.notMark cs hnot] at hfound
        cases hfound
      have hother := hfind.found hfound
      have hskip : (((c :: cs).take n).flatMap f).length - 1
          = ((cs.take (n - 1)).flatMap f).length := by
        cases n with
        | zero => rfl
        | succ n => simp [hc]
      rw [List.flatMap_cons, hc, List.singleton_append] at hother ⊢
      rw [List.take_zero, List.flatMap_nil, List.length_nil, scanFrom, hother]
      show Piece.found (g a) :: scanFrom find (_ - 1) (cs.flatMap f) = _
      rw [hskip, ih]
      rfl
  | case4 c cs hnone ih =>
      rw [List.take_zero, List.flatMap_nil, List.length_nil] at ih ⊢
      rw [List.flatMap_cons, List.flatMap_cons, ← ih, Piece.respelled]
      obtain hstays | ⟨-, -, hletters⟩ := h.cases c
      · have hother := hfind.none hnone
        rw [List.flatMap_cons, hstays, List.singleton_append] at hother
        rw [hstays, List.singleton_append, scanFrom, hother]
        rfl
      · exact scanFrom_append_of_forall _ fun d hd rest => hfind.notMark rest (hletters d hd)

/-- The pieces of a respelled text are those of the text. -/
theorem scan_flatMap (h : KeepsMarks f) (hfind : Respells f g find) (cs : List Char) :
    scan find (cs.flatMap f) = (scan find cs).flatMap (Piece.respelled f g) := by
  rw [scan, scan, ← scanFrom_flatMap h hfind 0 cs, List.take_zero, List.flatMap_nil,
    List.length_nil]

end Scanning

lemma substitute_flatMap {find : List Char → Option (List Char × Nat)} (h : KeepsMarks f)
    (hfind : Respells f (List.flatMap f) find) (cs : List Char) :
    substitute find (cs.flatMap f) = (substitute find cs).flatMap f := by
  have hpiece (piece : Piece (List Char)) :
      (piece.respelled f (List.flatMap f)).flatMap replaced = (replaced piece).flatMap f := by
    cases piece with
    | char c => simp [Piece.respelled, replaced, List.flatMap_map]
    | found new => simp [Piece.respelled, replaced]
  rw [substitute_eq, substitute_eq, scan_flatMap h hfind, List.flatMap_assoc, List.flatMap_assoc]
  congr 1
  exact funext hpiece

/-- Looking for a text of marks. -/
lemma respells_dropLead? (h : KeepsMarks f) {g : α → α} {pattern : List Char} (hne : pattern ≠ [])
    (hpattern : ∀ c ∈ pattern, isMark c = true) {a : α} (ha : g a = a) :
    Respells f g fun cs => (dropLead? pattern cs).map fun _ => (a, pattern.length) where
  notMark {c} rest hc := by
    obtain ⟨m, marks, rfl⟩ := List.exists_cons_of_ne_nil hne
    have hm : c ≠ m := by
      rintro rfl
      rw [hpattern c List.mem_cons_self] at hc
      exact absurd hc (by decide)
    rw [dropLead?_cons_of_ne hm]
    rfl
  found {cs b n} hfound := by
    obtain ⟨rest, hrest, heq⟩ := Option.map_eq_some_iff.mp hfound
    obtain ⟨rfl, rfl⟩ := Prod.mk.inj heq
    have hcs := dropLead?_eq_some_iff.mp hrest
    rw [h.dropLead?_flatMap hpattern, hrest, hcs, List.take_left, h.flatMap_of_forall hpattern, ha]
    rfl
  none {cs} hnone := by
    rw [Option.map_eq_none_iff] at hnone
    rw [h.dropLead?_flatMap hpattern, hnone]
    rfl

lemma replaceAll_flatMap (h : KeepsMarks f) {pattern new : List Char} (hne : pattern ≠ [])
    (hpattern : ∀ c ∈ pattern, isMark c = true) (hnew : ∀ c ∈ new, isMark c = true)
    (cs : List Char) :
    replaceAll pattern new (cs.flatMap f) = (replaceAll pattern new cs).flatMap f :=
  substitute_flatMap h (respells_dropLead? h hne hpattern (h.flatMap_of_forall hnew)) cs

/-- One piece more in front of the texts between matches. -/
def consPiece : Piece Unit → List (List Char) → List (List Char)
  | .found _, texts => [] :: texts
  | .char c, text :: texts => (c :: text) :: texts
  | .char c, [] => [[c]]

lemma splitOnText_eq (pattern cs : List Char) :
    splitOnText pattern cs = (scan (fun cs => (dropLead? pattern cs).map fun _ =>
      ((), pattern.length)) cs).foldr consPiece [[]] := by
  unfold splitOnText
  congr 1

lemma foldr_consPiece_ne_nil (pieces : List (Piece Unit)) : pieces.foldr consPiece [[]] ≠ [] := by
  cases pieces with
  | nil => simp
  | cons piece pieces =>
      rw [List.foldr_cons]
      cases piece <;> cases pieces.foldr consPiece [[]] <;> simp [consPiece]

lemma foldr_consPiece_chars (letters text : List Char) (texts : List (List Char)) :
    (letters.map Piece.char).foldr consPiece (text :: texts) = (letters ++ text) :: texts := by
  induction letters with
  | nil => rfl
  | cons c letters ih => rw [List.map_cons, List.foldr_cons, ih, consPiece, List.cons_append]

/-- The texts between occurrences of a text of marks. -/
lemma splitOnText_flatMap (h : KeepsMarks f) {pattern : List Char} (hne : pattern ≠ [])
    (hpattern : ∀ c ∈ pattern, isMark c = true) (cs : List Char) :
    splitOnText pattern (cs.flatMap f) = (splitOnText pattern cs).map (List.flatMap f) := by
  have hfind : Respells f id fun cs => (dropLead? pattern cs).map fun _ => ((), pattern.length) :=
    respells_dropLead? h hne hpattern rfl
  rw [splitOnText_eq, splitOnText_eq, scan_flatMap h hfind]
  generalize scan (fun cs => (dropLead? pattern cs).map fun _ => ((), pattern.length)) cs = pieces
  induction pieces with
  | nil => rfl
  | cons piece pieces ih =>
      obtain ⟨text, texts, htexts⟩ := List.exists_cons_of_ne_nil (foldr_consPiece_ne_nil pieces)
      rw [htexts, List.map_cons] at ih
      rw [List.flatMap_cons, List.foldr_append, ih, List.foldr_cons, htexts]
      cases piece with
      | found u => rfl
      | char c =>
          rw [Piece.respelled, foldr_consPiece_chars]
          rfl

end ReportPress.Text
