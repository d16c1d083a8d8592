import Mathlib.Data.List.Chain
import Mathlib.Data.List.Flatten
import ReportPress.Inline.ScriptRuns
import ReportPress.Proofs.Text.Words

/-!
# Cutting by alphabet

A text is read from left to right, and a new piece begins at every letter that is not of the
alphabet of the piece so far.

* `firstScript?` — the alphabet of the first letter.
* `AreCut` — pieces of one alphabet each, which begin where the alphabet changes.
* `IsCutByScript` — the same for the pieces of a rune, with their styles.

**The scan.**  `exists_cutScripts_eq` is its invariant: whatever alphabet the piece so far has, the
pieces from there on are cut properly, and the first of them goes on in that alphabet.

**Runes.**  `splitScript_of_forall` — a rune of one alphabet stays whole.  Every piece is such a
rune, and marked with its alphabet already.

**The result.**  `splitScripts_stable` — every rune is cut into proper pieces, and cutting pieces
once more changes nothing.
-/

namespace ReportPress.Inline

open Text

variable {current : Option Script} {c : Char} {cs : List Char} {r : Rune}

/-! ## Pieces of a text -/

/-- Letters are not white space. -/
lemma isBlank_of_ofChar? {script : Script} (h : Script.ofChar? c = some script) :
    isBlank c = false := by
  have hcode : (65 ≤ c.toNat ∧ c.toNat ≤ 90) ∨ (97 ≤ c.toNat ∧ c.toNat ≤ 122) ∨
      (0xC0 ≤ c.toNat ∧ c.toNat ≤ 0x52F) := by
    unfold Script.ofChar? at h
    split_ifs at h with halpha
    · exact (toNat_of_isAlpha halpha).imp_right Or.inl
    all_goals omega
  refine isBlank_eq_false ?_
  simp only [blanks, List.forall_mem_cons, List.not_mem_nil, false_implies, implies_true, and_true]
  omega

lemma flatMap_consPiece (c : Char) (pieces : List (List Char × Option Script)) :
    (consPiece c pieces).flatMap Prod.fst = c :: pieces.flatMap Prod.fst := by
  cases pieces <;> simp [consPiece]

/-- The pieces make up the text. -/
lemma flatMap_cutScripts (current : Option Script) (cs : List Char) :
    (cutScripts current cs).flatMap Prod.fst = cs := by
  fun_induction cutScripts current cs with
  | case1 current => rfl
  | case2 current c cs hscript ih => rw [flatMap_consPiece, ih]
  | case3 c cs script hscript ih => rw [flatMap_consPiece, ih]
  | case4 c cs active hscript ih => rw [flatMap_consPiece, ih]
  | case5 c cs script active hscript hne ih =>
      rw [List.flatMap_cons, flatMap_consPiece, ih, List.nil_append]

/-- The alphabet of the first letter of a text. -/
def firstScript? (cs : List Char) : Option Script := cs.findSome? Script.ofChar?

lemma firstScript?_cons_of_none (h : Script.ofChar? c = none) :
    firstScript? (c :: cs) = firstScript? cs := by
  rw [firstScript?, List.findSome?_cons, h]
  rfl

lemma firstScript?_cons_of_some {script : Script} (h : Script.ofChar? c = some script) :
    firstScript? (c :: cs) = some script := by
  rw [firstScript?, List.findSome?_cons, h]

lemma firstScript?_eq_none_iff : firstScript? cs = none ↔ ∀ c ∈ cs, Script.ofChar? c = none :=
  List.findSome?_eq_none_iff

/-- Pieces of one alphabet each, the first of which goes on in the alphabet `current` if that is not
open.  A new piece begins with a letter of another alphabet. -/
structure AreCut (current : Option Script) (first : List Char × Option Script)
    (rest : List (List Char × Option Script)) : Prop where
  script : first.2 = current.or (firstScript? first.1)
  own : ∀ p ∈ first :: rest, ∀ c ∈ p.1, ∀ s, Script.ofChar? c = some s → p.2 = some s
  change : (first :: rest).IsChain fun p q => p.2 ≠ q.2
  letter : ∀ p ∈ rest, ∃ c cs s, p.1 = c :: cs ∧ Script.ofChar? c = some s
  /-- As long as the alphabet is open, no new piece begins. -/
  closed : first.2 = none → rest = []

/-- A character of no other alphabet may stand in front of the first piece. -/
lemma AreCut.cons {other : Option Script} {first : List Char × Option Script}
    {rest : List (List Char × Option Script)} (h : AreCut current first rest)
    (hc : ∀ s, Script.ofChar? c = some s → first.2 = some s)
    (hscript : first.2 = other.or (firstScript? (c :: first.1))) :
    AreCut other (c :: first.1, first.2) rest := by
  obtain ⟨hfirst, hrest⟩ := List.forall_mem_cons.mp h.own
  refine ⟨hscript, List.forall_mem_cons.mpr ⟨List.forall_mem_cons.mpr ⟨hc, hfirst⟩, hrest⟩, ?_,
    h.letter, h.closed⟩
  exact List.isChain_cons.mpr (List.isChain_cons.mp h.change)

/-- The scan cuts a text where the alphabet changes. -/
lemma exists_cutScripts_eq (current : Option Script) (cs : List Char) :
    ∃ first rest, cutScripts current cs = first :: rest ∧ AreCut current first rest := by
  fun_induction cutScripts current cs with
  | case1 current =>
      refine ⟨([], current), [], rfl, Option.or_none.symm, by simp, List.isChain_singleton _,
        by simp, fun _ => rfl⟩
  | case2 current c cs hscript ih =>
      obtain ⟨first, rest, heq, hcut⟩ := ih
      refine ⟨(c :: first.1, first.2), rest, by rw [heq]; rfl, hcut.cons (by simp [hscript]) ?_⟩
      rw [firstScript?_cons_of_none hscript, hcut.script]
  | case3 c cs script hscript ih =>
      obtain ⟨first, rest, heq, hcut⟩ := ih
      have hfirst : first.2 = some script := hcut.script
      refine ⟨(c :: first.1, first.2), rest, by rw [heq]; rfl, hcut.cons ?_ ?_⟩
      · exact fun s hs => hfirst.trans (hscript.symm.trans hs)
      · rw [firstScript?_cons_of_some hscript, hfirst]
        rfl
  | case4 c cs active hscript ih =>
      obtain ⟨first, rest, heq, hcut⟩ := ih
      have hfirst : first.2 = some active := hcut.script
      refine ⟨(c :: first.1, first.2), rest, by rw [heq]; rfl, hcut.cons ?_ hfirst⟩
      exact fun s hs => hfirst.trans (hscript.symm.trans hs)
  | case5 c cs script active hscript hne ih =>
      obtain ⟨first, rest, heq, hcut⟩ := ih
      have hfirst : first.2 = some script := hcut.script
      have hnew : AreCut (some script) (c :: first.1, first.2) rest :=
        hcut.cons (fun s hs => hfirst.trans (hscript.symm.trans hs)) hfirst
      refine ⟨([], some active), (c :: first.1, first.2) :: rest, by rw [heq]; rfl, rfl, ?_, ?_, ?_,
        nofun⟩
      · exact List.forall_mem_cons.mpr ⟨by simp, hnew.own⟩
      · refine List.isChain_cons_cons.mpr ⟨fun h => hne ?_, hnew.change⟩
        exact Option.some.inj (hfirst.symm.trans h.symm)
      · exact List.forall_mem_cons.mpr ⟨⟨c, first.1, script, rfl, hscript⟩, hcut.letter⟩

lemma cutScripts_ne_nil (current : Option Script) (cs : List Char) :
    cutScripts current cs ≠ [] := by
  obtain ⟨first, rest, heq, -⟩ := exists_cutScripts_eq current cs
  rw [heq]
  exact List.cons_ne_nil _ _

/-- A new piece is marked with the alphabet of the letter that it begins with. -/
lemma AreCut.script_of_mem {first p : List Char × Option Script}
    {rest : List (List Char × Option Script)} (h : AreCut none first rest)
    (hp : p ∈ first :: rest) : p.2 = firstScript? p.1 := by
  rcases List.mem_cons.mp hp with rfl | hrest
  · exact h.script
  · obtain ⟨c, cs, s, htext, hs⟩ := h.letter p hrest
    have hc : c ∈ p.1 := htext ▸ List.mem_cons_self
    rw [h.own p hp c hc s hs, htext, firstScript?_cons_of_some hs]

/-! ## Texts of one alphabet -/

lemma cutScripts_of_active {s : Script} : ∀ {cs : List Char},
    (∀ c ∈ cs, ∀ t, Script.ofChar? c = some t → t = s) → cutScripts (some s) cs = [(cs, some s)]
  | [], _ => rfl
  | c :: cs, h => by
      obtain ⟨hc, hcs⟩ := List.forall_mem_cons.mp h
      have hrest := cutScripts_of_active hcs
      unfold cutScripts
      split
      case h_1 => rw [hrest, consPiece]
      case h_2 hactive => exact nomatch hactive
      case h_3 t active hscript hactive =>
        cases hactive
        rw [if_pos (hc t hscript), hrest, consPiece]

/-- A text of one alphabet stays whole. -/
lemma cutScripts_of_forall : ∀ {cs : List Char},
    (∀ c ∈ cs, ∀ t, Script.ofChar? c = some t → firstScript? cs = some t) →
      cutScripts none cs = [(cs, firstScript? cs)]
  | [], _ => rfl
  | c :: cs, h => by
      obtain ⟨-, hcs⟩ := List.forall_mem_cons.mp h
      unfold cutScripts
      split
      case h_1 hscript =>
        rw [firstScript?_cons_of_none hscript] at hcs ⊢
        rw [cutScripts_of_forall hcs, consPiece]
      case h_2 s hscript _ =>
        rw [firstScript?_cons_of_some hscript] at hcs ⊢
        have hactive : ∀ c ∈ cs, ∀ t, Script.ofChar? c = some t → t = s :=
          fun c hc t ht => (Option.some.inj (hcs c hc t ht)).symm
        rw [cutScripts_of_active hactive, consPiece]
      case h_3 hnone => exact nomatch hnone

/-! ## Pieces of a rune -/

/-- A rune and the pieces that it is cut into by alphabet. -/
structure IsCutByScript (r : Rune) (pieces : Runes) : Prop where
  ne_nil : pieces ≠ []
  /-- Nothing is lost. -/
  text : plainText pieces = r.text
  /-- A piece has no letters of another alphabet than its own. -/
  own : ∀ p ∈ pieces, ∀ c ∈ p.text.toList, ∀ s, Script.ofChar? c = some s → p.script = some s
  /-- Where a piece has no alphabet, there are no letters at all. -/
  noScript : ∀ p ∈ pieces, p.script = none → ∀ c ∈ r.text.toList, Script.ofChar? c = none
  /-- Pieces are as long as they can be. -/
  change : pieces.IsChain fun p q => p.script ≠ q.script
  letter : ∀ p ∈ pieces.tail, ∃ c cs s, p.text.toList = c :: cs ∧ Script.ofChar? c = some s
  first : ∀ p ∈ pieces.head?, p.anchor = r.anchor ∧ p.lineBreak = r.lineBreak
  others : ∀ p ∈ pieces.tail, p.anchor = none ∧ p.lineBreak = false
  style : ∀ p ∈ pieces, p.link = r.link ∧ p.emphasis = r.emphasis ∧ p.color = r.color

/-- The text of a rune and its alphabet. -/
def pieceOf (p : Rune) : List Char × Option Script := (p.text.toList, p.script)

/-- The pieces of a rune are those of its text. -/
lemma map_pieceOf_splitScript (r : Rune) :
    (splitScript r).map pieceOf = cutScripts none r.text.toList := by
  unfold splitScript
  split
  case h_1 hcut => exact hcut.symm
  case h_2 first rest hcut =>
    rw [hcut, List.map_cons, List.map_map]
    simp [pieceOf, scriptPiece, Rune.part, Function.comp_def]

/-- What the pieces of a rune have from it. -/
lemma exists_splitScript_eq (r : Rune) :
    ∃ (first : List Char × Option Script) (rest : List (List Char × Option Script)), splitScript r =
      { scriptPiece r first with lineBreak := r.lineBreak } ::
        rest.map fun p => { scriptPiece r p with anchor := none } := by
  obtain ⟨first, rest, heq, -⟩ := exists_cutScripts_eq none r.text.toList
  exact ⟨first, rest, by rw [splitScript, heq]⟩

/-- A rune of one alphabet stays whole. -/
lemma splitScript_of_forall
    (h : ∀ c ∈ r.text.toList, ∀ t, Script.ofChar? c = some t →
      firstScript? r.text.toList = some t) :
    splitScript r = [{ r with script := firstScript? r.text.toList }] := by
  rw [splitScript, cutScripts_of_forall h]
  simp [scriptPiece, Rune.part]

/-- Every piece is marked with the alphabet of its first letter. -/
lemma script_of_mem_splitScript {p : Rune} (hp : p ∈ splitScript r) :
    p.script = firstScript? p.text.toList := by
  obtain ⟨first, rest, heq, hcut⟩ := exists_cutScripts_eq none r.text.toList
  rw [← map_pieceOf_splitScript] at heq
  exact hcut.script_of_mem (heq ▸ List.mem_map_of_mem hp : pieceOf p ∈ first :: rest)

/-- A rune is cut into proper pieces. -/
lemma isCutByScript_splitScript (r : Rune) : IsCutByScript r (splitScript r) := by
  obtain ⟨first, rest, heq, hcut⟩ := exists_cutScripts_eq none r.text.toList
  have htext := flatMap_cutScripts none r.text.toList
  rw [← map_pieceOf_splitScript] at heq htext
  have hpiece : ∀ p ∈ splitScript r, pieceOf p ∈ first :: rest :=
    fun p hp => heq ▸ List.mem_map_of_mem hp
  have htail : ∀ p ∈ (splitScript r).tail, pieceOf p ∈ rest := by
    intro p hp
    have hmem : pieceOf p ∈ ((splitScript r).map pieceOf).tail := by
      rw [← List.map_tail]
      exact List.mem_map_of_mem hp
    rwa [heq] at hmem
  obtain ⟨whole, more, hsplit⟩ := exists_splitScript_eq r
  constructor
  case ne_nil => simp [hsplit]
  case text =>
    rw [← String.toList_inj, plainText, String.toList_join, List.flatMap_map, ← htext,
      List.flatMap_map]
    rfl
  case own => exact fun p hp => hcut.own (pieceOf p) (hpiece p hp)
  case noScript =>
    intro p hp hnone
    have hopen : firstScript? p.text.toList = none :=
      (script_of_mem_splitScript hp).symm.trans hnone
    rcases List.mem_cons.mp (hpiece p hp) with hfirst | hrest
    · rw [heq, hcut.closed (hfirst ▸ hnone), ← hfirst, List.flatMap_singleton] at htext
      rw [← htext]
      exact firstScript?_eq_none_iff.mp hopen
    · obtain ⟨c, cs, s, hletter, hs⟩ := hcut.letter (pieceOf p) hrest
      have hsome : firstScript? (pieceOf p).1 = some s := by
        rw [hletter, firstScript?_cons_of_some hs]
      exact nomatch hopen.symm.trans hsome
  case change => exact (List.isChain_map pieceOf).mp (heq ▸ hcut.change)
  case letter => exact fun p hp => hcut.letter (pieceOf p) (htail p hp)
  case first =>
    rw [hsplit]
    rintro p ⟨⟩
    exact ⟨rfl, rfl⟩
  case others =>
    rw [hsplit]
    intro p hp
    obtain ⟨piece, -, rfl⟩ := List.mem_map.mp hp
    exact ⟨rfl, rfl⟩
  case style =>
    rw [hsplit]
    intro p hp
    rcases List.mem_cons.mp hp with rfl | hp
    · exact ⟨rfl, rfl, rfl⟩
    · obtain ⟨piece, -, rfl⟩ := List.mem_map.mp hp
      exact ⟨rfl, rfl, rfl⟩

/-- A piece is not cut again. -/
lemma splitScript_of_mem_splitScripts {p : Rune} {runes : Runes} (hp : p ∈ splitScripts runes) :
    splitScript p = [p] := by
  obtain ⟨r, -, hp⟩ := List.mem_flatMap.mp hp
  have hscript := script_of_mem_splitScript hp
  have hown := (isCutByScript_splitScript r).own p hp
  rw [splitScript_of_forall fun c hc t ht => hscript ▸ hown c hc t ht, ← hscript]

/-- Cutting pieces once more changes nothing. -/
lemma splitScripts_splitScripts (runes : Runes) :
    splitScripts (splitScripts runes) = splitScripts runes := by
  conv_lhs => rw [splitScripts, List.flatMap_congr fun _ hp => splitScript_of_mem_splitScripts hp,
    List.flatMap_singleton']

/-- Every rune is cut into proper pieces, and cutting pieces once more changes nothing. -/
theorem splitScripts_stable :
    (∀ r, IsCutByScript r (splitScript r)) ∧
      ∀ runes, splitScripts (splitScripts runes) = splitScripts runes :=
  ⟨isCutByScript_splitScript, splitScripts_splitScripts⟩

end ReportPress.Inline
