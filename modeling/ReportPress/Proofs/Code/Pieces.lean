import Mathlib.Tactic.Common
import ReportPress.Code.Language

/-!
# Lines of code and their pieces

A grammar cuts a line into what its patterns match and what lies between.  As long as no pattern
matches nothing, the pieces put together are the line.

* `Pattern.Consumes`, `Grammar.Consumes` — every match has some extent.
* `piecesText` — pieces put together.

**The scan.**  `piecesText_cutPieces` for a match and **`piecesText_scan`**, by the recursion over
the events of a line.

**The grammars.**  `consumes_jsonGrammar`, `consumes_propertiesGrammar`, `consumes_plainGrammar`.
-/

namespace ReportPress.Code

open Text

variable {C : Type}

/-- Every match of a pattern has some extent. -/
def Pattern.Consumes (p : Pattern C) : Prop :=
  ∀ before cs cut, p.cut? before cs = some cut → 0 < Cut.length cut

/-- Every match of a grammar has some extent. -/
def Grammar.Consumes (g : Grammar C) : Prop := ∀ context, ∀ p ∈ g.patterns context, p.Consumes

/-- Pieces put together. -/
def piecesText (pieces : List Piece) : List Char := pieces.flatMap Piece.text

@[simp] lemma piecesText_nil : piecesText [] = [] := rfl

@[simp] lemma piecesText_cons (p : Piece) (pieces : List Piece) :
    piecesText (p :: pieces) = p.text ++ piecesText pieces := rfl

@[simp] lemma piecesText_append (pieces more : List Piece) :
    piecesText (pieces ++ more) = piecesText pieces ++ piecesText more :=
  List.flatMap_append

/-! ## The scan -/

@[simp] lemma Cut.length_nil : Cut.length [] = 0 := rfl

@[simp] lemma Cut.length_cons (part : Nat × Option String) (cut : Cut) :
    Cut.length (part :: cut) = part.1 + Cut.length cut := by
  have hfold (n : Nat) : cut.foldl (fun n piece => n + piece.1) n = n + Cut.length cut := by
    induction cut generalizing n with
    | nil => rfl
    | cons first cut ih =>
        have hfirst : Cut.length (first :: cut) = 0 + first.1 + Cut.length cut := ih (0 + first.1)
        rw [List.foldl_cons, ih, hfirst, Nat.zero_add, Nat.add_assoc]
  have hcons : Cut.length (part :: cut) = 0 + part.1 + Cut.length cut := hfold (0 + part.1)
  rw [hcons, Nat.zero_add]

namespace Grammar

variable {g : Grammar C}

lemma lastOf_cons (before : Option Char) (c : Char) (cs : List Char) :
    lastOf before (c :: cs) = lastOf (some c) cs := by
  cases cs with
  | nil => rfl
  | cons d cs => simp [lastOf, List.getLast?_cons]

/-- What lies before the next event is a part of the line. -/
lemma gap_append_drop (context : C) : ∀ (before : Option Char) (cs : List Char),
    g.gap context before cs ++ cs.drop (g.gap context before cs).length = cs
  | before, [] => by simp [gap]
  | before, c :: cs => by
      rw [gap]
      split_ifs
      · rfl
      · rw [List.length_cons, List.drop_succ_cons, List.cons_append,
          gap_append_drop context (some c) cs]

/-- Something happens behind that, unless it is the rest of the line. -/
lemma isSome_event? (context : C) : ∀ (before : Option Char) (cs : List Char),
    cs.drop (g.gap context before cs).length ≠ [] →
      (g.event? context (lastOf before (g.gap context before cs))
        (cs.drop (g.gap context before cs).length)).isSome = true
  | before, [], h => by simp at h
  | before, c :: cs, h => by
      rw [gap] at h ⊢
      split_ifs at h ⊢ with hevent
      · exact hevent
      · rw [List.length_cons, List.drop_succ_cons] at h ⊢
        rw [lastOf_cons]
        exact isSome_event? context (some c) cs h

lemma find?_eq_found {before : Option Char} {cs : List Char} {p : Pattern C} {cut : Cut} :
    ∀ {patterns : List (Pattern C)}, find? before cs patterns = some (.found p cut) →
      p ∈ patterns ∧ p.cut? before cs = some cut
  | [], h => by simp [find?] at h
  | q :: patterns, h => by
      rw [find?] at h
      split at h
      case h_1 found hcut =>
        obtain ⟨rfl, rfl⟩ := Event.found.inj (Option.some.inj h)
        exact ⟨List.mem_cons_self, hcut⟩
      case h_2 => exact (find?_eq_found h).imp_left (List.mem_cons_of_mem q)

/-- A match in a line has some extent. -/
lemma cut_pos (hg : g.Consumes) {context : C} {before : Option Char} {cs : List Char}
    {p : Pattern C} {cut : Cut} (h : g.event? context before cs = some (.found p cut)) :
    0 < Cut.length cut := by
  rw [event?] at h
  split_ifs at h
  · exact nomatch h
  · obtain ⟨hmem, hcut⟩ := find?_eq_found h
    exact hg context p hmem before cs cut hcut

/-- The parts of a match are what it matches. -/
lemma piecesText_cutPieces (kind : List String → TokenKind) : ∀ (cut : Cut) (cs : List Char),
    piecesText (cutPieces kind cut cs) = cs.take (Cut.length cut)
  | [], cs => by simp [cutPieces]
  | (n, scope) :: cut, cs => by
      rw [cutPieces, piecesText_cons, piecesText_cutPieces kind cut, Cut.length_cons, List.take_add]

/-- The pieces of a line put together are the line. -/
theorem piecesText_scan (hg : g.Consumes) (stack : List C) (before : Option Char)
    (cs : List Char) : piecesText (g.scan stack before cs).1 = cs := by
  fun_induction scan g stack before cs with
  | case1 before cs => simp
  | case2 before cs context outer gap before' between hevent =>
      -- without an event the gap goes to the end of the line
      have hend : cs.drop gap.length = [] := by
        by_contra h
        have hsome := isSome_event? (g := g) context before cs h
        rw [hevent] at hsome
        exact nomatch hsome
      have hcut := gap_append_drop (g := g) context before cs
      rw [hend, List.append_nil] at hcut
      rwa [piecesText_cons, piecesText_nil, List.append_nil]
  | case3 before cs context outer gap before' between hevent pieces stack hscan =>
      rename_i ih
      rw [hscan] at ih
      rw [piecesText_cons, ih]
      exact gap_append_drop context before cs
  | case4 before cs context outer gap before' between pattern cut hdrop =>
      have hcut := gap_append_drop (g := g) context before cs
      rw [hdrop, List.append_nil] at hcut
      rwa [piecesText_cons, piecesText_nil, List.append_nil]
  | case5 before cs context outer gap before' between pattern cut c rest hdrop hevent kind more
      pieces stack hscan =>
      rename_i ih
      obtain ⟨n, hn⟩ : ∃ n, Cut.length cut = n + 1 :=
        Nat.exists_eq_add_one.mpr (cut_pos hg hevent)
      have hcut := gap_append_drop (g := g) context before cs
      rw [hdrop] at hcut
      rw [hscan, hn, Nat.add_sub_cancel] at ih
      rw [List.cons_append, piecesText_cons, piecesText_append, piecesText_cutPieces, ih, hn,
        List.take_succ_cons, List.cons_append, List.take_append_drop]
      exact hcut

end Grammar

/-! ## The grammars -/

namespace Pattern

/-- A match of one part has the extent of that. -/
lemma consumes_of_single {p : Pattern C}
    (h : ∀ before cs cut, p.cut? before cs = some cut → ∃ n scope, cut = [(n, scope)] ∧ 0 < n) :
    p.Consumes := by
  intro before cs cut hcut
  obtain ⟨n, scope, rfl, hn⟩ := h before cs cut hcut
  simpa using hn

lemma consumes_literal {text : String} (htext : 0 < text.length) (scope : String)
    (action : Action C) : (literal text scope action).Consumes := by
  refine consumes_of_single fun before cs cut h => ?_
  obtain ⟨_, -, rfl⟩ := Option.map_eq_some_iff.mp h
  exact ⟨_, _, rfl, htext⟩

lemma consumes_oneOf (test : Char → Bool) (scope : String) :
    (oneOf test scope : Pattern C).Consumes := by
  refine consumes_of_single fun before cs cut h => ?_
  obtain ⟨-, h⟩ := Option.ite_none_right_eq_some.mp h
  exact ⟨_, _, (Option.some.inj h).symm, Nat.one_pos⟩

lemma consumes_wholeWord {words : List String} (hwords : ∀ word ∈ words, 0 < word.length)
    (scope : String) : (wholeWord words scope : Pattern C).Consumes := by
  refine consumes_of_single fun before cs cut h => ?_
  obtain ⟨word, hword, rfl⟩ := Option.map_eq_some_iff.mp h
  exact ⟨_, _, rfl, hwords word (List.mem_of_find?_eq_some hword)⟩

lemma consumes_toLineEnd {openings : List String} (hopenings : ∀ o ∈ openings, 0 < o.length)
    (openingScope scope : String) :
    (toLineEnd openings openingScope scope : Pattern C).Consumes := by
  intro before cs cut h
  obtain ⟨o, ho, rfl⟩ := Option.map_eq_some_iff.mp h
  have hpos := hopenings o (List.mem_of_find?_eq_some ho)
  simp only [Cut.length_cons]
  omega

end Pattern

lemma consumes_plainGrammar : plainGrammar.Consumes := fun _ _ hp => nomatch hp

namespace PropertyContext

lemma consumes_property : property.Consumes := by
  intro before cs cut h
  obtain ⟨-, h⟩ := Option.ite_none_right_eq_some.mp h
  rw [← Option.some.inj h]
  simp only [Cut.length_cons]
  omega

end PropertyContext

lemma consumes_propertiesGrammar : propertiesGrammar.Consumes := by
  intro context
  cases context with
  | lines =>
      refine List.forall_mem_cons.mpr ⟨Pattern.consumes_toLineEnd (by decide) _ _, ?_⟩
      refine List.forall_mem_cons.mpr ⟨Pattern.consumes_literal (by decide) _ _, ?_⟩
      exact List.forall_mem_singleton.mpr PropertyContext.consumes_property
  | inComment => exact List.forall_mem_singleton.mpr (Pattern.consumes_literal (by decide) _ _)

namespace JsonContext

lemma escape?_pos {cs : List Char} {n : Nat} (h : escape? cs = some n) : 0 < n := by
  unfold escape? at h
  split at h <;> grind

lemma jsonNumber?_pos {cs : List Char} {n : Nat} (h : jsonNumber? cs = some n) : 0 < n := by
  unfold jsonNumber? at h
  grind

lemma consumes_comments : ∀ p ∈ comments, p.Consumes := by
  have hdoc : docComment.Consumes := by
    refine Pattern.consumes_of_single fun before cs cut h => ?_
    unfold docComment at h
    grind
  refine List.forall_mem_cons.mpr ⟨hdoc, ?_⟩
  refine List.forall_mem_cons.mpr ⟨Pattern.consumes_literal (by decide) _ _, ?_⟩
  exact List.forall_mem_singleton.mpr (Pattern.consumes_toLineEnd (by decide) _ _)

lemma consumes_stringPatterns : ∀ p ∈ stringPatterns, p.Consumes := by
  refine List.forall_mem_cons.mpr ⟨Pattern.consumes_literal (by decide) _ _, ?_⟩
  refine List.forall_mem_cons.mpr ⟨Pattern.consumes_of_single fun before cs cut h => ?_, ?_⟩
  · obtain ⟨n, hn, rfl⟩ := Option.map_eq_some_iff.mp h
    exact ⟨n, none, rfl, escape?_pos hn⟩
  refine List.forall_mem_cons.mpr ⟨Pattern.consumes_of_single fun before cs cut h => ?_, ?_⟩
  · obtain ⟨-, h⟩ := Option.ite_none_right_eq_some.mp h
    exact ⟨2, none, (Option.some.inj h).symm, Nat.two_pos⟩
  · exact List.forall_mem_singleton.mpr (Pattern.consumes_literal (by decide) _ _)

lemma consumes_values : ∀ p ∈ values, p.Consumes := by
  refine List.forall_mem_append.mpr ⟨?_, consumes_comments⟩
  refine List.forall_mem_cons.mpr ⟨Pattern.consumes_wholeWord (by decide) _, ?_⟩
  refine List.forall_mem_cons.mpr ⟨Pattern.consumes_of_single fun before cs cut h => ?_, ?_⟩
  · obtain ⟨n, hn, rfl⟩ := Option.map_eq_some_iff.mp h
    exact ⟨n, none, rfl, jsonNumber?_pos hn⟩
  refine List.forall_mem_cons.mpr ⟨Pattern.consumes_literal (by decide) _ _, ?_⟩
  refine List.forall_mem_cons.mpr ⟨Pattern.consumes_literal (by decide) _ _, ?_⟩
  exact List.forall_mem_singleton.mpr (Pattern.consumes_literal (by decide) _ _)

end JsonContext

lemma consumes_jsonGrammar : jsonGrammar.Consumes := by
  have hliteral {text : String} {scope : String} {action : Action JsonContext}
      (htext : 0 < text.length) : (Pattern.literal text scope action).Consumes :=
    Pattern.consumes_literal htext scope action
  intro context
  cases context with
  | value => exact JsonContext.consumes_values
  | inString => exact JsonContext.consumes_stringPatterns
  | inKey => exact JsonContext.consumes_stringPatterns
  | inArray =>
      refine List.forall_mem_append.mpr ⟨?_, ?_⟩
      · exact List.forall_mem_cons.mpr ⟨hliteral (by decide), JsonContext.consumes_values⟩
      · refine List.forall_mem_cons.mpr ⟨hliteral (by decide), ?_⟩
        exact List.forall_mem_singleton.mpr (Pattern.consumes_oneOf _ _)
  | inObject =>
      refine List.forall_mem_append.mpr ⟨List.forall_mem_append.mpr ⟨?_, ?_⟩, ?_⟩
      · refine List.forall_mem_cons.mpr ⟨hliteral (by decide), ?_⟩
        exact List.forall_mem_singleton.mpr (hliteral (by decide))
      · exact JsonContext.consumes_comments
      · refine List.forall_mem_cons.mpr ⟨hliteral (by decide), ?_⟩
        exact List.forall_mem_singleton.mpr (Pattern.consumes_oneOf _ _)
  | inMember =>
      refine List.forall_mem_append.mpr ⟨?_, ?_⟩
      · exact List.forall_mem_cons.mpr ⟨hliteral (by decide), JsonContext.consumes_values⟩
      · exact List.forall_mem_singleton.mpr (Pattern.consumes_oneOf _ _)
  | inComment => exact List.forall_mem_singleton.mpr (hliteral (by decide))
  | inDocComment => exact List.forall_mem_singleton.mpr (hliteral (by decide))

end ReportPress.Code
