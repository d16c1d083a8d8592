import Mathlib.Data.List.Induction
import Mathlib.Tactic.Linarith
import Mathlib.Tactic.Ring
import ReportPress.Proofs.Typeset.LevelRange

/-!
# How far nested levels are indented

With every depth a level goes a step to the right, and it takes a step back for every pair of
neighbours of its own kind among the levels before it.  The pairs of the other kind are not
counted, so two neighbouring levels can be moved back by different numbers of steps.

* `nestedLevels` — the definition of lists that are each inside the one before.
* `pairsBefore`, `steps`, `indent` — the pairs a level has before it, and how far it is indented.
* `AreIndented` — what is certain about the indents in such a definition.

**Pairs.**  `sharedPairs_take_succ_le` and `sharedPairs_take_succ` say what one more level adds to
the pairs of a kind: at most one, and nothing where the level is of the other kind.

**Indents.**  `visualIndent_le_visualIndent` keeps levels of one kind in order,
`visualIndent_lt_visualIndent_iff` says when a level is left of the one right before it, and
**`areIndented_nestedLevels`** puts them together for lists in any order of kinds.  The levels as a
whole need not be in order: `not_pairwise_indent_unevenKinds`.
-/

namespace ReportPress.Typeset

open Word

variable {d : Definition} {format : NumberFormat} {k l : NumberLevel} {m n : Nat}

/-! ## Pairs among the levels before -/

/-- A level adds a pair where it and the level before it are in the format. -/
lemma sharedPairs_concat (format : NumberFormat) (l : NumberLevel) : ∀ d : Definition,
    sharedPairs format (d ++ [l]) = sharedPairs format d +
      if (d.getLast?.any fun k => k.format = format) ∧ l.format = format then 1 else 0
  | [] => rfl
  | [k] => by simp [sharedPairs]
  | j :: k :: d => by
      have ih := sharedPairs_concat format l (k :: d)
      rw [List.cons_append, List.cons_append, sharedPairs, ← List.cons_append, ih, sharedPairs,
        List.getLast?_cons_cons, Nat.add_assoc]

/-- Among some levels there are fewer pairs than levels. -/
lemma sharedPairs_le (format : NumberFormat) (d : Definition) :
    sharedPairs format d ≤ d.length - 1 := by
  fun_induction sharedPairs format d with
  | case1 k l d ih =>
      simp only [List.length_cons] at ih ⊢
      split_ifs <;> omega
  | case2 d h => exact Nat.zero_le _

lemma sharedPairs_take_le (format : NumberFormat) (d : Definition) (n : Nat) :
    sharedPairs format (d.take n) ≤ n - 1 := by
  have hpairs := sharedPairs_le format (d.take n)
  have hlength := List.length_take_le n d
  omega

lemma sharedPairs_take_succ_le (format : NumberFormat) (d : Definition) (n : Nat) :
    sharedPairs format (d.take (n + 1)) ≤ sharedPairs format (d.take n) + 1 := by
  rw [List.take_add_one]
  cases d[n]? with
  | none => rw [Option.toList_none, List.append_nil]; exact Nat.le_succ _
  | some k =>
      rw [Option.toList_some, sharedPairs_concat]
      split_ifs <;> omega

/-- A level in another format adds no pair. -/
lemma sharedPairs_take_succ (h : d[n]? = some k) (hk : k.format ≠ format) :
    sharedPairs format (d.take (n + 1)) = sharedPairs format (d.take n) := by
  rw [List.take_add_one, h, Option.toList_some, sharedPairs_concat, if_neg fun hl => hk hl.2,
    Nat.add_zero]

/-! ## Steps -/

/-- A level behind others is indented by a step at least. -/
lemma one_le_visualIndent (format : NumberFormat) (d : Definition) (hn : 0 < n) :
    1 ≤ visualIndent (d.take n) n format := by
  have hpairs := sharedPairs_take_le format d n
  rw [visualIndent]
  omega

/-- Of two places for a level in a format, the later one is no further to the left. -/
lemma visualIndent_le_visualIndent (format : NumberFormat) (d : Definition) (h : m ≤ n) :
    visualIndent (d.take m) m format ≤ visualIndent (d.take n) n format := by
  refine monotone_nat_of_le_succ (f := fun n => visualIndent (d.take n) n format) (fun n => ?_) h
  have hpairs := sharedPairs_take_succ_le format d n
  simp only [visualIndent]
  omega

/-- A level is left of the one before it if its own kind has had two more pairs. -/
lemma visualIndent_lt_visualIndent_iff (hk : d[n]? = some k) :
    visualIndent (d.take (n + 1)) (n + 1) format < visualIndent (d.take n) n k.format ↔
      k.format ≠ format ∧
        sharedPairs k.format (d.take n) + 2 ≤ sharedPairs format (d.take n) := by
  have hpairs := sharedPairs_take_le format d n
  have hkpairs := sharedPairs_take_le k.format d n
  simp only [visualIndent]
  by_cases hsame : k.format = format
  · have hone := sharedPairs_take_succ_le format d n
    rw [hsame]
    simp only [ne_eq, not_true_eq_false, false_and, iff_false]
    omega
  · rw [sharedPairs_take_succ hk hsame]
    simp only [ne_eq, hsame, not_false_eq_true, true_and]
    omega

/-! ## Lengths -/

lemma leftIndent_succ (alternate : Bool) (n : Nat) :
    leftIndent alternate (n + 1) = leftIndent alternate n + stepIndent := by
  unfold leftIndent
  push_cast
  split_ifs <;> ring

lemma leftIndent_strictMono (alternate : Bool) : StrictMono (leftIndent alternate) := by
  refine strictMono_nat_of_lt_succ fun n => ?_
  have hstep : 0 < stepIndent := by norm_num [stepIndent]
  rw [leftIndent_succ]
  linarith

/-! ## Lists inside each other -/

/-- A definition with a level for each of some lists, each of them inside the one before it. -/
def nestedLevels (alternate : Bool) (styles : List ListStyle) : Definition :=
  addLevels alternate [] (styles.mapIdx Prod.mk)

/-- The pairs of neighbours in a format among the levels before a level. -/
def pairsBefore (d : Definition) (l : NumberLevel) (format : NumberFormat) : Nat :=
  sharedPairs format (d.take l.level)

/-- How many steps to the right a level of a definition is. -/
def steps (d : Definition) (l : NumberLevel) : Nat :=
  visualIndent (d.take l.level) l.level l.format

/-- How far a level of a definition is indented, in millimetres. -/
def indent (alternate : Bool) (d : Definition) (l : NumberLevel) : Rat :=
  leftIndent alternate (steps d l)

/-- The levels of lists inside each other, and their indents.  Each level is in the format of its
list, and its indent is stored in twips.  Every nested level is a step to the right of the
first one at least, and no level is left of an earlier one of its kind.  A level is left of the one
right before it exactly if they are of different kinds and its own kind has had at least two more
pairs before both. -/
structure AreIndented (alternate : Bool) (styles : List ListStyle) (d : Definition) : Prop where
  levels : d.map NumberLevel.level = List.range styles.length
  formats : d.map NumberLevel.format = styles.map formatOf
  lengths : ∀ l ∈ d, l.indentLeft = Length.mmToTwip (indent alternate d l)
  nested : ∀ k ∈ d, ∀ l ∈ d, k.level = 0 → 0 < l.level →
    indent alternate d k + stepIndent ≤ indent alternate d l
  sameKind : ∀ k ∈ d, ∀ l ∈ d, k.level ≤ l.level → k.format = l.format →
    indent alternate d k ≤ indent alternate d l
  stepsBack : ∀ k ∈ d, ∀ l ∈ d, l.level = k.level + 1 →
    (indent alternate d l < indent alternate d k ↔
      k.format ≠ l.format ∧ pairsBefore d k k.format + 2 ≤ pairsBefore d k l.format)

variable (alternate : Bool) (styles : List ListStyle)

lemma levels_nestedLevels :
    (nestedLevels alternate styles).map NumberLevel.level = List.range styles.length := by
  induction styles using List.reverseRecOn with
  | nil => rfl
  | append_singleton styles style ih =>
      have hnext := levels_addLevel ih (Nat.le_refl styles.length) { style with alternate }
      rw [nestedLevels, List.mapIdx_concat, addLevels_append]
      rw [Nat.max_eq_right (Nat.le_succ _)] at hnext
      rw [List.length_append, List.length_singleton, ← hnext]
      rfl

/-- One more list adds its level behind the others. -/
lemma nestedLevels_concat (style : ListStyle) :
    nestedLevels alternate (styles ++ [style]) = nestedLevels alternate styles ++
      [levelOf (nestedLevels alternate styles) styles.length { style with alternate }] := by
  have hnext := addLevel_next (levels_nestedLevels alternate styles) { style with alternate }
  rw [nestedLevels, List.mapIdx_concat, addLevels_append, ← hnext]
  rfl

/-- The level of a depth is at that place. -/
lemma getElem?_level (hlevels : d.map NumberLevel.level = List.range n) (h : l ∈ d) :
    d[l.level]? = some l := by
  obtain ⟨i, hi⟩ := List.mem_iff_getElem?.mp h
  have hplace : (List.range n)[i]? = some l.level := by rw [← hlevels, List.getElem?_map, hi]; rfl
  obtain ⟨hin, hlevel⟩ := List.getElem?_eq_some_iff.mp hplace
  rw [List.getElem_range] at hlevel
  rwa [← hlevel]

/-- Levels that come later have no part in an indent. -/
lemma indent_append (h : l.level ≤ d.length) (later : Definition) :
    indent alternate (d ++ later) l = indent alternate d l := by
  rw [indent, steps, List.take_append_of_le_length h]
  rfl

lemma formats_nestedLevels :
    (nestedLevels alternate styles).map NumberLevel.format = styles.map formatOf := by
  induction styles using List.reverseRecOn with
  | nil => rfl
  | append_singleton styles style ih =>
      rw [nestedLevels_concat, List.map_append, List.map_append, ih]
      rfl

lemma lengths_nestedLevels : ∀ l ∈ nestedLevels alternate styles,
    l.indentLeft = Length.mmToTwip (indent alternate (nestedLevels alternate styles) l) := by
  induction styles using List.reverseRecOn with
  | nil => exact fun l hl => nomatch hl
  | append_singleton styles style ih =>
      have hlevels := levels_nestedLevels alternate styles
      have hlength : (nestedLevels alternate styles).length = styles.length := by
        simpa using congrArg List.length hlevels
      rw [nestedLevels_concat]
      intro l hl
      rcases List.mem_append.mp hl with hl | hl
      · have hbelow : l.level < styles.length :=
          List.mem_range.mp (hlevels ▸ List.mem_map_of_mem hl)
        rw [indent_append alternate (by omega), ih l hl]
      · have hnew : l.level = (nestedLevels alternate styles).length := by
          rw [List.mem_singleton.mp hl, hlength]
          rfl
        rw [indent_append alternate (Nat.le_of_eq hnew), indent, steps, hnew, List.take_length,
          List.mem_singleton.mp hl, ← hlength]
        rfl

/-- What is certain about the indents of lists inside each other, in any order of kinds and in
either style. -/
theorem areIndented_nestedLevels :
    AreIndented alternate styles (nestedLevels alternate styles) := by
  have hlevels := levels_nestedLevels alternate styles
  have hmono := leftIndent_strictMono alternate
  refine ⟨hlevels, formats_nestedLevels alternate styles, lengths_nestedLevels alternate styles,
    fun k _ l _ hk hl => ?_, fun k _ l _ hle hsame => ?_, fun k hk l _ hnext => ?_⟩
  · have hfirst : steps (nestedLevels alternate styles) k = 0 := by
      rw [steps, visualIndent, hk, Nat.zero_sub]
    have hstep := one_le_visualIndent l.format (nestedLevels alternate styles) hl
    rw [indent, indent, ← leftIndent_succ, hfirst]
    exact hmono.monotone hstep
  · rw [indent, indent, steps, steps, hsame]
    exact hmono.monotone (visualIndent_le_visualIndent _ _ hle)
  · rw [indent, indent, hmono.lt_iff_lt, steps, steps, hnext]
    exact visualIndent_lt_visualIndent_iff (getElem?_level hlevels hk)

/-- Three numbered lists inside each other, one with bullets in them, and a numbered one in that. -/
def unevenKinds : List ListStyle :=
  [{ ordered := true }, { ordered := true }, { ordered := true }, { ordered := false },
    { ordered := true }]

/-- The innermost list of these is further to the left than the list around it. -/
theorem not_pairwise_indent_unevenKinds :
    ¬ ((nestedLevels false unevenKinds).map
      (indent false (nestedLevels false unevenKinds))).Pairwise (· ≤ ·) := by
  decide +kernel

end ReportPress.Typeset
