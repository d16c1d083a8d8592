import Mathlib.Data.List.Nodup
import ReportPress.Proofs.Typeset.ListLevels

/-!
# Levels without gaps

The levels of a definition are put in their places as lists are met, and those that are there
already are left out.  Lists are met from the outside to the inside, so a new level is always the
next one.

* `ItemList.nesting` — how deep the lists in a list go.
* `IsDefinitionOf` — what a definition is for a list: the levels up to that depth, in order, each of
  them counted as the first list at its depth asks for.

**One list.**  `addLevel_next` — a level that follows the others at once is put behind them.
**`levels_addLevels`** is the induction over entries, with the levels so far.

**The definition.**  `isDefinitionOf_levelsOf`.
-/

namespace ReportPress

variable {T : Type}

/-! ## How deep lists go -/

mutual

/-- How many lists there are around each other in an entry. -/
def Entry.nesting : Entry T → Nat
  | .item _ => 0
  | .list _ entries => entriesNesting entries + 1

/-- The greatest number of lists around each other in entries. -/
def entriesNesting : List (Entry T) → Nat
  | [] => 0
  | e :: entries => max e.nesting (entriesNesting entries)

end

/-- The depth of the innermost list in a list, which has depth zero itself. -/
def ItemList.nesting (l : ItemList T) : Nat := entriesNesting l.entries

namespace Typeset

open Word

variable {d : Definition} {n : Nat}

/-! ## Adding levels -/

/-- A level that is greater than the others stands behind them. -/
lemma insert_of_forall_le {level : NumberLevel} : ∀ {d : Definition},
    (∀ k ∈ d, k.level ≤ level.level) → d.insert level = d ++ [level]
  | [], _ => rfl
  | k :: d, h => by
      have hk : ¬ level.level < k.level := Nat.not_lt.mpr (h k List.mem_cons_self)
      have hd := insert_of_forall_le fun j hj => h j (List.mem_cons_of_mem k hj)
      rw [Definition.insert, if_neg hk, hd]
      rfl

lemma hasLevel_iff (hlevels : d.map NumberLevel.level = List.range n) (k : Nat) :
    d.hasLevel k = true ↔ k < n := by
  rw [← List.mem_range, ← hlevels, List.mem_map, Definition.hasLevel, List.any_eq_true]
  simp

/-- The level that follows the others at once is put behind them. -/
lemma addLevel_next (hlevels : d.map NumberLevel.level = List.range n) (style : ListStyle) :
    addLevel n style d = d ++ [levelOf d n style] := by
  have hnew : ¬ d.hasLevel (levelOf d n style).level = true :=
    (hasLevel_iff hlevels n).not.mpr (Nat.lt_irrefl n)
  have hbelow : ∀ j ∈ d, j.level ≤ (levelOf d n style).level := by
    intro j hj
    have hmem : j.level ∈ List.range n := hlevels ▸ List.mem_map_of_mem hj
    exact Nat.le_of_lt (List.mem_range.mp hmem)
  rw [addLevel, Definition.add, if_neg hnew, insert_of_forall_le hbelow]

/-- A level among the others or right behind them leaves no gap. -/
lemma levels_addLevel (hlevels : d.map NumberLevel.level = List.range n) {k : Nat} (hk : k ≤ n)
    (style : ListStyle) :
    (addLevel k style d).map NumberLevel.level = List.range (max n (k + 1)) := by
  by_cases hthere : k < n
  · have hlevel : (levelOf d k style).level = k := rfl
    rw [addLevel, Definition.add, hlevel, if_pos ((hasLevel_iff hlevels k).mpr hthere), hlevels,
      Nat.max_eq_left hthere]
  · have hkn : k = n := by omega
    subst hkn
    rw [addLevel_next hlevels, List.map_append, hlevels, Nat.max_eq_right (Nat.le_succ k),
      List.range_succ]
    rfl

mutual

lemma levels_addLevels_entry (alternate : Bool) : ∀ (depth : Nat) (e : Entry T) {d : Definition}
    {n : Nat}, d.map NumberLevel.level = List.range n → depth < n →
      (addLevels alternate d (stylesOfEntry depth e)).map NumberLevel.level
        = List.range (max n (depth + 1 + e.nesting))
  | depth, .item _, d, n, hlevels, hn => by
      have hmax : max n (depth + 1) = n := Nat.max_eq_left hn
      rw [stylesOfEntry, addLevels_nil, hlevels, Entry.nesting, Nat.add_zero, hmax]
  | depth, .list style entries, d, n, hlevels, hn => by
      have hfirst := levels_addLevel hlevels (k := depth + 1) (by omega) { style with alternate }
      have hrest := levels_addLevels alternate (depth + 1) entries hfirst (by omega)
      have hmax : max (max n (depth + 1 + 1)) (depth + 1 + 1 + entriesNesting entries)
          = max n (depth + 1 + (entriesNesting entries + 1)) := by omega
      rw [stylesOfEntry, Entry.nesting, ← hmax, ← hrest]
      rfl

/-- The lists in entries add the levels down to the innermost of them. -/
lemma levels_addLevels (alternate : Bool) : ∀ (depth : Nat) (entries : List (Entry T))
    {d : Definition} {n : Nat}, d.map NumberLevel.level = List.range n → depth < n →
      (addLevels alternate d (stylesOfEntries depth entries)).map NumberLevel.level
        = List.range (max n (depth + 1 + entriesNesting entries))
  | depth, [], d, n, hlevels, hn => by
      have hmax : max n (depth + 1) = n := Nat.max_eq_left hn
      rw [stylesOfEntries, addLevels_nil, hlevels, entriesNesting, Nat.add_zero, hmax]
  | depth, e :: entries, d, n, hlevels, hn => by
      have hfirst := levels_addLevels_entry alternate depth e hlevels hn
      have hrest := levels_addLevels alternate depth entries hfirst (by omega)
      have hmax : max (max n (depth + 1 + e.nesting)) (depth + 1 + entriesNesting entries)
          = max n (depth + 1 + max e.nesting (entriesNesting entries)) := by omega
      rw [stylesOfEntries, addLevels_append, hrest, entriesNesting, hmax]

end

/-! ## The definition of a list -/

/-- A definition has the levels of a list down to the innermost lists in it, in order and each of
them once, and they are counted as the first lists at their depths ask for. -/
structure IsDefinitionOf (l : ItemList T) (d : Definition) : Prop where
  levels : d.map NumberLevel.level = List.range (l.nesting + 1)
  counting : ∀ level ∈ d, ∃ first, l.firstStyle? level.level = some first ∧
    level.format = formatOf first ∧ level.start = first.start

/-- Where levels have no gaps, each is the level of its depth. -/
lemma levelAt?_of_mem (hlevels : d.map NumberLevel.level = List.range n) {level : NumberLevel}
    (h : level ∈ d) : levelAt? d level.level = some level := by
  have hnodup : (d.map NumberLevel.level).Nodup := hlevels ▸ List.nodup_range
  have hfound : (levelAt? d level.level).isSome :=
    List.find?_isSome.mpr ⟨level, h, decide_eq_true rfl⟩
  obtain ⟨found, hfind⟩ := Option.isSome_iff_exists.mp hfound
  have hsame : found.level = level.level := of_decide_eq_true (List.find?_some hfind :)
  rw [hfind, List.inj_on_of_nodup_map hnodup (List.mem_of_find?_eq_some hfind) h hsame]

/-- A list gets a definition with its levels. -/
theorem isDefinitionOf_levelsOf (l : ItemList T) : IsDefinitionOf l (levelsOf l) := by
  have hfirst : (addLevel 0 { l.style with alternate := l.style.alternate } []).map
      NumberLevel.level = List.range 1 := rfl
  have hlevels : (levelsOf l).map NumberLevel.level = List.range (l.nesting + 1) := by
    have hrest := levels_addLevels l.style.alternate 0 l.entries hfirst Nat.one_pos
    have hmax : max 1 (0 + 1 + entriesNesting l.entries) = entriesNesting l.entries + 1 := by omega
    rw [ItemList.nesting, ← hmax, ← hrest]
    rfl
  refine ⟨hlevels, fun level hlevel => ?_⟩
  have hcounting := levelAt?_levelsOf l level.level
  rw [levelAt?_of_mem hlevels hlevel, Option.map_some] at hcounting
  obtain ⟨first, hstyle, hsame⟩ := Option.map_eq_some_iff.mp hcounting.symm
  obtain ⟨hformat, hstart⟩ := Prod.mk.inj hsame
  exact ⟨first, hstyle, hformat.symm, hstart.symm⟩

end Typeset

end ReportPress
