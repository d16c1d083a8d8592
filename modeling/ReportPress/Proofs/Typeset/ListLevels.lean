import Mathlib.Data.List.Basic
import ReportPress.Typeset.ListLevels

/-!
# The levels of a list

Lists nest, and all lists within one that is not part of another share its definition.  A level is
added to it when a list at a new depth is met, and stays as it is when more lists are met there.

* `ItemList.items` — the items of a list with all lists in it, in the order in which they stand.
* `ItemList.styles` — the styles of these lists, in that order.
* `ItemList.firstStyle?` — the style of the first list at a depth.
* `levelsOf` — the definition that a list gets.

**Which list counts.**  `levelAt?_levelsOf` — a level is counted as the first list at its depth
asks for; the lists that come later have no part in it.
-/

namespace ReportPress

variable {T : Type}

/-! ## Lists within a list -/

/-- An item, with the depth and the style of the list that it is in. -/
structure ListItem (T : Type) where
  depth : Nat
  style : ListStyle
  text : T

mutual

/-- The items of an entry of a list at a depth. -/
def itemsOfEntry (style : ListStyle) (depth : Nat) : Entry T → List (ListItem T)
  | .item text => [⟨depth, style, text⟩]
  | .list style entries => itemsOfEntries style (depth + 1) entries

/-- The items of entries. -/
def itemsOfEntries (style : ListStyle) (depth : Nat) : List (Entry T) → List (ListItem T)
  | [] => []
  | e :: entries => itemsOfEntry style depth e ++ itemsOfEntries style depth entries

end

mutual

/-- The lists that an entry of a list at a depth is or holds, with their depths. -/
def stylesOfEntry (depth : Nat) : Entry T → List (Nat × ListStyle)
  | .item _ => []
  | .list style entries => (depth + 1, style) :: stylesOfEntries (depth + 1) entries

/-- The lists that entries are or hold. -/
def stylesOfEntries (depth : Nat) : List (Entry T) → List (Nat × ListStyle)
  | [] => []
  | e :: entries => stylesOfEntry depth e ++ stylesOfEntries depth entries

end

namespace ItemList

/-- The items of a list, those of nested lists included. -/
def items (l : ItemList T) : List (ListItem T) := itemsOfEntries l.style 0 l.entries

/-- The styles of a list and of all lists in it, with their depths. -/
def styles (l : ItemList T) : List (Nat × ListStyle) := (0, l.style) :: stylesOfEntries 0 l.entries

/-- The style of the first list at a depth. -/
def firstStyle? (l : ItemList T) (depth : Nat) : Option ListStyle :=
  (l.styles.find? fun s => s.1 = depth).map Prod.snd

end ItemList

mutual

lemma mem_stylesOfEntry {i : ListItem T} : ∀ {style : ListStyle} {depth : Nat} {e : Entry T},
    i ∈ itemsOfEntry style depth e →
      (i.depth, i.style) = (depth, style) ∨ (i.depth, i.style) ∈ stylesOfEntry depth e
  | style, depth, .item text, h => by
      left
      rw [List.mem_singleton.mp h]
  | style, depth, .list inner entries, h => by
      right
      rw [stylesOfEntry, List.mem_cons]
      exact mem_stylesOfEntries h

lemma mem_stylesOfEntries {i : ListItem T} : ∀ {style : ListStyle} {depth : Nat}
    {entries : List (Entry T)}, i ∈ itemsOfEntries style depth entries →
      (i.depth, i.style) = (depth, style) ∨ (i.depth, i.style) ∈ stylesOfEntries depth entries
  | style, depth, [], h => by simp [itemsOfEntries] at h
  | style, depth, e :: entries, h => by
      rw [stylesOfEntries, List.mem_append]
      rcases List.mem_append.mp h with h | h
      · exact (mem_stylesOfEntry h).imp_right Or.inl
      · exact (mem_stylesOfEntries h).imp_right Or.inr

end

/-- There is a list at the depth of every item, namely its own. -/
lemma ItemList.exists_firstStyle? {l : ItemList T} {i : ListItem T} (h : i ∈ l.items) :
    ∃ style, l.firstStyle? i.depth = some style := by
  have hmem : (i.depth, i.style) ∈ l.styles := by
    rw [styles, List.mem_cons]
    exact mem_stylesOfEntries h
  have hfind : (l.styles.find? fun s => s.1 = i.depth).isSome := by
    rw [List.find?_isSome]
    exact ⟨_, hmem, by simp⟩
  obtain ⟨s, hs⟩ := Option.isSome_iff_exists.mp hfind
  exact ⟨s.2, by rw [firstStyle?, hs]; rfl⟩

namespace Typeset

open Word

/-! ## Adding levels -/

/-- The level of a depth in a definition. -/
def levelAt? (d : Definition) (depth : Nat) : Option NumberLevel := d.find? fun l => l.level = depth

variable {d : Definition} {level : NumberLevel} {depth : Nat}

lemma levelAt?_eq_none : levelAt? d depth = none ↔ d.hasLevel depth = false := by
  rw [levelAt?, List.find?_eq_none, Definition.hasLevel, List.any_eq_false]

/-- A level in its place among others is the level of its depth, and the others stay. -/
lemma levelAt?_insert : ∀ {d : Definition}, levelAt? d level.level = none → ∀ depth,
    levelAt? (d.insert level) depth = if level.level = depth then some level else levelAt? d depth
  | [], _, depth => by
      simp only [Definition.insert, levelAt?, List.find?_cons, List.find?_nil]
      split_ifs with h <;> simp [h]
  | k :: d, h, depth => by
      have hk : k.level ≠ level.level := by
        intro e
        simp [levelAt?, e] at h
      have hd : levelAt? d level.level = none := by simpa [levelAt?, hk] using h
      have ih := levelAt?_insert hd depth
      rw [Definition.insert]
      split_ifs with hlt hdepth hdepth
      · simp [levelAt?, hdepth]
      · simp [levelAt?, hdepth]
      · have hne : k.level ≠ depth := fun e => hk (e.trans hdepth.symm)
        rw [if_pos hdepth] at ih
        simpa [levelAt?, hne] using ih
      · rw [if_neg hdepth] at ih
        by_cases hkd : k.level = depth
        · simp [levelAt?, hkd]
        · simpa [levelAt?, hkd] using ih

/-- What the items of a level are counted with, and from where. -/
def counting (l : NumberLevel) : NumberFormat × UInt32 := (l.format, l.start)

/-- What a list asks its items to be counted with, and from where. -/
def countingOf (style : ListStyle) : NumberFormat × UInt32 := (formatOf style, style.start)

/-- A level that is added to others counts as its list asks for, unless it was there already. -/
lemma levelAt?_addLevel (n : Nat) (style : ListStyle) (d : Definition) (depth : Nat) :
    (levelAt? (addLevel n style d) depth).map counting
      = ((levelAt? d depth).map counting).or
          (if n = depth then some (countingOf style) else none) := by
  rw [addLevel, Definition.add]
  cases hn : d.hasLevel (levelOf d n style).level with
  | true =>
      have hsome : levelAt? d n ≠ none := fun e => by
        rw [levelAt?_eq_none] at e
        exact absurd (hn.symm.trans e) (by simp)
      rw [if_pos rfl]
      split_ifs with h
      · subst h
        obtain ⟨l, hl⟩ := Option.ne_none_iff_exists'.mp hsome
        simp [hl]
      · simp
  | false =>
      rw [if_neg (by simp), levelAt?_insert (levelAt?_eq_none.mpr hn)]
      change Option.map counting (if n = depth then _ else _) = _
      split_ifs with h
      · have hnone : levelAt? d n = none := levelAt?_eq_none.mpr hn
        rw [← h, hnone]
        rfl
      · simp

/-- A definition with the levels of some lists, if it does not have them yet.  Whether the style is
the alternate one is decided for all of them. -/
def addLevels (alternate : Bool) (d : Definition) (styles : List (Nat × ListStyle)) : Definition :=
  styles.foldl (fun d s => addLevel s.1 { s.2 with alternate } d) d

@[simp] lemma addLevels_nil (alternate : Bool) (d : Definition) :
    addLevels alternate d [] = d := rfl

lemma addLevels_append (alternate : Bool) (d : Definition)
    (before styles : List (Nat × ListStyle)) :
    addLevels alternate d (before ++ styles)
      = addLevels alternate (addLevels alternate d before) styles :=
  List.foldl_append

/-- Of several lists at a depth the first counts, if the level is not there yet. -/
lemma levelAt?_addLevels (alternate : Bool) (depth : Nat) : ∀ (styles : List (Nat × ListStyle))
    (d : Definition), (levelAt? (addLevels alternate d styles) depth).map counting
      = ((levelAt? d depth).map counting).or
          ((styles.find? fun s => s.1 = depth).map fun s => countingOf s.2)
  | [], d => by simp
  | s :: styles, d => by
      have ih := levelAt?_addLevels alternate depth styles (addLevel s.1 { s.2 with alternate } d)
      rw [addLevels, List.foldl_cons, ← addLevels, ih, levelAt?_addLevel, Option.or_assoc]
      congr 1
      by_cases h : s.1 = depth
      · simp [h, countingOf, formatOf]
      · simp [h]

/-- The definition of a list: a level for each depth at which there is a list. -/
def levelsOf {T : Type} (l : ItemList T) : Definition := addLevels l.style.alternate [] l.styles

/-- A level is counted as the first list at its depth asks for. -/
theorem levelAt?_levelsOf {T : Type} (l : ItemList T) (depth : Nat) :
    (levelAt? (levelsOf l) depth).map counting = (l.firstStyle? depth).map countingOf := by
  rw [levelsOf, levelAt?_addLevels, ItemList.firstStyle?, Option.map_map]
  rfl

end Typeset

end ReportPress
