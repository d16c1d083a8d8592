import ReportPress.Markup.OpenLists
import Mathlib.Tactic.Common

/-!
# What open lists stand for

The lists that are open while a source is read are a stack: the innermost one first.  A line at
some depth first closes every list that is deeper, so two stacks that differ only in what is still
open further in go on alike.

* `Closes` — one stack becomes another by closing lists from the inside.
* `opensList?` — the list that an item begins, where it begins one.
* `Settled` — a stack stands for a list at a depth, with the lists around it; whether the newest
  entry of that list is a list that is still open is part of the statement.

**One line.**  `Settled.place?_item` and `Settled.place?_opens` say what an item does to the list
at its own depth and to the list one step further out.

**The end.**  `Settled.close` — what is still open deeper down changes nothing about the list that
is closed in the end.
-/

namespace ReportPress.Markup

open OpenLists

variable {line bare : Line} {opened shut : OpenLists} {l sub : OpenList} {outer : List OpenList}

/-- The list that a line with a marker begins. -/
def opensList? (marker : Marker) (text : String) : Option OpenList :=
  match marker with
  | .bullet => some (.ofItem false 1 text)
  | .ordered index => some (.ofItem true index text)
  | _ => none

/-- Closing lists from the inside makes the second stack of the first. -/
inductive Closes : OpenLists → OpenLists → Prop
  | refl (opened : OpenLists) : Closes opened opened
  | close {opened : OpenLists} {l around : OpenList} {outer : List OpenList} :
      Closes opened ⟨l, around :: outer⟩ → Closes opened ⟨around.push l.toList.toEntry, outer⟩

/-- With the deeper lists closed, `l` is the innermost list and `outer` the lists around it.  The
kind is that of the list which is the newest entry of `l`, if that list is open still. -/
inductive Settled (opened : OpenLists) : Option Bool → OpenList → List OpenList → Prop
  | here {l : OpenList} {outer : List OpenList} :
      opened = ⟨l, outer⟩ → Settled opened none l outer
  | inside {sub around : OpenList} {outer : List OpenList} :
      Closes opened ⟨sub, around :: outer⟩ →
        Settled opened (some sub.ordered) (around.push sub.toList.toEntry) outer

/-! ## Lines further out close lists further in -/

/-- A list refuses a line that is less indented. -/
lemma offer?_of_depth_lt {depth : Nat} (h : line.depth < depth) :
    offer? l depth line bare = none := by
  have h1 : line.depth ≠ depth := by omega
  have h2 : line.depth ≠ depth + 1 := by omega
  have h3 : ¬ depth < line.depth := by omega
  rw [offer?, if_neg h1, if_neg h2, if_neg h3]

/-- A line at the depth of some list does the same to all stacks that only differ in the lists
within it. -/
lemma Closes.place?_eq (h : Closes opened shut) (hd : line.depth ≤ shut.outer.length) :
    place? line bare opened = place? line bare shut := by
  induction h with
  | refl => rfl
  | @close l around outer h ih =>
      have hd' : line.depth ≤ outer.length := hd
      rw [ih (Nat.le_succ_of_le hd'), place?, place?, placeFrom?,
        offer?_of_depth_lt (Nat.lt_succ_of_le hd')]

lemma Closes.close_eq (h : Closes opened shut) : opened.close = shut.close := by
  induction h with
  | refl => rfl
  | close h ih => rw [ih]; rfl

lemma Settled.closes {after : Option Bool} (h : Settled opened after l outer) :
    Closes opened ⟨l, outer⟩ := by
  cases h with
  | here h => rw [h]; exact Closes.refl _
  | inside h => exact h.close

/-- Lists deeper down that are open still make the list settled as soon as they are closed. -/
lemma Settled.inside_of_closes {after : Option Bool} {around : OpenList}
    (h : Settled opened after sub (around :: outer)) :
    Settled opened (some sub.ordered) (around.push sub.toList.toEntry) outer :=
  Settled.inside h.closes

/-! ## One line -/

lemma offer?_item {depth : Nat} (hd : line.depth = depth)
    (hsub : opensList? bare.marker bare.text = some sub) (hkind : sub.ordered = l.ordered) :
    offer? l depth line bare = some (l.push (.item bare.text), none) := by
  rw [offer?, if_pos hd]
  cases hm : bare.marker with
  | bullet =>
      rw [hm, opensList?, Option.some.injEq] at hsub
      simp [Marker.continuesList, ← hkind, ← hsub, OpenList.ofItem]
  | ordered index =>
      rw [hm, opensList?, Option.some.injEq] at hsub
      simp [Marker.continuesList, ← hkind, ← hsub, OpenList.ofItem]
  | _ => simp [hm, opensList?] at hsub

lemma offer?_other_kind {depth : Nat} (hd : line.depth = depth)
    (hsub : opensList? bare.marker bare.text = some sub) (hkind : sub.ordered ≠ l.ordered) :
    offer? l depth line bare = none := by
  rw [offer?, if_pos hd]
  cases hm : bare.marker with
  | bullet =>
      rw [hm, opensList?, Option.some.injEq] at hsub
      have hl : l.ordered = true := by simpa [← hsub, OpenList.ofItem] using hkind
      simp [Marker.continuesList, hl]
  | ordered index =>
      rw [hm, opensList?, Option.some.injEq] at hsub
      have hl : l.ordered = false := by simpa [← hsub, OpenList.ofItem] using hkind
      simp [Marker.continuesList, hl]
  | _ => simp [hm, opensList?] at hsub

lemma offer?_opens {depth : Nat} (hd : line.depth = depth + 1)
    (hsub : opensList? bare.marker bare.text = some sub) :
    offer? l depth line bare = some (l, some sub) := by
  rw [offer?, if_neg (by omega), if_pos hd]
  cases hm : bare.marker with
  | bullet => simpa [hm, opensList?] using hsub
  | ordered index => simpa [hm, opensList?] using hsub
  | _ => simp [hm, opensList?] at hsub

/-- What a stack makes of a line is decided by its innermost list, if that takes the line. -/
lemma placeFrom?_of_offer? {l' : OpenList} {opens : Option OpenList}
    (h : offer? l outer.length line bare = some (l', opens)) :
    placeFrom? line bare l outer = some
      (match opens with
        | none => ⟨l', outer⟩
        | some sub => ⟨sub, l' :: outer⟩) := by
  cases outer with
  | nil =>
      rw [List.length_nil] at h
      rw [placeFrom?, h]
      cases opens <;> rfl
  | cons around outer =>
      rw [List.length_cons] at h
      rw [placeFrom?, h]
      cases opens <;> rfl

/-- An item at the depth of a list of its kind is the next entry of the list. -/
theorem Settled.place?_item {after : Option Bool} (h : Settled opened after l outer)
    (hd : line.depth = outer.length) (hsub : opensList? bare.marker bare.text = some sub)
    (hkind : sub.ordered = l.ordered) :
    place? line bare opened = some ⟨l.push (.item bare.text), outer⟩ := by
  rw [h.closes.place?_eq (Nat.le_of_eq hd), place?,
    placeFrom?_of_offer? (offer?_item hd hsub hkind)]

/-- An item one step further in begins a list there, unless the list that is open there goes on
with it. -/
theorem Settled.place?_opens {after : Option Bool} (h : Settled opened after l outer)
    (hd : line.depth = outer.length + 1) (hsub : opensList? bare.marker bare.text = some sub)
    (hafter : after ≠ some sub.ordered) :
    place? line bare opened = some ⟨sub, l :: outer⟩ := by
  have hopens {l : OpenList} : placeFrom? line bare l outer = some ⟨sub, l :: outer⟩ :=
    placeFrom?_of_offer? (offer?_opens hd hsub)
  cases h with
  | here h => rw [h, place?, hopens]
  | @inside last around outer h =>
      have hkind : sub.ordered ≠ last.ordered := fun e => hafter (by rw [e])
      have hle : line.depth ≤ (around :: outer).length := Nat.le_of_eq hd
      rw [h.place?_eq hle, place?, placeFrom?, offer?_other_kind hd hsub hkind]
      exact hopens

/-! ## The end -/

/-- The list that all others are in, once everything is closed. -/
theorem Settled.close {after : Option Bool} (h : Settled opened after l []) :
    opened.close = l.toList := by
  rw [h.closes.close_eq]
  rfl

end ReportPress.Markup
