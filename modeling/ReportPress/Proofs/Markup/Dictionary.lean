import Mathlib.Algebra.GroupWithZero.Nat
import ReportPress.Markup.ExternalDirective
import ReportPress.Proofs.Json.RoundTrip

/-!
# Dictionaries as they are read

The members of an object become a dictionary in two steps: a name that comes twice keeps its last
value, and the names are put in ascending order.

* `readBack` — both steps; `dictionary?_render` says that compact text is read so.
* `IsDictionary`, `readBack_of_isDictionary` — a dictionary in ascending order
  is read as it is.
* `textSize`, `textSize_readBack_le` — reading brings in no text.
* `eq_of_readBack_eq` — **members that have lost text are not read as the dictionary they come
  from.**
-/

namespace ReportPress.Markup

open Json (putAll stringMembers)

/-- The dictionary that members are read as. -/
def readBack (ms : List (String × String)) : List (String × String) :=
  sortedDictionary (putAll [] ms)

variable {V W : Type} {name value : String} {ms ms' : List (String × String)}

/-! ## Compact text -/

lemma map_put (f : V → W) (name : String) (value : V) : ∀ found : List (String × V),
    (Json.put name value found).map (fun m => (m.1, f m.2))
      = Json.put name (f value) (found.map fun m => (m.1, f m.2))
  | [] => rfl
  | (n, v) :: found => by
      rw [Json.put, List.map_cons, Json.put]
      split_ifs with h
      · rfl
      · rw [List.map_cons, map_put f name value found]

lemma map_putAll (f : V → W) : ∀ (ms found : List (String × V)),
    (putAll found ms).map (fun m => (m.1, f m.2))
      = putAll (found.map fun m => (m.1, f m.2)) (ms.map fun m => (m.1, f m.2))
  | [], _ => rfl
  | m :: ms, found => by
      have ih := map_putAll f ms (Json.put m.1 m.2 found)
      rw [map_put] at ih
      exact ih

/-- Compact text is read as its members. -/
theorem dictionary?_render {body : List Char}
    (h : '\x7b' :: body ++ ['\x7d'] = Json.render (.object (stringMembers ms))) :
    dictionary? body = some (readBack ms) := by
  have hvalues : (stringMembers ms).map (fun m => (m.1, valueText m.2)) = ms := by
    rw [stringMembers, List.map_map]
    exact List.map_id ms
  rw [dictionary?, h, Json.object?_render, Option.map_some, map_putAll, hvalues]
  rfl

/-! ## Dictionaries in ascending order -/

/-- The members of a dictionary stand in ascending order of their names, each name once. -/
def IsDictionary (ms : List (String × String)) : Prop := ms.Pairwise fun m m' => m.1 < m'.1

instance : DecidablePred IsDictionary := fun ms =>
  inferInstanceAs (Decidable (ms.Pairwise fun m m' => m.1 < m'.1))

lemma put_of_forall_lt : ∀ {found : List (String × String)}, (∀ m ∈ found, m.1 < name) →
    Json.put name value found = found ++ [(name, value)]
  | [], _ => rfl
  | m :: found, h => by
      have hne : m.1 ≠ name := by
        rintro rfl
        exact String.lt_irrefl m.1 (h m List.mem_cons_self)
      rw [Json.put, if_neg hne, put_of_forall_lt fun m hm => h m (List.mem_cons_of_mem _ hm)]
      rfl

lemma insertSorted_of_forall_lt : ∀ {found : List (String × String)}, (∀ m ∈ found, m.1 < name) →
    insertSorted name value found = found ++ [(name, value)]
  | [], _ => rfl
  | m :: found, h => by
      have hm : m.1 < name := h m List.mem_cons_self
      have hne : name ≠ m.1 := by
        rintro rfl
        exact String.lt_irrefl m.1 hm
      rw [insertSorted, if_neg (String.lt_asymm hm), if_neg hne,
        insertSorted_of_forall_lt fun m hm => h m (List.mem_cons_of_mem _ hm)]
      rfl

/-- Members that each come behind all before them are put at the end. -/
lemma foldl_eq_append {step : List (String × String) → String × String → List (String × String)}
    (hstep : ∀ found m, (∀ m' ∈ found, m'.1 < m.1) → step found m = found ++ [m]) :
    ∀ ms found : List (String × String), IsDictionary (found ++ ms) →
      ms.foldl step found = found ++ ms
  | [], found, _ => (List.append_nil found).symm
  | m :: ms, found, h => by
      have hm : ∀ m' ∈ found, m'.1 < m.1 := fun m' hm' =>
        (List.pairwise_append.mp h).2.2 m' hm' m List.mem_cons_self
      rw [List.append_cons] at h
      rw [List.foldl_cons, hstep found m hm, foldl_eq_append hstep ms _ h, List.append_assoc]
      rfl

/-- A dictionary in ascending order is read as it is. -/
theorem readBack_of_isDictionary (h : IsDictionary ms) : readBack ms = ms := by
  have hput : putAll [] ms = ms := foldl_eq_append (fun _ _ => put_of_forall_lt) ms [] h
  rw [readBack, hput, sortedDictionary]
  exact foldl_eq_append (fun _ _ => insertSorted_of_forall_lt) ms [] h

/-! ## Sizes -/

/-- The characters of a member. -/
def memberSize (m : String × String) : Nat := m.1.toList.length + m.2.toList.length

/-- The characters of all names and values. -/
def textSize (ms : List (String × String)) : Nat := (ms.map memberSize).sum

@[simp] lemma textSize_nil : textSize [] = 0 := rfl

@[simp] lemma textSize_cons (m : String × String) (ms : List (String × String)) :
    textSize (m :: ms) = memberSize m + textSize ms := by simp [textSize]

lemma textSize_put_le (name value : String) : ∀ found : List (String × String),
    textSize (Json.put name value found) ≤ textSize found + memberSize (name, value)
  | [] => by simp [Json.put]
  | (n, v) :: found => by
      have ih := textSize_put_le name value found
      rw [Json.put]
      split_ifs with h
      · simp only [textSize_cons, memberSize]
        omega
      · simp only [textSize_cons]
        omega

lemma textSize_insertSorted_le (name value : String) : ∀ found : List (String × String),
    textSize (insertSorted name value found) ≤ textSize found + memberSize (name, value)
  | [] => by simp [insertSorted]
  | (n, v) :: found => by
      have ih := textSize_insertSorted_le name value found
      rw [insertSorted]
      split_ifs with hlt heq
      · simp only [textSize_cons]
        omega
      · simp only [textSize_cons, memberSize]
        omega
      · simp only [textSize_cons]
        omega

lemma textSize_foldl_le
    {step : List (String × String) → String × String → List (String × String)}
    (hstep : ∀ found m, textSize (step found m) ≤ textSize found + memberSize m) :
    ∀ ms found : List (String × String),
      textSize (ms.foldl step found) ≤ textSize found + textSize ms
  | [], found => by simp
  | m :: ms, found => by
      have ih := textSize_foldl_le hstep ms (step found m)
      have hm := hstep found m
      rw [List.foldl_cons, textSize_cons]
      omega

/-- Reading brings in no text. -/
lemma textSize_readBack_le (ms : List (String × String)) :
    textSize (readBack ms) ≤ textSize ms := by
  have hput : textSize (putAll [] ms) ≤ textSize [] + textSize ms :=
    textSize_foldl_le (fun found m => textSize_put_le m.1 m.2 found) ms []
  have hsort : textSize (readBack ms) ≤ textSize [] + textSize (putAll [] ms) :=
    textSize_foldl_le (fun found m => textSize_insertSorted_le m.1 m.2 found) (putAll [] ms) []
  simp only [textSize_nil] at hput hsort
  omega

/-! ## Lost text -/

/-- A member from whose name and value characters may have been taken. -/
def IsShortened (m' m : String × String) : Prop :=
  m'.1.toList.Sublist m.1.toList ∧ m'.2.toList.Sublist m.2.toList

lemma IsShortened.memberSize_le {m' m : String × String} (h : IsShortened m' m) :
    memberSize m' ≤ memberSize m := Nat.add_le_add h.1.length_le h.2.length_le

/-- A member that is as long as before has lost nothing. -/
lemma IsShortened.eq_of_size {m' m : String × String} (h : IsShortened m' m)
    (hsize : memberSize m ≤ memberSize m') : m' = m := by
  have hname : m'.1.toList.length ≤ m.1.toList.length := h.1.length_le
  have hvalue : m'.2.toList.length ≤ m.2.toList.length := h.2.length_le
  simp only [memberSize] at hsize
  refine Prod.ext ?_ ?_
  · exact String.toList_inj.mp (h.1.eq_of_length_le (by omega))
  · exact String.toList_inj.mp (h.2.eq_of_length_le (by omega))

lemma textSize_le_of_forall₂ (h : List.Forall₂ IsShortened ms' ms) :
    textSize ms' ≤ textSize ms := by
  induction h with
  | nil => exact Nat.le_refl _
  | cons hm _ ih =>
      have hsize := hm.memberSize_le
      simp only [textSize_cons]
      omega

lemma eq_of_forall₂_of_textSize_le (h : List.Forall₂ IsShortened ms' ms)
    (hsize : textSize ms ≤ textSize ms') : ms' = ms := by
  induction h with
  | nil => rfl
  | cons hm hms ih =>
      have hmember := hm.memberSize_le
      have hrest := textSize_le_of_forall₂ hms
      simp only [textSize_cons] at hsize
      rw [hm.eq_of_size (by omega), ih (by omega)]

/-- Members that have lost text are not read as the dictionary they come from. -/
theorem eq_of_readBack_eq (h : List.Forall₂ IsShortened ms' ms) (hread : readBack ms' = ms) :
    ms' = ms := by
  refine eq_of_forall₂_of_textSize_le h ?_
  rw [← hread]
  exact textSize_readBack_le ms'

end ReportPress.Markup
