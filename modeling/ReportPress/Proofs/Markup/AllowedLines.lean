import Mathlib.Data.List.Forall2
import Mathlib.Data.Option.Basic
import ReportPress.Proofs.Markup.OpenLists
import ReportPress.Proofs.Markup.Step

/-!
# Which lines can be read

Only a heading that is too deep cannot be read, and where it is indented, only inside a list.  So
whether a line can be read is told by the place of the reader, and a reader outside of lists can
read whatever one in a list can.

* `OpenList.Alike`, `OpenLists.Alike` — open lists that take the same lines: of the same kinds, and
  ending in an item in the same cases.
* `Reader.AllowsMore` — readers with the same settings, the second of which can read what the first
  can.

**One line.**  `OpenLists.Alike.place?` for open lists and `AllowsMore.step` for readers;
`AllowsMore.reads` for the run.
-/

namespace ReportPress.Markup

open Text OpenLists

variable {r s next last : Reader} {raw text : String} {line bare : Line} {lines : List String}
variable {l l' sub : OpenList} {opened opened' taken : OpenLists} {outer outer' : List OpenList}

/-! ## Lists that take the same lines -/

namespace OpenList

/-- Whether the last entry is an item, which a line of text can be added to. -/
def endsInItem (l : OpenList) : Bool :=
  match l.newest with
  | .item _ :: _ => true
  | _ => false

/-- Lists of the same kind, both or none of which end in an item. -/
structure Alike (l l' : OpenList) : Prop where
  ordered_eq : l.ordered = l'.ordered
  endsInItem_eq : l.endsInItem = l'.endsInItem

lemma Alike.refl (l : OpenList) : Alike l l := ⟨rfl, rfl⟩

lemma Alike.push_item (h : Alike l l') (text text' : String) :
    Alike (l.push (.item text)) (l'.push (.item text')) := ⟨h.ordered_eq, rfl⟩

/-- A closed list is no item, whichever list it is. -/
lemma Alike.push_toEntry (h : Alike l l') (sub sub' : OpenList) :
    Alike (l.push sub.toList.toEntry) (l'.push sub'.toList.toEntry) := ⟨h.ordered_eq, rfl⟩

lemma Alike.extend? (h : Alike l l') (text : String) :
    Option.Rel Alike (l.extend? text) (l'.extend? text) := by
  obtain ⟨hkind, hends⟩ := h
  obtain ⟨ordered, start, newest⟩ := l
  obtain ⟨ordered', start', newest'⟩ := l'
  match newest, newest' with
  | .item last :: rest, .item last' :: rest' => exact .some ⟨hkind, rfl⟩
  | [], [] => exact .none
  | [], .list style entries :: rest => exact .none
  | .list style entries :: rest, [] => exact .none
  | .list style entries :: rest, .list style' entries' :: rest' => exact .none
  | .item last :: rest, [] => exact absurd hends (by simp [endsInItem])
  | .item last :: rest, .list style entries :: rest' => exact absurd hends (by simp [endsInItem])
  | [], .item last :: rest => exact absurd hends (by simp [endsInItem])
  | .list style entries :: rest, .item last :: rest' => exact absurd hends (by simp [endsInItem])

end OpenList

namespace OpenLists

/-- As many open lists, each like the one at its depth. -/
structure Alike (opened opened' : OpenLists) : Prop where
  inner : opened.inner.Alike opened'.inner
  outer : List.Forall₂ OpenList.Alike opened.outer opened'.outer

lemma Alike.refl (opened : OpenLists) : Alike opened opened :=
  ⟨.refl _, List.forall₂_same.mpr fun l _ => .refl l⟩
/-- What two lists make of a line: nothing, or lists that are alike and the same list inside. -/
def TakesAlike : Option (OpenList × Option OpenList) → Option (OpenList × Option OpenList) → Prop :=
  Option.Rel fun taken taken' => taken.1.Alike taken'.1 ∧ taken.2 = taken'.2

lemma takesAlike_extend? (h : l.Alike l') (text : String) :
    TakesAlike ((l.extend? text).map fun l => (l, none))
      ((l'.extend? text).map fun l => (l, none)) := by
  have hextend := h.extend? text
  revert hextend
  cases l.extend? text <;> cases l'.extend? text <;> intro hextend <;> cases hextend
  · exact .none
  · exact .some ⟨‹_›, rfl⟩

lemma takesAlike_offer? (h : l.Alike l') (depth : Nat) (line bare : Line) :
    TakesAlike (offer? l depth line bare) (offer? l' depth line bare) := by
  rw [offer?, offer?]
  by_cases hsame : line.depth = depth
  · rw [if_pos hsame, if_pos hsame, h.ordered_eq]
    split
    · exact takesAlike_extend? h bare.text
    · split_ifs
      · exact .some ⟨h.push_item _ _, rfl⟩
      · exact .none
  rw [if_neg hsame, if_neg hsame]
  by_cases hnext : line.depth = depth + 1
  · rw [if_pos hnext, if_pos hnext]
    split
    · exact takesAlike_extend? h bare.text
    · exact .some ⟨h, rfl⟩
    · exact .some ⟨h, rfl⟩
    · exact .none
  rw [if_neg hnext, if_neg hnext]
  split_ifs
  · exact takesAlike_extend? h line.text
  · exact .none

lemma alike_placeFrom? (line bare : Line) (houter : List.Forall₂ OpenList.Alike outer outer') :
    ∀ {l l' : OpenList}, l.Alike l' →
      Option.Rel Alike (placeFrom? line bare l outer) (placeFrom? line bare l' outer') := by
  induction houter with
  | nil =>
      intro l l' h
      have hoffer := takesAlike_offer? h 0 line bare
      rw [placeFrom?, placeFrom?]
      revert hoffer
      cases offer? l 0 line bare <;> cases offer? l' 0 line bare <;> intro hoffer <;> cases hoffer
      · exact .none
      case some.some taken taken' hoffer =>
        obtain ⟨m, opens⟩ := taken
        obtain ⟨m', opens'⟩ := taken'
        obtain ⟨hm, rfl⟩ := hoffer
        cases opens with
        | none => exact .some ⟨hm, .nil⟩
        | some sub => exact .some ⟨.refl sub, .cons hm .nil⟩
  | @cons around around' outer outer' haround houter ih =>
      intro l l' h
      have hoffer := takesAlike_offer? h (outer.length + 1) line bare
      rw [placeFrom?, placeFrom?, ← houter.length_eq]
      revert hoffer
      cases offer? l (outer.length + 1) line bare <;>
        cases offer? l' (outer.length + 1) line bare <;> intro hoffer <;> cases hoffer
      · exact ih (haround.push_toEntry l l')
      case some.some taken taken' hoffer =>
        obtain ⟨m, opens⟩ := taken
        obtain ⟨m', opens'⟩ := taken'
        obtain ⟨hm, rfl⟩ := hoffer
        cases opens with
        | none => exact .some ⟨hm, .cons haround houter⟩
        | some sub => exact .some ⟨.refl sub, .cons hm (.cons haround houter)⟩

/-- Open lists that are alike make the same of a line. -/
theorem Alike.place? (h : Alike opened opened') (line bare : Line) :
    Option.Rel Alike (opened.place? line bare) (opened'.place? line bare) :=
  alike_placeFrom? line bare h.outer h.inner

/-- An item at the margin closes all lists but the outermost, which then ends in the item. -/
lemma alike_of_placeFrom? (hdepth : line.depth = 0)
    (hsub : opensList? bare.marker bare.text = some sub) :
    ∀ {outer : List OpenList} {l : OpenList}, placeFrom? line bare l outer = some taken →
      Alike taken (.single sub)
  | [], l, h => by
      by_cases hkind : sub.ordered = l.ordered
      · rw [placeFrom?, offer?_item hdepth hsub hkind] at h
        obtain rfl := Option.some.inj h
        refine ⟨⟨hkind.symm, ?_⟩, .nil⟩
        cases hmarker : bare.marker with
        | bullet =>
            rw [hmarker, opensList?, Option.some.injEq] at hsub
            rw [← hsub]
            rfl
        | ordered index =>
            rw [hmarker, opensList?, Option.some.injEq] at hsub
            rw [← hsub]
            rfl
        | _ => simp [hmarker, opensList?] at hsub
      · rw [placeFrom?, offer?_other_kind hdepth hsub hkind] at h
        simp at h
  | around :: outer, l, h => by
      rw [placeFrom?, offer?_of_depth_lt (by omega)] at h
      exact alike_of_placeFrom? hdepth hsub h

end OpenLists

/-! ## Readers -/

/-- Places where the second allows every line that the first allows. -/
inductive Place.AllowsMore : Place → Place → Prop
  | paragraphs {place : Place} : place.isCode = false → AllowsMore place .paragraphs
  | lists {lists lists' : OpenLists} {blank : Bool} : lists.Alike lists' →
      AllowsMore (.lists lists blank) (.lists lists' blank)
  | code {code code' : OpenCode} : AllowsMore (.code code) (.code code')

lemma Place.AllowsMore.refl (place : Place) : AllowsMore place place := by
  cases place with
  | paragraphs => exact .paragraphs rfl
  | lists opened blank => exact .lists (.refl opened)
  | code code => exact .code

/-- An item leads to the list that it begins. -/
lemma place_of_opensList? (h : opensList? line.marker line.text = some sub) :
    line.place = .lists (.single sub) false := by
  rw [Line.place]
  cases hmarker : line.marker with
  | bullet =>
      rw [hmarker, opensList?, Option.some.injEq] at h
      rw [← h]
  | ordered index =>
      rw [hmarker, opensList?, Option.some.injEq] at h
      rw [← h]
  | _ => simp [hmarker, opensList?] at h

namespace Reader

/-- Readers with the same settings, the second of which can read what the first can. -/
structure AllowsMore (r s : Reader) : Prop where
  settings_eq : r.settings = s.settings
  place : r.place.AllowsMore s.place

lemma settings_applyRule (h : r.settings = s.settings) (text : String) :
    (r.applyRule text).settings = (s.applyRule text).settings := by
  rw [applyRule, applyRule]
  dsimp only
  split_ifs
  · rw [h]
  · rw [h]
  · split
    · rw [h]
    · rw [h]
    · exact h

/-- Rules alone change the settings. -/
lemma settings_take_of_ne (hline : line.marker ≠ .rule) :
    (r.take raw line).settings = r.settings := by
  rw [take]
  cases hmarker : line.marker with
  | rule => exact absurd hmarker hline
  | plain => simp only [pushText_eq]
  | indent => simp only [pushText_eq]
  | _ => rfl

/-- Outside of lists and blocks of code a line leads to the same place from everywhere. -/
lemma allowsMore_take (h : r.settings = s.settings) (raw : String) (line : Line) :
    AllowsMore (r.take raw line) (s.take raw line) := by
  refine ⟨?_, ?_⟩
  · by_cases hmarker : line.marker = .rule
    · simp only [take, hmarker]
      exact settings_applyRule (r := { r with place := .paragraphs })
        (s := { s with place := .paragraphs }) h line.text
    · rw [settings_take_of_ne hmarker, settings_take_of_ne hmarker, h]
  · rw [place_take, place_take]
    exact .refl line.place

/-- A line that leads to no list, code or setting. -/
lemma allowsMore_of_paragraphs {place : Place} (hsettings : r.settings = s.settings)
    (hplace : place.isCode = false) (hline : line.place = .paragraphs)
    (hrule : line.marker ≠ .rule) : AllowsMore { r with place } (s.take raw line) := by
  refine ⟨?_, ?_⟩
  · rw [settings_take_of_ne hrule]
    exact hsettings
  · rw [place_take, hline]
    exact .paragraphs hplace

/-- Text leads to a paragraph, indented or not. -/
lemma allowsMore_of_text {place : Place} (hsettings : r.settings = s.settings)
    (hplace : place.isCode = false) (hbare : line.bare = .ok bare) (hplain : bare.marker = .plain) :
    AllowsMore { r with place } (s.take raw line) := by
  have hmarker : line.marker = .indent ∨ line.marker = .plain := by
    rcases bare_cases hbare with ⟨hindent, -⟩ | rfl
    · exact Or.inl hindent
    · exact Or.inr hplain
  refine allowsMore_of_paragraphs hsettings hplace ?_ ?_
  · rcases hmarker with h | h <;> rw [Line.place, h]
  · rcases hmarker with h | h <;> simp [h]

/-- An item that a list goes on with. -/
lemma allowsMore_of_item (hsettings : r.settings = s.settings) (hline : classify raw = .ok line)
    (hbare : line.bare = .ok bare) (hsub : opensList? bare.marker bare.text = some sub)
    (htaken : opened.place? line bare = some taken) :
    AllowsMore { r with place := .lists taken false } (s.take raw line) := by
  rcases bare_cases hbare with ⟨hindent, -⟩ | rfl
  · exact allowsMore_of_paragraphs hsettings rfl (by rw [Line.place, hindent]) (by simp [hindent])
  · have hmarker : bare.marker ≠ .rule ∧ bare.marker ≠ .indent := by
      constructor <;> rintro e <;> simp [e, opensList?] at hsub
    refine ⟨?_, ?_⟩
    · rw [settings_take_of_ne hmarker.1]
      exact hsettings
    · rw [place_take, place_of_opensList? hsub]
      exact .lists (alike_of_placeFrom? (depth_of_classify hline hmarker.2) hsub htaken)

/-- A list goes on with a line that a reader outside of lists can read as well. -/
lemma allowsMore_goesOn {blank : Bool} (hsettings : r.settings = s.settings)
    (hline : classify raw = .ok line) (hbare : line.bare = .ok bare)
    (hmay : bare.mayGoOn blank = true) (htaken : opened.place? line bare = some taken) :
    AllowsMore { r with place := .lists taken false } (s.take raw line) := by
  rw [Line.mayGoOn, Bool.or_eq_true, Bool.and_eq_true, decide_eq_true_eq] at hmay
  rcases hmay with hitem | ⟨hplain, -⟩
  · cases hmarker : bare.marker with
    | bullet => exact allowsMore_of_item hsettings hline hbare (by rw [hmarker, opensList?]) htaken
    | ordered index =>
        exact allowsMore_of_item hsettings hline hbare (by rw [hmarker, opensList?]) htaken
    | _ => simp [hmarker, Marker.isListMarker] at hitem
  · exact allowsMore_of_text hsettings rfl hbare hplain

/-- What one line keeps: the second reader can read it if the first can. -/
theorem AllowsMore.step (h : AllowsMore r s) (hstep : r.step raw = .ok next) :
    ∃ next', s.step raw = .ok next' ∧ AllowsMore next next' := by
  obtain ⟨hsettings, hplaces⟩ := h
  simp only [step_eq_ok_iff] at hstep ⊢
  generalize hr : r.place = place at hplaces
  generalize hs : s.place = place' at hplaces
  cases hplaces with
  | paragraphs hcode =>
      cases hstep with
      | codeLine hplace hfence => simp [← hr, hplace, Place.isCode] at hcode
      | codeEnd hplace hfence => simp [← hr, hplace, Place.isCode] at hcode
      | paragraph hplace hline => exact ⟨_, .paragraph hs hline, allowsMore_take hsettings raw _⟩
      | blank hplace hline hbare hblank =>
          have hplain := plain_of_isBlank hblank
          exact ⟨_, .paragraph hs hline, allowsMore_of_text hsettings rfl hbare hplain⟩
      | goesOn hplace hline hbare hblank hmay htaken =>
          exact ⟨_, .paragraph hs hline, allowsMore_goesOn hsettings hline hbare hmay htaken⟩
      | @refused opened blank line bare hplace hline hbare hblank hmay htaken =>
          have hclosed : (r.closeLists opened).settings = s.settings := hsettings
          exact ⟨_, .paragraph hs hline, allowsMore_take hclosed raw _⟩
      | @ends opened blank line bare hplace hline hbare hblank hmay =>
          refine ⟨_, .paragraph hs hline, allowsMore_take ?_ raw _⟩
          cases blank <;> exact hsettings
  | @lists opened opened' blank halike =>
      cases hstep with
      | codeLine hplace hfence => simp [hr] at hplace
      | codeEnd hplace hfence => simp [hr] at hplace
      | paragraph hplace hline => simp [hr] at hplace
      | blank hplace hline hbare hblank =>
          obtain ⟨rfl, rfl⟩ := Place.lists.inj (hr.symm.trans hplace)
          exact ⟨_, .blank hs hline hbare hblank, hsettings, .lists halike⟩
      | @goesOn _ taken _ line bare hplace hline hbare hblank hmay htaken =>
          obtain ⟨rfl, rfl⟩ := Place.lists.inj (hr.symm.trans hplace)
          have hplace' := halike.place? line bare
          rw [htaken] at hplace'
          generalize htaken' : opened'.place? line bare = result at hplace'
          cases hplace' with
          | some hboth =>
              exact ⟨_, .goesOn hs hline hbare hblank hmay htaken', hsettings, .lists hboth⟩
      | @refused _ _ line bare hplace hline hbare hblank hmay htaken =>
          obtain ⟨rfl, rfl⟩ := Place.lists.inj (hr.symm.trans hplace)
          have hplace' := halike.place? line bare
          rw [htaken] at hplace'
          generalize htaken' : opened'.place? line bare = result at hplace'
          cases hplace' with
          | none =>
              have hclosed : (r.closeLists opened).settings = (s.closeLists opened').settings :=
                hsettings
              exact ⟨_, .refused hs hline hbare hblank hmay htaken',
                allowsMore_take hclosed raw line⟩
      | ends hplace hline hbare hblank hmay =>
          obtain ⟨rfl, rfl⟩ := Place.lists.inj (hr.symm.trans hplace)
          refine ⟨_, .ends hs hline hbare hblank hmay, allowsMore_take ?_ raw _⟩
          split_ifs <;> exact hsettings
  | @code code code' =>
      cases hstep with
      | codeLine hplace hfence => exact ⟨_, .codeLine hs hfence, hsettings, .code⟩
      | codeEnd hplace hfence => exact ⟨_, .codeEnd hs hfence, hsettings, .paragraphs rfl⟩
      | paragraph hplace hline => simp [hr] at hplace
      | blank hplace hline hbare hblank => simp [hr] at hplace
      | goesOn hplace hline hbare hblank hmay htaken => simp [hr] at hplace
      | refused hplace hline hbare hblank hmay htaken => simp [hr] at hplace
      | ends hplace hline hbare hblank hmay => simp [hr] at hplace

/-- What a run keeps. -/
theorem AllowsMore.reads (h : AllowsMore r s) (hrun : Reads r lines last) :
    ∃ last', Reads s lines last' ∧ AllowsMore last last' := by
  induction hrun generalizing s with
  | nil r => exact ⟨s, .nil s, h⟩
  | cons hstep _ ih =>
      obtain ⟨next', hstep', hnext⟩ := h.step hstep
      obtain ⟨last', hrun', hlast⟩ := ih hnext
      exact ⟨last', .cons hstep' hrun', hlast⟩

end Reader

end ReportPress.Markup
