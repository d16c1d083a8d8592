import ReportPress.Proofs.Document.Traversal
import ReportPress.Proofs.Inline.WrittenText

/-!
# Rainbow text

With the rainbow on, every character gets a rune of its own and the next of 360 colours.  Nothing
else of a report changes.

* `characterRunes` — one rune for each character of a rune.
* `Rune.uncoloured`, `Document.withRainbow` — a rune without its colour, and a report with the
  rainbow on or off.
* `Document.runes` — all runes of a report, in document order.
* `shades` — the lengths and the colours of the runes that have a colour.

**What is coloured.**  No rune has a colour before the colouring (`color_of_mem_plainRunes`), so
without colours there is one rune for each character (`uncoloured_resolve`).

**In which colours.**  `rainbow` — the colours of so many characters from a hue on.  `Paints` — an
action that gives so many characters these colours and goes on behind them.  The numbers add up
where actions are done one after another (`paints_flatten_mapM`), so one hue runs through a text
(`paints_resolve`), and through a report.

**The result.**  `resolveDocument_withRainbow` — both, for a report.
-/

namespace ReportPress

open Text

/-- A rune without its colour. -/
def Rune.uncoloured (r : Rune) : Rune := { r with color := none }

/-- A report with the rainbow on or off. -/
def Document.withRainbow {T : Type} (d : Document T) (rainbow : Bool) : Document T :=
  { d with settings := { d.settings with rainbow } }

/-- All runes of a report, in document order. -/
def Document.runes (d : ResolvedDocument) : Runes := d.texts.flatten

namespace Inline

variable {T : Type} {r : Rune} {runes : Runes} {text : String}

/-- One rune for each character of a rune; the line break stays before the first, and an empty rune
stays. -/
def characterRunes (r : Rune) : Runes :=
  match r.text.toList with
  | [] => [r]
  | c :: cs =>
      { r.part (String.ofList [c]) with lineBreak := r.lineBreak } ::
        cs.map fun c => r.part (String.ofList [c])

/-- The lengths and the colours of the runes that have a colour. -/
def shades (runes : Runes) : List (Nat × String) :=
  runes.filterMap fun r => r.color.map fun color => (r.text.length, color)

/-- The runes of a text without the rainbow. -/
def visibleRunes (text : String) : Runes := (plainRunes text).filter isVisible

/-! ## Before the colouring -/

lemma IsLink.color {cs : List Char} {n : Nat} (h : IsLink cs r n) : r.color = none := by
  cases h <;> rfl

lemma color_of_mem_links {cs : List Char} (h : r ∈ links cs) : r.color = none := by
  rw [links, linkRunes_eq, ← linksIn] at h
  rcases List.mem_cons.mp h with rfl | h
  · rfl
  · obtain ⟨m, hm, hr⟩ := List.mem_flatMap.mp h
    obtain ⟨tail, n, -, hfound⟩ := exists_of_found_mem_scan (found_mem_of_mem_matchesIn hm)
    simp only [List.mem_cons, List.not_mem_nil, or_false] at hr
    rcases hr with rfl | rfl
    · exact (link?_eq_some_iff.mp hfound).color
    · rfl

lemma color_of_mem_splitRuneLines {s : Rune} (h : s ∈ splitRuneLines r) : s.color = r.color := by
  unfold splitRuneLines at h
  split at h
  case h_1 => exact nomatch h
  case h_2 line more _ =>
    rcases List.mem_cons.mp h with rfl | h
    · rfl
    · obtain ⟨other, -, rfl⟩ := List.mem_map.mp h
      rfl

lemma color_of_mem_alternate {more : Emphasis} {s : Rune} : ∀ {inside : Bool}
    {spans : List (List Char)}, s ∈ alternate r more inside spans → s.color = r.color
  | _, [], h => nomatch h
  | inside, span :: spans, h => by
      rw [alternate] at h
      rcases List.mem_cons.mp h with rfl | h
      · cases inside <;> rfl
      · exact color_of_mem_alternate h

lemma color_of_mem_emphasizeRune {delimiter : String} {more : Emphasis} {s : Rune}
    (h : s ∈ emphasizeRune delimiter more r) : s.color = r.color := by
  unfold emphasizeRune at h
  split at h
  case h_1 => exact nomatch h
  case h_2 first rest hpieces =>
    have hpiece : ∀ s ∈ first :: rest, s.color = r.color :=
      fun s hs => color_of_mem_alternate (hpieces ▸ hs)
    rcases List.mem_cons.mp h with rfl | h
    · exact hpiece first List.mem_cons_self
    · exact hpiece s (List.mem_cons_of_mem _ h)

/-- Before the colouring no rune has a colour. -/
lemma color_of_mem_plainRunes (h : r ∈ plainRunes text) : r.color = none := by
  have hpass {pass : Rune → Runes} {runes : Runes} (hcolor : ∀ r, ∀ s ∈ pass r, s.color = r.color)
      (hruns : ∀ r ∈ runes, r.color = none) : ∀ s ∈ runes.flatMap pass, s.color = none := by
    intro s hs
    obtain ⟨r, hr, hs⟩ := List.mem_flatMap.mp hs
    exact (hcolor r s hs).trans (hruns r hr)
  have hlines : ∀ r ∈ (links (typography text.toList)).flatMap splitRuneLines, r.color = none :=
    hpass (fun _ _ => color_of_mem_splitRuneLines) fun _ => color_of_mem_links
  have hemphasis (delimiter : String) (more : Emphasis) {runes : Runes}
      (hruns : ∀ r ∈ runes, r.color = none) :
      ∀ s ∈ emphasize delimiter more runes, s.color = none :=
    hpass (fun _ _ => color_of_mem_emphasizeRune) hruns
  rw [plainRunes, emphasizeAll] at h
  exact hemphasis "*" _ (hemphasis "**" _ (hemphasis "***" _ hlines)) r h

/-! ## What is coloured -/

lemma uncoloured_mapM_colorChar (r : Rune) (cs : List Char) (hue : Hue) (h : r.color = none) :
    ((cs.mapM (colorChar r)).run hue).1.map Rune.uncoloured
      = cs.map fun c => r.part (String.ofList [c]) := by
  induction cs generalizing hue with
  | nil => rfl
  | cons c cs ih =>
      have hfirst : ((colorChar r c).run hue).1.uncoloured = r.part (String.ofList [c]) := by
        show Rune.mk _ _ _ _ none _ _ = Rune.mk _ _ _ _ r.color _ _
        rw [h]
        rfl
      rw [run_mapM_cons, List.map_cons, List.map_cons, hfirst, ih]

/-- Without colours there is one rune for each character of a rune. -/
lemma uncoloured_colorizeRune (h : r.color = none) (hue : Hue) :
    ((colorizeRune r).run hue).1.map Rune.uncoloured = characterRunes r := by
  rw [colorizeRune, characterRunes, StateT.run_bind]
  cases htext : r.text.toList with
  | nil =>
      show [{ r with color := none }] = [r]
      rw [← h]
  | cons c cs =>
      have hpieces := uncoloured_mapM_colorChar r (c :: cs) hue h
      rw [run_mapM_cons] at hpieces ⊢
      obtain ⟨hfirst, hrest⟩ := List.cons.inj hpieces
      show { ((colorChar r c).run hue).1.uncoloured with lineBreak := r.lineBreak } ::
        List.map Rune.uncoloured _ = _
      rw [hfirst, hrest]

/-- Without colours there is one rune for each character. -/
lemma uncoloured_colorize (h : ∀ r ∈ runes, r.color = none) (hue : Hue) :
    ((colorize runes).run hue).1.map Rune.uncoloured = runes.flatMap characterRunes := by
  show ((runes.mapM colorizeRune).run hue).1.flatten.map Rune.uncoloured = _
  induction runes generalizing hue with
  | nil => rfl
  | cons r runes ih =>
      obtain ⟨hr, hruns⟩ := List.forall_mem_cons.mp h
      rw [run_mapM_cons, List.flatten_cons, List.map_append, uncoloured_colorizeRune hr, ih hruns,
        List.flatMap_cons]

/-- The runes of the characters are there for something if the rune is. -/
lemma filter_characterRunes (r : Rune) :
    (characterRunes r).filter isVisible = if isVisible r then characterRunes r else [] := by
  unfold characterRunes
  split
  case h_1 => simp [List.filter_singleton, Bool.cond_eq_ite]
  case h_2 c cs htext =>
    have hvisible (c : Char) (lineBreak : Bool) :
        isVisible { r.part (String.ofList [c]) with lineBreak } = true := by
      simp [isVisible, Rune.part]
    have hr : isVisible r = true := by
      have hne : r.text.isEmpty = false := by
        rw [Bool.eq_false_iff, Ne, String.isEmpty_iff]
        rintro heq
        simp [heq] at htext
      simp [isVisible, hne]
    rw [if_pos hr, List.filter_eq_self]
    intro s hs
    rcases List.mem_cons.mp hs with rfl | hs
    · exact hvisible c _
    · obtain ⟨d, -, rfl⟩ := List.mem_map.mp hs
      exact hvisible d false

/-- Rainbow text is coloured before the runes go that are there for nothing. -/
lemma run_resolve_true (text : String) (hue : Hue) :
    (resolve true text).run hue =
      (((colorize (plainRunes text)).run hue).1.filter isVisible,
        ((colorize (plainRunes text)).run hue).2) := by
  unfold resolve
  generalize plainRunes text = runes
  rfl

/-- Without its colours, rainbow text has one rune for each character. -/
theorem uncoloured_resolve (text : String) (hue : Hue) :
    ((resolve true text).run hue).1.map Rune.uncoloured
      = (visibleRunes text).flatMap characterRunes := by
  have hplain : ∀ r ∈ plainRunes text, r.color = none := fun _ => color_of_mem_plainRunes
  have hrunes := uncoloured_colorize hplain hue
  have hfilter (runes : Runes) : (runes.flatMap characterRunes).filter isVisible
      = (runes.filter isVisible).flatMap characterRunes := by
    induction runes with
    | nil => rfl
    | cons r runes ih =>
        rw [List.flatMap_cons, List.filter_append, filter_characterRunes, ih, List.filter_cons]
        split_ifs <;> rfl
  have hvisible : isVisible ∘ Rune.uncoloured = isVisible := rfl
  rw [run_resolve_true, visibleRunes, ← hfilter, ← hrunes, List.filter_map, hvisible]

/-! ## In which colours -/

@[simp] lemma shades_append (before runes : Runes) :
    shades (before ++ runes) = shades before ++ shades runes :=
  List.filterMap_append

lemma shades_eq_nil (h : ∀ r ∈ runes, r.color = none) : shades runes = [] := by
  rw [shades, List.filterMap_eq_nil_iff]
  exact fun r hr => by rw [h r hr, Option.map_none]

/-- The place some degrees further on the circle. -/
def Hue.advance (hue : Hue) (degrees : Nat) : Hue := .ofDegrees (hue.val + degrees)

lemma Hue.advance_ofDegrees (degrees more : Nat) :
    (Hue.ofDegrees degrees).advance more = .ofDegrees (degrees + more) :=
  Fin.ext (Nat.mod_add_mod degrees 360 more)

@[simp] lemma Hue.advance_zero (hue : Hue) : hue.advance 0 = hue :=
  Fin.ext (Nat.mod_eq_of_lt hue.isLt)

@[simp] lemma Hue.advance_advance (hue : Hue) (m n : Nat) :
    (hue.advance m).advance n = hue.advance (m + n) := by
  unfold Hue.advance
  rw [← Hue.advance, Hue.advance_ofDegrees, Nat.add_assoc]

/-- The colours of characters from a hue on. -/
def rainbow (hue : Hue) (count : Nat) : List (Nat × String) :=
  (List.range count).map fun j => (1, (hue.advance j).color)

/-- An action that gives so many characters their colours. -/
def Paints (work : StateM Hue Runes) (count : Nat) : Prop :=
  ∀ hue, shades (work.run hue).1 = rainbow hue count ∧ (work.run hue).2 = hue.advance count

lemma rainbow_add (hue : Hue) (m n : Nat) :
    rainbow hue (m + n) = rainbow hue m ++ rainbow (hue.advance m) n := by
  rw [rainbow, List.range_add, List.map_append, List.map_map, rainbow, rainbow]
  simp [Function.comp_def]

lemma paints_pure (h : ∀ r ∈ runes, r.color = none) : Paints (pure runes) 0 :=
  fun hue => ⟨shades_eq_nil h, hue.advance_zero.symm⟩

/-- One action after another paints the characters of both. -/
lemma Paints.append {work more : StateM Hue Runes} {m n : Nat} (hwork : Paints work m)
    (hmore : Paints more n) : Paints (do return (← work) ++ (← more)) (m + n) := by
  intro hue
  obtain ⟨hruns, hstate⟩ := hwork hue
  obtain ⟨hmoreRuns, hmoreState⟩ := hmore (work.run hue).2
  show shades ((work.run hue).1 ++ (more.run (work.run hue).2).1) = _ ∧
    (more.run (work.run hue).2).2 = _
  rw [shades_append, hruns, hmoreRuns, hmoreState, hstate, rainbow_add, Hue.advance_advance]
  exact ⟨rfl, rfl⟩

/-- Actions for the items of a list, one after another, paint the characters of all. -/
lemma paints_flatten_mapM {f : T → StateM Hue Runes} {count : T → Nat} : ∀ {as : List T},
    (∀ a ∈ as, Paints (f a) (count a)) → Paints (List.flatten <$> as.mapM f) (as.map count).sum
  | [], _ => paints_pure (fun _ h => nomatch h)
  | a :: as, h => by
      obtain ⟨ha, has⟩ := List.forall_mem_cons.mp h
      have hboth := ha.append (paints_flatten_mapM has)
      intro hue
      rw [List.map_cons, List.sum_cons]
      have hrun : (List.flatten <$> (a :: as).mapM f).run hue
          = (do return (← f a) ++ (← List.flatten <$> as.mapM f) : StateM Hue Runes).run hue := by
        rw [List.mapM_cons]
        rfl
      rw [hrun]
      exact hboth hue

lemma paints_mapM_colorChar (r : Rune) : ∀ cs : List Char,
    Paints (cs.mapM (colorChar r)) cs.length
  | [] => paints_pure fun _ h => nomatch h
  | c :: cs => by
      intro hue
      obtain ⟨hruns, hstate⟩ := paints_mapM_colorChar r cs (hue.advance 1)
      have hfirst : shades [((colorChar r c).run hue).1] = rainbow hue 1 := by
        show [((String.ofList [c]).length, hue.color)] = _
        rw [String.length_ofList, rainbow]
        simp
      have hnext : ((colorChar r c).run hue).2 = hue.advance 1 := rfl
      rw [run_mapM_cons, ← List.singleton_append, shades_append, hfirst, hnext, List.length_cons,
        Nat.add_comm, rainbow_add, ← Hue.advance_advance]
      exact ⟨congrArg _ hruns, hstate⟩

/-- The line break before a rune has no colour. -/
lemma shades_lineBreak (r : Rune) (lineBreak : Bool) (runes : Runes) :
    shades ({ r with lineBreak } :: runes) = shades (r :: runes) := by
  rw [shades, shades, List.filterMap_cons, List.filterMap_cons]

lemma paints_colorizeRune (h : r.color = none) : Paints (colorizeRune r) r.text.length := by
  rw [← String.length_toList]
  intro hue
  have hpieces := paints_mapM_colorChar r r.text.toList hue
  rw [colorizeRune, StateT.run_bind]
  cases htext : r.text.toList with
  | nil => exact paints_pure (by simpa using h) hue
  | cons c cs =>
      rw [htext, run_mapM_cons] at hpieces
      obtain ⟨hruns, hstate⟩ := hpieces
      rw [run_mapM_cons]
      exact ⟨(shades_lineBreak _ _ _).trans hruns, hstate⟩

/-- Painted runes are not among those that go. -/
lemma shades_filter_isVisible : ∀ {runes : Runes}, (∀ shade ∈ shades runes, shade.1 = 1) →
    shades (runes.filter isVisible) = shades runes
  | [], _ => rfl
  | r :: runes, h => by
      rw [← List.singleton_append, shades_append, List.forall_mem_append] at h
      rw [← List.singleton_append, List.filter_append, shades_append, shades_append,
        shades_filter_isVisible h.2, List.filter_singleton]
      congr 1
      cases hcolor : r.color with
      | none =>
          cases isVisible r <;> simp [shades, hcolor]
      | some color =>
          have hone : r.text.length = 1 := by simpa [shades, hcolor] using h.1
          have hvisible : isVisible r = true := by
            have hne : r.text ≠ "" := fun heq => by simp [heq] at hone
            simp [isVisible, hne]
          rw [hvisible, cond_true]

lemma length_plainText (runes : Runes) :
    (plainText runes).length = (runes.map (·.text.length)).sum := by
  induction runes with
  | nil => rfl
  | cons r runes ih =>
      have hjoin : plainText (r :: runes) = r.text ++ plainText runes := by
        simp [plainText, String.join_cons]
      rw [hjoin, String.length_append, ih, List.map_cons, List.sum_cons]

/-- Runes that go have no characters. -/
lemma length_plainText_filter (runes : Runes) :
    (plainText (runes.filter isVisible)).length = (plainText runes).length := by
  rw [length_plainText, length_plainText]
  induction runes with
  | nil => rfl
  | cons r runes ih =>
      rw [List.filter_cons, List.map_cons, List.sum_cons, ← ih]
      split_ifs with hvisible
      · rw [List.map_cons, List.sum_cons]
      · have hempty : r.text = "" := by
          by_contra hne
          exact hvisible (by simp [isVisible, hne])
        rw [hempty, String.length_empty, Nat.zero_add]

/-- One hue runs through the runes of a text. -/
lemma paints_colorize (h : ∀ r ∈ runes, r.color = none) :
    Paints (colorize runes) (plainText runes).length := by
  rw [length_plainText]
  exact paints_flatten_mapM fun r hr => paints_colorizeRune (h r hr)

/-- Nothing painted is lost with the runes that are there for nothing. -/
lemma Paints.filter_isVisible {work : StateM Hue Runes} {count : Nat} (h : Paints work count)
    (hue : Hue) : shades ((work.run hue).1.filter isVisible) = rainbow hue count := by
  obtain ⟨hshades, -⟩ := h hue
  rw [← hshades]
  refine shades_filter_isVisible fun shade hshade => ?_
  rw [hshades] at hshade
  obtain ⟨hue', -, rfl⟩ := List.mem_map.mp hshade
  rfl

/-- Rainbow text has the colours of its characters one after another. -/
theorem paints_resolve (text : String) :
    Paints (resolve true text) (plainText (visibleRunes text)).length := by
  have hcolorize : Paints (colorize (plainRunes text)) (plainText (visibleRunes text)).length := by
    rw [visibleRunes, length_plainText_filter]
    exact paints_colorize fun _ => color_of_mem_plainRunes
  intro hue
  rw [run_resolve_true]
  generalize colorize (plainRunes text) = work at hcolorize ⊢
  exact ⟨hcolorize.filter_isVisible hue, (hcolorize hue).2⟩

/-! ## The result -/

/-- Without the rainbow no colour is taken. -/
lemma run_resolve_false (text : String) (hue : Hue) :
    (resolve false text).run hue = (visibleRunes text, hue) := by
  unfold resolve visibleRunes
  generalize plainRunes text = runes
  rfl

/-- One hue runs through the texts of a report. -/
lemma paints_traverse {paint : String → StateM Hue Runes} {count : String → Nat}
    (h : ∀ text, Paints (paint text) (count text)) (d : RawDocument) :
    Paints (Document.runes <$> d.traverse paint) (d.texts.map count).sum := by
  intro hue
  obtain ⟨hshades, hstate⟩ := paints_flatten_mapM (fun text (_ : text ∈ d.texts) => h text) hue
  have hrun : (List.flatten <$> d.texts.mapM paint).run hue
      = (Document.runes <$> d.traverse paint).run hue :=
    congrArg (fun last : List Runes × Hue => (last.1.flatten, last.2)) (texts_traverse d hue)
  exact ⟨hrun ▸ hshades, hrun ▸ hstate⟩

/-- What is got without a colour is got for each text by itself. -/
lemma texts_traverse_of_plain {f : String → StateM Hue Runes} {g : String → Runes}
    (h : ∀ text hue, (f text).run hue = (g text, hue)) (d : RawDocument) (hue : Hue) :
    ((d.traverse f).run hue).1.texts = d.texts.map g := by
  have hrun (texts : List String) : (texts.mapM f).run hue = (texts.map g, hue) := by
    induction texts with
    | nil => rfl
    | cons text texts ih => rw [run_mapM_cons, h, ih, List.map_cons]
  exact congrArg Prod.fst ((texts_traverse d hue).symm.trans (hrun d.texts))

lemma resolveDocument_eq (d : RawDocument) (rainbow : Bool) :
    resolveDocument (d.withRainbow rainbow) = (d.withRainbow rainbow).traverse (resolve rainbow) :=
  rfl

/-- Without the rainbow, a report has the characters of its texts. -/
lemma length_plainText_resolveDocument (d : RawDocument) (hue : Hue) :
    (plainText ((resolveDocument (d.withRainbow false)).run hue).1.runes).length
      = (d.texts.map fun text => (plainText (visibleRunes text)).length).sum := by
  rw [resolveDocument_eq, Document.runes, texts_traverse_of_plain run_resolve_false,
    length_plainText, List.map_flatten, List.sum_flatten, List.map_map, List.map_map]
  generalize visibleRunes = visible
  exact congrArg List.sum (List.map_congr_left fun text _ => (length_plainText (visible text)).symm)

/-- Without its colours, a report with the rainbow on has one rune for each character. -/
lemma uncoloured_resolveDocument (d : RawDocument) (hue : Hue) :
    ((resolveDocument (d.withRainbow true)).run hue).1.map (List.map Rune.uncoloured)
      = (((resolveDocument (d.withRainbow false)).run hue).1.map
          (List.flatMap characterRunes)).withRainbow true := by
  have hplain (text : String) (hue : Hue) : ((resolve false text).run hue).1.flatMap characterRunes
      = (visibleRunes text).flatMap characterRunes := by
    rw [run_resolve_false]
  rw [resolveDocument_eq, resolveDocument_eq, map_traverse uncoloured_resolve,
    map_traverse hplain]
  rfl

/-- With the rainbow on, a report has one rune for each character and is otherwise what it is
without; the runes have the colours from the first hue on, in document order. -/
theorem resolveDocument_withRainbow (d : RawDocument) (degrees : Nat) :
    let plain := (resolveDocument (d.withRainbow false)).run (.ofDegrees degrees)
    let coloured := (resolveDocument (d.withRainbow true)).run (.ofDegrees degrees)
    let count := (plainText plain.1.runes).length
    coloured.1.map (List.map Rune.uncoloured)
        = (plain.1.map (List.flatMap characterRunes)).withRainbow true ∧
      shades coloured.1.runes
        = (List.range count).map (fun j => (1, hexColor ((degrees + j) % 360) 100 50)) ∧
      coloured.2.val = (degrees + count) % 360 := by
  intro plain coloured count
  have hcount : count = (d.texts.map fun text => (plainText (visibleRunes text)).length).sum :=
    length_plainText_resolveDocument d _
  have hmap : coloured.1.map (List.map Rune.uncoloured)
      = (plain.1.map (List.flatMap characterRunes)).withRainbow true :=
    uncoloured_resolveDocument d _
  obtain ⟨hshades, hstate⟩ := paints_traverse paints_resolve d (.ofDegrees degrees)
  rw [← hcount] at hshades hstate
  refine ⟨hmap, hshades.trans ?_, ?_⟩
  · rw [rainbow]
    refine List.map_congr_left fun j _ => ?_
    rw [Hue.advance_ofDegrees]
    rfl
  · exact congrArg Fin.val (hstate.trans (Hue.advance_ofDegrees degrees count))

end Inline

end ReportPress
