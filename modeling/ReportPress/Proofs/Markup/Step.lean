import ReportPress.Proofs.Markup.Detection
import ReportPress.Proofs.Markup.FirstWord

/-!
# What one line does

The reader takes one line at a time, and what the line means depends on the place where it is read.

* `Reader.StepsTo` — the seven things that a line can do, place by place; `step_eq_ok_iff` says
  that there are no others.
* `Line.place` — where a line leads that is read outside of lists and blocks of code.
* `withText` — what a line of text does to the nodes that have been read.
* `codeIsOpen` — whether some lines end inside a block of code, told by the fences alone.

**Blocks of code.**  `Reads.isCode_place` — the reader is in a block of code exactly if one is open
by the fences among the lines; lists and paragraphs have no part in that.
-/

namespace ReportPress.Markup

open Text

variable {r next last : Reader} {raw text : String} {line bare : Line} {lines : List String}

/-- Whether an indented line, taken without its indentation, can go on with a list: an item can, and
so can text that no blank line precedes. -/
def Line.mayGoOn (bare : Line) (blank : Bool) : Bool :=
  bare.marker.isListMarker || (bare.marker = .plain && !blank)

/-- Where a line leads that belongs to no list and no block of code. -/
def Line.place (line : Line) : Place :=
  match line.marker with
  | .bullet => .lists (.single (.ofItem false 1 line.text)) false
  | .ordered index => .lists (.single (.ofItem true index line.text)) false
  | .fence => .code (.ofFence line.text)
  | _ => .paragraphs

namespace Reader

/-! ## One line -/

/-- What one line does. -/
inductive StepsTo (r : Reader) (raw : String) : Reader → Prop
  | codeLine {code : OpenCode} : r.place = .code code →
      startsWith "```".toList raw.toList = false →
      StepsTo r raw { r with place := .code { code with newest := raw :: code.newest } }
  | codeEnd {code : OpenCode} : r.place = .code code →
      startsWith "```".toList raw.toList = true →
      StepsTo r raw { r.push (.code code.close) with place := .paragraphs }
  | paragraph {line : Line} : r.place = .paragraphs → classify raw = .ok line →
      StepsTo r raw (r.take raw line)
  | blank {opened : OpenLists} {blank : Bool} {line bare : Line} : r.place = .lists opened blank →
      classify raw = .ok line → line.bare = .ok bare → bare.isBlank = true →
      StepsTo r raw { r with place := .lists opened true }
  | goesOn {opened taken : OpenLists} {blank : Bool} {line bare : Line} :
      r.place = .lists opened blank → classify raw = .ok line → line.bare = .ok bare →
      bare.isBlank = false → bare.mayGoOn blank = true → opened.place? line bare = some taken →
      StepsTo r raw { r with place := .lists taken false }
  | refused {opened : OpenLists} {blank : Bool} {line bare : Line} :
      r.place = .lists opened blank → classify raw = .ok line → line.bare = .ok bare →
      bare.isBlank = false → bare.mayGoOn blank = true → opened.place? line bare = none →
      StepsTo r raw ((r.closeLists opened).take raw line)
  | ends {opened : OpenLists} {blank : Bool} {line bare : Line} : r.place = .lists opened blank →
      classify raw = .ok line → line.bare = .ok bare → bare.isBlank = false →
      bare.mayGoOn blank = false →
      StepsTo r raw
        ((if blank then (r.closeLists opened).push (.ofText "") else r.closeLists opened).take
          raw line)

lemma stepsTo_of_step (h : r.step raw = .ok next) : r.StepsTo raw next := by
  rw [step] at h
  split at h
  case h_1 code hplace =>
    split_ifs at h with hfence
    · obtain rfl := Except.ok.inj h
      exact .codeEnd hplace hfence
    · obtain rfl := Except.ok.inj h
      exact .codeLine hplace (Bool.eq_false_iff.mpr hfence)
  case h_2 hplace =>
    cases hline : classify raw with
    | error fault => simp [hline, bind, Except.bind] at h
    | ok line =>
        simp only [hline, bind, Except.bind, pure, Except.pure, Except.ok.injEq] at h
        rw [← h]
        exact .paragraph hplace hline
  case h_3 opened blank hplace =>
    cases hline : classify raw with
    | error fault => simp [hline, bind, Except.bind] at h
    | ok line =>
        cases hbare : line.bare with
        | error fault => simp [hline, hbare, bind, Except.bind] at h
        | ok bare =>
            simp only [hline, hbare, bind, Except.bind, pure, Except.pure, Except.ok.injEq] at h
            rw [← h, stepInLists]
            by_cases hblank : bare.isBlank = true
            · rw [if_pos hblank]
              exact .blank hplace hline hbare hblank
            rw [if_neg hblank]
            by_cases hmay : bare.mayGoOn blank = true
            · rw [Line.mayGoOn] at hmay
              rw [if_pos hmay]
              cases htaken : opened.place? line bare with
              | some taken =>
                  exact .goesOn hplace hline hbare (Bool.eq_false_iff.mpr hblank) hmay htaken
              | none =>
                  exact .refused hplace hline hbare (Bool.eq_false_iff.mpr hblank) hmay htaken
            · rw [Line.mayGoOn] at hmay
              rw [if_neg hmay]
              exact .ends hplace hline hbare (Bool.eq_false_iff.mpr hblank)
                (Bool.eq_false_iff.mpr hmay)

lemma StepsTo.step_eq (h : r.StepsTo raw next) : r.step raw = .ok next := by
  rw [step]
  cases h with
  | codeLine hplace hfence => simp only [hplace, hfence, Bool.false_eq_true, if_false]
  | codeEnd hplace hfence => simp only [hplace, hfence, if_true]
  | paragraph hplace hline => simp only [hplace, hline, bind, Except.bind, pure, Except.pure]
  | blank hplace hline hbare hblank =>
      simp only [hplace, hline, hbare, bind, Except.bind, pure, Except.pure, stepInLists, hblank,
        if_true]
  | goesOn hplace hline hbare hblank hmay htaken =>
      rw [Line.mayGoOn] at hmay
      simp only [hplace, hline, hbare, bind, Except.bind, pure, Except.pure, stepInLists, hblank,
        hmay, htaken, Bool.false_eq_true, if_false, if_true]
  | refused hplace hline hbare hblank hmay htaken =>
      rw [Line.mayGoOn] at hmay
      simp only [hplace, hline, hbare, bind, Except.bind, pure, Except.pure, stepInLists, hblank,
        hmay, htaken, Bool.false_eq_true, if_false, if_true]
  | ends hplace hline hbare hblank hmay =>
      rw [Line.mayGoOn] at hmay
      simp only [hplace, hline, hbare, bind, Except.bind, pure, Except.pure, stepInLists, hblank,
        hmay, Bool.false_eq_true, if_false]

theorem step_eq_ok_iff : r.step raw = .ok next ↔ r.StepsTo raw next :=
  ⟨stepsTo_of_step, StepsTo.step_eq⟩

/-- The nodes, newest first, with a line of text that joins the newest or is a paragraph of its
own. -/
def withText (text : String) : List (Node String) → List (Node String)
  | .text p :: before =>
    if text.isEmpty then .ofText text :: .text p :: before
    else .text { p with text := if p.text.isEmpty then text else p.text ++ "\n" ++ text } :: before
  | nodes => .ofText text :: nodes

lemma pushText_eq (r : Reader) (raw : String) :
    r.pushText raw = { r with newest := withText (trimmed raw) r.newest } := by
  rw [pushText]
  split
  case h_1 p before hnewest =>
    rw [hnewest, withText]
    split_ifs <;> simp [push, hnewest]
  case h_2 hnot =>
    rw [withText]
    · rfl
    · exact hnot

/-- A gap after a paragraph is what a line without text leaves. -/
lemma push_ofText_empty (r : Reader) : r.push (.ofText "") = r.pushText "" := by
  have htrim : trimmed "" = "" := rfl
  rw [pushText_eq, htrim, push]
  cases r.newest with
  | nil => rfl
  | cons node before => cases node <;> rfl

lemma place_applyRule (r : Reader) (text : String) : (r.applyRule text).place = r.place := by
  unfold applyRule
  dsimp only
  split
  · rfl
  · split
    · rfl
    · split <;> rfl

lemma place_take (r : Reader) (raw : String) (line : Line) :
    (r.take raw line).place = line.place := by
  rw [take, Line.place]
  cases line.marker with
  | plain => simp only [pushText_eq]
  | indent => simp only [pushText_eq]
  | rule => simp only [place_applyRule]
  | _ => rfl

end Reader

/-! ## Blocks of code -/

/-- Whether a block of code is open behind a line, given whether one is open before it: a fence
opens it, and a line that begins with three backticks closes it. -/
def codeAfter (inside : Bool) (raw : String) : Bool :=
  if inside then !startsWith "```".toList raw.toList else decide (IsFence raw)

/-- Whether some lines end inside a block of code. -/
def codeIsOpen (lines : List String) : Bool := lines.foldl codeAfter false

/-- Whether the reader is in a block of code. -/
def Place.isCode : Place → Bool
  | .code _ => true
  | _ => false

lemma codeIsOpen_of_forall (h : ∀ raw ∈ lines, ¬ IsFence raw) : codeIsOpen lines = false := by
  rw [codeIsOpen]
  induction lines with
  | nil => rfl
  | cons raw rest ih =>
      have hraw : codeAfter false raw = false := by simp [codeAfter, h raw]
      rw [List.foldl_cons, hraw]
      exact ih fun raw hmem => h raw (List.mem_cons_of_mem _ hmem)

lemma isCode_place (h : classify raw = .ok line) : line.place.isCode = decide (IsFence raw) := by
  have hfence : line.place.isCode = decide (line.marker = .fence) := by
    obtain ⟨marker, text, depth⟩ := line
    cases marker <;> rfl
  rw [hfence, decide_eq_decide.mpr (classify_eq_fence_iff h)]

/-- A line that a list can go on with is no fence. -/
lemma not_isFence_of_bare (hline : classify raw = .ok line) (hbare : line.bare = .ok bare)
    (hmarker : bare.marker ≠ .fence) : ¬ IsFence raw := by
  intro hfence
  have hline' : line.marker = .fence := (classify_eq_fence_iff hline).mpr hfence
  rw [Line.bare, if_neg (by simp [hline'])] at hbare
  exact hmarker (Except.ok.inj hbare ▸ hline')

/-- What one line does to it. -/
lemma isCode_of_step (h : r.step raw = .ok next) :
    next.place.isCode = codeAfter r.place.isCode raw := by
  have hcode {code : OpenCode} (hplace : r.place = .code code) :
      codeAfter r.place.isCode raw = !startsWith "```".toList raw.toList := by rw [hplace]; rfl
  have hlists {opened : OpenLists} {blank : Bool} (hplace : r.place = .lists opened blank) :
      codeAfter r.place.isCode raw = decide (IsFence raw) := by rw [hplace]; rfl
  cases Reader.step_eq_ok_iff.mp h with
  | codeLine hplace hfence =>
      rw [hcode hplace, hfence]
      rfl
  | codeEnd hplace hfence =>
      rw [hcode hplace, hfence]
      rfl
  | paragraph hplace hline =>
      rw [Reader.place_take, isCode_place hline, hplace]
      rfl
  | @blank opened blank line bare hplace hline hbare hblank =>
      have hmarker : bare.marker ≠ .fence := by
        rintro e
        simp [Line.isBlank, e] at hblank
      rw [hlists hplace, decide_eq_false (not_isFence_of_bare hline hbare hmarker)]
      rfl
  | @goesOn opened taken blank line bare hplace hline hbare _ hmay _ =>
      have hmarker : bare.marker ≠ .fence := by
        rintro e
        simp [Line.mayGoOn, Marker.isListMarker, e] at hmay
      rw [hlists hplace, decide_eq_false (not_isFence_of_bare hline hbare hmarker)]
      rfl
  | refused hplace hline _ _ _ _ => rw [Reader.place_take, isCode_place hline, hlists hplace]
  | ends hplace hline _ _ _ => rw [Reader.place_take, isCode_place hline, hlists hplace]

/-- The reader is in a block of code exactly if one is open by the fences among the lines. -/
theorem Reads.isCode_place (h : Reads r lines last) :
    last.place.isCode = lines.foldl codeAfter r.place.isCode := by
  induction h with
  | nil => rfl
  | cons hstep _ ih => rw [ih, isCode_of_step hstep, List.foldl_cons]

/-- Lines without a fence leave the reader outside of blocks of code. -/
lemma Reads.isCode_place_of_forall (h : Reads {} lines last)
    (hfences : ∀ raw ∈ lines, ¬ IsFence raw) : last.place.isCode = false := by
  rw [h.isCode_place]
  exact codeIsOpen_of_forall hfences

end ReportPress.Markup
