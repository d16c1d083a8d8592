import ReportPress.Proofs.Enrich.HeadingReading
import ReportPress.Proofs.Inline.LinkTargets
import ReportPress.Proofs.Text.Respelling

/-!
# Keywords in capitals

The keywords of an abstract are put in capitals before they are resolved, with their markup.  All
passes but the first look at marks only, which have no capital form of their own; so they cut the
text in capitals where they cut the text, and what they read off it, the targets of links and the
names of anchors, is in capitals.  The token for a line break is written with letters, and in
capitals it is none.

* `Rune.respelled` — a rune whose text, target and anchor are written in other characters.
* `unbroken` — typography without the pass for the tokens.
* `tokenlessRunes` — the runes of a text in which such tokens are no more than text.
* `MarkupInCapitals` — runes with the same line breaks, and with targets and anchors in capitals.

**Through the passes.**  `unbroken_flatMap`, `links_flatMap`, `splitRuneLines_respelled` and
`emphasizeAll_respelled`, for any way to write characters that keeps marks.

**The keywords.**  `visibleRunes_upper`, and **`runes_keywords`** for the pass over the headings.
-/

namespace ReportPress

open Text

/-! ## Runes in other characters -/

/-- A text in other characters. -/
def Text.respelled (f : Char → List Char) (s : String) : String :=
  String.ofList (s.toList.flatMap f)

/-- A target whose name or address is written in other characters. -/
def LinkTarget.respelled (f : Char → List Char) : LinkTarget → LinkTarget
  | .anchor name => .anchor (Text.respelled f name)
  | .external address => .external (Text.respelled f address)

/-- A rune in other characters. -/
def Rune.respelled (f : Char → List Char) (r : Rune) : Rune :=
  { r with
    text := Text.respelled f r.text
    anchor := r.anchor.map (Text.respelled f)
    link := r.link.map (LinkTarget.respelled f) }

namespace Inline

variable {f : Char → List Char} {cs : List Char} {r : Rune}

lemma respelled_ofList (cs : List Char) :
    Text.respelled f (String.ofList cs) = String.ofList (cs.flatMap f) := by
  rw [Text.respelled, String.toList_ofList]

/-! ## Typography -/

/-- Typography without the pass for the tokens of line breaks. -/
def unbroken (cs : List Char) : List Char :=
  substitute quotation? <| replaceAll " - ".toList " – ".toList <| replaceAll ['—'] ['-'] cs

lemma typography_eq (cs : List Char) : typography cs = unbroken (substitute breakToken? cs) := rfl

lemma typography_of_not_infix (h : ¬ "<br>".toList <:+: cs) : typography cs = unbroken cs := by
  rw [typography_eq, substitute_of_not_hasMatch (hasMatch_breakToken.not.mpr h)]

section Passes

variable (h : KeepsMarks f)

include h

lemma isEnclosed_flatMap_iff {close : Char} (hclose : isMark close = true) :
    IsEnclosed close (cs.flatMap f) ↔ IsEnclosed close cs := by
  rw [IsEnclosed, IsEnclosed, h.mem_flatMap_iff hclose, h.mem_flatMap_iff (by decide)]

lemma respells_quotation : Respells f (List.flatMap f) quotation? where
  notMark {c} rest hc := by
    refine quotation?_cons_of_ne ?_ rest
    rintro rfl
    exact absurd hc (by decide)
  found {cs new n} hfound := by
    obtain ⟨inner, rest, rfl, hinner, rfl, rfl⟩ := quotation?_eq_some_iff.mp hfound
    have hquote : f '\x22' = ['\x22'] := h.eq_of_isMark (by decide)
    have hopen : f '«' = ['«'] := h.eq_of_isMark (by decide)
    have hclose : f '»' = ['»'] := h.eq_of_isMark (by decide)
    have htake : ('\x22' :: inner ++ '\x22' :: rest).take (inner.length + 2)
        = '\x22' :: inner ++ ['\x22'] := by
      simp [List.take_append]
    refine quotation?_eq_some_iff.mpr ⟨inner.flatMap f, rest.flatMap f, ?_,
      (isEnclosed_flatMap_iff h (by decide)).mpr hinner, ?_, ?_⟩
    · simp [List.flatMap_append, hquote]
    · simp [List.flatMap_append, hopen, hclose]
    · rw [htake]
      simp [List.flatMap_append, hquote]
  none {cs} hnone := by
    cases hother : quotation? (cs.flatMap f) with
    | none => rfl
    | some found =>
        obtain ⟨inner, rest, hcs, hinner, -, -⟩ := quotation?_eq_some_iff.mp hother
        obtain ⟨cs, rfl, hrest⟩ := h.exists_of_flatMap_eq_cons (by decide) hcs
        obtain ⟨inner, rest, rfl, rfl, rfl⟩ := h.exists_of_flatMap_eq (by decide) hrest
        have hfound : quotation? ('\x22' :: inner ++ '\x22' :: rest) ≠ none := by
          rw [quotation?_eq_some_iff.mpr ⟨inner, rest, rfl,
            (isEnclosed_flatMap_iff h (by decide)).mp hinner, rfl, rfl⟩]
          simp
        exact absurd hnone hfound

/-- Typography other than the tokens does the same to a text in other characters. -/
lemma unbroken_flatMap (cs : List Char) : unbroken (cs.flatMap f) = (unbroken cs).flatMap f := by
  rw [unbroken, unbroken, replaceAll_flatMap h (by decide) (by decide) (by decide),
    replaceAll_flatMap h (by decide) (by decide) (by decide),
    substitute_flatMap h (respells_quotation h)]

/-! ## Links -/

lemma ofString_respelled (cs : List Char) :
    LinkTarget.ofString (String.ofList (cs.flatMap f))
      = (LinkTarget.ofString (String.ofList cs)).respelled f := by
  have hsharp : f '#' = ['#'] := h.eq_of_isMark (by decide)
  by_cases hname : ∃ name, cs = '#' :: name
  · obtain ⟨name, rfl⟩ := hname
    simp [LinkTarget.ofString, hsharp, LinkTarget.respelled, Text.respelled]
  · have hother : ¬ ∃ name, cs.flatMap f = '#' :: name := by
      rintro ⟨name, heq⟩
      obtain ⟨rest, hcs, -⟩ := h.exists_of_flatMap_eq_cons (by decide) heq
      exact hname ⟨rest, hcs⟩
    have hexternal {cs : List Char} (hcs : ¬ ∃ name, cs = '#' :: name) :
        LinkTarget.ofString (String.ofList cs) = .external (String.ofList cs) := by
      unfold LinkTarget.ofString
      split
      case h_1 name heq => exact absurd ⟨name, by simpa using heq⟩ hcs
      case h_2 => rfl
    rw [hexternal hname, hexternal hother, LinkTarget.respelled, respelled_ofList]

/-- A link stands in a respelled text where it stands in the text. -/
lemma IsLink.respelled {n : Nat} (hlink : IsLink cs r n) :
    IsLink (cs.flatMap f) (r.respelled f) ((cs.take n).flatMap f).length := by
  have hmarks : ∀ m ∈ ['[', ']', '(', ')', '\x7b', '\x7d', '#'], f m = [m] :=
    fun m hm => h.eq_of_isMark ((by decide : ∀ m ∈ ['[', ']', '(', ')', '\x7b', '\x7d', '#'],
      isMark m = true) m hm)
  simp only [List.forall_mem_cons, List.not_mem_nil, false_implies, implies_true, and_true]
    at hmarks
  obtain ⟨hopen, hclose, hparen, hunparen, hbrace, hunbrace, hsharp⟩ := hmarks
  cases hlink with
  | @target label target rest hlabel htarget =>
      have hcs : '[' :: label ++ ']' :: '(' :: target ++ ')' :: rest
          = ('[' :: label ++ ']' :: '(' :: target ++ [')']) ++ rest := by simp
      have hflat : ('[' :: label ++ ']' :: '(' :: target ++ [')']).flatMap f
          = '[' :: label.flatMap f ++ ']' :: '(' :: target.flatMap f ++ [')'] := by
        simp [List.flatMap_append, hopen, hclose, hparen, hunparen]
      have hother := IsLink.target (rest.flatMap f)
        ((isEnclosed_flatMap_iff h (by decide)).mpr hlabel)
        ((isEnclosed_flatMap_iff h (by decide)).mpr htarget)
      rw [ofString_respelled h] at hother
      rw [hcs, List.take_left' (by simp; omega), List.flatMap_append, hflat]
      convert hother using 1
      · simp
      · simp [Rune.respelled, respelled_ofList]
      · simp; omega
  | @anchor label anchor rest hlabel hanchor =>
      have hcs : '[' :: label ++ ']' :: '\x7b' :: '#' :: anchor ++ '\x7d' :: rest
          = ('[' :: label ++ ']' :: '\x7b' :: '#' :: anchor ++ ['\x7d']) ++ rest := by simp
      have hflat : ('[' :: label ++ ']' :: '\x7b' :: '#' :: anchor ++ ['\x7d']).flatMap f
          = '[' :: label.flatMap f ++ ']' :: '\x7b' :: '#' :: anchor.flatMap f ++ ['\x7d'] := by
        simp [List.flatMap_append, hopen, hclose, hbrace, hunbrace, hsharp]
      have hother := IsLink.anchor (rest.flatMap f)
        ((isEnclosed_flatMap_iff h (by decide)).mpr hlabel)
        ((isEnclosed_flatMap_iff h (by decide)).mpr hanchor)
      rw [hcs, List.take_left' (by simp; omega), List.flatMap_append, hflat]
      convert hother using 1
      · simp
      · simp [Rune.respelled, respelled_ofList]
      · simp; omega

/-- There are no other links in it. -/
lemma exists_isLink_of_flatMap {n : Nat} (hlink : IsLink (cs.flatMap f) r n) :
    ∃ r n, IsLink cs r n := by
  generalize htext : cs.flatMap f = text at hlink
  cases hlink with
  | @target label target rest hlabel htarget =>
      simp only [List.cons_append, List.append_assoc] at htext
      obtain ⟨cs, rfl, hinside⟩ := h.exists_of_flatMap_eq_cons (by decide) htext
      obtain ⟨label, cs, rfl, rfl, hbehind⟩ := h.exists_of_flatMap_eq (by decide) hinside
      obtain ⟨cs, rfl, hparen⟩ := h.exists_of_flatMap_eq_cons (by decide) hbehind
      obtain ⟨target, rest, rfl, rfl, -⟩ := h.exists_of_flatMap_eq (by decide) hparen
      have hown := IsLink.target rest ((isEnclosed_flatMap_iff h (by decide)).mp hlabel)
        ((isEnclosed_flatMap_iff h (by decide)).mp htarget)
      exact ⟨_, _, by simpa using hown⟩
  | @anchor label anchor rest hlabel hanchor =>
      simp only [List.cons_append, List.append_assoc] at htext
      obtain ⟨cs, rfl, hinside⟩ := h.exists_of_flatMap_eq_cons (by decide) htext
      obtain ⟨label, cs, rfl, rfl, hbehind⟩ := h.exists_of_flatMap_eq (by decide) hinside
      obtain ⟨cs, rfl, hbrace⟩ := h.exists_of_flatMap_eq_cons (by decide) hbehind
      obtain ⟨cs, rfl, hsharp⟩ := h.exists_of_flatMap_eq_cons (by decide) hbrace
      obtain ⟨anchor, rest, rfl, rfl, -⟩ := h.exists_of_flatMap_eq (by decide) hsharp
      have hown := IsLink.anchor rest ((isEnclosed_flatMap_iff h (by decide)).mp hlabel)
        ((isEnclosed_flatMap_iff h (by decide)).mp hanchor)
      exact ⟨_, _, by simpa using hown⟩

lemma respells_link : Respells f (Rune.respelled f) link? where
  notMark {c} rest hc := by
    refine link?_cons_of_ne ?_ rest
    rintro rfl
    exact absurd hc (by decide)
  found hfound := link?_eq_some_iff.mpr (IsLink.respelled h (link?_eq_some_iff.mp hfound))
  none {cs} hnone := by
    cases hother : link? (cs.flatMap f) with
    | none => rfl
    | some found =>
        obtain ⟨r, n, hlink⟩ := exists_isLink_of_flatMap h (link?_eq_some_iff.mp hother)
        rw [link?_eq_some_iff.mpr hlink] at hnone
        cases hnone

/-- The runes between links and at them. -/
lemma links_flatMap (cs : List Char) :
    links (cs.flatMap f) = (links cs).map (Rune.respelled f) := by
  have hletters (letters : List Char) (pieces : List (Piece Rune)) :
      linkRunes (letters.map .char ++ pieces)
        = (letters ++ (linkRunes pieces).1, (linkRunes pieces).2) := by
    induction letters with
    | nil => rfl
    | cons c letters ih => rw [List.map_cons, List.cons_append, linkRunes, ih]; rfl
  have hpieces (pieces : List (Piece Rune)) :
      linkRunes (pieces.flatMap (Piece.respelled f (Rune.respelled f)))
        = ((linkRunes pieces).1.flatMap f, (linkRunes pieces).2.map (Rune.respelled f)) := by
    induction pieces with
    | nil => rfl
    | cons piece pieces ih =>
        rw [List.flatMap_cons]
        cases piece with
        | char c => rw [Piece.respelled, hletters, ih, linkRunes]; rfl
        | found r =>
            rw [Piece.respelled, List.singleton_append, linkRunes, ih, linkRunes]
            simp [Rune.plain, Rune.respelled, respelled_ofList]
  rw [links, scan_flatMap h (respells_link h), hpieces, links]
  simp [Rune.plain, Rune.respelled, respelled_ofList]

/-! ## Lines and emphasis -/

lemma splitRuneLines_respelled (r : Rune) :
    splitRuneLines (r.respelled f) = (splitRuneLines r).map (Rune.respelled f) := by
  have hlines : splitOn '\n' (r.respelled f).text.toList
      = (splitOn '\n' r.text.toList).map (List.flatMap f) := by
    rw [Rune.respelled, Text.respelled, String.toList_ofList, h.splitOn_flatMap (by decide)]
  have hpart (line : List Char) (lineBreak : Bool) :
      { (r.respelled f).part (String.ofList (collapse (line.flatMap f))) with lineBreak }
        = Rune.respelled f { r.part (String.ofList (collapse line)) with lineBreak } := by
    simp [Rune.respelled, Rune.part, respelled_ofList, h.collapse_flatMap]
  unfold splitRuneLines
  rw [hlines]
  cases splitOn '\n' r.text.toList with
  | nil => rfl
  | cons line more =>
      simp only [List.map_cons, List.map_map]
      rw [← hpart]
      congr 1
      exact List.map_congr_left fun line _ => hpart line true

omit h in
lemma alternate_respelled (more : Emphasis) (r : Rune) : ∀ (inside : Bool)
    (spans : List (List Char)),
      alternate (r.respelled f) more inside (spans.map (List.flatMap f))
        = (alternate r more inside spans).map (Rune.respelled f)
  | _, [] => rfl
  | inside, span :: spans => by
      rw [List.map_cons, alternate, alternate, alternate_respelled more r, List.map_cons]
      congr 1
      cases inside <;> simp [Rune.respelled, Rune.part, respelled_ofList]

lemma emphasize_respelled {delimiter : String} (hne : delimiter.toList ≠ [])
    (hdelimiter : ∀ c ∈ delimiter.toList, isMark c = true) (more : Emphasis) (runes : Runes) :
    emphasize delimiter more (runes.map (Rune.respelled f))
      = (emphasize delimiter more runes).map (Rune.respelled f) := by
  have hrune (r : Rune) : emphasizeRune delimiter more (r.respelled f)
      = (emphasizeRune delimiter more r).map (Rune.respelled f) := by
    have hspans : splitOnText delimiter.toList (r.respelled f).text.toList
        = (splitOnText delimiter.toList r.text.toList).map (List.flatMap f) := by
      rw [Rune.respelled, Text.respelled, String.toList_ofList,
        splitOnText_flatMap h hne hdelimiter]
    rw [emphasizeRune, hspans, alternate_respelled, emphasizeRune]
    cases alternate r more false (splitOnText delimiter.toList r.text.toList) with
    | nil => rfl
    | cons first rest => rfl
  rw [emphasize, emphasize, List.flatMap_map, List.map_flatMap]
  simp only [hrune]

lemma emphasizeAll_respelled (runes : Runes) :
    emphasizeAll (runes.map (Rune.respelled f)) = (emphasizeAll runes).map (Rune.respelled f) := by
  rw [emphasizeAll, emphasize_respelled h (by decide) (by decide),
    emphasize_respelled h (by decide) (by decide), emphasize_respelled h (by decide) (by decide),
    emphasizeAll]

lemma isVisible_respelled (r : Rune) : isVisible (r.respelled f) = isVisible r := by
  have htext : (r.respelled f).text.isEmpty = r.text.isEmpty := by
    rw [Bool.eq_iff_iff, String.isEmpty_iff, String.isEmpty_iff, Rune.respelled, Text.respelled,
      ← String.toList_inj, String.toList_ofList, ← String.toList_inj]
    exact h.flatMap_eq_nil_iff
  rw [isVisible, isVisible, htext]
  simp [Rune.respelled]

end Passes

/-! ## Texts in capitals -/

/-- The runes of a text in which the tokens of line breaks are no more than text. -/
def tokenlessRunes (text : String) : Runes :=
  (emphasizeAll ((links (unbroken text.toList)).flatMap splitRuneLines)).filter isVisible

lemma tokenlessRunes_of_not_infix {text : String} (h : ¬ "<br>".toList <:+: text.toList) :
    tokenlessRunes text = visibleRunes text := by
  rw [tokenlessRunes, visibleRunes, plainRunes, typography_of_not_infix h]

/-- No token is left: it begins with a small letter. -/
lemma not_infix_upper (text : String) : ¬ "<br>".toList <:+: (upper text).toList := by
  intro htoken
  have hb : 'b' ∈ (upper text).toList := htoken.subset (by decide)
  rw [upper, String.toList_ofList, List.mem_flatMap] at hb
  obtain ⟨c, -, hb⟩ := hb
  obtain ⟨hstays, hne⟩ | ⟨-, -, hcapital⟩ := upperChar_cases c
  · rw [hstays, List.mem_singleton] at hb
    exact hne hb.symm
  · exact (hcapital 'b' hb).ne_b rfl

/-- Resolving the text in capitals gives the runes of the text in capitals, as long as tokens are
text. -/
theorem visibleRunes_upper (text : String) :
    visibleRunes (upper text) = (tokenlessRunes text).map (Rune.respelled upperChar) := by
  have h := keepsMarks_upperChar
  have hletters : (upper text).toList = text.toList.flatMap upperChar := String.toList_ofList
  have hlines (runes : Runes) : (runes.map (Rune.respelled upperChar)).flatMap splitRuneLines
      = (runes.flatMap splitRuneLines).map (Rune.respelled upperChar) := by
    rw [List.flatMap_map, List.map_flatMap]
    exact List.flatMap_congr fun r _ => splitRuneLines_respelled h r
  have hvisible : isVisible ∘ Rune.respelled upperChar = isVisible :=
    funext (isVisible_respelled h)
  rw [visibleRunes, plainRunes, typography_of_not_infix (not_infix_upper text), hletters,
    unbroken_flatMap h, links_flatMap h, hlines, emphasizeAll_respelled h, List.filter_map,
    hvisible, tokenlessRunes]

/-- The markup of runes in capitals: the same line breaks, and the targets and anchors in
capitals. -/
structure MarkupInCapitals (runes shown : Runes) : Prop where
  targets : shown.filterMap Rune.link
    = (runes.filterMap Rune.link).map (LinkTarget.respelled upperChar)
  anchors : shown.filterMap Rune.anchor = (runes.filterMap Rune.anchor).map upper
  breaks : shown.countP Rune.lineBreak = runes.countP Rune.lineBreak

lemma markupInCapitals_respelled (runes : Runes) :
    MarkupInCapitals runes (runes.map (Rune.respelled upperChar)) where
  targets := by
    rw [List.filterMap_map, List.map_filterMap]
    rfl
  anchors := by
    rw [List.filterMap_map, List.map_filterMap]
    rfl
  breaks := by
    rw [List.countP_map]
    rfl

namespace MarkupInCapitals

variable {runes shown : Runes} (h : MarkupInCapitals runes shown)

include h

/-- The targets stay the same exactly if there is nothing to put in capitals. -/
lemma targets_eq_iff : shown.filterMap Rune.link = runes.filterMap Rune.link ↔
    ∀ target ∈ runes.filterMap Rune.link, target.respelled upperChar = target := by
  rw [h.targets]
  simpa using List.map_inj_left (l := runes.filterMap Rune.link) (g := id)

lemma anchors_eq_iff : shown.filterMap Rune.anchor = runes.filterMap Rune.anchor ↔
    ∀ anchor ∈ runes.filterMap Rune.anchor, upper anchor = anchor := by
  rw [h.anchors]
  simpa using List.map_inj_left (l := runes.filterMap Rune.anchor) (g := id)

end MarkupInCapitals

lemma runes_resolve_false (text : String) (hue : Hue) :
    ((resolve false text).run hue).1 = visibleRunes text := by
  rw [run_resolve_false]

/-- Where there are no tokens, a text in capitals has the markup of the text in capitals. -/
lemma markupInCapitals_resolve {text : String} (h : ¬ "<br>".toList <:+: text.toList) (hue : Hue) :
    MarkupInCapitals ((resolve false text).run hue).1 ((resolve false (upper text)).run hue).1 := by
  rw [runes_resolve_false, runes_resolve_false, visibleRunes_upper, tokenlessRunes_of_not_infix h]
  exact markupInCapitals_respelled _

end Inline

/-! ## The keywords of an abstract -/

namespace Enrich

open Inline

/-- A text without the periods at its end. -/
def withoutPeriods (text : String) : String := String.ofList (trimEndOf ['.'] text.toList)

/-- The pass over the headings leaves the runes of the text behind the title of an abstract in
capitals, without the periods and with tokens as text.  Where there are no tokens the line breaks
are the same, and targets and anchors are the same exactly if they are in capitals already. -/
theorem runes_keywords {t : Title String} (ht : Heading.recognize t.text = some .abstract)
    (p : Paragraph String) (rest : List (Node String)) (hue : Hue) :
    ∃ q : Paragraph String,
      (applyHeadings (.title t :: .text p :: rest)).1[2]? = some (.text q) ∧
      let runes := ((resolve false (withoutPeriods p.text)).run hue).1
      let shown := ((resolve false q.text).run hue).1
      shown = (tokenlessRunes (withoutPeriods p.text)).map (Rune.respelled upperChar) ∧
        (¬ "<br>".toList <:+: (withoutPeriods p.text).toList →
          MarkupInCapitals runes shown ∧
            (shown.filterMap Rune.link = runes.filterMap Rune.link ↔
              ∀ target ∈ runes.filterMap Rune.link, target.respelled upperChar = target) ∧
            (shown.filterMap Rune.anchor = runes.filterMap Rune.anchor ↔
              ∀ anchor ∈ runes.filterMap Rune.anchor, upper anchor = anchor)) := by
  refine ⟨{ p with text := upper (withoutPeriods p.text), noIndent := true }, ?_, ?_, ?_⟩
  · rw [applyHeadings, arrange_title ht]
    rfl
  · exact (runes_resolve_false _ hue).trans (visibleRunes_upper _)
  · intro hbreaks
    have hmarkup := markupInCapitals_resolve hbreaks hue
    exact ⟨hmarkup, hmarkup.targets_eq_iff, hmarkup.anchors_eq_iff⟩

/-- Keywords with a link and a place: both are in capitals, and two periods are gone. -/
theorem runes_keywords_linked :
    Heading.recognize " Реферат" = some .abstract ∧
      ¬ "<br>".toList <:+: (withoutPeriods "[a](b) [c]{#d}..").toList ∧
      ∃ q : Paragraph String,
        (applyHeadings [.title { text := " Реферат", level := 1 },
          .text { text := "[a](b) [c]{#d}.." }]).1[2]? = some (.text q) ∧
        let shown := ((resolve false q.text).run 0).1
        shown.filterMap Rune.link = [.external "B"] ∧ shown.filterMap Rune.anchor = ["D"] := by
  have ht : Heading.recognize " Реферат" = some .abstract := by decide +kernel
  have hbreaks : ¬ "<br>".toList <:+: (withoutPeriods "[a](b) [c]{#d}..").toList := by
    decide +kernel
  obtain ⟨q, hq, -, hmarkup⟩ := runes_keywords (t := { text := " Реферат", level := 1 }) ht
    { text := "[a](b) [c]{#d}.." } [] 0
  obtain ⟨⟨htargets, hanchors, -⟩, -⟩ := hmarkup hbreaks
  refine ⟨ht, hbreaks, q, hq, htargets.trans ?_, hanchors.trans ?_⟩
  · decide +kernel
  · decide +kernel

/-- A link, a place and a line break, and none of them is the same in the keywords. -/
theorem keywords_respelled_markup :
    Heading.recognize "Реферат" = some .abstract ∧
      (applyHeadings [.title { text := "Реферат", level := 1 },
        .text { text := "[a](b) [c]{#d}<br>e." }]).1[2]?
          = some (.text { text := "[A](B) [C]{#D}<BR>E", noIndent := true }) ∧
      withoutPeriods "[a](b) [c]{#d}<br>e." = "[a](b) [c]{#d}<br>e" ∧
      ((resolve false "[A](B) [C]{#D}<BR>E").run 0).1.filterMap Rune.link
        ≠ ((resolve false "[a](b) [c]{#d}<br>e").run 0).1.filterMap Rune.link ∧
      ((resolve false "[A](B) [C]{#D}<BR>E").run 0).1.filterMap Rune.anchor
        ≠ ((resolve false "[a](b) [c]{#d}<br>e").run 0).1.filterMap Rune.anchor ∧
      ((resolve false "[A](B) [C]{#D}<BR>E").run 0).1.countP Rune.lineBreak
        ≠ ((resolve false "[a](b) [c]{#d}<br>e").run 0).1.countP Rune.lineBreak := by
  have ht : Heading.recognize "Реферат" = some .abstract := by decide +kernel
  refine ⟨ht, ?_, by decide +kernel⟩
  rw [applyHeadings, arrange_title (t := { text := "Реферат", level := 1 }) ht]
  rfl

end Enrich

end ReportPress
