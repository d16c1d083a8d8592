import Mathlib.Algebra.GroupWithZero.Nat
import ReportPress.Proofs.Inline.Resolved

/-!
# Nothing of a text is lost

Resolving cuts a raw text into runes in six passes.  Each of them cuts the runes of the pass before
into smaller ones and says again where lines begin.  What the runes write, with a line feed where a
line begins, is still the text.

* `written` — what runes write.
* `linksIn`, `labelled` — a text cut at its links, and with labels in place of them.
* `starless` — a text without stars.

**Links.**  `link?_eq_some_iff` says what a match is.  None covers a line feed, so all line feeds of
a text stand between its links (`count_linksIn`).

**Through the passes.**  `written_lines` is the cut at links and at line feeds, with white space
collapsed.  `written_emphasizeAll` is the three kinds of emphasis, `written_colorize` the colours,
and `written_filter_isVisible` the end, where runes that are there for nothing go.

**The result.**  `written_resolve` — the runes write the normalized text, but for stars, matches and
superfluous white space.  `written_resolve_spacedLabel` is a label with two spaces, of which one
goes.
-/

namespace ReportPress

namespace Inline

open Text

variable {cs : List Char} {r : Rune} {runes : Runes}

/-! ## What runes say -/

/-- A line feed if a new line begins here. -/
def lineFeed (lineBreak : Bool) : List Char := if lineBreak then ['\n'] else []

/-- Runes written one after another, with a line feed before each that begins a new line. -/
def written (runes : Runes) : List Char :=
  runes.flatMap fun r => lineFeed r.lineBreak ++ r.text.toList

@[simp] lemma written_nil : written [] = [] := rfl

@[simp] lemma written_cons (r : Rune) (runes : Runes) :
    written (r :: runes) = lineFeed r.lineBreak ++ r.text.toList ++ written runes :=
  List.flatMap_cons

@[simp] lemma written_append (before runes : Runes) :
    written (before ++ runes) = written before ++ written runes :=
  List.flatMap_append

/-- A pass over runes is written rune by rune. -/
lemma written_flatMap {pass : Rune → Runes} {edit : Rune → List Char}
    (hpass : ∀ r, written (pass r) = edit r) (runes : Runes) :
    written (runes.flatMap pass) = runes.flatMap edit := by
  induction runes with
  | nil => rfl
  | cons r runes ih => rw [List.flatMap_cons, written_append, hpass, ih, List.flatMap_cons]

/-! ## Links -/

/-- Text on one line without a closing mark. -/
def IsEnclosed (close : Char) (inner : List Char) : Prop := close ∉ inner ∧ '\n' ∉ inner

/-- What is found up to a closing mark is the text that this encloses. -/
lemma upTo?_eq_some_iff {close : Char} {inner rest : List Char} :
    upTo? close cs = some (inner, rest) ↔ cs = inner ++ close :: rest ∧ IsEnclosed close inner := by
  constructor
  · intro h
    unfold upTo? at h
    dsimp only at h
    split at h
    case h_2 => cases h
    case h_1 c after hdrop =>
      split_ifs at h with hclose
      simp only [Option.some.injEq, Prod.mk.injEq] at h
      obtain ⟨rfl, rfl⟩ := h
      have hcut := List.prefix_iff_eq_append.mp (List.takeWhile_prefix (l := cs)
        fun c => c ≠ close && c ≠ '\n')
      rw [hdrop, hclose] at hcut
      refine ⟨hcut.symm, fun hmem => ?_, fun hmem => ?_⟩
      · simpa using List.mem_takeWhile_imp hmem
      · simpa using List.mem_takeWhile_imp hmem
  · rintro ⟨rfl, hclose, hline⟩
    have htake : (inner ++ close :: rest).takeWhile (fun c => c ≠ close && c ≠ '\n') = inner := by
      have hinner : ∀ c ∈ inner, (c ≠ close && c ≠ '\n') = true := by
        intro c hc
        have hne : c ≠ close ∧ c ≠ '\n' :=
          ⟨fun heq => hclose (heq ▸ hc), fun heq => hline (heq ▸ hc)⟩
        simpa using hne
      rw [List.takeWhile_append_of_pos hinner, List.takeWhile_cons]
      simp
    unfold upTo?
    rw [htake]
    simp

/-- Where a link or an anchor stands, the rune of its label, and how many characters it covers. -/
inductive IsLink : List Char → Rune → Nat → Prop
  | target {label target : List Char} (rest : List Char) :
      IsEnclosed ']' label → IsEnclosed ')' target →
        IsLink ('[' :: label ++ ']' :: '(' :: target ++ ')' :: rest)
          { text := String.ofList label, link := some (.ofString (String.ofList target)) }
          (label.length + target.length + 4)
  | anchor {label anchor : List Char} (rest : List Char) :
      IsEnclosed ']' label → IsEnclosed '\x7d' anchor →
        IsLink ('[' :: label ++ ']' :: '\x7b' :: '#' :: anchor ++ '\x7d' :: rest)
          { text := String.ofList label, anchor := some (String.ofList anchor) }
          (label.length + anchor.length + 5)

/-- A match is found exactly where a link or an anchor stands. -/
theorem link?_eq_some_iff {n : Nat} : link? cs = some (r, n) ↔ IsLink cs r n := by
  constructor
  · intro h
    unfold link? at h
    split at h
    case h_2 => cases h
    case h_1 cs =>
      simp only [Option.bind_eq_bind, Option.bind_eq_some_iff] at h
      obtain ⟨⟨label, rest⟩, hupTo, h⟩ := h
      obtain ⟨rfl, hlabel⟩ := upTo?_eq_some_iff.mp hupTo
      dsimp only at h
      split at h
      case h_3 => cases h
      case h_1 after =>
        simp only [Option.bind_eq_some_iff] at h
        obtain ⟨⟨target, more⟩, hupTo', h⟩ := h
        obtain ⟨rfl, htarget⟩ := upTo?_eq_some_iff.mp hupTo'
        simp only [Option.pure_def, Option.some.injEq, Prod.mk.injEq] at h
        obtain ⟨rfl, rfl⟩ := h
        simpa using IsLink.target more hlabel htarget
      case h_2 after =>
        simp only [Option.bind_eq_some_iff] at h
        obtain ⟨⟨anchor, more⟩, hupTo', h⟩ := h
        obtain ⟨rfl, hanchor⟩ := upTo?_eq_some_iff.mp hupTo'
        simp only [Option.pure_def, Option.some.injEq, Prod.mk.injEq] at h
        obtain ⟨rfl, rfl⟩ := h
        simpa using IsLink.anchor more hlabel hanchor
  · intro h
    cases h with
    | target rest hlabel htarget =>
        simp [link?, upTo?_eq_some_iff.mpr ⟨rfl, hlabel⟩, upTo?_eq_some_iff.mpr ⟨rfl, htarget⟩]
    | anchor rest hlabel hanchor =>
        simp [link?, upTo?_eq_some_iff.mpr ⟨rfl, hlabel⟩, upTo?_eq_some_iff.mpr ⟨rfl, hanchor⟩]

/-- A link stands on one line. -/
lemma IsLink.not_mem_take {n : Nat} (h : IsLink cs r n) : 0 < n ∧ '\n' ∉ cs.take n := by
  cases h with
  | @target label target rest hlabel htarget =>
      refine ⟨by omega, ?_⟩
      have hcs : '[' :: label ++ ']' :: '(' :: target ++ ')' :: rest
          = ('[' :: label ++ ']' :: '(' :: target ++ [')']) ++ rest := by simp
      rw [hcs, List.take_left' (by simp; omega)]
      simp [hlabel.2, htarget.2]
  | @anchor label anchor rest hlabel hanchor =>
      refine ⟨by omega, ?_⟩
      have hcs : '[' :: label ++ ']' :: '\x7b' :: '#' :: anchor ++ '\x7d' :: rest
          = ('[' :: label ++ ']' :: '\x7b' :: '#' :: anchor ++ ['\x7d']) ++ rest := by simp
      rw [hcs, List.take_left' (by simp; omega)]
      simp [hlabel.2, hanchor.2]

/-- So do its label and its target, and no line begins there. -/
lemma IsLink.isWithin {n : Nat} (h : IsLink cs r n) :
    r.IsWithin (· ≠ '\n') ∧ r.lineBreak = false := by
  have hchars {inner : List Char} (h : '\n' ∉ inner) : ∀ c ∈ inner, c ≠ '\n' :=
    fun c hc heq => h (heq ▸ hc)
  cases h with
  | target rest hlabel htarget =>
      exact ⟨linked_isWithin (hchars hlabel.2) (hchars htarget.2), rfl⟩
  | anchor rest hlabel hanchor => exact ⟨plain_isWithin (hchars hlabel.2), rfl⟩

/-- The text before the first match, and each match with the text behind it. -/
def matchesIn : List (Piece Rune) → List Char × List (Rune × List Char)
  | [] => ([], [])
  | .char c :: pieces => (c :: (matchesIn pieces).1, (matchesIn pieces).2)
  | .found r :: pieces => ([], (r, (matchesIn pieces).1) :: (matchesIn pieces).2)

/-- The text before the first link, and each link with the text behind it. -/
def linksIn (cs : List Char) : List Char × List (Rune × List Char) := matchesIn (scan link? cs)

/-- The runes of links are the matches and the texts between them. -/
lemma linkRunes_eq (pieces : List (Piece Rune)) :
    linkRunes pieces = ((matchesIn pieces).1,
      (matchesIn pieces).2.flatMap fun m => [m.1, .plain (String.ofList m.2)]) := by
  induction pieces with
  | nil => rfl
  | cons piece pieces ih =>
      cases piece with
      | char c => rw [linkRunes, ih]; rfl
      | found r => rw [linkRunes, ih]; rfl

lemma found_mem_of_mem_matchesIn {m : Rune × List Char} : ∀ {pieces : List (Piece Rune)},
    m ∈ (matchesIn pieces).2 → .found m.1 ∈ pieces
  | [], h => by simp [matchesIn] at h
  | .char c :: pieces, h => List.mem_cons_of_mem _ (found_mem_of_mem_matchesIn h)
  | .found r :: pieces, h => by
      rcases List.mem_cons.mp h with rfl | h
      · exact List.mem_cons_self
      · exact List.mem_cons_of_mem _ (found_mem_of_mem_matchesIn h)

lemma isWithin_of_mem_linksIn {m : Rune × List Char} (h : m ∈ (linksIn cs).2) :
    m.1.IsWithin (· ≠ '\n') ∧ m.1.lineBreak = false := by
  obtain ⟨tail, n, -, hfound⟩ := exists_of_found_mem_scan (found_mem_of_mem_matchesIn h)
  exact (link?_eq_some_iff.mp hfound).isWithin

lemma not_mem_label {m : Rune × List Char} (h : m ∈ (linksIn cs).2) :
    '\n' ∉ m.1.text.toList :=
  fun hmem => (isWithin_of_mem_linksIn h).1.text _ hmem rfl

/-- Outside of matches stand the texts between them. -/
lemma unmatched_eq (pieces : List (Piece Rune)) :
    unmatched pieces = (matchesIn pieces).1 ++ (matchesIn pieces).2.flatMap Prod.snd := by
  induction pieces with
  | nil => rfl
  | cons piece pieces ih =>
      rw [unmatched, List.flatMap_cons, ← unmatched, ih]
      cases piece with
      | char c => rfl
      | found r => simp [matchesIn]

/-- No match covers a line feed, so all of them stand between matches. -/
lemma count_linksIn (cs : List Char) :
    (linksIn cs).1.count '\n' +
      ((linksIn cs).2.map fun m => m.2.count '\n').sum = cs.count '\n' := by
  have hcovered : ∀ cs r n, link? cs = some (r, n) →
      0 < n ∧ ∀ c ∈ cs.take n, (c == '\n') = false := by
    intro cs r n h
    obtain ⟨hpos, hnot⟩ := (link?_eq_some_iff.mp h).not_mem_take
    refine ⟨hpos, fun c hc => ?_⟩
    rw [beq_eq_false_iff_ne]
    rintro rfl
    exact hnot hc
  have hlength := congrArg List.length (filter_unmatched_scan hcovered cs)
  rw [← List.count_eq_length_filter, ← List.count_eq_length_filter, unmatched_eq,
    List.count_append, List.count_flatMap] at hlength
  exact hlength

/-! ## Lines -/

/-- A text whose white space is collapsed within each line. -/
def collapseLines (cs : List Char) : List Char := joinWith ['\n'] ((splitOn '\n' cs).map collapse)

lemma collapseLines_of_not_mem (h : '\n' ∉ cs) : collapseLines cs = collapse cs := by
  rw [collapseLines, splitOn_of_not_mem h]
  rfl

/-- Collapsing within lines keeps the lines. -/
lemma count_collapseLines (cs : List Char) : (collapseLines cs).count '\n' = cs.count '\n' := by
  have hlines : ∀ line ∈ (splitOn '\n' cs).map collapse, '\n' ∉ line := by
    intro line hline
    obtain ⟨raw, hraw, rfl⟩ := List.mem_map.mp hline
    exact not_mem_collapse (by decide) (not_mem_of_mem_splitOn hraw)
  have hne : (splitOn '\n' cs).map collapse ≠ [] := by simpa using splitOn_ne_nil '\n' cs
  have hcount := count_joinWith hne hlines
  rw [List.length_map, length_splitOn] at hcount
  exact Nat.succ.inj hcount

/-- The lines of a rune are written as they stood in it, each with its white space collapsed. -/
lemma written_splitRuneLines (r : Rune) :
    written (splitRuneLines r) = lineFeed r.lineBreak ++ collapseLines r.text.toList := by
  have hlines : ∀ (line : List Char) (more : List (List Char)),
      joinWith ['\n'] ((line :: more).map collapse)
        = collapse line ++ more.flatMap fun line => '\n' :: collapse line := by
    intro line more
    induction more generalizing line with
    | nil => simp [joinWith]
    | cons next more ih =>
        rw [List.map_cons, joinWith_cons _ _ (by simp), ih, List.flatMap_cons]
        simp
  rw [splitRuneLines, collapseLines]
  cases hsplit : splitOn '\n' r.text.toList with
  | nil => exact absurd hsplit (splitOn_ne_nil _ _)
  | cons line more =>
      rw [hlines]
      simp [written, Rune.part, lineFeed, List.flatMap_map]

/-- A text with labels in place of matches, to which `edit` is done; between matches white space is
collapsed within each line. -/
def labelled (edit : List Char → List Char) (cs : List Char) : List Char :=
  collapseLines (linksIn cs).1 ++
    (linksIn cs).2.flatMap fun m => edit m.1.text.toList ++ collapseLines m.2

/-- Lines are cut after links are, so white space in labels is collapsed as well. -/
lemma written_lines (cs : List Char) :
    written ((links cs).flatMap splitRuneLines) = labelled collapse cs := by
  have hlinks : links cs = .plain (String.ofList (linksIn cs).1) ::
      (linksIn cs).2.flatMap fun m => [m.1, .plain (String.ofList m.2)] := by
    rw [links, linkRunes_eq, ← linksIn]
  have hplain (text : List Char) :
      written (splitRuneLines (.plain (String.ofList text))) = collapseLines text := by
    rw [written_splitRuneLines, Rune.plain, String.toList_ofList]
    rfl
  rw [hlinks, labelled, List.flatMap_cons, written_append, hplain]
  have hfound : ∀ m ∈ (linksIn cs).2,
      written (splitRuneLines m.1) = collapse m.1.text.toList := by
    intro m hm
    rw [written_splitRuneLines, (isWithin_of_mem_linksIn hm).2,
      collapseLines_of_not_mem (not_mem_label hm)]
    rfl
  generalize (linksIn cs).2 = found at hfound ⊢
  congr 1
  induction found with
  | nil => rfl
  | cons m found ih =>
      have hrest := ih fun m hm => hfound m (List.mem_cons_of_mem _ hm)
      rw [List.flatMap_cons, List.flatMap_append, written_append, hrest, List.flatMap_cons]
      simp [hplain, hfound m List.mem_cons_self]

/-- All lines are still there. -/
lemma count_labelled (cs : List Char) : (labelled collapse cs).count '\n' = cs.count '\n' := by
  have hfound : ∀ m ∈ (linksIn cs).2,
      (collapse m.1.text.toList ++ collapseLines m.2).count '\n' = m.2.count '\n' := by
    intro m hm
    rw [List.count_append, List.count_eq_zero.mpr (not_mem_collapse (by decide) (not_mem_label hm)),
      count_collapseLines, Nat.zero_add]
  rw [labelled, List.count_append, count_collapseLines, List.count_flatMap, ← count_linksIn cs]
  congr 2
  exact List.map_congr_left hfound

/-! ## Emphasis -/

/-- A text without its stars. -/
def starless (cs : List Char) : List Char := cs.filter (· ≠ '*')

@[simp] lemma starless_append (before cs : List Char) :
    starless (before ++ cs) = starless before ++ starless cs :=
  List.filter_append before cs

lemma written_alternate (r : Rune) (more : Emphasis) : ∀ (inside : Bool) (spans : List (List Char)),
    written (alternate r more inside spans) = spans.flatten
  | _, [] => rfl
  | inside, span :: spans => by
      rw [alternate, written_cons, written_alternate r more (!inside) spans, List.flatten_cons]
      cases inside <;> simp [Rune.part, lineFeed]

/-- The spans of a rune are written as the rune without its delimiters. -/
lemma written_emphasizeRune (delimiter : String) (more : Emphasis) (r : Rune) :
    written (emphasizeRune delimiter more r)
      = lineFeed r.lineBreak ++ (splitOnText delimiter.toList r.text.toList).flatten := by
  cases hspans : splitOnText delimiter.toList r.text.toList with
  | nil => exact absurd hspans (splitOnText_ne_nil _ _)
  | cons span spans =>
      have hrest := written_alternate r more true spans
      rw [emphasizeRune, hspans]
      simp [alternate, Rune.part, hrest]

/-- Cutting at delimiters of stars takes out nothing but stars. -/
lemma starless_flatten_splitOnText {pattern : List Char} (hne : pattern ≠ [])
    (hstars : ∀ c ∈ pattern, c = '*') (cs : List Char) :
    starless (splitOnText pattern cs).flatten = starless cs := by
  rw [flatten_splitOnText]
  refine filter_unmatched_scan (fun cs u n h => ?_) cs
  obtain ⟨rest, hrest, heq⟩ := Option.map_eq_some_iff.mp h
  simp only [Prod.mk.injEq, true_and] at heq
  have hcs : cs = pattern ++ rest := dropLead?_eq_some_iff.mp hrest
  refine ⟨heq ▸ List.length_pos_iff.mpr hne, fun c hc => ?_⟩
  rw [hcs, ← heq, List.take_left] at hc
  simp [hstars c hc]

lemma starless_written_emphasize {delimiter : String} (hne : delimiter.toList ≠ [])
    (hstars : ∀ c ∈ delimiter.toList, c = '*') (more : Emphasis) (runes : Runes) :
    starless (written (emphasize delimiter more runes)) = starless (written runes) := by
  induction runes with
  | nil => rfl
  | cons r runes ih =>
      rw [emphasize, List.flatMap_cons, written_append, starless_append, ← emphasize, ih,
        written_emphasizeRune, starless_append, starless_flatten_splitOnText hne hstars,
        written_cons, starless_append, starless_append]

/-- The last kind of emphasis takes out all stars that are left. -/
lemma star_not_mem_written (more : Emphasis) (runes : Runes) :
    '*' ∉ written (emphasize "*" more runes) := by
  rw [emphasize, written_flatMap (written_emphasizeRune "*" more)]
  intro hmem
  obtain ⟨r, -, hmem⟩ := List.mem_flatMap.mp hmem
  rcases List.mem_append.mp hmem with hmem | hmem
  · cases hbreak : r.lineBreak <;> simp [hbreak, lineFeed] at hmem
  · have hstar : "*".toList = ['*'] := rfl
    rw [hstar, splitOnText_singleton] at hmem
    obtain ⟨span, hspan, hmem⟩ := List.mem_flatten.mp hmem
    exact not_mem_of_mem_splitOn hspan hmem

/-- All three kinds of emphasis together take out the stars and nothing else. -/
lemma written_emphasizeAll (runes : Runes) :
    written (emphasizeAll runes) = starless (written runes) := by
  have hstars : ∀ delimiter ∈ ["***", "**", "*"],
      delimiter.toList ≠ [] ∧ ∀ c ∈ delimiter.toList, c = '*' := by decide
  have hself : starless (written (emphasizeAll runes)) = written (emphasizeAll runes) := by
    refine List.filter_eq_self.mpr fun c hc => ?_
    have hne : c ≠ '*' := fun heq => star_not_mem_written _ _ (heq ▸ hc)
    simpa using hne
  rw [← hself]
  unfold emphasizeAll
  rw [starless_written_emphasize (hstars "*" (by simp)).1 (hstars "*" (by simp)).2,
    starless_written_emphasize (hstars "**" (by simp)).1 (hstars "**" (by simp)).2,
    starless_written_emphasize (hstars "***" (by simp)).1 (hstars "***" (by simp)).2]

/-! ## Colours -/

lemma written_mapM_colorChar (r : Rune) : ∀ (cs : List Char) (hue : Hue),
    written ((cs.mapM (colorChar r)).run hue).1 = cs
  | [], hue => rfl
  | c :: cs, hue => by
      have hchar : ((colorChar r c).run hue).1.text = String.ofList [c] ∧
          ((colorChar r c).run hue).1.lineBreak = false := ⟨rfl, rfl⟩
      rw [run_mapM_cons, written_cons, written_mapM_colorChar, hchar.1, hchar.2,
        String.toList_ofList]
      rfl

/-- A coloured rune is written as before. -/
lemma written_colorizeRune (r : Rune) (hue : Hue) :
    written ((colorizeRune r).run hue).1 = written [r] := by
  have hpieces := written_mapM_colorChar r r.text.toList hue
  rw [colorizeRune, StateT.run_bind]
  cases hrun : (r.text.toList.mapM (colorChar r)).run hue with
  | mk pieces hue' =>
      rw [hrun] at hpieces
      cases pieces with
      | nil => rfl
      | cons first rest =>
          -- Only the first part takes over the line break of the rune.
          have hfirst : first.lineBreak = false := by
            have hmem : first ∈ ((r.text.toList.mapM (colorChar r)).run hue).1 := by
              rw [hrun]
              exact List.mem_cons_self
            obtain ⟨c, -, hue'', rfl⟩ := exists_of_mem_mapM hmem
            rfl
          have hgoal : written ({ first with lineBreak := r.lineBreak } :: rest) = written [r] := by
            rw [written_cons, hfirst] at hpieces
            simp [written_cons, ← hpieces, lineFeed]
          exact hgoal

lemma written_mapM_colorizeRune : ∀ (runes : Runes) (hue : Hue),
    written ((runes.mapM colorizeRune).run hue).1.flatten = written runes
  | [], hue => rfl
  | r :: runes, hue => by
      rw [run_mapM_cons, List.flatten_cons, written_append, written_colorizeRune,
        written_mapM_colorizeRune, written_cons, written_cons, written_nil, List.append_nil]

/-- Colours change nothing about what is written. -/
lemma written_colorize (runes : Runes) (hue : Hue) :
    written ((colorize runes).run hue).1 = written runes :=
  written_mapM_colorizeRune runes hue

/-- Runes that are there for nothing are not written. -/
lemma written_filter_isVisible (runes : Runes) :
    written (runes.filter isVisible) = written runes := by
  induction runes with
  | nil => rfl
  | cons r runes ih =>
      rw [List.filter_cons]
      split_ifs with hvisible
      · rw [written_cons, written_cons, ih]
      · simp only [isVisible, Bool.or_eq_true, Bool.not_eq_true', not_or, Bool.not_eq_true,
          Bool.not_eq_false] at hvisible
        obtain ⟨⟨htext, hbreak⟩, -⟩ := hvisible
        rw [written_cons, ih, hbreak, String.isEmpty_iff.mp htext]
        rfl

/-! ## Line feeds -/

/-- No line feed stands in the target of a link. -/
lemma part_isWithin_of_mem_links (hr : r ∈ links cs) : (r.part "").IsWithin (· ≠ '\n') := by
  have hplain (text : List Char) :
      ((Rune.plain (String.ofList text)).part "").IsWithin (· ≠ '\n') :=
    ⟨by simp [Rune.part], by simp [Rune.part, Rune.plain], Or.inl rfl⟩
  rw [links, linkRunes_eq, ← linksIn] at hr
  rcases List.mem_cons.mp hr with rfl | hr
  · exact hplain _
  · obtain ⟨m, hm, hr⟩ := List.mem_flatMap.mp hr
    rcases List.mem_cons.mp hr with rfl | hr
    · obtain ⟨hwithin, -⟩ := isWithin_of_mem_linksIn hm
      exact ⟨by simp [Rune.part], hwithin.address, hwithin.color⟩
    · rw [List.mem_singleton.mp hr]
      exact hplain _

/-- Lines hold no line feeds, and no other pass puts any in. -/
lemma plainRunes_isWithin_line (text : String) : ∀ r ∈ plainRunes text, r.IsWithin (· ≠ '\n') := by
  have hlines : ∀ r ∈ (links (typography text.toList)).flatMap splitRuneLines,
      r.IsWithin (· ≠ '\n') := by
    intro r hr
    obtain ⟨link, hlink, hr⟩ := List.mem_flatMap.mp hr
    refine isWithin_of_mem_splitRuneLines (part_isWithin_of_mem_links hlink) ?_ r hr
    intro line hline c hc heq
    exact not_mem_collapse (by decide) (not_mem_of_mem_splitOn hline) (heq ▸ hc)
  exact emphasize_isWithin (emphasize_isWithin (emphasize_isWithin hlines))

/-- Without line feeds in the texts, those that are written are the line breaks. -/
lemma count_written (h : ∀ r ∈ runes, '\n' ∉ r.text.toList) :
    (written runes).count '\n' = runes.countP Rune.lineBreak := by
  induction runes with
  | nil => rfl
  | cons r runes ih =>
      have hrest := ih fun s hs => h s (List.mem_cons_of_mem _ hs)
      have htext : r.text.toList.count '\n' = 0 := List.count_eq_zero.mpr (h r List.mem_cons_self)
      rw [written_cons, List.count_append, List.count_append, htext, hrest, List.countP_cons]
      cases r.lineBreak <;> simp [lineFeed]
      omega

/-! ## All passes -/

/-- What is written in the end. -/
lemma written_run_resolve (rainbow : Bool) (text : String) (hue : Hue) :
    written ((resolve rainbow text).run hue).1
      = starless (labelled collapse (typography text.toList)) := by
  have hplain : written (plainRunes text)
      = starless (labelled collapse (typography text.toList)) := by
    rw [plainRunes, written_emphasizeAll, written_lines]
  rw [← hplain]
  unfold resolve
  generalize plainRunes text = plain
  cases rainbow with
  | false => exact written_filter_isVisible plain
  | true => exact (written_filter_isVisible _).trans (written_colorize plain hue)

/-- No rune holds a line feed. -/
lemma not_mem_text_of_mem_run_resolve {rainbow : Bool} {text : String} {hue : Hue} {r : Rune}
    (hr : r ∈ ((resolve rainbow text).run hue).1) : '\n' ∉ r.text.toList := fun hmem =>
  (resolve_isWithin_of_plainRunes (plainRunes_isWithin_line text) hue r hr).text _ hmem rfl

/-- Lines begin where there are line feeds in the normalized text. -/
lemma countP_lineBreak_run_resolve (rainbow : Bool) (text : String) (hue : Hue) :
    ((resolve rainbow text).run hue).1.countP Rune.lineBreak
      = (typography text.toList).count '\n' := by
  rw [← count_written fun r hr => not_mem_text_of_mem_run_resolve hr, written_run_resolve,
    starless, List.count_filter (by decide), count_labelled]

/-- Resolving a text loses nothing of it but stars and superfluous white space, and no line break:
its runes write the normalized text with labels in place of links, white space collapsed within each
line between links and within each label, and no stars.  No rune holds a star or a line feed, and
lines begin where there are line feeds in the normalized text. -/
theorem written_resolve (rainbow : Bool) (text : String) (hue : Hue) :
    written ((resolve rainbow text).run hue).1
        = starless (labelled collapse (typography text.toList)) ∧
      (∀ r ∈ ((resolve rainbow text).run hue).1, '*' ∉ r.text.toList ∧ '\n' ∉ r.text.toList) ∧
      ((resolve rainbow text).run hue).1.countP Rune.lineBreak
        = (typography text.toList).count '\n' := by
  have hwritten := written_run_resolve rainbow text hue
  have hstar : ∀ r ∈ ((resolve rainbow text).run hue).1, '*' ∉ r.text.toList := by
    intro r hr hmem
    have hall : '*' ∈ written ((resolve rainbow text).run hue).1 :=
      List.mem_flatMap.mpr ⟨r, hr, List.mem_append_right _ hmem⟩
    rw [hwritten] at hall
    simpa using (List.mem_filter.mp hall).2
  exact ⟨hwritten, fun r hr => ⟨hstar r hr, not_mem_text_of_mem_run_resolve hr⟩,
    countP_lineBreak_run_resolve rainbow text hue⟩

/-- A label does not stay as it is where it has superfluous white space. -/
theorem written_resolve_spacedLabel :
    written ((resolve false "[a  b](c)").run 0).1 = "a b".toList ∧
      written ((resolve false "[a  b](c)").run 0).1
        ≠ starless (labelled id (typography "[a  b](c)".toList)) := by
  decide +kernel

end Inline

end ReportPress
