import ReportPress.Proofs.Markup.DeepHeadings
import ReportPress.Proofs.Markup.DirectivePatterns
import ReportPress.Proofs.Markup.Rules

/-!
# Rules of a report

A line that begins with `!!rule` states a rule for the whole report, unless it is a line of code.

* `IsRuleLine`, `ruleText` — such a line, and its words behind the first.
* `writtenRule?`, `takenRule?` — the rule that a line stands for, and the one that it is taken for.
* `openLines` — the lines outside of blocks of code.
* `rulesWritten`, `rulesTaken` — the rules of all these lines.

**Lines.**  `takenRule?_eq` — the rule of a line is told by its marker.  A line with the parts of an
image has none.  `takenRule?_eq_writtenRule?_iff` says when the two rules of a line are the same.

**Reading.**  `Obeys` — what rules do to a reader.  One line obeys its rule, if any
(`obeys_of_step`), and all lines obey theirs in their order (`obeys_of_reads`).

`isRuledBy_of_parse` — **a report is ruled by the rules that its lines are taken for, and these are
the rules that they stand for exactly if no line has the parts of an image and no first word runs
on.**
-/

namespace ReportPress.Markup

open Text

variable {text raw : String} {line bare : Line} {r next last : Reader} {lines : List String}
variable {rules : List Rule}

/-! ## Lines -/

/-- A line that is not indented and has `!!rule` for its first word, in whatever case. -/
def IsRuleLine (raw : String) : Prop :=
  ¬ IsIndented raw ∧ (leadWord raw).map Char.toLower = "!!rule".toList

/-- What such a line says: its words behind the first, with single spaces between them. -/
def ruleText (raw : String) : String := String.ofList (textBehind raw)

instance : DecidablePred IsIndented := fun raw =>
  inferInstanceAs (Decidable (['\t'] <+: raw.toList ∨ [' ', ' ', ' ', ' '] <+: raw.toList))

instance : DecidablePred IsRuleLine := fun raw =>
  inferInstanceAs (Decidable (¬ IsIndented raw ∧ (leadWord raw).map Char.toLower = "!!rule".toList))

/-- The rule that a line stands for. -/
def writtenRule? (raw : String) : Option Rule :=
  if IsRuleLine raw then some (.ofText (ruleText raw)) else none

/-- The rule that a line is taken for. -/
def takenRule? (raw : String) : Option Rule :=
  if IsRuleLine raw ∧ ¬ HasImage raw.toList then some (.read (ruleText raw)) else none

/-- The words of a rule are found in the line. -/
lemma exists_words_ruleText (raw : String) :
    ∃ ws, (∀ w ∈ ws, IsWord w) ∧ ruleText raw = String.ofList (joinWith [' '] ws) :=
  ⟨(words raw.toList).drop 1, fun _ hw => isWord_of_mem_words (List.mem_of_mem_drop hw), rfl⟩

lemma trimmed_ruleText (raw : String) : trimmed (ruleText raw) = ruleText raw := by
  obtain ⟨ws, hws, htext⟩ := exists_words_ruleText raw
  rw [htext, trimmed, String.toList_ofList, trim_joinWith hws]

/-- **A line is taken for the rule that it stands for exactly if it stands for none, or it has no
parts of an image and does not run on.** -/
theorem takenRule?_eq_writtenRule?_iff :
    takenRule? raw = writtenRule? raw ↔
      (IsRuleLine raw → ¬ HasImage raw.toList ∧ ¬ RunsOn (ruleText raw)) := by
  obtain ⟨ws, hws, htext⟩ := exists_words_ruleText raw
  rw [takenRule?, writtenRule?, ← Rule.read_eq_ofText_iff hws htext]
  by_cases hrule : IsRuleLine raw
  · by_cases himage : HasImage raw.toList <;> simp [hrule, himage]
  · simp [hrule]

/-- A line for a rule begins as an image does. -/
lemma IsRuleLine.head_firstWord (h : IsRuleLine raw) : (firstWord raw).head? = some '!' := by
  obtain ⟨hind, hlead⟩ := h
  rw [firstWord_of_not_isIndented hind]
  cases hword : leadWord raw with
  | nil => simp [hword] at hlead
  | cons c more =>
      rw [hword] at hlead
      rw [eq_of_toLower_eq (List.cons.inj hlead).1 (by decide)]
      rfl

/-- A line for a rule is read as one unless it has the parts of an image. -/
lemma classify_of_isRuleLine (h : IsRuleLine raw) (hfeed : '\n' ∉ raw.toList)
    (himage : ¬ HasImage raw.toList) : classify raw = .ok ⟨.rule, ruleText raw, 0⟩ := by
  have hhead := h.head_firstWord
  obtain ⟨hind, hlead⟩ := h
  rw [← firstWord_of_not_isIndented hind] at hlead
  have hnone : imageMarker? raw.toList = none := by
    rw [imageMarker?, imageParts?_eq hfeed, (directiveParts?_eq_none_iff _).mpr himage]
    rfl
  have hfence : startsWith "```".toList (firstWord raw) = false :=
    startsWith_of_head (c := '\x60') (by simp [hhead])
  have hcomment : startsWith "<!--".toList (firstWord raw) = false :=
    startsWith_of_head (c := '<') (by simp [hhead])
  have hmarker : wordMarker? (firstWord raw) (textBehind raw) = .ok (some .rule) := by
    rw [wordMarker?, hlead]
    rfl
  rw [classify_of_noImage (fun e => by simp [e] at hhead) fun _ => hnone, hfence, hcomment,
    hmarker, if_neg Bool.false_ne_true, if_neg Bool.false_ne_true]
  rfl

/-- The word that marks a rule. -/
lemma lower_of_wordMarker? {word text : List Char} (h : wordMarker? word text = .ok (some .rule)) :
    word.map Char.toLower = "!!rule".toList := by
  unfold wordMarker? at h
  dsimp only at h
  split_ifs at h with _ _ hrule
  · simp at h
  · simp at h
  · rw [← hrule, String.toList_ofList]
  · simp at h
  · simp at h

/-- A line that is read as a rule is a line for one, and has no parts of an image. -/
lemma isRuleLine_of_classify (hfeed : '\n' ∉ raw.toList) (h : classify raw = .ok line)
    (hmarker : line.marker = .rule) : IsRuleLine raw ∧ ¬ HasImage raw.toList := by
  cases isClassifiedAs_of_classify h with
  | @word marker text hword =>
      obtain rfl : marker = .rule := hmarker
      have hlead := lower_of_wordMarker? hword
      have hind : ¬ IsIndented raw := by
        intro hind
        simp [firstWord_of_isIndented hind] at hlead
      have hrule : IsRuleLine raw := ⟨hind, by rwa [← firstWord_of_not_isIndented hind]⟩
      refine ⟨hrule, fun himage => ?_⟩
      obtain ⟨parts, hparts⟩ := Option.ne_none_iff_exists'.mp fun hnone =>
        (directiveParts?_eq_none_iff _).mp hnone himage
      have hread : ∃ alt source width height,
          imageMarker? raw.toList = some (.image alt source width height) := by
        rw [imageMarker?, imageParts?_eq hfeed, hparts]
        exact ⟨_, _, _, _, rfl⟩
      obtain ⟨alt, source, width, height, hread⟩ := hread
      rw [classify_of_imageMarker? hrule.head_firstWord hread] at h
      simp at h
  | _ => simp at hmarker

/-- The rule of a line is told by its marker. -/
theorem takenRule?_eq (hfeed : '\n' ∉ raw.toList) (h : classify raw = .ok line) :
    takenRule? raw = if line.marker = .rule then some (.read line.text) else none := by
  rw [takenRule?]
  by_cases hmarker : line.marker = .rule
  · have hrule := isRuleLine_of_classify hfeed h hmarker
    rw [classify_of_isRuleLine hrule.1 hfeed hrule.2] at h
    rw [if_pos hrule, if_pos hmarker, ← Except.ok.inj h]
  · have hnot : ¬ (IsRuleLine raw ∧ ¬ HasImage raw.toList) := by
      rintro ⟨hrule, himage⟩
      rw [classify_of_isRuleLine hrule hfeed himage] at h
      exact hmarker (by rw [← Except.ok.inj h])
    rw [if_neg hnot, if_neg hmarker]

/-- A line that a list can go on with is taken for no rule. -/
lemma takenRule?_of_bare (hfeed : '\n' ∉ raw.toList) (hline : classify raw = .ok line)
    (hbare : line.bare = .ok bare) (hmarker : bare.marker ≠ .rule) : takenRule? raw = none := by
  rw [takenRule?_eq hfeed hline, if_neg]
  intro hrule
  rw [Line.bare, if_neg (by simp [hrule])] at hbare
  exact hmarker (Except.ok.inj hbare ▸ hrule)

/-! ## Obedience -/

/-- Between two states of a reader some rules have been obeyed in their order, and nothing else has
been done to the settings and the findings. -/
structure Obeys (r : Reader) (rules : List Rule) (next : Reader) : Prop where
  settings : next.settings = rules.foldl Rule.apply r.settings
  found : next.found = (rules.filterMap Rule.finding?).reverse ++ r.found

lemma Obeys.refl (r : Reader) : Obeys r [] r := ⟨rfl, rfl⟩

lemma Obeys.trans {more : List Rule} (h : Obeys r rules next) (hnext : Obeys next more last) :
    Obeys r (rules ++ more) last where
  settings := by rw [hnext.settings, h.settings, List.foldl_append]
  found := by
    rw [hnext.found, h.found, List.filterMap_append, List.reverse_append, List.append_assoc]

lemma obeys_applyRule (r : Reader) (htext : trimmed text = text) :
    Obeys r [.read text] (r.applyRule text) := by
  rw [Reader.applyRule, Rule.read, htext]
  dsimp only
  generalize Reader.afterKeyword? "title" text = title?
  generalize Reader.afterKeyword? "author" text = author?
  split_ifs
  · exact ⟨rfl, rfl⟩
  · exact ⟨rfl, rfl⟩
  · cases title? <;> cases author? <;> exact ⟨rfl, rfl⟩

lemma obeys_pushText (r : Reader) (raw : String) : Obeys r [] (r.pushText raw) := by
  rw [Reader.pushText_eq]
  exact ⟨rfl, rfl⟩

/-- A line outside of lists and blocks of code obeys its rule. -/
lemma obeys_take (r : Reader) (hfeed : '\n' ∉ raw.toList) (h : classify raw = .ok line) :
    Obeys r (takenRule? raw).toList (r.take raw line) := by
  have htaken := takenRule?_eq hfeed h
  have hstart : Obeys r [] { r with place := .paragraphs } := ⟨rfl, rfl⟩
  rw [Reader.take]
  cases hmarker : line.marker with
  | rule =>
      obtain ⟨hrule, himage⟩ := isRuleLine_of_classify hfeed h hmarker
      have htext : trimmed line.text = line.text := by
        rw [classify_of_isRuleLine hrule hfeed himage] at h
        rw [← Except.ok.inj h, trimmed_ruleText]
      rw [htaken, if_pos hmarker]
      exact hstart.trans (obeys_applyRule _ htext)
  | plain =>
      rw [htaken, if_neg (by simp [hmarker])]
      exact hstart.trans (obeys_pushText _ raw)
  | indent =>
      rw [htaken, if_neg (by simp [hmarker])]
      exact hstart.trans (obeys_pushText _ raw)
  | _ =>
      rw [htaken, if_neg (by simp [hmarker])]
      exact ⟨rfl, rfl⟩

/-- The lines outside of blocks of code, given whether one is open before them. -/
def openLines : (inside : Bool) → List String → List String
  | _, [] => []
  | true, raw :: rest => openLines (codeAfter true raw) rest
  | false, raw :: rest => raw :: openLines (codeAfter false raw) rest

/-- What one line does to the settings and the findings. -/
theorem obeys_of_step (hfeed : '\n' ∉ raw.toList) (h : r.step raw = .ok next) :
    Obeys r (if r.place.isCode then [] else (takenRule? raw).toList) next := by
  have hopen {opened : OpenLists} {blank : Bool} (hplace : r.place = .lists opened blank) :
      r.place.isCode = false := by
    rw [hplace]
    rfl
  cases Reader.step_eq_ok_iff.mp h with
  | codeLine hplace hfence =>
      rw [hplace]
      exact ⟨rfl, rfl⟩
  | codeEnd hplace hfence =>
      rw [hplace]
      exact ⟨rfl, rfl⟩
  | paragraph hplace hline =>
      rw [hplace]
      exact obeys_take r hfeed hline
  | @blank opened blank line bare hplace hline hbare hblank =>
      have hmarker : bare.marker ≠ .rule := by simp [plain_of_isBlank hblank]
      rw [hopen hplace, takenRule?_of_bare hfeed hline hbare hmarker]
      exact ⟨rfl, rfl⟩
  | @goesOn opened taken blank line bare hplace hline hbare _ hmay _ =>
      have hmarker : bare.marker ≠ .rule := by
        rintro e
        simp [Line.mayGoOn, Marker.isListMarker, e] at hmay
      rw [hopen hplace, takenRule?_of_bare hfeed hline hbare hmarker]
      exact ⟨rfl, rfl⟩
  | @refused opened blank line bare hplace hline _ _ _ _ =>
      have hclose : Obeys r [] (r.closeLists opened) := ⟨rfl, rfl⟩
      rw [hopen hplace]
      exact hclose.trans (obeys_take _ hfeed hline)
  | @ends opened blank line bare hplace hline _ _ _ =>
      have hclose : Obeys r []
          (if blank then (r.closeLists opened).push (.ofText "") else r.closeLists opened) := by
        split_ifs <;> exact ⟨rfl, rfl⟩
      rw [hopen hplace]
      exact hclose.trans (obeys_take _ hfeed hline)

/-- All lines obey the rules that they are taken for, in their order. -/
theorem obeys_of_reads (h : Reads r lines last) (hfeeds : ∀ raw ∈ lines, '\n' ∉ raw.toList) :
    Obeys r ((openLines r.place.isCode lines).filterMap takenRule?) last := by
  induction h with
  | nil => exact Obeys.refl _
  | @cons r next last raw rest hstep _ ih =>
      obtain ⟨hfeed, hrest⟩ := List.forall_mem_cons.mp hfeeds
      have hlines := (obeys_of_step hfeed hstep).trans (ih hrest)
      rw [isCode_of_step hstep] at hlines
      cases hcode : r.place.isCode with
      | true =>
          rw [hcode] at hlines
          exact hlines
      | false =>
          rw [hcode] at hlines
          rw [openLines, List.filterMap_cons]
          cases htaken : takenRule? raw with
          | none =>
              rw [htaken] at hlines
              exact hlines
          | some rule =>
              rw [htaken] at hlines
              exact hlines

lemma obeys_finish (r : Reader) : Obeys r [] r.finish := by
  rw [Reader.finish]
  split <;> exact ⟨rfl, rfl⟩

/-! ## Reports -/

/-- The rules that the lines of a source outside of blocks of code stand for. -/
def rulesWritten (source : String) : List Rule :=
  (openLines false (sourceLines source)).filterMap writtenRule?

/-- The rules that these lines are taken for. -/
def rulesTaken (source : String) : List Rule :=
  (openLines false (sourceLines source)).filterMap takenRule?

/-- A report has the settings that some rules make, one after the other, and its findings about
rules are theirs. -/
structure IsRuledBy (parsed : Parsed) (rules : List Rule) : Prop where
  settings : parsed.document.settings = rules.foldl Rule.apply {}
  findings : ∃ others, parsed.diagnostics = rules.filterMap Rule.finding? ++ others ∧
    ∀ d ∈ others, ∀ text, d ≠ .unknownRule text

/-- What is found about an external document is found about its dictionary. -/
lemma ne_unknownRule_of_external? {read : ExternalDocument} {found : List Diagnostic}
    (h : external? text = some (read, found)) : ∀ d ∈ found, ∀ text, d ≠ .unknownRule text := by
  obtain ⟨⟨path, body⟩, -, hread⟩ := Option.map_eq_some_iff.mp h
  dsimp only at hread
  split at hread
  · obtain ⟨-, rfl⟩ := Prod.mk.inj hread
    simp
  · obtain ⟨-, rfl⟩ := Prod.mk.inj hread
    simp

/-- The passes over the nodes find nothing about rules. -/
lemma ne_unknownRule_of_mem_detect {nodes : List (Node String)} :
    ∀ d ∈ (detect nodes).2, ∀ text, d ≠ .unknownRule text := by
  intro d hd
  obtain ⟨node, -, hnode⟩ := List.mem_flatMap.mp hd
  cases node with
  | text p =>
      cases hread : external? p.text with
      | none => simp [externalNode, hread] at hnode
      | some read =>
          simp only [externalNode, hread] at hnode
          exact ne_unknownRule_of_external? hread d hnode
  | _ => simp [externalNode] at hnode

/-- Where nothing is found that is not found otherwise, the same is found in all exactly if it is
found in each. -/
lemma filterMap_eq_filterMap_iff {α β : Type} {f g : α → Option β}
    (h : ∀ x, g x = none → f x = none) :
    ∀ xs : List α, xs.filterMap f = xs.filterMap g ↔ ∀ x ∈ xs, f x = g x := by
  have hlength : ∀ xs : List α, (xs.filterMap f).length ≤ (xs.filterMap g).length := by
    intro xs
    induction xs with
    | nil => exact Nat.le_refl 0
    | cons x xs ih =>
        rw [List.filterMap_cons, List.filterMap_cons]
        cases hg : g x with
        | none =>
            rw [h x hg]
            exact ih
        | some b => cases f x <;> simp only [List.length_cons] <;> omega
  intro xs
  induction xs with
  | nil => simp
  | cons x xs ih =>
      rw [List.forall_mem_cons, ← ih, List.filterMap_cons, List.filterMap_cons]
      cases hg : g x with
      | none => simp [h x hg]
      | some b =>
          cases f x with
          | some a => simp
          | none =>
              have hne : xs.filterMap f ≠ b :: xs.filterMap g := by
                intro e
                have hle := hlength xs
                rw [e, List.length_cons] at hle
                omega
              simp [hne]

/-- **A report is ruled by the rules that the lines of its source are taken for, and these are the
rules that the lines stand for exactly if no line has the parts of an image and no first word runs
on.**  The texts of titles and authors begin where a character of the line does, whatever small
letters the keywords are looked for in. -/
theorem isRuledBy_of_parse {source : String} {parsed : Parsed} (h : parse source = .ok parsed) :
    IsRuledBy parsed (rulesTaken source) ∧
      (rulesTaken source = rulesWritten source ↔
        ∀ raw ∈ openLines false (sourceLines source), IsRuleLine raw →
          ¬ HasImage raw.toList ∧ ¬ RunsOn (ruleText raw)) ∧
      ∀ raw ∈ openLines false (sourceLines source), IsRuleLine raw →
        ∀ small, IsLowered (ruleText raw).toList small →
          Rule.ofLowered? small (ruleText raw) = some (Rule.read (ruleText raw)) := by
  refine ⟨?_, ?_, fun raw _ _ small hsmall => Rule.ofLowered?_eq hsmall⟩
  · obtain ⟨last, hrun, -⟩ := exists_reads_of_parse h
    have hobeys := (obeys_of_reads hrun fun raw => not_mem_of_mem_sourceLines).trans
      (obeys_finish last)
    rw [List.append_nil] at hobeys
    rw [parse_of_reads hrun, Except.ok.injEq] at h
    rw [← h]
    refine ⟨hobeys.settings, (detect last.finish.newest.reverse).2, ?_,
      ne_unknownRule_of_mem_detect⟩
    have hfound : last.finish.found = ((rulesTaken source).filterMap Rule.finding?).reverse ++ [] :=
      hobeys.found
    rw [hfound, List.append_nil, List.reverse_reverse]
  · have hnone : ∀ raw, writtenRule? raw = none → takenRule? raw = none := by
      intro raw hraw
      have hnot : ¬ IsRuleLine raw := by
        intro hrule
        simp [writtenRule?, hrule] at hraw
      rw [takenRule?, if_neg fun hrule => hnot hrule.1]
    rw [rulesTaken, rulesWritten, filterMap_eq_filterMap_iff hnone]
    exact forall₂_congr fun raw _ => takenRule?_eq_writtenRule?_iff

/-- Rules in several cases, one of them in a block of code and one indented. -/
def ruledSource : String :=
  "!!rule title A  b\n!!RULE Authority\n```\n!!rule rainbow\n```\n    !!rule rainbow\n" ++
    "!!rule HIGHLIGHT code\n!!rule author\n!!rule colour"

/-- A word that begins with a keyword is the only one that is not taken for what it stands for. -/
theorem isRuledBy_of_parse_ruledSource :
    ∃ parsed, parse ruledSource = .ok parsed ∧
      IsRuledBy parsed [.title "A b", .author "ity", .highlightCode, .author "",
        .unknown "colour"] ∧
      rulesWritten ruledSource = [.title "A b", .unknown "Authority", .highlightCode, .author "",
        .unknown "colour"] := by
  have hread : (parse ruledSource).isOk = true := by decide +kernel
  have htaken : rulesTaken ruledSource = [.title "A b", .author "ity", .highlightCode, .author "",
      .unknown "colour"] := by decide +kernel
  cases hparsed : parse ruledSource with
  | error failure => simp [hparsed, Except.isOk, Except.toBool] at hread
  | ok parsed =>
      obtain ⟨hruled, -, -⟩ := isRuledBy_of_parse hparsed
      rw [htaken] at hruled
      exact ⟨parsed, rfl, hruled, by decide +kernel⟩

/-- A word that begins with a keyword sets a title. -/
theorem not_isRuledBy_rulesWritten :
    ∃ parsed, parse "!!rule titled" = .ok parsed ∧ parsed.document.settings.title = some "d" ∧
      rulesWritten "!!rule titled" = [.unknown "titled"] ∧
      ¬ IsRuledBy parsed (rulesWritten "!!rule titled") := by
  have hread : (parse "!!rule titled").toOption.map (·.document.settings.title)
      = some (some "d") := by decide +kernel
  have hwritten : rulesWritten "!!rule titled" = [.unknown "titled"] := by decide +kernel
  cases hparsed : parse "!!rule titled" with
  | error failure => simp [hparsed, Except.toOption] at hread
  | ok parsed =>
      have htitle : parsed.document.settings.title = some "d" := by
        simpa [hparsed, Except.toOption] using hread
      refine ⟨parsed, rfl, htitle, hwritten, fun hruled => ?_⟩
      rw [hwritten] at hruled
      have hsettings : parsed.document.settings = {} := hruled.settings
      simp [hsettings] at htitle

end ReportPress.Markup
