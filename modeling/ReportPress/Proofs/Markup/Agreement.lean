import ReportPress.Proofs.Markup.Step

/-!
# Readers that go on alike

A reader decides what a line means by the place where it is; of the nodes that have been read it
only looks at the newest one, and at that only to add a line to a paragraph.  So two readers at the
same place go on alike even if they have read different things before.

* `Reader.Agreement` — relations between readers at the same place that all ways to add to what has
  been read keep.  Such a relation is kept by every line (`Agreement.step`), by every run
  (`Agreement.reads`) and at the end (`Agreement.finish`).

**Two agreements.**  `AgreeAbove` — the same has been read since a node that is no paragraph,
whatever lies below it.  `Resembles` — what has been read differs in empty paragraphs alone.

**The end.**  `Reader.report` is the report that is made of what has been read, and `Document.nodes`
are its nodes.  Readers that
resemble each other make the same report, and `detect_append_block` says that the passes over the
nodes do not look across a node that is no paragraph.
-/

namespace ReportPress

/-- The nodes of all sections in order. -/
def Document.nodes {T : Type} (d : Document T) : List (Node T) := d.sections.flatMap Section.nodes

namespace Markup

open Text

variable {r s next last : Reader} {raw text : String} {lines : List String}
variable {nodes nodes' below below' : List (Node String)} {node : Node String}

/-- Empty paragraphs make no difference to the passes over the nodes. -/
lemma detect_reverse_congr (h : dropEmptyTexts nodes = dropEmptyTexts nodes') :
    detect nodes.reverse = detect nodes'.reverse := by
  have hreverse (nodes : List (Node String)) :
      dropEmptyTexts nodes.reverse = (dropEmptyTexts nodes).reverse := List.filter_reverse
  rw [detect, detect, hreverse, hreverse, h]

namespace Reader

/-! ## Agreements -/

/-- A relation between readers at the same place that holds on whatever both of them add to what
they have read. -/
structure Agreement (R : Reader → Reader → Prop) : Prop where
  place_eq {r s : Reader} : R r s → r.place = s.place
  goTo {r s : Reader} (place : Place) : R r s → R { r with place } { s with place }
  push {r s : Reader} {node : Node String} : (∀ p, node ≠ .text p) → R r s →
    R (r.push node) (s.push node)
  pushText {r s : Reader} (raw : String) : R r s → R (r.pushText raw) (s.pushText raw)
  applyRule {r s : Reader} (text : String) : R r s → R (r.applyRule text) (s.applyRule text)

namespace Agreement

variable {R : Reader → Reader → Prop}

lemma take (hR : Agreement R) (h : R r s) (raw : String) (line : Line) :
    R (r.take raw line) (s.take raw line) := by
  have hplace := hR.goTo .paragraphs h
  rw [Reader.take, Reader.take]
  cases line.marker with
  | heading level => exact hR.push (by simp [Node.ofTitle]) hplace
  | image alt source width height => exact hR.push (by simp) hplace
  | sectionBreak pageStart => exact hR.push (by simp) hplace
  | bullet => exact hR.goTo _ hplace
  | ordered index => exact hR.goTo _ hplace
  | fence => exact hR.goTo _ hplace
  | comment => exact hplace
  | rule => exact hR.applyRule _ hplace
  | plain => exact hR.pushText raw hplace
  | indent => exact hR.pushText raw hplace

lemma closeLists (hR : Agreement R) (h : R r s) (opened : OpenLists) :
    R (r.closeLists opened) (s.closeLists opened) := hR.push (by simp) h

/-- What one line keeps: where one of the readers can read it, so can the other. -/
theorem step (hR : Agreement R) (h : R r s) (hstep : r.step raw = .ok next) :
    ∃ next', s.step raw = .ok next' ∧ R next next' := by
  have hplace := hR.place_eq h
  simp only [step_eq_ok_iff] at hstep ⊢
  cases hstep with
  | codeLine hcode hfence => exact ⟨_, .codeLine (hplace ▸ hcode) hfence, hR.goTo _ h⟩
  | codeEnd hcode hfence =>
      exact ⟨_, .codeEnd (hplace ▸ hcode) hfence, hR.goTo _ (hR.push (by simp) h)⟩
  | paragraph hparagraphs hline =>
      exact ⟨_, .paragraph (hplace ▸ hparagraphs) hline, hR.take h raw _⟩
  | blank hlists hline hbare hblank =>
      exact ⟨_, .blank (hplace ▸ hlists) hline hbare hblank, hR.goTo _ h⟩
  | goesOn hlists hline hbare hblank hmay htaken =>
      exact ⟨_, .goesOn (hplace ▸ hlists) hline hbare hblank hmay htaken, hR.goTo _ h⟩
  | refused hlists hline hbare hblank hmay htaken =>
      exact ⟨_, .refused (hplace ▸ hlists) hline hbare hblank hmay htaken,
        hR.take (hR.closeLists h _) raw _⟩
  | @ends opened blank line bare hlists hline hbare hblank hmay =>
      refine ⟨_, .ends (hplace ▸ hlists) hline hbare hblank hmay, hR.take ?_ raw _⟩
      have hclosed := hR.closeLists h opened
      cases blank with
      | false => exact hclosed
      | true =>
          simp only [if_true, push_ofText_empty]
          exact hR.pushText "" hclosed

/-- What a run keeps. -/
theorem reads (hR : Agreement R) (h : R r s) (hrun : Reads r lines last) :
    ∃ last', Reads s lines last' ∧ R last last' := by
  induction hrun generalizing s with
  | nil r => exact ⟨s, .nil s, h⟩
  | cons hstep _ ih =>
      obtain ⟨next', hstep', hnext⟩ := hR.step h hstep
      obtain ⟨last', hrun', hlast⟩ := ih hnext
      exact ⟨last', .cons hstep' hrun', hlast⟩

theorem finish (hR : Agreement R) (h : R r s) : R r.finish s.finish := by
  rw [Reader.finish, Reader.finish, ← hR.place_eq h]
  cases r.place with
  | paragraphs => exact h
  | lists opened blank => exact hR.goTo _ (hR.closeLists h opened)
  | code code => exact hR.goTo _ (hR.push (by simp) h)

end Agreement

/-! ## The same since some node -/

/-- Two readers at the same place that have read the same since `node`, whatever they had read
before. -/
structure AgreeAbove (node : Node String) (below below' : List (Node String)) (r s : Reader) :
    Prop where
  place_eq : r.place = s.place
  newest_eq : ∃ top, r.newest = top ++ node :: below ∧ s.newest = top ++ node :: below'

/-- A line of text does not reach below a node that is no paragraph. -/
lemma exists_withText_append (hnode : ∀ p, node ≠ .text p) (text : String)
    (top : List (Node String)) :
    ∃ top', ∀ below, withText text (top ++ node :: below) = top' ++ node :: below := by
  cases top with
  | nil =>
      refine ⟨[.ofText text], fun below => ?_⟩
      cases node with
      | text p => exact absurd rfl (hnode p)
      | _ => rfl
  | cons newest top =>
      cases newest with
      | text p =>
          refine ⟨withText text (.text p :: top), fun below => ?_⟩
          rw [List.cons_append, withText, withText]
          split_ifs <;> rfl
      | _ => exact ⟨.ofText text :: _ :: top, fun below => rfl⟩

theorem agreement_agreeAbove (hnode : ∀ p, node ≠ .text p) :
    Agreement (AgreeAbove node below below') where
  place_eq h := h.place_eq
  goTo _ h := ⟨rfl, h.newest_eq⟩
  push {r s n} _ h := by
    obtain ⟨hplace, top, hr, hs⟩ := h
    exact ⟨hplace, n :: top, by simp [push, hr], by simp [push, hs]⟩
  pushText raw h := by
    obtain ⟨hplace, top, hr, hs⟩ := h
    obtain ⟨top', htop⟩ := exists_withText_append hnode (trimmed raw) top
    rw [pushText_eq, pushText_eq]
    exact ⟨hplace, top', by rw [← htop, ← hr], by rw [← htop, ← hs]⟩
  applyRule {r s} text h := by
    obtain ⟨hplace, top, hr, hs⟩ := h
    have hrule (r : Reader) : (r.applyRule text).place = r.place := place_applyRule r text
    exact ⟨by rw [hrule, hrule, hplace], top, by rw [newest_applyRule, hr],
      by rw [newest_applyRule, hs]⟩

/-! ## Gaps between paragraphs -/

/-- The paragraph that a line of text joins. -/
def openParagraph? : List (Node String) → Option (Paragraph String)
  | .text p :: _ => if p.text.isEmpty then none else some p
  | _ => none

/-- Empty paragraphs are plain ones, as blank lines leave them. -/
def HavePlainGaps (nodes : List (Node String)) : Prop :=
  ∀ p, .text p ∈ nodes → p.text.isEmpty = true → p = { text := "" }

/-- Two readers at the same place that have read the same up to empty paragraphs. -/
structure Resembles (r s : Reader) : Prop where
  place_eq : r.place = s.place
  settings_eq : r.settings = s.settings
  found_eq : r.found = s.found
  nodes_eq : dropEmptyTexts r.newest = dropEmptyTexts s.newest
  open_eq : openParagraph? r.newest = openParagraph? s.newest
  plain_left : HavePlainGaps r.newest
  plain_right : HavePlainGaps s.newest

/-- The open paragraph with one more line, or a new paragraph. -/
def extended (text : String) : Option (Paragraph String) → Paragraph String
  | some p => { p with text := p.text ++ "\n" ++ text }
  | none => { text }

lemma isEmpty_extended (htext : text.isEmpty = false) (p : Option (Paragraph String)) :
    (extended text p).text.isEmpty = false := by
  cases p with
  | none => exact htext
  | some p =>
      have hne : text ≠ "" := fun e => by simp [e] at htext
      simp [extended, hne]

lemma dropEmptyTexts_cons_text {p : Paragraph String} (hp : p.text.isEmpty = false) :
    dropEmptyTexts (.text p :: nodes) = .text p :: dropEmptyTexts nodes := by
  simp [dropEmptyTexts, hp]

lemma withText_of_isEmpty (htext : text.isEmpty = true) (nodes : List (Node String)) :
    withText text nodes = .ofText "" :: nodes := by
  obtain rfl : text = "" := by simpa using htext
  cases nodes with
  | nil => rfl
  | cons node nodes => cases node <;> rfl

/-- What a line of text does, seen without the gaps. -/
lemma exists_withText_eq (hplain : HavePlainGaps nodes) (htext : text.isEmpty = false) :
    ∃ rest, withText text nodes = .text (extended text (openParagraph? nodes)) :: rest ∧
      HavePlainGaps rest ∧
      dropEmptyTexts rest =
        if (openParagraph? nodes).isSome then (dropEmptyTexts nodes).tail
        else dropEmptyTexts nodes := by
  cases nodes with
  | nil => exact ⟨[], rfl, hplain, rfl⟩
  | cons node nodes =>
      cases node with
      | text p =>
          have hrest : HavePlainGaps nodes := fun q hq => hplain q (List.mem_cons_of_mem _ hq)
          refine ⟨nodes, ?_, hrest, ?_⟩
          · rw [withText, if_neg (by simp [htext]), openParagraph?]
            by_cases hp : p.text.isEmpty = true
            · obtain rfl := hplain p List.mem_cons_self hp
              rfl
            · rw [if_neg hp, if_neg hp]
              rfl
          · rw [openParagraph?]
            by_cases hp : p.text.isEmpty = true
            · simp [hp, dropEmptyTexts]
            · rw [dropEmptyTexts_cons_text (Bool.eq_false_iff.mpr hp), if_neg hp]
              rfl
      | _ => exact ⟨_, rfl, hplain, rfl⟩

lemma HavePlainGaps.cons (h : HavePlainGaps nodes)
    (hnode : ∀ p, node = .text p → p.text.isEmpty = true → p = { text := "" }) :
    HavePlainGaps (node :: nodes) := by
  intro p hp hempty
  rcases List.mem_cons.mp hp with hp | hp
  · exact hnode p hp.symm hempty
  · exact h p hp hempty

namespace Resembles

lemma refl (h : HavePlainGaps r.newest) : Resembles r r := ⟨rfl, rfl, rfl, rfl, rfl, h, h⟩

lemma symm (h : Resembles r s) : Resembles s r :=
  ⟨h.place_eq.symm, h.settings_eq.symm, h.found_eq.symm, h.nodes_eq.symm, h.open_eq.symm,
    h.plain_right, h.plain_left⟩

/-- A gap where no paragraph is open makes no difference. -/
lemma pushGap (h : Resembles r s) (hopen : openParagraph? s.newest = none) {raw : String}
    (hraw : (trimmed raw).isEmpty = true) : Resembles r (s.pushText raw) := by
  rw [pushText_eq, withText_of_isEmpty hraw]
  refine ⟨h.place_eq, h.settings_eq, h.found_eq, ?_, ?_, h.plain_left, ?_⟩
  · rw [h.nodes_eq]
    rfl
  · rw [h.open_eq, hopen]
    rfl
  · exact h.plain_right.cons fun p hp _ => (Node.text.inj hp).symm

lemma pushEmpty (h : Resembles r s) (hopen : openParagraph? s.newest = none) :
    Resembles r (s.push (.ofText "")) := by
  rw [push_ofText_empty]
  exact h.pushGap hopen rfl

end Resembles

theorem agreement_resembles : Agreement Resembles where
  place_eq h := h.place_eq
  goTo _ h := ⟨rfl, h.settings_eq, h.found_eq, h.nodes_eq, h.open_eq, h.plain_left, h.plain_right⟩
  push {r s node} hnode h := by
    have hplain : ∀ p, node = .text p → p.text.isEmpty = true → p = { text := "" } :=
      fun p hp => absurd hp (hnode p)
    have hkept (nodes : List (Node String)) :
        dropEmptyTexts (node :: nodes) = node :: dropEmptyTexts nodes ∧
          openParagraph? (node :: nodes) = none := by
      cases node with
      | text p => exact absurd rfl (hnode p)
      | _ => exact ⟨rfl, rfl⟩
    refine ⟨h.place_eq, h.settings_eq, h.found_eq, ?_, ?_, h.plain_left.cons hplain,
      h.plain_right.cons hplain⟩
    · rw [push, push, (hkept _).1, (hkept _).1, h.nodes_eq]
    · rw [push, push, (hkept _).2, (hkept _).2]
  pushText {r s} raw h := by
    rw [pushText_eq, pushText_eq]
    cases htext : (trimmed raw).isEmpty with
    | true =>
        have hplain : ∀ p, Node.ofText "" = .text p → p.text.isEmpty = true → p = { text := "" } :=
          fun p hp _ => (Node.text.inj hp).symm
        rw [withText_of_isEmpty htext, withText_of_isEmpty htext]
        exact ⟨h.place_eq, h.settings_eq, h.found_eq, h.nodes_eq, rfl, h.plain_left.cons hplain,
          h.plain_right.cons hplain⟩
    | false =>
        obtain ⟨rest, hr, hplain, hnodes⟩ := exists_withText_eq h.plain_left htext
        obtain ⟨rest', hs, hplain', hnodes'⟩ := exists_withText_eq h.plain_right htext
        rw [hr, hs, ← h.open_eq]
        rw [← h.open_eq, ← h.nodes_eq, ← hnodes] at hnodes'
        have hfull := isEmpty_extended htext (openParagraph? r.newest)
        have hnew : ∀ p, Node.text (extended (trimmed raw) (openParagraph? r.newest)) = .text p →
            p.text.isEmpty = true → p = { text := "" } := by
          intro p hp hempty
          rw [← Node.text.inj hp, hfull] at hempty
          exact absurd hempty Bool.false_ne_true
        refine ⟨h.place_eq, h.settings_eq, h.found_eq, ?_, rfl, hplain.cons hnew,
          hplain'.cons hnew⟩
        rw [dropEmptyTexts_cons_text hfull, dropEmptyTexts_cons_text hfull, hnodes']
  applyRule {r s} text h := by
    obtain ⟨place, newest, settings, found⟩ := r
    obtain ⟨place', newest', settings', found'⟩ := s
    obtain ⟨rfl, rfl, rfl, hnodes, hopen, hplain, hplain'⟩ := h
    have hfields (newest newest' : List (Node String)) :
        (applyRule ⟨place, newest, settings, found⟩ text).settings
            = (applyRule ⟨place, newest', settings, found⟩ text).settings ∧
          (applyRule ⟨place, newest, settings, found⟩ text).found
            = (applyRule ⟨place, newest', settings, found⟩ text).found := by
      unfold applyRule
      dsimp only
      split
      · exact ⟨rfl, rfl⟩
      · split
        · exact ⟨rfl, rfl⟩
        · split <;> exact ⟨rfl, rfl⟩
    refine ⟨by rw [place_applyRule, place_applyRule], (hfields _ _).1, (hfields _ _).2, ?_, ?_, ?_,
      ?_⟩ <;> simpa only [newest_applyRule]

/-- Readers that have read the same up to empty paragraphs end alike. -/
lemma Resembles.exists_reads (h : Resembles r s) (hrun : Reads r lines last) :
    ∃ last', Reads s lines last' ∧ Resembles last.finish last'.finish := by
  obtain ⟨last', hrun', hlast⟩ := agreement_resembles.reads h hrun
  exact ⟨last', hrun', agreement_resembles.finish hlast⟩

/-! ## The end -/

/-- The report that is made of what has been read. -/
def report (r : Reader) : Parsed where
  document :=
    { sections := [{ pageStart := some 1, nodes := (detect r.finish.newest.reverse).1 }]
      settings := r.finish.settings }
  diagnostics := r.finish.found.reverse ++ (detect r.finish.newest.reverse).2

lemma nodes_report (r : Reader) :
    r.report.document.nodes = (detect r.finish.newest.reverse).1 := by
  simp [Document.nodes, Reader.report]

/-- Readers that have read the same up to empty paragraphs make the same report. -/
theorem Resembles.report_eq (h : Resembles r.finish s.finish) : r.report = s.report := by
  have hdetect := detect_reverse_congr h.nodes_eq
  rw [report, report, hdetect, h.settings_eq, h.found_eq]

end Reader

/-- A source is read as what a run over its lines makes of it. -/
theorem parse_eq_ok_iff {source : String} {parsed : Parsed} :
    parse source = .ok parsed ↔
      ∃ last, Reads {} (sourceLines source) last ∧ parsed = last.report := by
  constructor
  · intro h
    cases hr : readLines {} 1 (sourceLines source) with
    | error fault =>
        rw [parse, hr] at h
        exact absurd h (by simp [bind, Except.bind])
    | ok last =>
        have hrun : Reads {} (sourceLines source) last := reads_of_readLines hr
        rw [parse_of_reads hrun, Except.ok.injEq] at h
        exact ⟨last, hrun, h.symm⟩
  · rintro ⟨last, hrun, rfl⟩
    exact parse_of_reads hrun

/-- Some lines take a reader to one state only. -/
lemma Reads.eq {last' : Reader} (h : Reads r lines last) (h' : Reads r lines last') :
    last = last' := by
  have heq := h.readLines_eq 1
  rw [h'.readLines_eq 1] at heq
  exact (Except.ok.inj heq).symm

lemma pushNode_append (hnode : ∀ p, node ≠ .text p) (top below : List (Node String))
    (n : Node String) :
    pushNode (top ++ node :: below) n = pushNode top n ++ node :: below := by
  have hcaption : takeCaption (top ++ node :: below)
      = ((takeCaption top).1, (takeCaption top).2 ++ node :: below) := by
    cases top with
    | nil =>
        cases node with
        | text p => exact absurd rfl (hnode p)
        | _ => rfl
    | cons newest top => cases newest <;> rfl
  cases n with
  | text p =>
      rw [pushNode, pushNode]
      cases splitTable? p.text with
      | none => rfl
      | some found =>
          obtain ⟨rows, rest⟩ := found
          simp only [hcaption]
          cases rest <;> rfl
  | _ => rfl

lemma foldl_pushNode_append (hnode : ∀ p, node ≠ .text p) (below : List (Node String)) :
    ∀ nodes top : List (Node String), nodes.foldl pushNode (top ++ node :: below)
      = nodes.foldl pushNode top ++ node :: below
  | [], top => rfl
  | n :: nodes, top => by
      rw [List.foldl_cons, List.foldl_cons, pushNode_append hnode,
        foldl_pushNode_append hnode below nodes]

/-- The passes over the nodes do not look across a node that is no paragraph. -/
theorem detect_append_block (hnode : ∀ p, node ≠ .text p) (before after : List (Node String)) :
    (detect (before ++ node :: after)).1 = (detect before).1 ++ node :: (detect after).1 := by
  have hdrop : dropEmptyTexts (before ++ node :: after)
      = dropEmptyTexts before ++ node :: dropEmptyTexts after := by
    rw [dropEmptyTexts, List.filter_append]
    cases node with
    | text p => exact absurd rfl (hnode p)
    | _ => rfl
  have hexternal : (externalNode node).1 = node := by
    rw [externalNode_eq_self fun p hp => absurd hp (hnode p)]
  have hpush (before : List (Node String)) : pushNode before node = node :: before :=
    pushNode_eq_cons fun p hp => absurd hp (hnode p)
  have habove := foldl_pushNode_append hnode
    ((dropEmptyTexts before |>.map fun n => (externalNode n).1).foldl pushNode [])
    (dropEmptyTexts after |>.map fun n => (externalNode n).1) []
  rw [detect, detect, detect, hdrop]
  simp only [externals, tables, List.map_append, List.map_cons, hexternal, List.foldl_append,
    List.foldl_cons, hpush]
  rw [← List.nil_append (node :: _), habove]
  simp

end Markup

end ReportPress
