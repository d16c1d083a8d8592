import ReportPress.Proofs.Enrich.PageBreaks
import ReportPress.Proofs.Markup.HeadingLevels
import ReportPress.Proofs.Typeset.SectionBreaks
import ReportPress.Enrich.Conventions

/-!
# Where page breaks print empty pages

An empty page is printed where two page breaks follow each other, or where a section begins with
one.  A report that has been read has no page breaks; the conventions put them in, each where a part
of the report ends or begins.

* `partsOf` — the sections of a report after the conventions, split at its section breaks.

**Reading.**  `exists_nodes_of_parse` — what has been read is one section without page breaks.

**Splitting.**  `isChain_splitSections_iff` — what holds of neighbours before the splitting and
after it.  Both kinds of empty pages are of this form, with a section break for the beginning of a
section.

**The result.**  `exists_doubled_iff` and `exists_headed_iff` say for either kind in which gaps of
what has been read it comes about, and **`emptyPages_of_parse`** puts them together.
-/

namespace ReportPress

open Text

/-! ## Reading -/

namespace Markup

namespace Reader

variable {r next : Reader} {raw : String}

lemma not_mem_push {node : Node String} (h : .pageBreak ∉ r.newest) (hnode : node ≠ .pageBreak) :
    .pageBreak ∉ (r.push node).newest :=
  List.not_mem_cons_of_ne_of_not_mem hnode.symm h

lemma not_mem_pushText (h : .pageBreak ∉ r.newest) : .pageBreak ∉ (r.pushText raw).newest := by
  unfold pushText
  dsimp only
  split
  case h_1 p before hnewest =>
    split_ifs
    · exact not_mem_push h (by simp [Node.ofText])
    all_goals
      rw [hnewest] at h
      exact List.not_mem_cons_of_ne_of_not_mem (by simp) (List.not_mem_of_not_mem_cons h)
  case h_2 => exact not_mem_push h (by simp [Node.ofText])

lemma not_mem_take (h : .pageBreak ∉ r.newest) (line : Line) :
    .pageBreak ∉ (r.take raw line).newest := by
  have hplace : .pageBreak ∉ ({ r with place := .paragraphs } : Reader).newest := h
  rw [take]
  cases line.marker with
  | plain | indent => exact not_mem_pushText hplace
  | heading level => exact not_mem_push hplace (by simp [Node.ofTitle])
  | image alt source width height => exact not_mem_push hplace (by simp)
  | sectionBreak pageStart => exact not_mem_push hplace (by simp)
  | bullet | ordered index | fence | comment => exact h
  | rule =>
      dsimp only
      rwa [newest_applyRule]

/-- What one line keeps: no page break is read. -/
lemma not_mem_step (h : .pageBreak ∉ r.newest) (hstep : r.step raw = .ok next) :
    .pageBreak ∉ next.newest := by
  cases step_eq_ok_iff.mp hstep with
  | codeLine => exact h
  | codeEnd => exact not_mem_push h (by simp)
  | paragraph => exact not_mem_take h _
  | blank => exact h
  | goesOn => exact h
  | refused => exact not_mem_take (not_mem_push h (by simp)) _
  | @ends opened blank =>
      refine not_mem_take ?_ _
      cases blank with
      | false => exact not_mem_push h (by simp)
      | true => exact not_mem_push (not_mem_push h (by simp)) (by simp [Node.ofText])

lemma not_mem_finish (h : .pageBreak ∉ r.newest) : .pageBreak ∉ r.finish.newest := by
  unfold finish
  split
  case h_1 => exact h
  case h_2 => exact not_mem_push h (by simp)
  case h_3 => exact not_mem_push h (by simp)

end Reader

variable {node : Node String} {nodes before : List (Node String)}

lemma externalNode_ne (h : node ≠ .pageBreak) : (externalNode node).1 ≠ .pageBreak := by
  unfold externalNode
  split
  case h_1 p => split <;> simp
  case h_2 => exact h

lemma not_mem_pushNode (hbefore : .pageBreak ∉ before) (h : node ≠ .pageBreak) :
    .pageBreak ∉ pushNode before node := by
  have hcaption : .pageBreak ∉ (takeCaption before).2 := by
    unfold takeCaption
    split
    case h_1 => exact List.not_mem_of_not_mem_cons hbefore
    case h_2 => exact hbefore
  have hpush := List.not_mem_cons_of_ne_of_not_mem h.symm hbefore
  unfold pushNode
  split
  case h_2 => exact hpush
  case h_1 p =>
    split
    case h_1 => exact hpush
    case h_2 rows left hsplit =>
      have htable :
          .pageBreak ∉ .table (takeCaption before).1 rows false :: (takeCaption before).2 :=
        List.not_mem_cons_of_ne_of_not_mem (by simp) hcaption
      cases left with
      | none => exact htable
      | some text => exact List.not_mem_cons_of_ne_of_not_mem (by simp [Node.ofText]) htable

lemma not_mem_foldl_pushNode (hbefore : .pageBreak ∉ before) (h : .pageBreak ∉ nodes) :
    .pageBreak ∉ nodes.foldl pushNode before := by
  induction nodes generalizing before with
  | nil => exact hbefore
  | cons node nodes ih =>
      exact ih (not_mem_pushNode hbefore (List.ne_of_not_mem_cons h).symm)
        (List.not_mem_of_not_mem_cons h)

/-- The passes over the nodes bring in no page break. -/
lemma not_mem_detect (h : .pageBreak ∉ nodes) : .pageBreak ∉ (detect nodes).1 := by
  have hexternals : .pageBreak ∉ (externals (dropEmptyTexts nodes)).1 := by
    intro hmem
    obtain ⟨n, hn, heq⟩ := List.mem_map.mp hmem
    refine externalNode_ne ?_ heq
    rintro rfl
    exact h (List.mem_filter.mp hn).1
  intro hmem
  exact not_mem_foldl_pushNode List.not_mem_nil hexternals (List.mem_reverse.mp hmem)

/-- A report that has been read is one section without page breaks. -/
theorem exists_nodes_of_parse {source : String} {parsed : Parsed} (h : parse source = .ok parsed) :
    ∃ nodes, parsed.document.sections = [{ pageStart := some 1, nodes }] ∧ .pageBreak ∉ nodes := by
  obtain ⟨last, hreads, hsections⟩ := reads_of_parse h
  have hlast : .pageBreak ∉ last.newest :=
    hreads.keeps (P := fun r => .pageBreak ∉ r.newest)
      (fun _ _ hr hstep => Reader.not_mem_step hr hstep) List.not_mem_nil
  refine ⟨_, hsections, not_mem_detect fun hmem => ?_⟩
  exact Reader.not_mem_finish hlast (List.mem_reverse.mp hmem)

end Markup

namespace Typeset

/-! ## Splitting -/

variable {R : Node String → Node String → Prop} {start : Option UInt32}

/-- What holds of neighbours in a section holds of them in the sections that it is cut into, if it
always holds before a break and is the same behind every break. -/
lemma isChain_cutSection_iff (hbefore : ∀ x start, R x (.sectionBreak start))
    (hbehind : ∀ start y, R (.sectionBreak start) y ↔ R (.sectionBreak none) y)
    {start : Option UInt32} {nodes : List (Node String)} {first : Section String}
    {rest : List (Section String)} (hcut : cutSection start nodes = first :: rest)
    (x : Node String) :
    ((x :: first.nodes).IsChain R ∧ ∀ s ∈ rest, (.sectionBreak none :: s.nodes).IsChain R)
      ↔ (x :: nodes).IsChain R := by
  induction nodes generalizing start first rest x with
  | nil =>
      obtain ⟨rfl, rfl⟩ := List.cons.inj hcut
      simp
  | cons node nodes ih =>
      rw [List.isChain_cons_cons]
      cases hnode : breakStart? node with
      | some next =>
          obtain ⟨kept, others, hmore, -⟩ := exists_cutSection_eq next nodes
          rw [cutSection_of_breakStart?_some hnode, hmore] at hcut
          obtain ⟨rfl, rfl⟩ := List.cons.inj hcut
          obtain ⟨shown, rfl⟩ : ∃ start, node = .sectionBreak start := by
            cases node with
            | sectionBreak shown => exact ⟨shown, rfl⟩
            | _ => exact nomatch hnode
          have hsame : (Node.sectionBreak shown :: nodes).IsChain R
              ↔ (Node.sectionBreak none :: nodes).IsChain R := by
            rw [List.isChain_cons, List.isChain_cons]
            simp only [hbehind shown]
          rw [List.forall_mem_cons, ih hmore, hsame]
          simp only [hbefore, List.IsChain.singleton, true_and]
      | none =>
          obtain ⟨kept, others, hmore, hjoin⟩ := exists_cutSection_eq start nodes
          rw [hjoin node hnode] at hcut
          obtain ⟨rfl, rfl⟩ := List.cons.inj hcut
          rw [List.isChain_cons_cons, and_assoc, ih hmore]

lemma isChain_splitSections_iff (hbefore : ∀ x start, R x (.sectionBreak start))
    (hbehind : ∀ start y, R (.sectionBreak start) y ↔ R (.sectionBreak none) y)
    (s : Section String) :
    (∀ part ∈ splitSections [s], (.sectionBreak none :: part.nodes).IsChain R)
      ↔ (.sectionBreak none :: s.nodes).IsChain R := by
  obtain ⟨kept, others, hcut, -⟩ := exists_cutSection_eq s.pageStart s.nodes
  rw [← isChain_cutSection_iff hbefore hbehind hcut, ← List.forall_mem_cons
    (p := fun part : Section String => (.sectionBreak none :: part.nodes).IsChain R), ← hcut]
  constructor
  · intro h part hpart
    by_cases hempty : part.nodes = []
    · simp [hempty]
    · exact h part (by simp [splitSections, hpart, hempty])
  · intro h part hpart
    exact h part (by simpa [splitSections] using (List.mem_filter.mp hpart).1)

/-- No break is left in the sections between breaks. -/
lemma isBreak_eq_false_of_mem_cutSection {start : Option UInt32} {nodes : List (Node String)}
    {part : Section String} (hpart : part ∈ cutSection start nodes) :
    ∀ n ∈ part.nodes, isBreak n = false := by
  induction nodes generalizing start part with
  | nil =>
      rw [List.mem_singleton.mp hpart]
      simp
  | cons node nodes ih =>
      cases hnode : breakStart? node with
      | some next =>
          rw [cutSection_of_breakStart?_some hnode] at hpart
          rcases List.mem_cons.mp hpart with rfl | hpart
          · simp
          · exact ih hpart
      | none =>
          obtain ⟨kept, others, hmore, hjoin⟩ := exists_cutSection_eq start nodes
          rw [hjoin node hnode] at hpart
          rcases List.mem_cons.mp hpart with rfl | hpart
          · refine List.forall_mem_cons.mpr ⟨by rw [isBreak, hnode]; rfl, ?_⟩
            exact ih (by rw [hmore]; exact List.mem_cons_self)
          · exact ih (by rw [hmore]; exact List.mem_cons_of_mem _ hpart)

end Typeset

namespace Enrich

open Markup Typeset

/-! ## Punctuation -/

lemma punctuateNodes_eq_map (nodes : List (Node String)) :
    punctuateNodes nodes = nodes.map punctuateNode := by
  induction nodes with
  | nil => rw [punctuateNodes]; rfl
  | cons node nodes ih => rw [punctuateNodes, ih, List.map_cons]

lemma punctuateNode_eq_pageBreak_iff {node : Node String} :
    punctuateNode node = .pageBreak ↔ node = .pageBreak := by
  cases node <;> simp [punctuateNode]

lemma isBreak_punctuateNode (node : Node String) : isBreak (punctuateNode node) = isBreak node := by
  cases node <;> simp [punctuateNode, isBreak, breakStart?]

/-! ## The result -/

section Result

variable {nodes : List (Node String)} {start : Option UInt32}

/-- The sections of a report after the conventions. -/
def partsOf (d : RawDocument) : List (Section String) := splitSections (enrich d).1.sections

/-- Page breaks spare some nodes in the sections of a report exactly if they do so in the gaps of
what has been read. -/
lemma isChain_partsOf_iff {p : Node String → Prop} (hp : ∀ n, isAnyBreak n = false → ¬ p n)
    (hpunctuate : ∀ n, p (punctuateNode n) ↔ p n)
    (hbreak : ∀ start, p (.sectionBreak start) ↔ p (.sectionBreak none)) {d : RawDocument}
    (hsections : d.sections = [{ pageStart := start, nodes }]) (hnodes : .pageBreak ∉ nodes) :
    (∀ part ∈ partsOf d, (.sectionBreak none :: part.nodes).IsChain (Spares p)) ↔
      ∀ before after, nodes = before.reverse ++ after →
        (previous before :: breaks before after).IsChain (Spares p) := by
  have henrich : (enrich d).1.sections
      = [{ pageStart := start, nodes := (gapByGap [] nodes).map punctuateNode }] := by
    rw [enrich, hsections, ← applyHeadings_eq_gapByGap, ← punctuateNodes_eq_map]
    rfl
  have hspares (x y : Node String) :
      Spares p (punctuateNode x) (punctuateNode y) ↔ Spares p x y := by
    rw [Spares, Spares, hpunctuate, Ne, punctuateNode_eq_pageBreak_iff]
  have hmap : (.sectionBreak none :: (gapByGap [] nodes).map punctuateNode).IsChain (Spares p)
      ↔ (previous [] :: gapByGap [] nodes).IsChain (Spares p) := by
    have hfirst : Node.sectionBreak none = punctuateNode (previous []) := by
      simp [previous, punctuateNode]
    rw [hfirst, ← List.map_cons, List.isChain_map]
    simp only [hspares]
  rw [partsOf, henrich, isChain_splitSections_iff, hmap, isChain_gapByGap_iff hp nodes [] hnodes]
  · constructor
    · intro h before after heq
      simpa using h before.reverse after heq
    · intro h front after heq
      simpa using h front.reverse after (by simpa using heq)
  · exact fun x start _ => by simp
  · intro start y
    rw [Spares, Spares, hbreak]

lemma previous_ne (hnodes : .pageBreak ∉ nodes) {before after : List (Node String)}
    (heq : nodes = before.reverse ++ after) : previous before ≠ .pageBreak := by
  cases before with
  | nil => simp [previous]
  | cons node before =>
      rintro rfl
      exact hnodes (by simp [heq])

lemma isBreak_previous_iff {before : List (Node String)} :
    isBreak (previous before) = true ↔ ∀ n ∈ before.head?, isBreak n = true := by
  cases before with
  | nil => simp [previous, isBreak, breakStart?]
  | cons node before => simp [previous]

lemma isBreak_eq_false_of_mem_partsOf {d : RawDocument} {part : Section String}
    (hpart : part ∈ partsOf d) : ∀ n ∈ part.nodes, isBreak n = false := by
  obtain ⟨s, -, hcut⟩ := List.mem_flatMap.mp (List.mem_filter.mp hpart).1
  exact isBreak_eq_false_of_mem_cutSection hcut

/-- Two page breaks follow each other in the sections of a report exactly if a part ends and another
begins with one in the same gap. -/
lemma exists_doubled_iff {d : RawDocument}
    (hsections : d.sections = [{ pageStart := start, nodes }]) (hnodes : .pageBreak ∉ nodes) :
    (∃ part ∈ partsOf d, [.pageBreak, .pageBreak] <:+: part.nodes) ↔
      ∃ before after, nodes = before.reverse ++ after ∧ closes before after ∧ opens after := by
  have hchain := isChain_partsOf_iff (p := (· = .pageBreak))
    (fun n hn hbreak => by rw [hbreak] at hn; exact Bool.noConfusion hn)
    (fun n => punctuateNode_eq_pageBreak_iff) (fun start => by simp) hsections hnodes
  have hpart (part : Section String) :
      (.sectionBreak none :: part.nodes).IsChain (Spares (· = .pageBreak))
        ↔ ¬ [.pageBreak, .pageBreak] <:+: part.nodes := by
    rw [List.isChain_cons, isChain_pageBreak_iff]
    simp [Spares]
  have hgap (before after : List (Node String)) (heq : nodes = before.reverse ++ after) :=
    isChain_breaks_pageBreak_iff (previous_ne hnodes heq) before after
  simp only [hpart] at hchain
  rw [← not_iff_not]
  push Not
  rw [hchain]
  exact forall₃_congr fun before after heq => by rw [hgap before after heq, not_and]

/-- A section of a report begins with a page break exactly if there is one in a gap where it
begins. -/
lemma exists_headed_iff {d : RawDocument}
    (hsections : d.sections = [{ pageStart := start, nodes }]) (hnodes : .pageBreak ∉ nodes) :
    (∃ part ∈ partsOf d, part.nodes.head? = some .pageBreak) ↔
      ∃ before after, nodes = before.reverse ++ after ∧ (∀ n ∈ before.head?, isBreak n = true) ∧
        (closes before after ∨ opens after) := by
  have hchain := isChain_partsOf_iff (p := (isBreak · = true))
    (fun n hn hbreak => by cases n <;> simp_all [isAnyBreak, isBreak, breakStart?])
    (fun n => by rw [isBreak_punctuateNode]) (fun start => Iff.rfl) hsections hnodes
  have hpart (part : Section String) (hmem : part ∈ partsOf d) :
      (.sectionBreak none :: part.nodes).IsChain (Spares (isBreak · = true))
        ↔ part.nodes.head? ≠ some .pageBreak := by
    have hinside : part.nodes.IsChain (Spares (isBreak · = true)) := by
      refine List.isChain_iff_forall_rel_of_append_cons_cons.mpr fun a b front back heq ha => ?_
      have hnot := isBreak_eq_false_of_mem_partsOf hmem a (by simp [heq])
      exact Bool.noConfusion (hnot.symm.trans ha)
    rw [List.isChain_cons, and_iff_left hinside]
    constructor
    · exact fun h hhead => h _ hhead rfl rfl
    · rintro h n hn - rfl
      exact h hn
  have hparts : (∀ part ∈ partsOf d, part.nodes.head? ≠ some .pageBreak) ↔
      ∀ before after, nodes = before.reverse ++ after →
        (previous before :: breaks before after).IsChain (Spares (isBreak · = true)) := by
    rw [← hchain]
    exact forall₂_congr fun part hmem => (hpart part hmem).symm
  rw [← not_iff_not]
  push Not
  rw [hparts]
  refine forall₃_congr fun before after _ => ?_
  rw [isChain_breaks_iff (by simp [isBreak, breakStart?]), isBreak_previous_iff]
  push Not
  rfl

/-- A report that has been read is one section without page breaks.  When the conventions have been
applied and the section has been split, page breaks follow each other exactly where a part that ends
meets one that begins, and a section begins with a page break exactly where a part ends or begins
right behind a section break or at the very beginning. -/
theorem emptyPages_of_parse {source : String} {parsed : Parsed} (h : parse source = .ok parsed) :
    ∃ nodes, parsed.document.sections = [{ pageStart := some 1, nodes }] ∧ .pageBreak ∉ nodes ∧
      ((∃ part ∈ partsOf parsed.document, [.pageBreak, .pageBreak] <:+: part.nodes) ↔
        ∃ before after, nodes = before.reverse ++ after ∧
          closes before after ∧ opens after) ∧
      ((∃ part ∈ partsOf parsed.document, part.nodes.head? = some .pageBreak) ↔
        ∃ before after, nodes = before.reverse ++ after ∧
          (∀ n ∈ before.head?, isBreak n = true) ∧ (closes before after ∨ opens after)) := by
  obtain ⟨nodes, hsections, hnodes⟩ := exists_nodes_of_parse h
  exact ⟨nodes, hsections, hnodes, exists_doubled_iff hsections hnodes,
    exists_headed_iff hsections hnodes⟩

/-- An abstract that goes up to a conclusion in a section of its own. -/
def sectionedSource : String := "# Реферат\n!!section\n# Заключение"

lemma parse_sectionedSource :
    parse sectionedSource = .ok {
      document := {
        sections := [{
          pageStart := some 1
          nodes := [.ofTitle "Реферат" 1, .sectionBreak none, .ofTitle "Заключение" 1] }]
        settings := {} }
      diagnostics := [] } := rfl

/-- Two page breaks meet there, at the beginning of a section. -/
theorem emptyPages_of_parse_sectionedSource :
    ∃ parsed, parse sectionedSource = .ok parsed ∧
      (∃ part ∈ partsOf parsed.document, [.pageBreak, .pageBreak] <:+: part.nodes) ∧
      ∃ part ∈ partsOf parsed.document, part.nodes.head? = some .pageBreak := by
  obtain ⟨nodes, hsections, -, hdoubled, hheaded⟩ := emptyPages_of_parse parse_sectionedSource
  obtain rfl := (Section.mk.inj (List.singleton_inj.mp hsections)).2
  have hcloses : closes [.sectionBreak none, .ofTitle "Реферат" 1]
      [.ofTitle "Заключение" 1] = true := by
    decide +kernel
  have hopens : opens [.ofTitle "Заключение" 1] = true := by decide +kernel
  exact ⟨_, parse_sectionedSource,
    hdoubled.mpr ⟨[.sectionBreak none, .ofTitle "Реферат" 1], _, rfl, hcloses, hopens⟩,
    hheaded.mpr ⟨[.sectionBreak none, .ofTitle "Реферат" 1], _, rfl, by simp [isBreak, breakStart?],
      Or.inl hcloses⟩⟩

/-- A report with nothing between its introduction and its conclusion has two page breaks there, and
one that is no more than a conclusion begins with a page break. -/
theorem emptyPages_withoutChapters :
    (∃ parsed, parse "# Введение\n# Заключение" = .ok parsed ∧
      ∃ part ∈ partsOf parsed.document, [.pageBreak, .pageBreak] <:+: part.nodes) ∧
    ∃ parsed, parse "# Заключение" = .ok parsed ∧
      ∃ part ∈ partsOf parsed.document, part.nodes.head? = some .pageBreak := by
  have hdoubled : parse "# Введение\n# Заключение" = .ok {
      document := {
        sections := [{
          pageStart := some 1, nodes := [.ofTitle "Введение" 1, .ofTitle "Заключение" 1] }]
        settings := {} }
      diagnostics := [] } := rfl
  have hheaded : parse "# Заключение" = .ok {
      document := {
        sections := [{ pageStart := some 1, nodes := [.ofTitle "Заключение" 1] }]
        settings := {} }
      diagnostics := [] } := rfl
  exact ⟨⟨_, hdoubled, _, List.mem_cons_self, [_], [_], rfl⟩,
    _, hheaded, _, List.mem_cons_self, rfl⟩

end Result

end Enrich

end ReportPress
