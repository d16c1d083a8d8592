import ReportPress.Proofs.Markup.Reader

/-!
# What the passes over the nodes leave

When a source has been read, empty paragraphs are dropped, then external documents are recognized,
then tables.  Each pass runs once, and the last one makes new paragraphs: the lines behind the last
row of a table.  No earlier pass has seen them, and the pass for tables does not look at them again.

* `IsPlain` — texts that are neither a directive nor a table.
* `IsBehindTable` — the paragraphs that stand right behind a table.

**Paragraphs as they are read.**  `hasLines_of_reads` — a paragraph is empty, or none of its lines
is; so lines that a table leaves over are a text that is not empty.

**One pass more.**  `detect_eq_self_iff` says when the passes change nothing, and
`detect_nodes_of_parse` applies it to a report as it is read: no paragraph of a section is empty,
and the passes would change nothing exactly if the paragraphs right behind tables are plain.
-/

namespace ReportPress.Markup

open Text

/-! ## Paragraphs as they are read -/

/-- Texts that are empty or have no empty line. -/
def HasLines (text : String) : Prop := text = "" ∨ ∀ line ∈ splitOn '\n' text.toList, line ≠ []

/-- Every paragraph that has been read is such a text. -/
def Reader.HasLines (r : Reader) : Prop := ∀ p, .text p ∈ r.newest → Markup.HasLines p.text

variable {r next last : Reader} {raw : String}

namespace Reader

lemma HasLines.push (h : r.HasLines) {node : Node String}
    (hnode : ∀ p, node = .text p → Markup.HasLines p.text) : (r.push node).HasLines := by
  intro p hp
  rcases List.mem_cons.mp hp with hp | hp
  · exact hnode p hp.symm
  · exact h p hp

/-- A line of text adds one line to a paragraph, which is not empty, or begins a paragraph. -/
lemma HasLines.pushText (h : r.HasLines) (hraw : '\n' ∉ raw.toList) :
    (r.pushText raw).HasLines := by
  have hlines : Markup.HasLines (trimmed raw) := by
    have hnot : '\n' ∉ (trimmed raw).toList := by
      rw [trimmed, String.toList_ofList]
      exact fun hmem => hraw (mem_of_mem_trim hmem)
    by_cases htext : trimmed raw = ""
    · exact Or.inl htext
    · right
      rw [splitOn_of_not_mem hnot]
      simpa using htext
  have hpush : (r.push (.ofText (trimmed raw))).HasLines :=
    h.push fun p hp => by rw [← Node.text.inj hp]; exact hlines
  rw [Reader.pushText]
  split
  case h_2 => exact hpush
  case h_1 q before hnewest =>
    split_ifs with htext hempty
    · exact hpush
    · intro p hp
      rcases List.mem_cons.mp hp with hp | hp
      · rw [Node.text.inj hp]
        exact hlines
      · exact h p (by rw [hnewest]; exact List.mem_cons_of_mem _ hp)
    · intro p hp
      rcases List.mem_cons.mp hp with hp | hp
      · have hq : Markup.HasLines q.text := h q (by rw [hnewest]; exact List.mem_cons_self)
        have hq' := hq.resolve_left (by simpa using hempty)
        have hl' := hlines.resolve_left (by simpa using htext)
        rw [Node.text.inj hp]
        right
        have hcut : (q.text ++ "\n" ++ trimmed raw).toList
            = q.text.toList ++ '\n' :: (trimmed raw).toList := by simp
        intro line hline
        rw [hcut, splitOn_append_cons] at hline
        rcases List.mem_append.mp hline with hline | hline
        · exact hq' line hline
        · exact hl' line hline
      · exact h p (by rw [hnewest]; exact List.mem_cons_of_mem _ hp)

lemma newest_applyRule (r : Reader) (text : String) : (r.applyRule text).newest = r.newest := by
  unfold applyRule
  dsimp only
  split
  · rfl
  · split
    · rfl
    · split <;> rfl

lemma HasLines.take (h : r.HasLines) (hraw : '\n' ∉ raw.toList) (line : Line) :
    (r.take raw line).HasLines := by
  have hnewest {r' : Reader} (e : r'.newest = r.newest) : r'.HasLines := fun p hp => h p (e ▸ hp)
  have hr : ({ r with place := .paragraphs } : Reader).HasLines := hnewest rfl
  rw [Reader.take]
  cases line.marker with
  | plain => exact hr.pushText hraw
  | indent => exact hr.pushText hraw
  | heading level => exact hr.push (by simp [Node.ofTitle])
  | image alt source width height => exact hr.push (by simp)
  | sectionBreak pageStart => exact hr.push (by simp)
  | bullet => exact hnewest rfl
  | ordered index => exact hnewest rfl
  | fence => exact hnewest rfl
  | comment => exact hnewest rfl
  | rule => exact hnewest (newest_applyRule _ _)

lemma HasLines.stepInLists (h : r.HasLines) (hraw : '\n' ∉ raw.toList) (opened : OpenLists)
    (blank : Bool) (line bare : Line) : (r.stepInLists opened blank raw line bare).HasLines := by
  have hclosed : (r.closeLists opened).HasLines := h.push (by simp)
  have hempty : ((r.closeLists opened).push (.ofText "")).HasLines :=
    hclosed.push fun p hp => Or.inl (by rw [← Node.text.inj hp])
  rw [Reader.stepInLists]
  split_ifs
  · exact h
  · split
    · exact h
    · exact hclosed.take hraw line
  · exact hempty.take hraw line
  · exact hclosed.take hraw line

/-- What one line keeps. -/
lemma HasLines.step (h : r.HasLines) (hraw : '\n' ∉ raw.toList) (hstep : r.step raw = .ok next) :
    next.HasLines := by
  rw [Reader.step] at hstep
  split at hstep
  case h_1 code hplace =>
    split_ifs at hstep
    · rw [← Except.ok.inj hstep]
      exact h.push (by simp)
    · rw [← Except.ok.inj hstep]
      exact h
  case h_2 hplace =>
    cases hread : classify raw with
    | error fault => simp [hread, bind, Except.bind] at hstep
    | ok line =>
        simp only [hread, bind, Except.bind, pure, Except.pure, Except.ok.injEq] at hstep
        rw [← hstep]
        exact h.take hraw line
  case h_3 opened blank hplace =>
    cases hread : classify raw with
    | error fault => simp [hread, bind, Except.bind] at hstep
    | ok line =>
        cases hbare : line.bare with
        | error fault => simp [hread, hbare, bind, Except.bind] at hstep
        | ok bare =>
            simp only [hread, hbare, bind, Except.bind, pure, Except.pure,
              Except.ok.injEq] at hstep
            rw [← hstep]
            exact h.stepInLists hraw opened blank line bare

lemma HasLines.finish (h : r.HasLines) : r.finish.HasLines := by
  rw [Reader.finish]
  split
  · exact h
  · exact h.push (by simp)
  · exact h.push (by simp)

end Reader

/-- What a whole run keeps. -/
theorem hasLines_of_reads {source : String} (h : Reads {} (sourceLines source) last) :
    last.finish.HasLines := by
  have hrun : last.HasLines := by
    refine h.keeps (fun raw hraw hr hstep => ?_) (by simp [Reader.HasLines])
    exact hr.step (not_mem_of_mem_sourceLines hraw) hstep
  exact hrun.finish

/-! ## When the passes change nothing -/

/-- Texts that no pass but the first would change: they are no directive and no table. -/
def IsPlain (text : String) : Prop := external? text = none ∧ splitTable? text = none

variable {nodes before : List (Node String)} {node : Node String}

/-- A node that the last two passes keep as it is. -/
lemma externalNode_eq_self (h : ∀ p, node = .text p → external? p.text = none) :
    externalNode node = (node, []) := by
  cases node with
  | text p => rw [externalNode, h p rfl]
  | _ => rfl

lemma pushNode_eq_cons (h : ∀ p, node = .text p → splitTable? p.text = none) :
    pushNode before node = node :: before := by
  cases node with
  | text p => rw [pushNode, h p rfl]
  | _ => rfl

lemma foldl_pushNode_eq : ∀ {nodes before : List (Node String)},
    (∀ p, .text p ∈ nodes → splitTable? p.text = none) →
      nodes.foldl pushNode before = nodes.reverse ++ before
  | [], before, _ => rfl
  | n :: ns, before, h => by
      have hn : pushNode before n = n :: before := pushNode_eq_cons fun p hp => h p (by simp [hp])
      have hns : ∀ p, .text p ∈ ns → splitTable? p.text = none :=
        fun p hp => h p (List.mem_cons_of_mem _ hp)
      rw [List.foldl_cons, hn, foldl_pushNode_eq hns, List.reverse_cons, List.append_assoc,
        List.singleton_append]

lemma externals_eq_self (h : ∀ p, .text p ∈ nodes → external? p.text = none) :
    externals nodes = (nodes, []) := by
  have hself (n : Node String) (hn : n ∈ nodes) : externalNode n = (n, []) :=
    externalNode_eq_self fun p hp => h p (hp ▸ hn)
  have hmap : nodes.map (fun n => (externalNode n).1) = nodes :=
    (List.map_congr_left fun n hn => congrArg Prod.fst (hself n hn)).trans nodes.map_id
  have hfound : nodes.flatMap (fun n => (externalNode n).2) = [] := by
    rw [List.flatMap_eq_nil_iff]
    exact fun n hn => by rw [hself n hn]
  rw [externals, hmap, hfound]

lemma tables_eq_self (h : ∀ p, .text p ∈ nodes → splitTable? p.text = none) :
    tables nodes = nodes := by
  rw [tables, foldl_pushNode_eq h, List.append_nil, List.reverse_reverse]

lemma text_mem_dropEmptyTexts {p : Paragraph String} :
    .text p ∈ dropEmptyTexts nodes ↔ .text p ∈ nodes ∧ p.text ≠ "" := by
  simp [dropEmptyTexts, List.mem_filter]

lemma dropEmptyTexts_eq_self_iff :
    dropEmptyTexts nodes = nodes ↔ ∀ p, .text p ∈ nodes → p.text ≠ "" := by
  rw [dropEmptyTexts, List.filter_eq_self]
  constructor
  · intro h p hp
    simpa using h _ hp
  · intro h n hn
    cases n with
    | text p => simpa using h p hn
    | _ => rfl

/-- Whether a node is a paragraph whose text is recognized. -/
def isRecognized {T : Type} (recognize : String → Option T) : Node String → Bool
  | .text p => (recognize p.text).isSome
  | _ => false

lemma countP_isRecognized_eq_zero {T : Type} {recognize : String → Option T} :
    nodes.countP (isRecognized recognize) = 0 ↔ ∀ p, .text p ∈ nodes → recognize p.text = none := by
  rw [List.countP_eq_zero]
  constructor
  · intro h p hp
    simpa [isRecognized] using h _ hp
  · intro h n hn
    cases n with
    | text p => simpa [isRecognized] using h p hn
    | _ => simp [isRecognized]

/-- How many nodes are no paragraphs. -/
def blocks (nodes : List (Node String)) : Nat :=
  nodes.countP fun
    | .text _ => false
    | _ => true

lemma blocks_dropEmptyTexts (nodes : List (Node String)) :
    blocks (dropEmptyTexts nodes) = blocks nodes := by
  rw [blocks, blocks, dropEmptyTexts, List.countP_filter]
  refine List.countP_congr fun n _ => ?_
  cases n <;> simp

/-- Every directive that is recognized is one more node that is no paragraph. -/
lemma blocks_externals (nodes : List (Node String)) :
    blocks (externals nodes).1 = blocks nodes + nodes.countP (isRecognized external?) := by
  induction nodes with
  | nil => rfl
  | cons n ns ih =>
      simp only [externals, List.map_cons, blocks, List.countP_cons] at ih ⊢
      rw [ih]
      cases n with
      | text p =>
          cases hp : external? p.text with
          | none => simp [externalNode, isRecognized, hp]
          | some found =>
              obtain ⟨document, messages⟩ := found
              simp [externalNode, isRecognized, hp]
              omega
      | _ => simp [externalNode, isRecognized]; omega

lemma blocks_pushNode (before : List (Node String)) (node : Node String) :
    blocks (pushNode before node)
      = blocks before + blocks [node] + [node].countP (isRecognized splitTable?) := by
  cases node with
  | text p =>
      cases hp : splitTable? p.text with
      | none => simp [pushNode, blocks, isRecognized, hp]
      | some found =>
          obtain ⟨rows, rest⟩ := found
          have hcaption : blocks (takeCaption before).2 = blocks before := by
            unfold takeCaption
            split <;> simp [blocks]
          cases rest with
          | none => simpa [pushNode, blocks, isRecognized, hp] using hcaption
          | some text => simpa [pushNode, blocks, isRecognized, hp, Node.ofText] using hcaption
  | _ => simp [pushNode, blocks, isRecognized]

/-- Every table that is recognized is one more node that is no paragraph; what it takes as its
caption is a paragraph. -/
lemma blocks_foldl_pushNode : ∀ nodes before : List (Node String),
    blocks (nodes.foldl pushNode before)
      = blocks before + blocks nodes + nodes.countP (isRecognized splitTable?)
  | [], before => by simp [blocks]
  | n :: ns, before => by
      rw [List.foldl_cons, blocks_foldl_pushNode ns, blocks_pushNode]
      simp only [blocks, List.countP_cons, List.countP_nil]
      omega

lemma blocks_tables (nodes : List (Node String)) :
    blocks (tables nodes) = blocks nodes + nodes.countP (isRecognized splitTable?) := by
  have hfold := blocks_foldl_pushNode nodes []
  rw [tables, blocks, List.countP_reverse, ← blocks, hfold]
  simp [blocks]

/-- The passes change nothing exactly if no paragraph is empty and all are plain. -/
theorem detect_eq_self_iff :
    detect nodes = (nodes, []) ↔ ∀ p, .text p ∈ nodes → p.text ≠ "" ∧ IsPlain p.text := by
  constructor
  · intro h
    have htables : tables (externals (dropEmptyTexts nodes)).1 = nodes := congrArg Prod.fst h
    -- the passes only ever add to the nodes that are no paragraphs
    have hcount := blocks_tables (externals (dropEmptyTexts nodes)).1
    rw [htables, blocks_externals, blocks_dropEmptyTexts] at hcount
    have hexternal : ∀ p, .text p ∈ dropEmptyTexts nodes → external? p.text = none :=
      countP_isRecognized_eq_zero.mp (by omega)
    rw [externals_eq_self hexternal] at htables hcount
    dsimp only at htables hcount
    have htable : ∀ p, .text p ∈ dropEmptyTexts nodes → splitTable? p.text = none :=
      countP_isRecognized_eq_zero.mp (by omega)
    rw [tables_eq_self htable] at htables
    intro p hp
    have hmem : .text p ∈ dropEmptyTexts nodes := by rwa [htables]
    exact ⟨(text_mem_dropEmptyTexts.mp hmem).2, hexternal p hmem, htable p hmem⟩
  · intro h
    have hdrop : dropEmptyTexts nodes = nodes :=
      dropEmptyTexts_eq_self_iff.mpr fun p hp => (h p hp).1
    have hexternals : externals nodes = (nodes, []) := externals_eq_self fun p hp => (h p hp).2.1
    have htables : tables nodes = nodes := tables_eq_self fun p hp => (h p hp).2.2
    rw [detect, hdrop, hexternals]
    exact congrArg (·, []) htables

/-! ## What one run of the passes leaves -/

/-- A paragraph that stands right behind a table. -/
def IsBehindTable (nodes : List (Node String)) (p : Paragraph String) : Prop :=
  ∃ before caption rows normal after,
    nodes = before ++ .table caption rows normal :: .text p :: after

/-- Nodes, newest first, in which no paragraph is empty and all are plain but those behind
tables. -/
inductive IsLeft : List (Node String) → Prop
  | nil : IsLeft []
  | plain {p : Paragraph String} {before : List (Node String)} :
      p.text ≠ "" → IsPlain p.text → IsLeft before → IsLeft (.text p :: before)
  | behindTable {p : Paragraph String} {caption : Option String}
      {rows : List (List (Node String))} {normal : Bool} {before : List (Node String)} :
      p.text ≠ "" → IsLeft before → IsLeft (.text p :: .table caption rows normal :: before)
  | block {node : Node String} {before : List (Node String)} :
      (∀ p, node ≠ .text p) → IsLeft before → IsLeft (node :: before)

lemma IsLeft.tail (h : IsLeft (node :: before)) : IsLeft before := by
  cases h with
  | plain _ _ h => exact h
  | behindTable _ h => exact h.block (by simp)
  | block _ h => exact h

lemma IsLeft.takeCaption (h : IsLeft before) : IsLeft (takeCaption before).2 := by
  unfold Markup.takeCaption
  split
  · exact h.tail
  · exact h

/-- Lines that a table leaves over are some of the lines of its paragraph. -/
lemma ne_empty_of_splitTable? {text rest : String} {rows : List (List (Node String))}
    (hlines : HasLines text) (h : splitTable? text = some (rows, some rest)) : rest ≠ "" := by
  have hne : ∀ line ∈ splitOn '\n' text.toList, line ≠ [] := by
    refine hlines.resolve_left ?_
    rintro rfl
    simp [splitTable?, splitOn] at h
  unfold splitTable? at h
  split at h
  case h_2 => simp at h
  case h_1 header separator body hcut =>
    cases hcolumns : separatorColumns? separator with
    | none => simp [hcolumns] at h
    | some columns =>
        simp only [hcolumns] at h
        split_ifs at h with hfits hrest
        · simp at h
        · obtain ⟨-, hrest'⟩ := Prod.mk.inj (Option.some.inj h)
          cases hleft : body.dropWhile fun line => (cells line).length == columns with
          | nil => simp [hleft] at hrest
          | cons line lines =>
              have hmem : line ∈ splitOn '\n' text.toList := by
                have hbody : line ∈ body :=
                  (List.dropWhile_sublist _).subset (by rw [hleft]; exact List.mem_cons_self)
                rw [hcut]
                exact List.mem_cons_of_mem _ (List.mem_cons_of_mem _ hbody)
              rw [← Option.some.inj hrest', hleft]
              simpa using joinWith_ne_nil ['\n'] (hne line hmem)

/-- What one step of the pass for tables keeps. -/
lemma IsLeft.pushNode (h : IsLeft before)
    (hnode : ∀ p, node = .text p → p.text ≠ "" ∧ HasLines p.text ∧ external? p.text = none) :
    IsLeft (pushNode before node) := by
  cases node with
  | text p =>
      obtain ⟨hne, hlines, hexternal⟩ := hnode p rfl
      cases hp : splitTable? p.text with
      | none =>
          rw [pushNode_eq_cons fun q hq => by rw [← Node.text.inj hq, hp]]
          exact h.plain hne ⟨hexternal, hp⟩
      | some found =>
          obtain ⟨rows, rest⟩ := found
          cases rest with
          | none =>
              simp only [Markup.pushNode, hp]
              exact h.takeCaption.block (by simp)
          | some text =>
              simp only [Markup.pushNode, hp]
              exact h.takeCaption.behindTable (ne_empty_of_splitTable? hlines hp)
  | _ => exact h.block (by simp)

/-- What the whole pass for tables leaves. -/
lemma IsLeft.foldl_pushNode : ∀ {nodes before : List (Node String)}, IsLeft before →
    (∀ p, .text p ∈ nodes → p.text ≠ "" ∧ HasLines p.text ∧ external? p.text = none) →
      IsLeft (nodes.foldl Markup.pushNode before)
  | [], before, h, _ => h
  | n :: ns, before, h, hnodes => by
      have hn : IsLeft (Markup.pushNode before n) :=
        h.pushNode fun p hp => hnodes p (by simp [hp])
      exact hn.foldl_pushNode fun p hp => hnodes p (List.mem_cons_of_mem _ hp)

lemma IsBehindTable.concat {p : Paragraph String} (h : IsBehindTable nodes p)
    (node : Node String) : IsBehindTable (nodes ++ [node]) p := by
  obtain ⟨before, caption, rows, normal, after, hnodes⟩ := h
  exact ⟨before, caption, rows, normal, after ++ [node], by simp [hnodes]⟩

/-- The paragraphs among such nodes, in the order of the report. -/
lemma IsLeft.text_mem {p : Paragraph String} (h : IsLeft before) (hp : .text p ∈ before) :
    p.text ≠ "" ∧ (IsPlain p.text ∨ IsBehindTable before.reverse p) := by
  induction h with
  | nil => simp at hp
  | @plain q before hne hplain _ ih =>
      rw [List.reverse_cons]
      rcases List.mem_cons.mp hp with hp | hp
      · rw [Node.text.inj hp]
        exact ⟨hne, Or.inl hplain⟩
      · obtain ⟨hne, hrest⟩ := ih hp
        exact ⟨hne, hrest.imp_right fun hbehind => hbehind.concat _⟩
  | @behindTable q caption rows normal before hne _ ih =>
      rw [List.reverse_cons, List.reverse_cons]
      rcases List.mem_cons.mp hp with hp | hp
      · rw [Node.text.inj hp]
        exact ⟨hne, Or.inr ⟨before.reverse, caption, rows, normal, [], by simp⟩⟩
      · obtain ⟨hne, hrest⟩ := ih (by simpa using hp)
        exact ⟨hne, hrest.imp_right fun hbehind => (hbehind.concat _).concat _⟩
  | @block node before hnode _ ih =>
      rw [List.reverse_cons]
      rcases List.mem_cons.mp hp with hp | hp
      · exact absurd hp.symm (hnode p)
      · obtain ⟨hne, hrest⟩ := ih hp
        exact ⟨hne, hrest.imp_right fun hbehind => hbehind.concat _⟩

/-- No directive is left by the second pass, and the paragraphs are as they were read. -/
lemma text_mem_externals {p : Paragraph String} (h : .text p ∈ (externals nodes).1) :
    .text p ∈ nodes ∧ external? p.text = none := by
  obtain ⟨n, hn, hp⟩ := List.mem_map.mp h
  cases n with
  | text q =>
      cases hq : external? q.text with
      | none =>
          simp only [externalNode, hq] at hp
          rw [← Node.text.inj hp]
          exact ⟨hn, hq⟩
      | some found => simp [externalNode, hq] at hp
  | _ => simp [externalNode] at hp

/-- In a report as it is read no paragraph is empty, and directives and tables are left only right
behind tables; one pass more changes nothing exactly if there are none of those. -/
theorem detect_nodes_of_parse {source : String} {parsed : Parsed} {s : Section String}
    (h : parse source = .ok parsed) (hs : s ∈ parsed.document.sections) :
    (∀ p, .text p ∈ s.nodes → p.text ≠ "" ∧ (IsPlain p.text ∨ IsBehindTable s.nodes p)) ∧
      (detect s.nodes = (s.nodes, []) ↔ ∀ p, IsBehindTable s.nodes p → IsPlain p.text) := by
  obtain ⟨last, hread, hsections⟩ := reads_of_parse h
  rw [hsections, List.mem_singleton] at hs
  have hlines := hasLines_of_reads hread
  have hleft : IsLeft s.nodes.reverse := by
    have hnil : IsLeft [] := .nil
    have hnodes : ∀ p, .text p ∈ (externals (dropEmptyTexts last.finish.newest.reverse)).1 →
        p.text ≠ "" ∧ HasLines p.text ∧ external? p.text = none := by
      intro p hp
      obtain ⟨hp, hexternal⟩ := text_mem_externals hp
      obtain ⟨hp, hne⟩ := text_mem_dropEmptyTexts.mp hp
      exact ⟨hne, hlines p (List.mem_reverse.mp hp), hexternal⟩
    simpa [hs, detect, tables] using hnil.foldl_pushNode hnodes
  have htexts : ∀ p, .text p ∈ s.nodes →
      p.text ≠ "" ∧ (IsPlain p.text ∨ IsBehindTable s.nodes p) := by
    intro p hp
    simpa using hleft.text_mem (List.mem_reverse.mpr hp)
  refine ⟨htexts, detect_eq_self_iff.trans ⟨fun hplain p hp => ?_, fun hplain p hp => ?_⟩⟩
  · obtain ⟨before, caption, rows, normal, after, hnodes⟩ := hp
    exact (hplain p (by rw [hnodes]; simp)).2
  · obtain ⟨hne, hp⟩ := htexts p hp
    exact ⟨hne, hp.elim id (hplain p)⟩

/-- A table with a line behind its last row that is a directive. -/
def tableAndDirective : String := "| a | b |\n|---|---|\n| 1 | 2 |\n!!(x.docx)\x7b\x7d"

/-- The directive stays a paragraph. -/
lemma parse_tableAndDirective :
    parse tableAndDirective = .ok {
      document := {
        sections := [{
          pageStart := some 1
          nodes := [.table none [Node.textRow ["a", "b"], Node.textRow ["1", "2"]] false,
            .ofText "!!(x.docx)\x7b\x7d"] }]
        settings := {} }
      diagnostics := [] } := by
  have hread : Reads {} (sourceLines tableAndDirective)
      { newest := [.ofText ("| a | b |" ++ "\n" ++ "|---|---|" ++ "\n" ++ "| 1 | 2 |" ++ "\n"
        ++ "!!(x.docx)\x7b\x7d")] } := by
    have hlines : sourceLines tableAndDirective
        = ["| a | b |", "|---|---|", "| 1 | 2 |", "!!(x.docx)\x7b\x7d"] := rfl
    have hfirst : Reader.step {} "| a | b |" = .ok { newest := [.ofText "| a | b |"] } := rfl
    rw [hlines]
    refine Reads.cons hfirst ?_
    refine Reads.cons (step_of_plain rfl rfl rfl rfl rfl) ?_
    refine Reads.cons (step_of_plain rfl rfl rfl rfl rfl) ?_
    refine Reads.cons (step_of_plain rfl rfl rfl rfl rfl) ?_
    exact Reads.nil _
  have hexternal : external? tableAndDirective = none := by cbv
  have hcut : splitOn '\n' tableAndDirective.toList
      = ["| a | b |", "|---|---|", "| 1 | 2 |", "!!(x.docx)\x7b\x7d"].map String.toList := rfl
  have hcolumns : separatorColumns? "|---|---|".toList = some 2 := rfl
  have hsplit : splitTable? tableAndDirective = some
      ([Node.textRow ["a", "b"], Node.textRow ["1", "2"]], some "!!(x.docx)\x7b\x7d") := by
    unfold splitTable?
    rw [hcut]
    simp only [List.map_cons, hcolumns]
    rfl
  have hdetect : detect [.ofText tableAndDirective]
      = ([.table none [Node.textRow ["a", "b"], Node.textRow ["1", "2"]] false,
        .ofText "!!(x.docx)\x7b\x7d"], []) := by
    have hdrop : dropEmptyTexts [.ofText tableAndDirective] = [.ofText tableAndDirective] := rfl
    have hkept : externals [.ofText tableAndDirective] = ([.ofText tableAndDirective], []) :=
      externals_eq_self (by simp [Node.ofText, hexternal])
    rw [detect, hdrop, hkept]
    simp only [tables, List.foldl_cons, List.foldl_nil, Node.ofText, pushNode, hsplit]
    rfl
  have htext : "| a | b |" ++ "\n" ++ "|---|---|" ++ "\n" ++ "| 1 | 2 |" ++ "\n"
      ++ "!!(x.docx)\x7b\x7d" = tableAndDirective := by decide
  rw [htext] at hread
  rw [parse_of_reads hread]
  simp only [Reader.finish, List.reverse_singleton, hdetect]
  rfl

/-- Such a directive would be recognized by one pass more. -/
theorem directive_behind_table :
    ∃ parsed, parse tableAndDirective = .ok parsed ∧
      ∃ s ∈ parsed.document.sections, detect s.nodes ≠ (s.nodes, []) := by
  refine ⟨_, parse_tableAndDirective, _, List.mem_singleton_self _, fun h => ?_⟩
  have hexternal : external? "!!(x.docx)\x7b\x7d" = some (⟨"x.docx", []⟩, []) := by cbv
  obtain ⟨-, hplain⟩ :=
    detect_eq_self_iff.mp h { text := "!!(x.docx)\x7b\x7d" } (by simp [Node.ofText])
  simp [hexternal, IsPlain] at hplain

/-- The conditions hold of the source with a directive behind its table. -/
theorem detect_nodes_of_parse_tableAndDirective :
    ∃ parsed, parse tableAndDirective = .ok parsed ∧ ∃ s ∈ parsed.document.sections,
      (∀ p, .text p ∈ s.nodes → p.text ≠ "" ∧ (IsPlain p.text ∨ IsBehindTable s.nodes p)) ∧
        (detect s.nodes = (s.nodes, []) ↔ ∀ p, IsBehindTable s.nodes p → IsPlain p.text) :=
  ⟨_, parse_tableAndDirective, _, List.mem_singleton_self _,
    detect_nodes_of_parse parse_tableAndDirective (List.mem_singleton_self _)⟩

end ReportPress.Markup
