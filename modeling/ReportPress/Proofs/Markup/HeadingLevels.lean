import ReportPress.Proofs.Document.Attachments
import ReportPress.Proofs.Markup.Step

/-!
# The levels of headings that are read

A heading of a level beyond six stops the reading, so the titles of a report that has been read all
have a style.

**Lines.**  `level_le_of_classify` — a heading of a line has at most level six.

**Steps and passes.**  A line of text, a list, a block of code and whatever the passes make of
paragraphs bring in no titles; only a heading does (`levels_take`, `levels_step`,
`mem_levels_detect`).

**The result.**  `level_le_of_parse` — no title of a report that has been read is deeper than six.
-/

namespace ReportPress.Markup

open Text

variable {line : Line} {level : Nat}

/-! ## Lines -/

lemma level_le_of_wordMarker? {word text : List Char}
    (h : wordMarker? word text = .ok (some (.heading level))) : level ≤ 6 := by
  unfold wordMarker? at h
  dsimp only at h
  split_ifs at h with _ _ _ _ hdeep
  all_goals simp at h
  omega

/-- A heading has at most level six. -/
lemma level_le_of_classify {raw : String} (h : classify raw = .ok line)
    (hmarker : line.marker = .heading level) : level ≤ 6 := by
  have himage {cs : List Char} {marker : Marker} (h : imageMarker? cs = some marker) :
      marker ≠ .heading level := by
    obtain ⟨parts, -, rfl⟩ := Option.map_eq_some_iff.mp h
    simp
  unfold classify at h
  dsimp only at h
  split_ifs at h
  · unfold classifyBare at h
    dsimp only at h
    split at h
    case h_1 marker hfound =>
      obtain rfl := Except.ok.inj h
      split_ifs at hfound
      exact absurd hmarker (himage hfound)
    case h_2 =>
      split_ifs at h
      · obtain rfl := Except.ok.inj h
        exact nomatch hmarker
      · obtain rfl := Except.ok.inj h
        exact nomatch hmarker
      · split at h
        case h_1 => exact nomatch h
        case h_2 marker hword =>
          obtain rfl := Except.ok.inj h
          obtain rfl : marker = .heading level := hmarker
          exact level_le_of_wordMarker? hword
        case h_3 =>
          obtain rfl := Except.ok.inj h
          exact nomatch hmarker
  · obtain rfl := Except.ok.inj h
    exact nomatch hmarker

/-! ## Steps -/

lemma levels_text (p : Paragraph String) : seenIn Node.levels [.text p] = [] := seenIn_singleton rfl

namespace Reader

variable {r next : Reader} {raw : String}

/-- A line of text brings in no title. -/
lemma levels_withText (text : String) (nodes : List (Node String)) :
    seenIn Node.levels (withText text nodes) = seenIn Node.levels nodes := by
  unfold withText
  split
  case h_1 p before =>
    split_ifs
    · rw [seenIn_cons, Node.ofText, levels_text, List.nil_append]
    all_goals rw [seenIn_cons, levels_text, seenIn_cons (.text p), levels_text]
  case h_2 => rw [seenIn_cons, Node.ofText, levels_text, List.nil_append]

lemma levels_pushText (r : Reader) (raw : String) :
    ∀ level ∈ seenIn Node.levels (r.pushText raw).newest, level ∈ seenIn Node.levels r.newest := by
  rw [pushText_eq]
  exact fun level hlevel => levels_withText _ _ ▸ hlevel

/-- Outside of lists and blocks of code, only a heading brings in a title. -/
lemma levels_take (r : Reader) (raw : String) (line : Line) :
    ∀ level ∈ seenIn Node.levels (r.take raw line).newest,
      level ∈ seenIn Node.levels r.newest ∨ line.marker = .heading level := by
  intro level hlevel
  unfold take at hlevel
  dsimp only at hlevel
  split at hlevel
  case h_1 deep hmarker =>
    rw [push, seenIn_cons, List.mem_append] at hlevel
    rcases hlevel with hlevel | hlevel
    · rw [Node.ofTitle, seenIn_singleton rfl] at hlevel
      exact Or.inr (hmarker.trans (congrArg _ (List.mem_singleton.mp hlevel).symm))
    · exact Or.inl hlevel
  case h_8 =>
    rw [newest_applyRule] at hlevel
    exact Or.inl hlevel
  case h_9 => exact Or.inl (levels_pushText { r with place := .paragraphs } raw level hlevel)
  case h_10 => exact Or.inl (levels_pushText { r with place := .paragraphs } raw level hlevel)
  case h_4 =>
    rw [push, seenIn_cons, seenIn_singleton rfl] at hlevel
    exact Or.inl hlevel
  case h_7 =>
    rw [push, seenIn_cons, seenIn_singleton rfl] at hlevel
    exact Or.inl hlevel
  all_goals exact Or.inl hlevel

/-- What one line keeps: no title is deeper than six. -/
theorem levels_step (h : ∀ level ∈ seenIn Node.levels r.newest, level ≤ 6)
    (hstep : r.step raw = .ok next) : ∀ level ∈ seenIn Node.levels next.newest, level ≤ 6 := by
  have htake {s : Reader} {line : Line} (hs : ∀ level ∈ seenIn Node.levels s.newest, level ≤ 6)
      (hline : classify raw = .ok line) :
      ∀ level ∈ seenIn Node.levels (s.take raw line).newest, level ≤ 6 := by
    intro level hlevel
    rcases levels_take s raw line level hlevel with hlevel | hmarker
    · exact hs level hlevel
    · exact level_le_of_classify hline hmarker
  have hpush {s : Reader} {node : Node String}
      (hs : ∀ level ∈ seenIn Node.levels s.newest, level ≤ 6) (hnode : node.parts = [node])
      (hnone : node.levels = []) :
      ∀ level ∈ seenIn Node.levels (s.push node).newest, level ≤ 6 := by
    rw [push, seenIn_cons, seenIn_singleton hnode, hnone]
    exact hs
  cases step_eq_ok_iff.mp hstep with
  | codeLine => exact h
  | codeEnd => exact hpush h rfl rfl
  | paragraph _ hline => exact htake h hline
  | blank => exact h
  | goesOn => exact h
  | refused _ hline _ _ _ _ => exact htake (hpush h rfl rfl) hline
  | @ends opened blank line bare _ hline _ _ _ =>
      refine htake ?_ hline
      cases blank with
      | false => exact hpush h rfl rfl
      | true => exact hpush (hpush h rfl rfl) rfl rfl

lemma levels_finish (r : Reader) :
    seenIn Node.levels r.finish.newest = seenIn Node.levels r.newest := by
  unfold finish
  split
  case h_1 => rfl
  case h_2 => exact (seenIn_cons _ _).trans (congrArg (· ++ _) (seenIn_singleton rfl))
  case h_3 => exact (seenIn_cons _ _).trans (congrArg (· ++ _) (seenIn_singleton rfl))

end Reader

/-! ## Passes -/

/-- Rows of texts have no titles. -/
lemma levels_textRow (cells : List String) : seenIn Node.levels (Node.textRow cells) = [] := by
  rw [seenIn_eq_flatMap, List.flatMap_eq_nil_iff]
  intro n hn
  obtain ⟨cell, -, rfl⟩ := List.mem_map.mp hn
  exact levels_text _

/-- The rows of a table are made of texts. -/
lemma exists_tableRow_of_splitTable? {text : String} {rows : List (List (Node String))}
    {left : Option String} (h : splitTable? text = some (rows, left)) :
    ∀ row ∈ rows, ∃ line, row = tableRow line := by
  unfold splitTable? at h
  split at h
  case h_2 => exact nomatch h
  case h_1 header separator body hcut =>
    split at h
    case h_1 => exact nomatch h
    case h_2 columns hcolumns =>
      dsimp only at h
      split_ifs at h
      all_goals
        obtain ⟨rfl, -⟩ := Prod.mk.inj (Option.some.inj h)
        refine List.forall_mem_cons.mpr ⟨⟨header, rfl⟩, fun row hrow => ?_⟩
        obtain ⟨line, -, rfl⟩ := List.mem_map.mp hrow
        exact ⟨line, rfl⟩

/-- The pass for tables brings in no title and drops none. -/
lemma levels_pushNode (before : List (Node String)) (node : Node String) :
    seenIn Node.levels (pushNode before node)
      = seenIn Node.levels [node] ++ seenIn Node.levels before := by
  have hcaption : seenIn Node.levels (takeCaption before).2 = seenIn Node.levels before := by
    unfold takeCaption
    split
    case h_1 p rest => rw [seenIn_cons (.text p), levels_text, List.nil_append]
    case h_2 => rfl
  cases node with
  | text p =>
      cases hsplit : splitTable? p.text with
      | none =>
          simp only [pushNode, hsplit]
          exact seenIn_cons _ _
      | some found =>
          obtain ⟨rows, left⟩ := found
          have hrows := exists_tableRow_of_splitTable? hsplit
          have htable (caption : Option String) :
              seenIn Node.levels [.table caption rows false] = [] := by
            have hcells : rows.flatMap (seenIn Node.levels) = [] := by
              rw [List.flatMap_eq_nil_iff]
              intro row hrow
              obtain ⟨line, rfl⟩ := hrows row hrow
              exact levels_textRow _
            rw [seenIn_table, hcells]
            rfl
          rw [levels_text, List.nil_append, ← hcaption]
          cases left with
          | none =>
              simp only [pushNode, hsplit]
              rw [seenIn_cons, htable, List.nil_append]
          | some text =>
              simp only [pushNode, hsplit]
              rw [seenIn_cons, Node.ofText, levels_text, seenIn_cons, htable, List.nil_append,
                List.nil_append]
  | _ => exact seenIn_cons _ _

lemma mem_levels_foldl_pushNode {level : Nat} {nodes before : List (Node String)}
    (h : level ∈ seenIn Node.levels (nodes.foldl pushNode before)) :
    level ∈ seenIn Node.levels nodes ∨ level ∈ seenIn Node.levels before := by
  induction nodes generalizing before with
  | nil => exact Or.inr h
  | cons n ns ih =>
      rw [seenIn_cons, List.mem_append]
      rcases ih h with h | h
      · exact Or.inl (Or.inr h)
      · rw [levels_pushNode, List.mem_append] at h
        exact h.imp_left Or.inl

lemma mem_levels_externalNode {level : Nat} {node : Node String}
    (h : level ∈ seenIn Node.levels [(externalNode node).1]) :
    level ∈ seenIn Node.levels [node] := by
  cases node with
  | text p =>
      cases hexternal : external? p.text with
      | none => simpa [externalNode, hexternal] using h
      | some found =>
          obtain ⟨document, messages⟩ := found
          simp only [externalNode, hexternal] at h
          rw [seenIn_singleton rfl] at h
          exact absurd h List.not_mem_nil
  | _ => exact h

/-- The passes over the nodes bring in no title. -/
lemma mem_levels_detect {level : Nat} {nodes : List (Node String)}
    (h : level ∈ seenIn Node.levels (detect nodes).1) : level ∈ seenIn Node.levels nodes := by
  have hexternals {level : Nat}
      (h : level ∈ seenIn Node.levels (externals (dropEmptyTexts nodes)).1) :
      level ∈ seenIn Node.levels nodes := by
    obtain ⟨m, hm, hlevel⟩ := mem_seenIn.mp h
    obtain ⟨n, hn, rfl⟩ := List.mem_map.mp hm
    exact mem_seenIn.mpr ⟨n, (List.mem_filter.mp hn).1, mem_levels_externalNode hlevel⟩
  obtain ⟨m, hm, hlevel⟩ := mem_seenIn.mp h
  have hfold := mem_levels_foldl_pushNode (mem_seenIn.mpr ⟨m, List.mem_reverse.mp hm, hlevel⟩)
  exact hexternals (hfold.resolve_right List.not_mem_nil)

/-! ## Whole sources -/

/-- No title of a report that has been read is deeper than six. -/
theorem level_le_of_parse {source : String} {parsed : Parsed} (h : parse source = .ok parsed) :
    ∀ level ∈ parsed.document.levels, level ≤ 6 := by
  obtain ⟨last, hreads, hdocument⟩ := exists_reads_of_parse h
  have hlast : ∀ level ∈ seenIn Node.levels last.newest, level ≤ 6 :=
    hreads.keeps (P := fun r => ∀ level ∈ seenIn Node.levels r.newest, level ≤ 6)
      (fun _ _ hr hstep => Reader.levels_step hr hstep) (fun _ h => nomatch h)
  intro level hlevel
  rw [hdocument, Document.levels_eq, List.flatMap_singleton] at hlevel
  obtain ⟨n, hn, hlevel⟩ := mem_seenIn.mp (mem_levels_detect hlevel)
  have hread := mem_seenIn.mpr ⟨n, List.mem_reverse.mp hn, hlevel⟩
  rw [Reader.levels_finish] at hread
  exact hlast level hread

end ReportPress.Markup
