import ReportPress.Enrich.Conventions
import ReportPress.Proofs.Document.Attachments

/-!
# The conventions leave pictures and other documents alone

The conventions for reports put in titles, sentences, tables and page breaks, and turn lists into
something else.  Pictures and other documents are none of these.

* `IsQuiet` — a look at nodes that sees nothing in texts, lists, tables, page breaks and tables of
  contents.

**The passes.**  Such a look sees the same in punctuated nodes (`seenIn_punctuateNodes`).  A rule
for a heading makes nothing that it sees but titles (`isTitleFor_or_of_mem_rule`), and takes no node
in which it sees anything (`IsQuiet.taken`).

**The results.**  `attachments_enrich` — the attachments of a report stay, in their order.
`level_of_enrich` — the titles get no level but zero.
-/

namespace ReportPress.Enrich

variable {V : Type} {look : Node String → List V}

/-- A look at nodes that sees nothing in what the conventions bring in or take away, but for
titles. -/
structure IsQuiet (look : Node String → List V) : Prop where
  text : ∀ p, look (.text p) = []
  list : ∀ l, look (.list l) = []
  table : ∀ caption rows normal, look (.table caption rows normal) = []
  pageBreak : look .pageBreak = []
  contents : look .contents = []

lemma isQuiet_attachments : IsQuiet Node.attachments :=
  ⟨fun _ => rfl, fun _ => rfl, fun _ _ _ => rfl, rfl, rfl⟩

lemma isQuiet_levels : IsQuiet Node.levels :=
  ⟨fun _ => rfl, fun _ => rfl, fun _ _ _ => rfl, rfl, rfl⟩

/-- In nodes in each of which nothing is seen, nothing is seen. -/
lemma seenIn_eq_nil {ns : List (Node String)} (h : ∀ n ∈ ns, seenIn look [n] = []) :
    seenIn look ns = [] := by
  rw [seenIn_eq_flatMap, List.flatMap_eq_nil_iff]
  exact h

namespace IsQuiet

variable (hlook : IsQuiet look)

include hlook

lemma seenIn_text (p : Paragraph String) : seenIn look [.text p] = [] :=
  (seenIn_singleton rfl).trans (hlook.text p)

lemma seenIn_list (l : ItemList String) : seenIn look [.list l] = [] :=
  (seenIn_singleton rfl).trans (hlook.list l)

lemma seenIn_pageBreak : seenIn look [.pageBreak] = [] :=
  (seenIn_singleton rfl).trans hlook.pageBreak

lemma seenIn_contents : seenIn look [.contents] = [] :=
  (seenIn_singleton rfl).trans hlook.contents

lemma seenIn_table (caption : Option String) (rows : List (List (Node String))) (normal : Bool) :
    seenIn look [.table caption rows normal] = rows.flatMap (seenIn look) := by
  rw [ReportPress.seenIn_table, hlook.table, List.nil_append]

end IsQuiet

/-! ## Lists -/

mutual

lemma seenIn_punctuateNode (hlook : IsQuiet look) : ∀ n : Node String,
    seenIn look [punctuateNode n] = seenIn look [n]
  | .list l => by
      rw [punctuateNode, hlook.seenIn_list, hlook.seenIn_list]
  | .table caption rows normal => by
      rw [punctuateNode, hlook.seenIn_table, hlook.seenIn_table, seenIn_punctuateRows hlook rows]
  | .text _ => rfl
  | .title _ => rfl
  | .pageBreak => rfl
  | .contents => rfl
  | .image _ => rfl
  | .code _ => rfl
  | .external _ => rfl
  | .sectionBreak _ => rfl

/-- Punctuating lists changes nothing that is seen. -/
lemma seenIn_punctuateNodes (hlook : IsQuiet look) : ∀ ns : List (Node String),
    seenIn look (punctuateNodes ns) = seenIn look ns
  | [] => rfl
  | n :: ns => by
      rw [punctuateNodes, seenIn_cons, seenIn_punctuateNode hlook n,
        seenIn_punctuateNodes hlook ns, ← seenIn_cons]

lemma seenIn_punctuateRows (hlook : IsQuiet look) : ∀ rs : List (List (Node String)),
    (punctuateRows rs).flatMap (seenIn look) = rs.flatMap (seenIn look)
  | [] => rfl
  | r :: rs => by
      rw [punctuateRows, List.flatMap_cons, seenIn_punctuateNodes hlook r,
        seenIn_punctuateRows hlook rs, List.flatMap_cons]

end

/-! ## Headings -/

/-- Nothing is seen in rows of texts. -/
lemma seenIn_textRow (hlook : IsQuiet look) (cells : List String) :
    seenIn look (Node.textRow cells) = [] := by
  refine seenIn_eq_nil fun n hn => ?_
  obtain ⟨cell, -, rfl⟩ := List.mem_map.mp hn
  exact hlook.seenIn_text _

lemma seenIn_glossary (hlook : IsQuiet look) (l : ItemList String) :
    ∀ n ∈ (glossary l).1, seenIn look [n] = [] := by
  have hrow : ∀ row ∈ glossaryHeader :: (gather glossaryRow l.entries).1, seenIn look row = [] := by
    refine List.forall_mem_cons.mpr ⟨seenIn_textRow hlook _, fun row hrow => ?_⟩
    obtain ⟨e, -, hmake⟩ := List.mem_filterMap.mp hrow
    cases e with
    | list style entries => exact nomatch hmake
    | item text =>
        cases hcut : splitColon? text with
        | none => simp [glossaryRow, hcut, Except.toOption] at hmake
        | some pieces =>
            simp only [glossaryRow, hcut, Except.toOption, Option.some.injEq] at hmake
            rw [← hmake]
            exact seenIn_textRow hlook _
  refine List.forall_mem_cons.mpr ⟨hlook.seenIn_text _,
    List.forall_mem_cons.mpr ⟨?_, List.forall_mem_singleton.mpr hlook.seenIn_pageBreak⟩⟩
  rw [hlook.seenIn_table, List.flatMap_eq_nil_iff]
  exact hrow

lemma seenIn_abbreviations (hlook : IsQuiet look) (l : ItemList String) :
    ∀ n ∈ (abbreviations l).1, seenIn look [n] = [] := by
  refine List.forall_mem_cons.mpr ⟨hlook.seenIn_text _, List.forall_mem_append.mpr
    ⟨fun n hn => ?_, List.forall_mem_singleton.mpr hlook.seenIn_pageBreak⟩⟩
  obtain ⟨e, -, hmake⟩ := List.mem_filterMap.mp hn
  cases e with
  | list style entries => exact nomatch hmake
  | item text =>
      obtain rfl := Option.some.inj hmake
      exact hlook.seenIn_text _

/-- A title that a rule can make of another: it has the same level, or that of the front matter. -/
def IsTitleFor (t : Title String) (n : Node String) : Prop :=
  ∃ t', n = .title t' ∧ (t'.level = 0 ∨ t'.level = t.level)

/-- A rule makes titles, and other nodes in which nothing is seen. -/
lemma isTitleFor_or_of_mem_rule (hlook : IsQuiet look) {t : Title String}
    {next : Option (Node String)} :
    ∀ n ∈ (rule t next).nodes, IsTitleFor t n ∨ seenIn look [n] = [] := by
  have hsame (text : String) (center : Bool) :
      IsTitleFor t (.title { text, level := t.level, center }) :=
    ⟨_, rfl, Or.inr rfl⟩
  have hfront (text : String) (center : Bool) :
      IsTitleFor t (.title { text, level := 0, center }) :=
    ⟨_, rfl, Or.inl rfl⟩
  have hbreak : seenIn look [.pageBreak] = [] := hlook.seenIn_pageBreak
  unfold rule
  cases Heading.recognize t.text with
  | none => exact List.forall_mem_singleton.mpr (Or.inl (hsame _ _))
  | some heading =>
    cases heading with
    | cover =>
        exact List.forall_mem_cons.mpr ⟨Or.inr (hlook.seenIn_text _),
          List.forall_mem_singleton.mpr (Or.inr hbreak)⟩
    | abstract =>
        have hnodes : ∀ n ∈ [Node.title { t with text := Text.upper t.text, level := 0 },
            .ofText abstractStatistics], IsTitleFor t n ∨ seenIn look [n] = [] :=
          List.forall_mem_cons.mpr ⟨Or.inl (hfront _ _),
            List.forall_mem_singleton.mpr (Or.inr (hlook.seenIn_text _))⟩
        dsimp only
        split
        · exact List.forall_mem_append.mpr
            ⟨hnodes, List.forall_mem_singleton.mpr (Or.inr (hlook.seenIn_text _))⟩
        · exact hnodes
    | contents =>
        exact List.forall_mem_cons.mpr ⟨Or.inl (hfront _ _),
          List.forall_mem_singleton.mpr (Or.inr hlook.seenIn_contents)⟩
    | glossary =>
        dsimp only
        split
        · exact List.forall_mem_cons.mpr
            ⟨Or.inl (hsame _ _), fun n hn => Or.inr (seenIn_glossary hlook _ n hn)⟩
        · exact List.forall_mem_singleton.mpr (Or.inl (hsame _ _))
    | abbreviations =>
        dsimp only
        split
        · exact List.forall_mem_cons.mpr
            ⟨Or.inl (hsame _ _), fun n hn => Or.inr (seenIn_abbreviations hlook _ n hn)⟩
        · exact List.forall_mem_singleton.mpr (Or.inl (hsame _ _))
    | introduction => exact List.forall_mem_singleton.mpr (Or.inl (hsame _ _))
    | conclusion =>
        exact List.forall_mem_cons.mpr
          ⟨Or.inr hbreak, List.forall_mem_singleton.mpr (Or.inl (hsame _ _))⟩
    | references =>
        dsimp only
        split
        · exact List.forall_mem_cons.mpr ⟨Or.inr hbreak, List.forall_mem_cons.mpr
            ⟨Or.inl (hsame _ _), List.forall_mem_singleton.mpr (Or.inr (hlook.seenIn_list _))⟩⟩
        · exact List.forall_mem_cons.mpr
            ⟨Or.inr hbreak, List.forall_mem_singleton.mpr (Or.inl (hsame _ _))⟩

/-- A rule takes the node behind its title only if that is a text or a list. -/
lemma IsQuiet.taken (hlook : IsQuiet look) {t : Title String} {next : Option (Node String)}
    (h : (rule t next).taken = true) : ∀ n ∈ next, seenIn look [n] = [] := by
  have htext {p : Paragraph String} : ∀ n ∈ some (Node.text p), seenIn look [n] = [] := by
    rintro n ⟨⟩
    exact hlook.seenIn_text p
  have hlist {l : ItemList String} : ∀ n ∈ some (Node.list l), seenIn look [n] = [] := by
    rintro n ⟨⟩
    exact hlook.seenIn_list l
  unfold rule at h
  cases hheading : Heading.recognize t.text with
  | none =>
      rw [hheading] at h
      exact nomatch h
  | some heading =>
    rw [hheading] at h
    -- only the rules that ask for a text or a list take one
    cases heading with
    | cover | contents | introduction | conclusion => exact nomatch h
    | abstract =>
        dsimp only at h
        split at h
        · exact htext
        · exact nomatch h
    | glossary | abbreviations | references =>
        dsimp only at h
        split at h
        · exact hlist
        · exact nomatch h

lemma IsQuiet.atTitle (hlook : IsQuiet look) (pending : Pending) :
    seenIn look pending.atTitle = [] := by
  cases pending with
  | nothing => rfl
  | beforeTitle => exact hlook.seenIn_pageBreak
  | beforeTitleOrEnd => exact hlook.seenIn_pageBreak

lemma IsQuiet.atEnd (hlook : IsQuiet look) (pending : Pending) :
    seenIn look pending.atEnd = [] := by
  cases pending with
  | nothing => rfl
  | beforeTitle => rfl
  | beforeTitleOrEnd => exact hlook.seenIn_pageBreak

/-- The pass for headings keeps the attachments.  A node that a title takes has none. -/
lemma attachments_arrange : ∀ (pending : Pending) (taken : Bool) (nodes : List (Node String)),
    (taken = true → ∀ n ∈ nodes.head?, seenIn Node.attachments [n] = []) →
      seenIn Node.attachments (arrange pending taken nodes).1 = seenIn Node.attachments nodes
  | pending, taken, [], _ => by
      rw [arrange]
      exact isQuiet_attachments.atEnd pending
  | pending, true, node :: rest, htaken => by
      have hrest := attachments_arrange pending false rest fun h => absurd h Bool.false_ne_true
      rw [arrange, hrest, seenIn_cons, htaken rfl node rfl, List.nil_append]
  | pending, false, node :: rest, _ => by
      by_cases htitle : ∃ t, node = .title t
      · obtain ⟨t, rfl⟩ := htitle
        have hruling : seenIn Node.attachments (rule t rest.head?).nodes = [] := by
          refine seenIn_eq_nil fun n hn => ?_
          rcases isTitleFor_or_of_mem_rule isQuiet_attachments n hn with ⟨t', rfl, -⟩ | hn
          · exact seenIn_singleton rfl
          · exact hn
        have hself : seenIn Node.attachments [Node.title t] = [] := seenIn_singleton rfl
        rw [arrange, andThen, seenIn_append, seenIn_append, isQuiet_attachments.atTitle, hruling,
          attachments_arrange _ _ _ isQuiet_attachments.taken, seenIn_cons (.title t), hself]
        rfl
      · have hrest := attachments_arrange pending false rest fun h => absurd h Bool.false_ne_true
        rw [arrange]
        · rw [andThen, List.singleton_append, seenIn_cons, hrest, ← seenIn_cons]
        · exact fun t ht => htitle ⟨t, ht⟩

/-- The pass for headings gives titles no level but zero. -/
lemma level_of_arrange {level : Nat} : ∀ {pending : Pending} {taken : Bool}
    {nodes : List (Node String)}, level ∈ seenIn Node.levels (arrange pending taken nodes).1 →
      level = 0 ∨ level ∈ seenIn Node.levels nodes
  | pending, taken, [], h => by
      rw [arrange, isQuiet_levels.atEnd] at h
      exact nomatch h
  | pending, true, node :: rest, h => by
      rw [arrange] at h
      rw [seenIn_cons, List.mem_append]
      exact (level_of_arrange h).imp_right Or.inr
  | pending, false, node :: rest, h => by
      rw [seenIn_cons, List.mem_append]
      by_cases htitle : ∃ t, node = .title t
      · obtain ⟨t, rfl⟩ := htitle
        have hself : seenIn Node.levels [Node.title t] = [t.level] := seenIn_singleton rfl
        rw [arrange, andThen, seenIn_append, seenIn_append, isQuiet_levels.atTitle, List.nil_append,
          List.mem_append] at h
        rcases h with h | h
        · obtain ⟨n, hn, hlevel⟩ := mem_seenIn.mp h
          rcases isTitleFor_or_of_mem_rule isQuiet_levels n hn with ⟨t', rfl, ht'⟩ | hn
          · rw [seenIn_singleton rfl] at hlevel
            obtain rfl := List.mem_singleton.mp hlevel
            rw [hself]
            exact ht'.imp_right fun heq => Or.inl (List.mem_singleton.mpr heq)
          · rw [hn] at hlevel
            exact nomatch hlevel
        · exact (level_of_arrange h).imp_right Or.inr
      · rw [arrange] at h
        · rw [andThen, List.singleton_append, seenIn_cons, List.mem_append] at h
          rcases h with h | h
          · exact Or.inr (Or.inl h)
          · exact (level_of_arrange h).imp_right Or.inr
        · exact fun t ht => htitle ⟨t, ht⟩

/-! ## The report -/

/-- The sections of a report with the conventions applied. -/
lemma sections_enrich (d : RawDocument) : (enrich d).1.sections = d.sections ∧ d.sections = [] ∨
    ∃ first rest, d.sections = first :: rest ∧ (enrich d).1.sections =
      ({ first with nodes := (applyHeadings first.nodes).1 } :: rest).map punctuateSection := by
  cases hd : d.sections with
  | nil => exact Or.inl ⟨by simp [enrich, hd], rfl⟩
  | cons first rest => exact Or.inr ⟨first, rest, rfl, by simp [enrich, hd]⟩

lemma seenIn_map_punctuateSection (hlook : IsQuiet look) (parts : List (Section String)) :
    ((parts.map punctuateSection).flatMap fun part => seenIn look part.nodes)
      = parts.flatMap fun part => seenIn look part.nodes := by
  rw [List.flatMap_map]
  congr 1
  funext part
  exact seenIn_punctuateNodes hlook part.nodes

/-- The conventions leave pictures and other documents alone. -/
theorem attachments_enrich (d : RawDocument) : (enrich d).1.attachments = d.attachments := by
  rw [Document.attachments_eq, Document.attachments_eq]
  rcases sections_enrich d with ⟨hsections, -⟩ | ⟨first, rest, hd, hsections⟩
  · rw [hsections]
  · have hfirst : seenIn Node.attachments (applyHeadings first.nodes).1
        = seenIn Node.attachments first.nodes :=
      attachments_arrange _ _ _ fun h => absurd h Bool.false_ne_true
    rw [hsections, seenIn_map_punctuateSection isQuiet_attachments, hd, List.flatMap_cons,
      List.flatMap_cons, hfirst]

/-- The conventions give titles no level but zero. -/
theorem level_of_enrich {d : RawDocument} {level : Nat} (h : level ∈ (enrich d).1.levels) :
    level = 0 ∨ level ∈ d.levels := by
  rw [Document.levels_eq] at h ⊢
  rcases sections_enrich d with ⟨hsections, -⟩ | ⟨first, rest, hd, hsections⟩
  · rw [hsections] at h
    exact Or.inr h
  · rw [hsections, seenIn_map_punctuateSection isQuiet_levels, List.flatMap_cons,
      List.mem_append] at h
    rw [hd, List.flatMap_cons, List.mem_append]
    rcases h with h | h
    · exact (level_of_arrange h).imp_right Or.inl
    · exact Or.inr (Or.inr h)

end ReportPress.Enrich
