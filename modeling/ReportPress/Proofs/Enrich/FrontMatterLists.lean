import ReportPress.Proofs.Enrich.FrontMatterTexts
import ReportPress.Proofs.Enrich.PageBreaks

/-!
# No entry below a heading is lost

The lists below the headings of the terms and of the abbreviations are taken apart.  An entry shows
up again in the report or is reported, and nothing else is reported but a list that is missing.

* `FindsAt`, `Finds` — the findings of a title, and those of a report title by title.
* `KeepsEntries` — a report in which no entry is lost.

**Findings.**  `finds_arrange` — the pass has the findings of each title, and no others.

**Nodes.**  `arrange_append_title` — what stands before a title does not depend on what comes behind
it, up to the page break that an introduction carries there.  So a heading stands between two
reports that are each read on their own: **`keepsEntries_applyHeadings`**.
-/

namespace ReportPress.Enrich

open Text

variable {α β : Type} {t : Title String} {l : ItemList String} {node : Node String}
variable {before rest : List (Node String)}

/-! ## Findings -/

-- Irreducible, for it would be evaluated by comparing the title with the texts of all headings.
/-- The findings of a title, given the nodes behind it. -/
@[irreducible]
def FindsAt (t : Title String) (rest : List (Node String)) (found : List Diagnostic) : Prop :=
  match Heading.recognize t.text, listBehind? rest with
  | some .glossary, some l => ∃ rows, Accounts IsTerm IsNoTerm l.entries rows found
  | some .glossary, none => found = [.glossaryShape .noList]
  | some .abbreviations, some l =>
    ∃ lines, Accounts IsAbbreviation IsNoAbbreviation l.entries lines found
  | some .abbreviations, none => found = [.abbreviationsShape .noList]
  | some .references, none => found = [.referencesShape .noList]
  | _, _ => found = []

/-- The findings of a report: those of its titles in order. -/
inductive Finds : List (Node String) → List Diagnostic → Prop
  | nil : Finds [] []
  | title {t : Title String} {rest : List (Node String)} {here later : List Diagnostic} :
      FindsAt t rest here → Finds rest later → Finds (.title t :: rest) (here ++ later)
  | other {node : Node String} {rest : List (Node String)} {found : List Diagnostic} :
      isTitle node = false → Finds rest found → Finds (node :: rest) found

lemma findsAt_rule (t : Title String) (rest : List (Node String)) :
    FindsAt t rest (rule t rest.head?).found := by
  rw [FindsAt]
  unfold rule
  cases ht : Heading.recognize t.text with
  | none => cases listBehind? rest <;> rfl
  | some heading =>
      cases hlist : listBehind? rest with
      | some l =>
          obtain ⟨after, rfl⟩ := eq_cons_of_listBehind? hlist
          cases heading with
          | glossary => exact ⟨_, accounts_gather settles_glossaryRow l.entries⟩
          | abbreviations => exact ⟨_, accounts_gather settles_abbreviationLine l.entries⟩
          | _ => rfl
      | none =>
          have hhead := head?_ne_of_listBehind? hlist
          cases heading with
          | abstract => dsimp only; split <;> rfl
          | glossary | abbreviations | references =>
              dsimp only
              split
              case h_1 l hl => exact absurd hl (hhead l)
              case h_2 => rfl
          | _ => rfl

/-- A node that a title takes is no title. -/
lemma isTitle_of_taken {next : Option (Node String)} (h : (rule t next).taken = true) :
    ∀ node ∈ next, isTitle node = false := by
  rintro node rfl
  have hbelongs : belongs [.title t] (some node) = true := h
  exact (of_belongs hbelongs).1

lemma snd_andThen (nodes : List (Node String)) (found : List Diagnostic)
    (read : List (Node String) × List Diagnostic) :
    (andThen nodes found read).2 = found ++ read.2 := rfl

/-- The pass has the findings of every title once, in order, and no others. -/
lemma finds_arrange : ∀ (nodes : List (Node String)) (pending : Pending) (taken : Bool),
    (taken = true → ∀ node ∈ nodes.head?, isTitle node = false) →
      Finds nodes (arrange pending taken nodes).2
  | [], _, _, _ => by
      rw [arrange]
      exact .nil
  | node :: rest, pending, true, htaken => by
      rw [arrange]
      have hrest := finds_arrange rest pending false fun h => Bool.noConfusion h
      exact .other (htaken rfl node rfl) hrest
  | node :: rest, pending, false, _ => by
      cases h : isTitle node with
      | false =>
          rw [arrange_cons pending h]
          exact .other h (finds_arrange rest pending false fun h => Bool.noConfusion h)
      | true =>
          obtain ⟨t, rfl⟩ := exists_title_of_isTitle h
          have hrest := finds_arrange rest (rule t rest.head?).pending (rule t rest.head?).taken
            isTitle_of_taken
          rw [arrange_title_cons, snd_andThen]
          exact .title (findsAt_rule t rest) hrest

/-! ## Nodes -/

/-- The rule for a title sees nothing of the title behind it. -/
lemma rule_title (t u : Title String) : rule t (some (.title u)) = rule t none := by
  unfold rule
  cases Heading.recognize t.text with
  | none => rfl
  | some heading => cases heading <;> rfl

lemma rule_head?_append (t u : Title String) (before rest : List (Node String)) :
    rule t (before ++ .title u :: rest).head? = rule t before.head? := by
  cases before with
  | nil => exact rule_title t u
  | cons node before => rfl

/-- Before a title an introduction carries a page break that it does not have at the end. -/
lemma atTitle_carried_eq (seen : List (Node String)) :
    (carried seen).atTitle
      = (carried seen).atEnd ++ breakIf (lastHeading? seen = some .introduction) := by
  rw [carried]
  cases lastHeading? seen with
  | none => rfl
  | some heading => cases heading <;> rfl

/-- The pass comes to a title in the same state whatever comes behind it. -/
lemma arrange_append_title (t : Title String) (rest : List (Node String)) :
    ∀ before seen : List (Node String),
      arrange (carried seen) (belongs seen (before ++ .title t :: rest).head?)
          (before ++ .title t :: rest) =
        andThen ((arrange (carried seen) (belongs seen before.head?) before).1 ++
            breakIf (lastHeading? (before.reverse ++ seen) = some .introduction))
          (arrange (carried seen) (belongs seen before.head?) before).2
          (applyHeadings (.title t :: rest))
  | [], seen => by
      have hbelongs : belongs seen (some (.title t)) = false := by
        rw [← Bool.not_eq_true]
        exact fun h => Bool.noConfusion (of_belongs h).1
      rw [List.nil_append, List.head?_cons, hbelongs, arrange_title_cons, atTitle_carried_eq,
        arrange, applyHeadings, arrange_title_cons, andThen_andThen, List.reverse_nil,
        List.nil_append]
      simp [Pending.atTitle]
  | node :: before, seen => by
      have ih := arrange_append_title t rest before (node :: seen)
      have hseen : (node :: before).reverse ++ seen = before.reverse ++ node :: seen := by simp
      rw [List.cons_append, List.head?_cons, List.head?_cons, hseen]
      cases hbelongs : belongs seen (some node) with
      | true =>
          have htitle := (of_belongs hbelongs).1
          rw [carried_cons htitle, belongs_cons htitle, belongs_cons htitle] at ih
          rw [arrange_taken, arrange_taken, List.tail_cons, List.tail_cons, ih]
      | false =>
          cases htitle : isTitle node with
          | false =>
              rw [carried_cons htitle, belongs_cons htitle, belongs_cons htitle] at ih
              rw [arrange_cons _ htitle, arrange_cons _ htitle, ih, andThen_andThen]
              rfl
          | true =>
              obtain ⟨u, rfl⟩ := exists_title_of_isTitle htitle
              rw [belongs_title, belongs_title, rule_head?_append] at ih
              rw [arrange_title_cons, arrange_title_cons, rule_head?_append,
                pending_rule u _ seen, ih, andThen_andThen]
              simp [andThen]

/-- A heading and its list, taken out of a report: `own` and `found` stand there, between what the
nodes on either side become on their own. -/
def around (before : List (Node String)) (own : List (Node String)) (found : List Diagnostic)
    (after : List (Node String)) : List (Node String) × List Diagnostic :=
  andThen
    ((applyHeadings before).1 ++ breakIf (lastHeading? before.reverse = some .introduction))
    (applyHeadings before).2 (andThen own found (applyHeadings after))

lemma applyHeadings_append_title {heading : Heading}
    (h : Heading.recognize t.text = some heading) (before rest : List (Node String)) :
    applyHeadings (before ++ .title t :: rest) =
      around before (part t rest heading).nodes (part t rest heading).found
        (part t rest heading).rest := by
  have happend := arrange_append_title t rest before []
  rw [List.append_nil] at happend
  have hpart : applyHeadings (.title t :: rest) =
      andThen (part t rest heading).nodes (part t rest heading).found
        (applyHeadings (part t rest heading).rest) := arrange_title h rest
  rw [around, ← hpart]
  exact happend

/-! ## Whole reports -/

/-- A report in which every entry below the headings of the terms and of the abbreviations shows up
again or is reported. -/
structure KeepsEntries (nodes : List (Node String)) (read : List (Node String) × List Diagnostic) :
    Prop where
  /-- The findings are those of the titles, in order. -/
  finds : Finds nodes read.2
  terms : ∀ before t l after, nodes = before ++ .title t :: .list l :: after →
    Heading.recognize t.text = some .glossary →
      ∃ rows found, Accounts IsTerm IsNoTerm l.entries rows found ∧
        rows.length + found.length = l.entries.length ∧
        read = around before
          [emphasize t, .ofText glossaryLeadIn, .table none (glossaryHeader :: rows) true,
            .pageBreak] found after
  abbreviations : ∀ before t l after, nodes = before ++ .title t :: .list l :: after →
    Heading.recognize t.text = some .abbreviations →
      ∃ lines found, Accounts IsAbbreviation IsNoAbbreviation l.entries lines found ∧
        lines.length + found.length = l.entries.length ∧
        read = around before
          (emphasize t :: .ofText abbreviationsLeadIn :: lines ++ [.pageBreak]) found after

/-- No entry is lost on the way, whatever the report. -/
theorem keepsEntries_applyHeadings (nodes : List (Node String)) :
    KeepsEntries nodes (applyHeadings nodes) where
  finds := finds_arrange nodes .nothing false fun h => Bool.noConfusion h
  terms := by
    rintro before t l after rfl ht
    have hentries := accounts_gather settles_glossaryRow l.entries
    exact ⟨_, _, hentries, hentries.length_add_length, applyHeadings_append_title ht before _⟩
  abbreviations := by
    rintro before t l after rfl ht
    have hentries := accounts_gather settles_abbreviationLine l.entries
    exact ⟨_, _, hentries, hentries.length_add_length, applyHeadings_append_title ht before _⟩

/-- Terms behind an introduction: one is defined, one is not, and one entry is a nested list. -/
theorem keepsEntries_terms :
    Heading.recognize "Термины и определения" = some .glossary ∧
      ∃ rows found,
        Accounts IsTerm IsNoTerm
          [.item "Отчет: документ", .item "Реферат", .list { ordered := false } []] rows found ∧
        rows.length + found.length = 3 ∧
        applyHeadings [.title { text := "Введение", level := 1 },
            .title { text := "Термины и определения", level := 1 },
            .list { style := { ordered := false }, entries :=
              [.item "Отчет: документ", .item "Реферат", .list { ordered := false } []] },
            .title { text := "Заключение", level := 1 }] =
          around [.title { text := "Введение", level := 1 }]
            [emphasize { text := "Термины и определения", level := 1 },
              .ofText glossaryLeadIn, .table none (glossaryHeader :: rows) true, .pageBreak]
            found [.title { text := "Заключение", level := 1 }] := by
  have ht : Heading.recognize "Термины и определения" = some .glossary := by decide +kernel
  refine ⟨ht, ?_⟩
  exact (keepsEntries_applyHeadings _).terms [.title { text := "Введение", level := 1 }]
    { text := "Термины и определения", level := 1 }
    { style := { ordered := false }, entries :=
      [.item "Отчет: документ", .item "Реферат", .list { ordered := false } []] }
    [.title { text := "Заключение", level := 1 }] rfl ht

end ReportPress.Enrich
