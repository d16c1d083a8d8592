import Mathlib.Data.List.Chain
import ReportPress.Proofs.Enrich.HeadingReading

/-!
# Where the page breaks come

The pass over the headings can be read gap by gap.  In the gap before a node, or at the end, the
part before it may end with a page break and the part behind it may begin with one; each node comes
to some nodes of its own, none of them a page break.  Page breaks meet where both happen in one gap.

* `closes`, `opens` — whether a part ends, or begins, with a page break in a gap.
* `breaks` — the page breaks in a gap.
* `ownNodes` — what a node comes to.
* `gapByGap` — a report with its page breaks, gap by gap.
* `Spares` — a page break does not follow a node of some kind.

Whatever stands before a gap is given from the nearest node on.

**The pass.**  The rule for a title looks one node ahead, across the gap behind the title.
`nodes_rule` says what it makes on either side of that gap, `ahead` what has been made already when
the pass comes to a gap, and **`applyHeadings_eq_gapByGap`** that the gaps are all there is.

**Neighbours.**  `isChain_gapByGap_iff` — page breaks spare some nodes exactly if they do so in
every gap.
-/

namespace ReportPress.Enrich

open Text

variable {t : Title String} {node : Node String} {before : List (Node String)}

/-! ## Gaps -/

/-- The heading that the last title before a gap is. -/
def lastHeading? (before : List (Node String)) : Option Heading :=
  match before.find? isTitle with
  | some (.title t) => Heading.recognize t.text
  | _ => none

/-- Whether the part before a gap is complete there, whatever comes next: a cover, or the list right
behind the heading of the glossary or of the abbreviations. -/
def isComplete : List (Node String) → Bool
  | .title t :: _ => Heading.recognize t.text = some .cover
  | .list _ :: .title t :: _ =>
    Heading.recognize t.text = some .glossary || Heading.recognize t.text = some .abbreviations
  | _ => false

/-- Whether the part before a gap goes on up to there: that of an abstract up to the next title or
the end, and that of an introduction up to the next title. -/
def goesUpTo (before : List (Node String)) : List (Node String) → Bool
  | [] => lastHeading? before = some .abstract
  | .title _ :: _ =>
    lastHeading? before = some .abstract || lastHeading? before = some .introduction
  | _ => false

/-- Whether the part before a gap ends with a page break there. -/
def closes (before after : List (Node String)) : Bool := isComplete before || goesUpTo before after

/-- Whether the part behind a gap begins with a page break: a conclusion, or the sources. -/
def opens : List (Node String) → Bool
  | .title t :: _ =>
    Heading.recognize t.text = some .conclusion || Heading.recognize t.text = some .references
  | _ => false

/-- A page break, or none. -/
def breakIf (b : Bool) : List (Node String) := if b then [.pageBreak] else []

/-- The page breaks in a gap. -/
def breaks (before after : List (Node String)) : List (Node String) :=
  breakIf (closes before after) ++ breakIf (opens after)

/-- What a title comes to without page breaks. -/
def titleNodes (t : Title String) : List (Node String) :=
  match Heading.recognize t.text with
  | none => [.title t]
  | some .cover => [.ofText (upper t.text)]
  | some .abstract =>
    [.title { t with text := upper t.text, level := 0 }, .ofText abstractStatistics]
  | some .contents => [.title { t with level := 0 }, .contents]
  | some _ => [emphasize t]

/-- What a node comes to without page breaks, given those before it: a text or a list right behind a
heading may belong to it. -/
def ownNodes : List (Node String) → Node String → List (Node String)
  | _, .title t => titleNodes t
  | .title t :: _, .text p =>
    if Heading.recognize t.text = some .abstract then [keywords p] else [.text p]
  | .title t :: _, .list l =>
    match Heading.recognize t.text with
    | some .glossary => [.ofText glossaryLeadIn,
        .table none (glossaryHeader :: (gather glossaryRow l.entries).1) true]
    | some .abbreviations => .ofText abbreviationsLeadIn :: (gather abbreviationLine l.entries).1
    | some .references => [.list { l with style.alternate := true }]
    | _ => [.list l]
  | _, node => [node]

/-- The nodes of a report with the page breaks in the gaps, given the nodes before them. -/
def gapByGap (before : List (Node String)) : List (Node String) → List (Node String)
  | [] => breaks before []
  | node :: rest =>
    breaks before (node :: rest) ++ ownNodes before node ++ gapByGap (node :: before) rest

/-! ## The pass, gap by gap -/

/-- The page break that is carried along to a gap. -/
def carried (before : List (Node String)) : Pending :=
  match lastHeading? before with
  | some .abstract => .beforeTitleOrEnd
  | some .introduction => .beforeTitle
  | _ => .nothing

/-- Whether a node belongs to the title right before it. -/
def belongs (before : List (Node String)) (next : Option (Node String)) : Bool :=
  match before with
  | .title t :: _ => (rule t next).taken
  | _ => false

/-- What the title right before a gap has made already: the node that belongs to it, and the page
break of a part that is complete. -/
def ahead (before : List (Node String)) (next : Option (Node String)) : List (Node String) :=
  match belongs before next, next with
  | true, some node => ownNodes before node ++ breakIf (isComplete (node :: before))
  | _, _ => breakIf (isComplete before)

lemma lastHeading?_title (t : Title String) (before : List (Node String)) :
    lastHeading? (.title t :: before) = Heading.recognize t.text := rfl

lemma lastHeading?_cons (h : isTitle node = false) (before : List (Node String)) :
    lastHeading? (node :: before) = lastHeading? before := by
  rw [lastHeading?, List.find?_cons, h]
  rfl

lemma carried_cons (h : isTitle node = false) (before : List (Node String)) :
    carried (node :: before) = carried before := by
  rw [carried, lastHeading?_cons h, carried]

lemma belongs_title (t : Title String) (before : List (Node String))
    (next : Option (Node String)) : belongs (.title t :: before) next = (rule t next).taken := rfl

lemma belongs_cons (h : isTitle node = false) (next : Option (Node String)) :
    belongs (node :: before) next = false := by
  cases node with
  | title t => exact nomatch h
  | _ => rfl

/-- A page break that is carried along is due in the gaps up to which a part goes. -/
lemma atTitle_carried (t : Title String) (rest : List (Node String)) :
    (carried before).atTitle = breakIf (goesUpTo before (.title t :: rest)) := by
  rw [carried, goesUpTo]
  cases lastHeading? before with
  | none => rfl
  | some heading => cases heading <;> rfl

lemma atEnd_carried : (carried before).atEnd = breakIf (goesUpTo before []) := by
  rw [carried, goesUpTo]
  cases lastHeading? before with
  | none => rfl
  | some heading => cases heading <;> rfl

/-- A part that is complete goes no further. -/
lemma breakIf_closes (before after : List (Node String)) :
    breakIf (closes before after)
      = breakIf (isComplete before) ++ breakIf (goesUpTo before after) := by
  have hexclusive (h : isComplete before = true) : goesUpTo before after = false := by
    have hlast :
        lastHeading? before ≠ some .abstract ∧ lastHeading? before ≠ some .introduction := by
      unfold isComplete at h
      split at h
      case h_1 t _ =>
        rw [lastHeading?_title, of_decide_eq_true h]
        decide
      case h_2 l t _ =>
        rw [lastHeading?_cons rfl, lastHeading?_title]
        rcases Bool.or_eq_true_iff.mp h with h | h
        · rw [of_decide_eq_true h]
          decide
        · rw [of_decide_eq_true h]
          decide
      case h_3 => exact nomatch h
    unfold goesUpTo
    split <;> simp [hlast]
  rw [closes]
  cases hcomplete : isComplete before with
  | false => rfl
  | true => rw [hexclusive hcomplete]; rfl

lemma ahead_of_not_belongs {next : Option (Node String)} (h : belongs before next = false) :
    ahead before next = breakIf (isComplete before) := by
  unfold ahead
  rw [h]

lemma ahead_of_belongs (h : belongs before (some node) = true) :
    ahead before (some node) = ownNodes before node ++ breakIf (isComplete (node :: before)) := by
  unfold ahead
  rw [h]

/-- The rule for a title makes its own nodes, with a page break before them if its part begins with
one, and what belongs to it behind the gap. -/
lemma nodes_rule (t : Title String) (next : Option (Node String))
    (before rest : List (Node String)) :
    (rule t next).nodes = breakIf (opens (.title t :: rest)) ++ titleNodes t
      ++ ahead (.title t :: before) next := by
  unfold ahead
  rw [opens, titleNodes, belongs_title]
  unfold rule
  cases ht : Heading.recognize t.text with
  | none => simp [isComplete, ht, breakIf]
  | some heading =>
      cases heading with
      | cover | contents | introduction | conclusion => simp [isComplete, ht, breakIf]
      | abstract =>
          dsimp only
          split
          case h_1 p => simp [isComplete, ownNodes, ht, breakIf]
          case h_2 => simp [isComplete, ht, breakIf]
      | glossary | abbreviations | references =>
          dsimp only
          split
          case h_1 l => simp [isComplete, ownNodes, ht, breakIf, glossary, abbreviations]
          case h_2 => simp [isComplete, ht, breakIf]

lemma pending_rule (t : Title String) (next : Option (Node String)) (before : List (Node String)) :
    (rule t next).pending = carried (.title t :: before) := by
  rw [carried, lastHeading?_title]
  unfold rule
  cases Heading.recognize t.text with
  | none => rfl
  | some heading =>
      cases heading with
      | cover | contents | introduction | conclusion => rfl
      | abstract | glossary | abbreviations | references => dsimp only; split <;> rfl

/-- What belongs to a title is no title, and that title is no cover. -/
lemma of_belongs (h : belongs before (some node) = true) :
    isTitle node = false ∧ isComplete before = false := by
  unfold belongs at h
  split at h
  case h_2 => exact Bool.noConfusion h
  case h_1 t before =>
    rw [isComplete]
    unfold rule at h
    cases ht : Heading.recognize t.text with
    | none =>
        simp only [ht] at h
        exact Bool.noConfusion h
    | some heading =>
        simp only [ht] at h
        cases heading with
        | cover | contents | introduction | conclusion => exact Bool.noConfusion h
        | abstract =>
            cases node with
            | text p => exact ⟨rfl, rfl⟩
            | _ => exact Bool.noConfusion h
        | glossary | abbreviations | references =>
            cases node with
            | list l => exact ⟨rfl, rfl⟩
            | _ => exact Bool.noConfusion h

/-- A node that belongs to no title comes to itself, and completes nothing. -/
lemma ownNodes_of_not_belongs (htitle : isTitle node = false)
    (h : belongs before (some node) = false) :
    ownNodes before node = [node] ∧ isComplete (node :: before) = false := by
  unfold ownNodes
  split
  case h_1 => exact Bool.noConfusion htitle
  case h_2 t before p =>
    refine ⟨if_neg fun ht => ?_, rfl⟩
    rw [belongs] at h
    unfold rule at h
    simp only [ht] at h
    exact Bool.noConfusion h
  case h_3 t before l =>
    rw [belongs] at h
    unfold rule at h
    rw [isComplete]
    cases ht : Heading.recognize t.text with
    | none => exact ⟨rfl, rfl⟩
    | some heading =>
        simp only [ht] at h
        cases heading with
        | glossary | abbreviations | references => exact Bool.noConfusion h
        | _ => exact ⟨rfl, rfl⟩
  case h_4 _ _ _ hlist =>
    refine ⟨rfl, ?_⟩
    unfold isComplete
    split
    case h_1 t before hcons =>
      obtain ⟨rfl, -⟩ := List.cons.inj hcons
      exact Bool.noConfusion htitle
    case h_2 l t before hcons =>
      obtain ⟨rfl, rfl⟩ := List.cons.inj hcons
      exact (hlist t before l rfl rfl).elim
    case h_3 => rfl

/-- The page breaks before a title: the part before it ends, or its own begins. -/
lemma breaks_title (before rest : List (Node String)) (t : Title String) :
    breaks before (.title t :: rest)
      = breakIf (isComplete before) ++ (carried before).atTitle
        ++ breakIf (opens (.title t :: rest)) := by
  rw [breaks, breakIf_closes, atTitle_carried t rest]

/-- Before any other node there is only the page break of a part that is complete. -/
lemma breaks_of_not_title (htitle : isTitle node = false) (before rest : List (Node String)) :
    breaks before (node :: rest) = breakIf (isComplete before) := by
  have hgoes : goesUpTo before (node :: rest) = false := by
    cases node with
    | title t => exact Bool.noConfusion htitle
    | _ => rfl
  have hopens : opens (node :: rest) = false := by
    cases node with
    | title t => exact Bool.noConfusion htitle
    | _ => rfl
  rw [breaks, breakIf_closes, hgoes, hopens]
  exact (List.append_nil _).trans (List.append_nil _)

lemma breaks_nil (before : List (Node String)) :
    breaks before [] = breakIf (isComplete before) ++ (carried before).atEnd := by
  rw [breaks, breakIf_closes, atEnd_carried]
  exact List.append_nil _

/-- The pass from a gap on. -/
lemma arrange_eq_gapByGap : ∀ (nodes before : List (Node String)),
    ahead before nodes.head? ++ (arrange (carried before) (belongs before nodes.head?) nodes).1
      = gapByGap before nodes
  | [], before => by
      have hahead : ahead before none = breakIf (isComplete before) := by
        unfold ahead
        split
        case h_1 hnone => exact nomatch hnone
        case h_2 => rfl
      rw [List.head?_nil, hahead, arrange, gapByGap, breaks_nil]
  | node :: rest, before => by
      have hrest := arrange_eq_gapByGap rest (node :: before)
      rw [List.head?_cons, gapByGap, ← hrest]
      cases h : belongs before (some node) with
      | true =>
          -- The node has been made with the title before it, and the pass only steps over it.
          obtain ⟨htitle, hcomplete⟩ := of_belongs h
          rw [ahead_of_belongs h, arrange_taken, List.tail_cons, breaks_of_not_title htitle,
            hcomplete, belongs_cons htitle, carried_cons htitle,
            ahead_of_not_belongs (belongs_cons htitle _)]
          simp [breakIf]
      | false =>
          rw [ahead_of_not_belongs h]
          cases htitle : isTitle node with
          | false =>
              obtain ⟨hown, hcomplete⟩ := ownNodes_of_not_belongs htitle h
              rw [arrange_cons _ htitle, breaks_of_not_title htitle, hown, belongs_cons htitle,
                carried_cons htitle, ahead_of_not_belongs (belongs_cons htitle _), hcomplete]
              simp [andThen, breakIf]
          | true =>
              obtain ⟨t, rfl⟩ := exists_title_of_isTitle htitle
              rw [arrange_title_cons, breaks_title, nodes_rule t _ before rest,
                pending_rule t _ before]
              simp [andThen, ownNodes, belongs]

/-- The pass over the headings puts in page breaks gap by gap. -/
theorem applyHeadings_eq_gapByGap (nodes : List (Node String)) :
    (applyHeadings nodes).1 = gapByGap [] nodes := by
  have hpass := arrange_eq_gapByGap nodes []
  rwa [ahead_of_not_belongs rfl] at hpass

/-! ## Neighbours -/

/-- Whether a node is a break, of a page or of a section. -/
def isAnyBreak : Node String → Bool
  | .pageBreak | .sectionBreak _ => true
  | _ => false

/-- A page break does not follow a node of some kind. -/
def Spares (p : Node String → Prop) (x y : Node String) : Prop := p x → y ≠ .pageBreak

/-- The node before a gap.  A report begins like a section. -/
def previous (before : List (Node String)) : Node String := before.headD (.sectionBreak none)

lemma isAnyBreak_of_mem_titleNodes (h : node ∈ titleNodes t) : isAnyBreak node = false := by
  unfold titleNodes at h
  split at h
  all_goals
    simp only [List.mem_cons, List.not_mem_nil, or_false] at h
    obtain rfl | rfl := h <;> rfl

/-- What a node comes to is the node itself, or neither is a break. -/
lemma ownNodes_cases (before : List (Node String)) (node : Node String) :
    ownNodes before node = [node] ∨ isAnyBreak node = false ∧ ownNodes before node ≠ [] ∧
      ∀ n ∈ ownNodes before node, isAnyBreak n = false := by
  unfold ownNodes
  split
  case h_1 t =>
    refine Or.inr ⟨rfl, ?_, fun n hn => isAnyBreak_of_mem_titleNodes hn⟩
    unfold titleNodes
    split <;> simp
  case h_2 t before p =>
    split_ifs
    · exact Or.inr ⟨rfl, by simp, by simp [keywords, isAnyBreak]⟩
    · exact Or.inl rfl
  case h_3 t before l =>
    split
    case h_1 => exact Or.inr ⟨rfl, by simp, by simp [Node.ofText, isAnyBreak]⟩
    case h_2 =>
      refine Or.inr ⟨rfl, by simp, List.forall_mem_cons.mpr ⟨rfl, fun n hn => ?_⟩⟩
      obtain ⟨e, -, hmake⟩ := List.mem_filterMap.mp hn
      cases e with
      | list style entries => exact nomatch hmake
      | item text =>
          obtain rfl := Option.some.inj hmake
          rfl
    case h_3 => exact Or.inr ⟨rfl, by simp, by simp [isAnyBreak]⟩
    case h_4 => exact Or.inl rfl
  case h_4 => exact Or.inl rfl

section Neighbours

variable {p : Node String → Prop} (hp : ∀ n, isAnyBreak n = false → ¬ p n)

include hp

/-- The nodes that a node comes to part the page breaks before it from those behind it. -/
lemma isChain_ownNodes_iff (hnode : node ≠ .pageBreak) (x : Node String)
    (front before more : List (Node String)) :
    (x :: (front ++ ownNodes before node ++ more)).IsChain (Spares p) ↔
      (x :: front).IsChain (Spares p) ∧ (node :: more).IsChain (Spares p) := by
  have hcases := ownNodes_cases before node
  generalize ownNodes before node = own at hcases
  have hbreak : ∀ n ∈ own, n ≠ .pageBreak := by
    obtain rfl | ⟨-, -, hnone⟩ := hcases
    · simpa using hnode
    · rintro n hn rfl
      exact Bool.noConfusion (hnone _ hn)
  have hlast : ∀ n ∈ own.getLast?, p n ↔ p node := by
    intro n hn
    obtain rfl | ⟨hnot, -, hnone⟩ := hcases
    · obtain rfl : node = n := Option.some.inj hn
      exact Iff.rfl
    · exact iff_of_false (hp _ (hnone n (List.mem_of_mem_getLast? hn))) (hp _ hnot)
  have hown : own.IsChain (Spares p) :=
    List.isChain_iff_forall_rel_of_append_cons_cons.mpr fun a b front back heq _ =>
      hbreak b (by simp [heq])
  have hne : own ≠ [] := by
    obtain rfl | ⟨-, hne, -⟩ := hcases
    · simp
    · exact hne
  have hhead : ∀ n ∈ (own ++ more).head?, n ≠ .pageBreak := by
    intro n hn
    rw [List.head?_append_of_ne_nil own hne] at hn
    exact hbreak n (List.mem_of_mem_head? hn)
  have hmore : (own ++ more).IsChain (Spares p) ↔ (node :: more).IsChain (Spares p) := by
    obtain ⟨last, hgetLast⟩ := Option.ne_none_iff_exists'.mp
      (List.getLast?_eq_none_iff.not.mpr hne)
    have hsame : p last ↔ p node := hlast last hgetLast
    rw [List.isChain_append, List.isChain_cons, hgetLast]
    simp only [Option.mem_some_iff, forall_eq', Spares, hsame, hown, true_and, and_comm]
  rw [List.append_assoc, ← List.cons_append, List.isChain_append, hmore]
  exact ⟨fun ⟨hfront, hback, _⟩ => ⟨hfront, hback⟩,
    fun ⟨hfront, hback⟩ => ⟨hfront, hback, fun _ _ n hn _ => hhead n hn⟩⟩

/-- Page breaks spare what is before them exactly if they do so in every gap. -/
theorem isChain_gapByGap_iff : ∀ (nodes before : List (Node String)), .pageBreak ∉ nodes →
    ((previous before :: gapByGap before nodes).IsChain (Spares p) ↔
      ∀ front after, nodes = front ++ after →
        (previous (front.reverse ++ before) :: breaks (front.reverse ++ before) after).IsChain
          (Spares p))
  | [], before, _ => by
      constructor
      · intro h front after heq
        obtain ⟨rfl, rfl⟩ := List.append_eq_nil_iff.mp heq.symm
        exact h
      · exact fun h => h [] [] rfl
  | node :: rest, before, hbreak => by
      have ih := isChain_gapByGap_iff rest (node :: before) (List.not_mem_of_not_mem_cons hbreak)
      have hnode : node ≠ .pageBreak := (List.ne_of_not_mem_cons hbreak).symm
      rw [gapByGap, isChain_ownNodes_iff hp hnode]
      constructor
      · rintro ⟨hgap, hgaps⟩ front after heq
        rcases List.cons_eq_append_iff.mp heq with ⟨rfl, rfl⟩ | ⟨front, rfl, rfl⟩
        · exact hgap
        · rw [List.reverse_cons, List.append_assoc]
          exact ih.mp hgaps front after rfl
      · intro h
        refine ⟨h [] (node :: rest) rfl, ih.mpr fun front after heq => ?_⟩
        have hgap := h (node :: front) after (congrArg (node :: ·) heq)
        rwa [List.reverse_cons, List.append_assoc] at hgap

end Neighbours

/-- Page breaks spare each other in a gap unless there are two. -/
lemma isChain_breaks_pageBreak_iff {x : Node String} (hx : x ≠ .pageBreak)
    (before after : List (Node String)) :
    (x :: breaks before after).IsChain (Spares (· = .pageBreak))
      ↔ ¬ (closes before after = true ∧ opens after = true) := by
  rw [breaks]
  cases closes before after <;> cases opens after <;> simp [breakIf, Spares, hx]

/-- They spare the node before a gap unless there is one. -/
lemma isChain_breaks_iff {p : Node String → Prop} (hp : ¬ p .pageBreak) (x : Node String)
    (before after : List (Node String)) :
    (x :: breaks before after).IsChain (Spares p)
      ↔ ¬ (p x ∧ (closes before after = true ∨ opens after = true)) := by
  rw [breaks]
  cases closes before after <;> cases opens after <;> simp [breakIf, Spares, hp]

lemma isChain_pageBreak_iff {nodes : List (Node String)} :
    nodes.IsChain (Spares (· = .pageBreak)) ↔ ¬ [.pageBreak, .pageBreak] <:+: nodes := by
  constructor
  · intro h hinfix
    have hpair := List.IsChain.infix h hinfix
    exact List.isChain_pair.mp hpair rfl rfl
  · intro h
    refine List.isChain_iff_forall_rel_of_append_cons_cons.mpr ?_
    rintro a b front back rfl rfl rfl
    exact h ⟨front, back, by simp⟩

end ReportPress.Enrich
