import Mathlib.Data.List.TakeWhile
import Mathlib.Tactic.Common
import ReportPress.Enrich.Heading

/-!
# What the pass over the headings makes of a report

The pass carries a page break along until the next title, and looks one node ahead.  Read from the
headings, each of the eight rewrites a part of the report: the title and what it covers, up to where
the reading goes on.

* `untilTitle`, `fromTitle` — the nodes before the next title, and the rest.
* `Part`, `part` — what a heading makes of itself and of the nodes behind it.
* `reading` — the report part by part.  Whatever no part covers is kept.
* `recognizedTitles` — the titles that are headings of the front matter.

**The pass.**  `arrange_eq` says where a page break that is carried along ends up, `arrange_title`
that the pass makes its part of every heading, and **`applyHeadings_eq_reading`** that nothing else
happens.
-/

namespace ReportPress.Enrich

open Text

variable {t : Title String} {heading : Heading} {node : Node String}
variable {nodes rest body : List (Node String)}

/-! ## Parts -/

/-- Whether a node is a title. -/
def isTitle : Node String → Bool
  | .title _ => true
  | _ => false

lemma exists_title_of_isTitle (h : isTitle node = true) : ∃ t, node = .title t := by
  cases node with
  | title t => exact ⟨t, rfl⟩
  | _ => simp [isTitle] at h

/-- The nodes before the next title. -/
def untilTitle (nodes : List (Node String)) : List (Node String) :=
  nodes.takeWhile fun node => !isTitle node

/-- The next title and the nodes behind it. -/
def fromTitle (nodes : List (Node String)) : List (Node String) :=
  nodes.dropWhile fun node => !isTitle node

/-- The nodes behind the heading of the abstract: the first one, if it is a text, is that of the
keywords. -/
def withKeywords : List (Node String) → List (Node String)
  | .text p :: rest => keywords p :: rest
  | nodes => nodes

/-- The list right behind a heading. -/
def listBehind? : List (Node String) → Option (ItemList String)
  | .list l :: _ => some l
  | _ => none

/-- What becomes of a heading and of the nodes that belong to it, and the nodes that are left. -/
structure Part where
  nodes : List (Node String)
  found : List Diagnostic := []
  rest : List (Node String)

/-- The part of the report that a heading begins, given the nodes behind its title. -/
def part (t : Title String) (rest : List (Node String)) : Heading → Part
  | .cover => { nodes := [.ofText (upper t.text), .pageBreak], rest }
  | .abstract =>
    { nodes := .title { t with text := upper t.text, level := 0 } :: .ofText abstractStatistics ::
        withKeywords (untilTitle rest) ++ [.pageBreak]
      rest := fromTitle rest }
  | .contents => { nodes := [.title { t with level := 0 }, .contents], rest }
  | .glossary =>
    match listBehind? rest with
    | some l =>
      { nodes := emphasize t :: (glossary l).1, found := (glossary l).2, rest := rest.tail }
    | none => { nodes := [emphasize t], found := [.glossaryShape .noList], rest }
  | .abbreviations =>
    match listBehind? rest with
    | some l =>
      { nodes := emphasize t :: (abbreviations l).1, found := (abbreviations l).2,
        rest := rest.tail }
    | none => { nodes := [emphasize t], found := [.abbreviationsShape .noList], rest }
  | .introduction =>
    { nodes := emphasize t :: untilTitle rest ++
        if (fromTitle rest).isEmpty then [] else [.pageBreak]
      rest := fromTitle rest }
  | .conclusion => { nodes := [.pageBreak, emphasize t], rest }
  | .references =>
    match listBehind? rest with
    | some l =>
      { nodes := [.pageBreak, emphasize t, .list { l with style.alternate := true }]
        rest := rest.tail }
    | none => { nodes := [.pageBreak, emphasize t], found := [.referencesShape .noList], rest }

lemma eq_cons_of_listBehind? {l : ItemList String} (h : listBehind? rest = some l) :
    ∃ tail, rest = .list l :: tail := by
  rw [listBehind?.eq_def] at h
  split at h
  · exact ⟨_, by rw [Option.some.inj h]⟩
  · simp at h

lemma head?_ne_of_listBehind? (h : listBehind? rest = none) (l : ItemList String) :
    rest.head? ≠ some (.list l) := by
  intro hhead
  obtain ⟨tail, rfl⟩ := List.head?_eq_some_iff.mp hhead
  simp [listBehind?] at h

lemma length_fromTitle_le (nodes : List (Node String)) :
    (fromTitle nodes).length ≤ nodes.length := List.length_dropWhile_le _ _

/-- A part leaves some of the nodes behind its title, and never more. -/
lemma length_rest_part_le (t : Title String) (rest : List (Node String)) (heading : Heading) :
    (part t rest heading).rest.length ≤ rest.length := by
  have htail : rest.tail.length ≤ rest.length := by
    rw [List.length_tail]
    exact Nat.sub_le _ _
  cases heading with
  | abstract => exact length_fromTitle_le rest
  | introduction => exact length_fromTitle_le rest
  | glossary =>
      rw [part]
      split
      · exact htail
      · exact Nat.le_refl _
  | abbreviations =>
      rw [part]
      split
      · exact htail
      · exact Nat.le_refl _
  | references =>
      rw [part]
      split
      · exact htail
      · exact Nat.le_refl _
  | _ => exact Nat.le_refl _

/-- The part that a node begins: a heading its own, and any other node itself. -/
def partOf (node : Node String) (rest : List (Node String)) : Part :=
  match node with
  | .title t =>
    match Heading.recognize t.text with
    | some heading => part t rest heading
    | none => { nodes := [.title t], rest }
  | node => { nodes := [node], rest }

lemma partOf_of_isTitle (h : isTitle node = false) (rest : List (Node String)) :
    partOf node rest = { nodes := [node], rest } := by
  cases node with
  | title t => simp [isTitle] at h
  | _ => rfl

lemma partOf_title (h : Heading.recognize t.text = some heading) (rest : List (Node String)) :
    partOf (.title t) rest = part t rest heading := by
  simp only [partOf, h]

lemma partOf_title_of_none (h : Heading.recognize t.text = none) (rest : List (Node String)) :
    partOf (.title t) rest = { nodes := [.title t], rest } := by
  simp only [partOf, h]

lemma length_rest_partOf_le (node : Node String) (rest : List (Node String)) :
    (partOf node rest).rest.length ≤ rest.length := by
  cases hnode : isTitle node with
  | false =>
      rw [partOf_of_isTitle hnode]
  | true =>
      obtain ⟨t, rfl⟩ := exists_title_of_isTitle hnode
      cases h : Heading.recognize t.text with
      | some heading =>
          rw [partOf_title h]
          exact length_rest_part_le t rest heading
      | none => rw [partOf_title_of_none h]

/-- The report part by part, and the findings on the way. -/
def reading : List (Node String) → List (Node String) × List Diagnostic
  | [] => ([], [])
  | node :: rest =>
    andThen (partOf node rest).nodes (partOf node rest).found (reading (partOf node rest).rest)
termination_by nodes => nodes.length
decreasing_by exact Nat.lt_succ_of_le (length_rest_partOf_le node rest)

/-- The titles that are headings of the front matter, in order. -/
def recognizedTitles (nodes : List (Node String)) : List (Title String) :=
  nodes.filterMap fun
    | .title t => if (Heading.recognize t.text).isSome then some t else none
    | _ => none

/-! ## Where parts end -/

lemma untilTitle_append_fromTitle (nodes : List (Node String)) :
    untilTitle nodes ++ fromTitle nodes = nodes := List.takeWhile_append_dropWhile

lemma untilTitle_cons (h : isTitle node = false) :
    untilTitle (node :: nodes) = node :: untilTitle nodes := by simp [untilTitle, h]

lemma fromTitle_cons (h : isTitle node = false) :
    fromTitle (node :: nodes) = fromTitle nodes := by simp [fromTitle, h]

lemma untilTitle_withKeywords (nodes : List (Node String)) :
    untilTitle (withKeywords nodes) = withKeywords (untilTitle nodes) := by
  cases nodes with
  | nil => rfl
  | cons node rest => cases node <;> rfl

lemma fromTitle_withKeywords (nodes : List (Node String)) :
    fromTitle (withKeywords nodes) = fromTitle nodes := by
  cases nodes with
  | nil => rfl
  | cons node rest =>
      cases node with
      | text p =>
          have hkept : isTitle (keywords p) = false := rfl
          rw [withKeywords, fromTitle_cons hkept, fromTitle_cons rfl]
      | _ => rfl

lemma isTitle_of_mem_untilTitle (h : node ∈ untilTitle nodes) : isTitle node = false := by
  simpa using List.mem_takeWhile_imp h

lemma andThen_andThen (before after : List (Node String)) (found more : List Diagnostic)
    (read : List (Node String) × List Diagnostic) :
    andThen before found (andThen after more read)
      = andThen (before ++ after) (found ++ more) read := by
  simp [andThen]

/-- Nodes among which there is no title are kept. -/
lemma reading_append (hbody : ∀ node ∈ body, isTitle node = false) (rest : List (Node String)) :
    reading (body ++ rest) = andThen body [] (reading rest) := by
  induction body with
  | nil => rfl
  | cons node body ih =>
      have hrest := ih fun node hnode => hbody node (List.mem_cons_of_mem _ hnode)
      rw [List.cons_append, reading, partOf_of_isTitle (hbody node List.mem_cons_self), hrest,
        andThen_andThen]
      rfl

/-! ## The pass -/

lemma arrange_title_cons (pending : Pending) (t : Title String) (rest : List (Node String)) :
    arrange pending false (.title t :: rest) =
      andThen (pending.atTitle ++ (rule t rest.head?).nodes) (rule t rest.head?).found
        (arrange (rule t rest.head?).pending (rule t rest.head?).taken rest) := by
  rw [arrange]

lemma arrange_cons (pending : Pending) (h : isTitle node = false) :
    arrange pending false (node :: rest) = andThen [node] [] (arrange pending false rest) := by
  cases node with
  | title t => simp [isTitle] at h
  | _ => rw [arrange]; simp

/-- A page break that is carried along comes before the next title, or at the end. -/
lemma arrange_eq (pending : Pending) (nodes : List (Node String)) :
    arrange pending false nodes =
      andThen
        (untilTitle nodes ++ if (fromTitle nodes).isEmpty then pending.atEnd else pending.atTitle)
        [] (arrange .nothing false (fromTitle nodes)) := by
  induction nodes with
  | nil => simp [untilTitle, fromTitle, arrange, andThen, Pending.atEnd]
  | cons node rest ih =>
      cases h : isTitle node with
      | false =>
          rw [untilTitle_cons h, fromTitle_cons h, arrange_cons pending h, ih, andThen_andThen]
          rfl
      | true =>
          obtain ⟨t, rfl⟩ := exists_title_of_isTitle h
          have huntil : untilTitle (.title t :: rest) = [] := by simp [untilTitle, isTitle]
          have hfrom : fromTitle (.title t :: rest) = .title t :: rest := by
            simp [fromTitle, isTitle]
          rw [huntil, hfrom, arrange_title_cons, arrange_title_cons, andThen_andThen]
          simp [Pending.atTitle]

/-- A node that a heading has taken is passed over. -/
lemma arrange_taken (pending : Pending) (nodes : List (Node String)) :
    arrange pending true nodes = arrange pending false nodes.tail := by
  cases nodes with
  | nil => rw [arrange, List.tail_nil, arrange]
  | cons node rest => rw [arrange, List.tail_cons]

/-- The abstract takes a text behind its title, to put the keywords there. -/
lemma andThen_rule_abstract (h : Heading.recognize t.text = some .abstract)
    (rest : List (Node String)) :
    andThen (Pending.nothing.atTitle ++ (rule t rest.head?).nodes) (rule t rest.head?).found
        (arrange (rule t rest.head?).pending (rule t rest.head?).taken rest) =
      andThen [.title { t with text := upper t.text, level := 0 }, .ofText abstractStatistics] []
        (arrange .beforeTitleOrEnd false (withKeywords rest)) := by
  cases rest with
  | nil => unfold rule; simp only [h]; rfl
  | cons node rest =>
      cases node with
      | text p =>
          unfold rule
          simp only [h, List.head?_cons, arrange_taken, List.tail_cons, withKeywords]
          have hkept : isTitle (keywords p) = false := rfl
          rw [arrange_cons _ hkept, andThen_andThen]
          rfl
      | _ => unfold rule; simp only [h, List.head?_cons, withKeywords]; rfl

/-- The pass makes its part of a heading and goes on with what the part leaves. -/
lemma arrange_title (h : Heading.recognize t.text = some heading) (rest : List (Node String)) :
    arrange .nothing false (.title t :: rest) =
      andThen (part t rest heading).nodes (part t rest heading).found
        (arrange .nothing false (part t rest heading).rest) := by
  rw [arrange_title_cons]
  cases heading with
  | cover => unfold rule; simp only [h]; rfl
  | contents => unfold rule; simp only [h]; rfl
  | conclusion => unfold rule; simp only [h]; rfl
  | introduction =>
      unfold rule
      simp only [h, part]
      rw [arrange_eq .beforeTitle, andThen_andThen]
      rfl
  | abstract =>
      rw [andThen_rule_abstract h, arrange_eq, untilTitle_withKeywords, fromTitle_withKeywords,
        andThen_andThen]
      have hbreak : (if (fromTitle rest).isEmpty then Pending.beforeTitleOrEnd.atEnd
          else Pending.beforeTitleOrEnd.atTitle) = [.pageBreak] := by
        split_ifs <;> rfl
      rw [hbreak]
      rfl
  | glossary | abbreviations | references =>
      cases hlist : listBehind? rest with
      | some l =>
          obtain ⟨tail, rfl⟩ := eq_cons_of_listBehind? hlist
          unfold rule
          simp only [h, part, hlist, List.head?_cons, List.tail_cons, arrange_taken]
          rfl
      | none =>
          unfold rule
          simp only [h, part, hlist]
          split
          case h_1 l hl => exact absurd hl (head?_ne_of_listBehind? hlist l)
          case h_2 => rfl

/-- The pass over the nodes is the reading part by part. -/
theorem applyHeadings_eq_reading (nodes : List (Node String)) :
    applyHeadings nodes = reading nodes := by
  rw [applyHeadings]
  fun_induction reading nodes with
  | case1 => rw [arrange]; rfl
  | case2 node rest ih =>
      rw [← ih]
      cases hnode : isTitle node with
      | false => rw [partOf_of_isTitle hnode, arrange_cons _ hnode]
      | true =>
          obtain ⟨t, rfl⟩ := exists_title_of_isTitle hnode
          cases h : Heading.recognize t.text with
          | some heading => rw [partOf_title h, arrange_title h]
          | none =>
              rw [partOf_title_of_none h, arrange_title_cons]
              unfold rule
              simp only [h]
              rfl

end ReportPress.Enrich
