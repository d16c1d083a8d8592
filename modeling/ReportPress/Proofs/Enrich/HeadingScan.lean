import Mathlib.Data.List.InsertIdx
import ReportPress.Proofs.Enrich.HeadingReading

/-!
# The headings, edited in place

The conventions can also be applied to the nodes where they stand: a place moves over them from the
first to the last, and at every heading nodes are put in before it, behind it or a good way further
on.  Each heading then says where to go on, so that nothing that was put in is taken for a heading
and no heading is passed over.

* `Scan` — the nodes as they are, the place, the findings, and the headings that have been treated.
* `Scan.treat` — what a heading does to the nodes, and the place where it goes on.
* `Scan.step`, `Scan.Ends` — one step, and all steps up to the end of the nodes.

**One heading.**  Before the place nothing changes any more, so a scan is what lies before the place
and what lies behind it (`Scan.between`).  `Scan.treats` says for every heading that the nodes it
moves across the place, and the reading of those it leaves, are its part of the report.

What the scan, the reading and the pass make of single texts and of the entries of a list, they make
by the same functions.  `emphasize_eq`, `exists_keywords_eq` and `accounts_gather` describe these.

**The whole scan.**  `Scan.exists_ends`, by induction on the headings that are left and then on the
nodes: behind the heading of an introduction the nodes get no fewer, but the headings do.
**`scan_eq_reading`** puts the scan, the reading and the pass over the headings together.
-/

namespace ReportPress.Enrich

open Text

variable {t : Title String} {heading : Heading} {node : Node String}
variable {nodes before rest : List (Node String)} {found : List Diagnostic}
variable {treated : List (Title String)}

/-- A scan over the nodes of a report. -/
structure Scan where
  nodes : List (Node String)
  place : Nat := 0
  found : List Diagnostic := []
  treated : List (Title String) := []

/-- The index of the first title from a place on. -/
def nextTitle? (nodes : List (Node String)) (place : Nat) : Option Nat :=
  ((nodes.drop place).findIdx? isTitle).map (place + ·)

namespace Scan

/-- What a heading does to the nodes, and the place where the scan goes on. -/
def treat (s : Scan) (t : Title String) : Heading → Scan
  | .cover =>
    { s with
      nodes := (s.nodes.set s.place (.ofText (upper t.text))).insertIdx (s.place + 1) .pageBreak
      place := s.place + 2 }
  | .abstract =>
    let nodes := s.nodes.set s.place (.title { t with text := upper t.text, level := 0 })
    let nodes :=
      match nodes[s.place + 1]? with
      | some (.text p) => nodes.set (s.place + 1) (keywords p)
      | _ => nodes
    let nodes := nodes.insertIdx (s.place + 1) (.ofText abstractStatistics)
    let last := (nextTitle? nodes (s.place + 2)).getD nodes.length
    { s with nodes := nodes.insertIdx last .pageBreak, place := last + 1 }
  | .contents =>
    { s with
      nodes :=
        (s.nodes.set s.place (.title { t with level := 0 })).insertIdx (s.place + 1) .contents
      place := s.place + 2 }
  | .glossary =>
    let nodes := s.nodes.set s.place (emphasize t)
    match nodes[s.place + 1]? with
    | some (.list l) =>
      let (rows, found) := gather glossaryRow l.entries
      let nodes := nodes.set (s.place + 1) (.ofText glossaryLeadIn)
      let nodes := nodes.insertIdx (s.place + 2) (.table none (glossaryHeader :: rows) true)
      { s with
        nodes := nodes.insertIdx (s.place + 3) .pageBreak
        place := s.place + 4
        found := s.found ++ found }
    | _ =>
      { s with nodes, place := s.place + 1, found := s.found ++ [.glossaryShape .noList] }
  | .abbreviations =>
    let nodes := s.nodes.set s.place (emphasize t)
    match nodes[s.place + 1]? with
    | some (.list l) =>
      let (lines, found) := gather abbreviationLine l.entries
      let nodes := nodes.set (s.place + 1) (.ofText abbreviationsLeadIn)
      { s with
        nodes := nodes.take (s.place + 2) ++ lines ++ [.pageBreak] ++ nodes.drop (s.place + 2)
        place := s.place + 3 + lines.length
        found := s.found ++ found }
    | _ =>
      { s with nodes, place := s.place + 1, found := s.found ++ [.abbreviationsShape .noList] }
  | .introduction =>
    let nodes := s.nodes.set s.place (emphasize t)
    { s with
      nodes :=
        match nextTitle? nodes (s.place + 1) with
        | some next => nodes.insertIdx next .pageBreak
        | none => nodes
      place := s.place + 1 }
  | .conclusion =>
    { s with
      nodes := (s.nodes.set s.place (emphasize t)).insertIdx s.place .pageBreak
      place := s.place + 2 }
  | .references =>
    let nodes := (s.nodes.set s.place (emphasize t)).insertIdx s.place .pageBreak
    match nodes[s.place + 2]? with
    | some (.list l) =>
      { s with
        nodes := nodes.set (s.place + 2) (.list { l with style.alternate := true })
        place := s.place + 3 }
    | _ =>
      { s with nodes, place := s.place + 2, found := s.found ++ [.referencesShape .noList] }

/-- One step: a heading is treated, any other node is passed over.  Behind the last node there is
none. -/
def step (s : Scan) : Option Scan :=
  match s.nodes[s.place]? with
  | none => none
  | some (.title t) =>
    match Heading.recognize t.text with
    | some heading => some { s.treat t heading with treated := s.treated ++ [t] }
    | none => some { s with place := s.place + 1 }
  | some _ => some { s with place := s.place + 1 }

/-- All steps of a scan, up to the one that has none behind it. -/
inductive Ends : Scan → Scan → Prop
  | here {s : Scan} : s.step = none → Ends s s
  | step {s next last : Scan} : s.step = some next → Ends next last → Ends s last

/-- A scan ends in one way. -/
lemma Ends.eq {s last last' : Scan} (h : Ends s last) (h' : Ends s last') : last = last' := by
  induction h with
  | here hnone =>
      cases h' with
      | here => rfl
      | step hstep _ => simp [hnone] at hstep
  | step hstep _ ih =>
      cases h' with
      | here hnone => simp [hnone] at hstep
      | step hstep' hrest => exact ih (Option.some.inj (hstep.symm.trans hstep') ▸ hrest)

end Scan

/-! ## Editing behind the place -/

/-- The nodes before a place and those behind it. -/
lemma getElem?_place (before rest : List (Node String)) (k : Nat) :
    (before ++ rest)[before.length + k]? = rest[k]? := by
  rw [List.getElem?_append_right (Nat.le_add_right _ _), Nat.add_sub_cancel_left]

lemma set_place (before rest : List (Node String)) (k : Nat) (node : Node String) :
    (before ++ rest).set (before.length + k) node = before ++ rest.set k node := by
  rw [List.set_append_right _ _ (Nat.le_add_right _ _), Nat.add_sub_cancel_left]

lemma insertIdx_place (before rest : List (Node String)) (k : Nat) (node : Node String) :
    (before ++ rest).insertIdx (before.length + k) node = before ++ rest.insertIdx k node := by
  induction before with
  | nil => simp
  | cons first before ih => simp [Nat.succ_add, ih]

lemma drop_place (before rest : List (Node String)) (k : Nat) :
    (before ++ rest).drop (before.length + k) = rest.drop k := by
  rw [List.drop_append, Nat.add_sub_cancel_left, List.drop_of_length_le (Nat.le_add_right _ _),
    List.nil_append]

lemma take_place (before rest : List (Node String)) (k : Nat) :
    (before ++ rest).take (before.length + k) = before ++ rest.take k := by
  rw [List.take_append, Nat.add_sub_cancel_left, List.take_of_length_le (Nat.le_add_right _ _)]

lemma set_here (before rest : List (Node String)) (old node : Node String) :
    (before ++ old :: rest).set before.length node = before ++ node :: rest :=
  set_place before (old :: rest) 0 node

lemma insertIdx_here (before rest : List (Node String)) (node : Node String) :
    (before ++ rest).insertIdx before.length node = before ++ node :: rest :=
  insertIdx_place before rest 0 node

/-- The next title stands behind the nodes before it. -/
lemma findIdx?_isTitle (nodes : List (Node String)) :
    nodes.findIdx? isTitle =
      if (fromTitle nodes).isEmpty then none else some (untilTitle nodes).length := by
  induction nodes with
  | nil => rfl
  | cons node rest ih =>
      cases h : isTitle node with
      | true => simp [List.findIdx?_cons, h, fromTitle, untilTitle]
      | false =>
          rw [List.findIdx?_cons, h, untilTitle_cons h, fromTitle_cons h, ih]
          cases (fromTitle rest).isEmpty <;> rfl

lemma nextTitle?_place (before rest : List (Node String)) (k : Nat) :
    nextTitle? (before ++ rest) (before.length + k) =
      if (fromTitle (rest.drop k)).isEmpty then none
      else some (before.length + k + (untilTitle (rest.drop k)).length) := by
  rw [nextTitle?, drop_place, findIdx?_isTitle]
  split_ifs <;> rfl

lemma untilTitle_of_isEmpty (h : (fromTitle nodes).isEmpty = true) : untilTitle nodes = nodes := by
  have hsplit := untilTitle_append_fromTitle nodes
  rwa [List.isEmpty_iff.mp h, List.append_nil] at hsplit

/-- A node put in before the next title, or at the end. -/
lemma insertIdx_untilTitle (nodes : List (Node String)) (node : Node String) :
    nodes.insertIdx (untilTitle nodes).length node
      = untilTitle nodes ++ node :: fromTitle nodes := by
  have hsplit := insertIdx_here (untilTitle nodes) (fromTitle nodes) node
  rwa [untilTitle_append_fromTitle] at hsplit

/-! ## One heading -/

lemma recognizedTitles_append (before rest : List (Node String)) :
    recognizedTitles (before ++ rest) = recognizedTitles before ++ recognizedTitles rest :=
  List.filterMap_append

lemma recognizedTitles_of_recognize (h : Heading.recognize t.text = some heading) :
    recognizedTitles [.title t] = [t] := by
  simp only [recognizedTitles, List.filterMap_cons, h, Option.isSome_some, if_true,
    List.filterMap_nil]

lemma recognizedTitles_of_recognize_none (h : Heading.recognize t.text = none) :
    recognizedTitles [.title t] = [] := by
  simp only [recognizedTitles, List.filterMap_cons, h, Option.isSome_none, Bool.false_eq_true,
    if_false, List.filterMap_nil]

lemma recognizedTitles_of_forall (h : ∀ node ∈ nodes, isTitle node = false) :
    recognizedTitles nodes = [] := by
  rw [recognizedTitles, List.filterMap_eq_nil_iff]
  intro node hnode
  cases node with
  | title t => exact absurd (h _ hnode) (by simp [isTitle])
  | _ => rfl

lemma recognizedTitles_untilTitle (nodes : List (Node String)) :
    recognizedTitles (untilTitle nodes) = [] :=
  recognizedTitles_of_forall fun _ => isTitle_of_mem_untilTitle

/-- No heading stands before the next title. -/
lemma recognizedTitles_fromTitle (nodes : List (Node String)) :
    recognizedTitles (fromTitle nodes) = recognizedTitles nodes := by
  conv_rhs => rw [← untilTitle_append_fromTitle nodes]
  rw [recognizedTitles_append, recognizedTitles_untilTitle, List.nil_append]

lemma reading_untilTitle_append (nodes rest : List (Node String)) :
    reading (untilTitle nodes ++ rest) = andThen (untilTitle nodes) [] (reading rest) :=
  reading_append (fun _ => isTitle_of_mem_untilTitle) rest

/-- A page break before the next title is kept there. -/
lemma reading_pageBreak (nodes : List (Node String)) :
    reading (untilTitle nodes ++ .pageBreak :: fromTitle nodes) =
      andThen (untilTitle nodes ++ [.pageBreak]) [] (reading (fromTitle nodes)) := by
  rw [reading_untilTitle_append, reading, partOf_of_isTitle rfl, andThen_andThen]
  rfl

namespace Scan

/-- A scan with the nodes before its place and those behind it. -/
def between (before rest : List (Node String)) (found : List Diagnostic)
    (treated : List (Title String)) : Scan :=
  { nodes := before ++ rest, place := before.length, found, treated }

/-- What a heading does: it moves some nodes across the place.  What they are, together with the
reading of those that are left, is what its part of the report says, and no heading is lost. -/
def Treats (t : Title String) (rest : List (Node String)) (heading : Heading) : Prop :=
  ∃ nodes more left,
    (∀ before found treated,
      (between before (.title t :: rest) found treated).treat t heading
        = between (before ++ nodes) left (found ++ more) treated) ∧
    andThen nodes more (reading left) =
      andThen (part t rest heading).nodes (part t rest heading).found
        (reading (part t rest heading).rest) ∧
    recognizedTitles left = recognizedTitles rest

/-- The keywords are put in place where they stand. -/
lemma set_keywords (before rest : List (Node String)) (title : Node String) :
    (match (before ++ title :: rest)[before.length + 1]? with
      | some (.text p) => (before ++ title :: rest).set (before.length + 1) (keywords p)
      | _ => before ++ title :: rest) = before ++ title :: withKeywords rest := by
  rw [getElem?_place]
  cases rest with
  | nil => rfl
  | cons node rest => cases node <;> simp [withKeywords]

/-- The index before which the abstract ends. -/
lemma nextTitle?_getD (before rest : List (Node String)) (first second : Node String) :
    (nextTitle? (before ++ first :: second :: rest) (before.length + 2)).getD
        (before ++ first :: second :: rest).length
      = before.length + ((untilTitle rest).length + 2) := by
  rw [nextTitle?_place, List.drop_succ_cons, List.drop_succ_cons, List.drop_zero]
  split_ifs with hempty
  · rw [untilTitle_of_isEmpty hempty]
    simp
  · rw [Option.getD_some]
    omega

lemma treats_abstract (t : Title String) (rest : List (Node String)) : Treats t rest .abstract := by
  refine ⟨_, [], fromTitle rest, fun before found treated => ?_, rfl,
    recognizedTitles_fromTitle rest⟩
  have hbreak := insertIdx_untilTitle (withKeywords rest) .pageBreak
  rw [untilTitle_withKeywords, fromTitle_withKeywords] at hbreak
  simp only [treat, between, set_here, set_keywords, insertIdx_place, List.insertIdx_succ_cons,
    List.insertIdx_zero, nextTitle?_getD, untilTitle_withKeywords, hbreak]
  simp [part, Nat.add_assoc]

lemma treats_introduction (t : Title String) (rest : List (Node String)) :
    Treats t rest .introduction := by
  cases hempty : (fromTitle rest).isEmpty with
  | true =>
      refine ⟨[emphasize t], [], rest, fun before found treated => ?_, ?_, rfl⟩
      · simp only [treat, between, set_here]
        rw [nextTitle?_place, List.drop_succ_cons, List.drop_zero, if_pos hempty]
        simp
      · have hrest := reading_untilTitle_append rest (fromTitle rest)
        rw [untilTitle_append_fromTitle] at hrest
        rw [hrest, part, hempty, andThen_andThen]
        simp
  | false =>
      refine ⟨[emphasize t], [], untilTitle rest ++ .pageBreak :: fromTitle rest,
        fun before found treated => ?_, ?_, ?_⟩
      · simp only [treat, between, set_here]
        rw [nextTitle?_place, List.drop_succ_cons, List.drop_zero, if_neg (by simp [hempty])]
        simp only [Nat.add_assoc, Nat.add_comm 1, insertIdx_place, List.insertIdx_succ_cons,
          insertIdx_untilTitle]
        simp
      · rw [reading_pageBreak, part, hempty, andThen_andThen]
        simp
      · rw [recognizedTitles_append, recognizedTitles_untilTitle, List.nil_append]
        exact recognizedTitles_fromTitle rest

/-- No list stands right behind a heading. -/
lemma getElem?_ne_of_listBehind? (h : listBehind? rest = none) (l : ItemList String) :
    rest[0]? ≠ some (.list l) := by
  rw [← List.head?_eq_getElem?]
  exact head?_ne_of_listBehind? h l

lemma treats_glossary (t : Title String) (rest : List (Node String)) : Treats t rest .glossary := by
  cases hlist : listBehind? rest with
  | some l =>
      obtain ⟨tail, rfl⟩ := eq_cons_of_listBehind? hlist
      refine ⟨emphasize t :: (glossary l).1, (glossary l).2, tail, fun before found treated => ?_,
        by simp only [part, hlist, List.tail_cons], rfl⟩
      simp [treat, between, insertIdx_place, glossary]
  | none =>
      refine ⟨[emphasize t], [.glossaryShape .noList], rest, fun before found treated => ?_,
        by simp only [part, hlist], rfl⟩
      simp only [treat, between, set_here, getElem?_place, List.getElem?_cons_succ]
      split
      case h_1 l hl => exact absurd hl (getElem?_ne_of_listBehind? hlist l)
      case h_2 => simp

lemma treats_abbreviations (t : Title String) (rest : List (Node String)) :
    Treats t rest .abbreviations := by
  cases hlist : listBehind? rest with
  | some l =>
      obtain ⟨tail, rfl⟩ := eq_cons_of_listBehind? hlist
      refine ⟨emphasize t :: (abbreviations l).1, (abbreviations l).2, tail,
        fun before found treated => ?_, by simp only [part, hlist, List.tail_cons], rfl⟩
      simp [treat, between, take_place, abbreviations]
      omega
  | none =>
      refine ⟨[emphasize t], [.abbreviationsShape .noList], rest, fun before found treated => ?_,
        by simp only [part, hlist], rfl⟩
      simp only [treat, between, set_here, getElem?_place, List.getElem?_cons_succ]
      split
      case h_1 l hl => exact absurd hl (getElem?_ne_of_listBehind? hlist l)
      case h_2 => simp

lemma treats_references (t : Title String) (rest : List (Node String)) :
    Treats t rest .references := by
  cases hlist : listBehind? rest with
  | some l =>
      obtain ⟨tail, rfl⟩ := eq_cons_of_listBehind? hlist
      refine ⟨[.pageBreak, emphasize t, .list { l with style.alternate := true }], [], tail,
        fun before found treated => ?_, by simp only [part, hlist, List.tail_cons], rfl⟩
      simp [treat, between, insertIdx_here]
  | none =>
      refine ⟨[.pageBreak, emphasize t], [.referencesShape .noList], rest,
        fun before found treated => ?_, by simp only [part, hlist], rfl⟩
      simp only [treat, between, set_here, insertIdx_here, getElem?_place,
        List.getElem?_cons_succ]
      split
      case h_1 l hl => exact absurd hl (getElem?_ne_of_listBehind? hlist l)
      case h_2 => simp

/-- Every heading makes its part of the report. -/
theorem treats (t : Title String) (rest : List (Node String)) (heading : Heading) :
    Treats t rest heading := by
  cases heading with
  | cover =>
      refine ⟨[.ofText (upper t.text), .pageBreak], [], rest, fun before found treated => ?_, rfl,
        rfl⟩
      simp [treat, between, insertIdx_place]
  | contents =>
      refine ⟨[.title { t with level := 0 }, .contents], [], rest, fun before found treated => ?_,
        rfl, rfl⟩
      simp [treat, between, insertIdx_place]
  | conclusion =>
      refine ⟨[.pageBreak, emphasize t], [], rest, fun before found treated => ?_, rfl, rfl⟩
      simp [treat, between, insertIdx_here]
  | abstract => exact treats_abstract t rest
  | introduction => exact treats_introduction t rest
  | glossary => exact treats_glossary t rest
  | abbreviations => exact treats_abbreviations t rest
  | references => exact treats_references t rest

/-! ## The whole scan -/

lemma getElem?_between (before rest : List (Node String)) (found : List Diagnostic)
    (treated : List (Title String)) :
    (between before rest found treated).nodes[(between before rest found treated).place]?
      = rest.head? := by
  rw [List.head?_eq_getElem?]
  exact getElem?_place before rest 0

lemma step_of_recognize (h : Heading.recognize t.text = some heading) :
    (between before (.title t :: rest) found treated).step =
      some { (between before (.title t :: rest) found treated).treat t heading with
        treated := treated ++ [t] } := by
  rw [step, getElem?_between]
  simp only [List.head?_cons, h, between]

/-- A node that is no heading is passed over. -/
lemma step_of_isTitle (h : isTitle node = false) :
    (between before (node :: rest) found treated).step
      = some (between (before ++ [node]) rest found treated) := by
  rw [step, getElem?_between]
  cases node with
  | title t => simp [isTitle] at h
  | _ => simp [between]

/-- A title that is no heading of the front matter is passed over. -/
lemma step_of_recognize_none (h : Heading.recognize t.text = none) :
    (between before (.title t :: rest) found treated).step
      = some (between (before ++ [.title t]) rest found treated) := by
  rw [step, getElem?_between]
  simp only [List.head?_cons, h]
  simp [between]

/-- One step: what moves across the place, and what is left behind it.  Where no heading has been
treated, that is all but the node itself. -/
lemma exists_step (node : Node String) (before rest : List (Node String))
    (found : List Diagnostic) (treated : List (Title String)) :
    ∃ nodes more left,
      (between before (node :: rest) found treated).step =
          some (between (before ++ nodes) left (found ++ more)
            (treated ++ recognizedTitles [node])) ∧
        andThen nodes more (reading left) = reading (node :: rest) ∧
        recognizedTitles left = recognizedTitles rest ∧
        (recognizedTitles [node] = [] → left = rest) := by
  cases hnode : isTitle node with
  | false =>
      have htitles : recognizedTitles [node] = [] :=
        recognizedTitles_of_forall (by simpa using hnode)
      refine ⟨[node], [], rest, ?_, ?_, rfl, fun _ => rfl⟩
      · rw [step_of_isTitle hnode, htitles, List.append_nil, List.append_nil]
      · rw [reading, partOf_of_isTitle hnode]
  | true =>
      obtain ⟨t, rfl⟩ := exists_title_of_isTitle hnode
      cases h : Heading.recognize t.text with
      | none =>
          refine ⟨[.title t], [], rest, ?_, ?_, rfl, fun _ => rfl⟩
          · rw [step_of_recognize_none h, recognizedTitles_of_recognize_none h, List.append_nil,
              List.append_nil]
          · rw [reading, partOf_title_of_none h]
      | some heading =>
          obtain ⟨nodes, more, left, htreat, hreading, htitles⟩ := treats t rest heading
          refine ⟨nodes, more, left, ?_, ?_, htitles, ?_⟩
          · rw [step_of_recognize h, htreat, recognizedTitles_of_recognize h]
            rfl
          · rw [hreading, reading, partOf_title h]
          · rw [recognizedTitles_of_recognize h]
            exact fun hnil => absurd hnil (List.cons_ne_nil _ _)

/-- A scan comes to an end from wherever it stands.  Behind its place it makes the reading of the
nodes there, and it treats every heading there once, in order. -/
theorem exists_ends (before rest : List (Node String)) (found : List Diagnostic)
    (treated : List (Title String)) :
    ∃ last, Ends (between before rest found treated) last ∧
      last.nodes = before ++ (reading rest).1 ∧ last.found = found ++ (reading rest).2 ∧
      last.treated = treated ++ recognizedTitles rest := by
  cases rest with
  | nil =>
      refine ⟨_, .here ?_, ?_, ?_, ?_⟩
      · rw [step, getElem?_between]
        rfl
      · rw [reading]; rfl
      · rw [reading, List.append_nil]; rfl
      · rw [recognizedTitles, List.filterMap_nil, List.append_nil]; rfl
  | cons node rest =>
      obtain ⟨nodes, more, left, hstep, hreading, htitles, hleft⟩ :=
        exists_step node before rest found treated
      obtain ⟨last, hends, hnodes, hfound, htreated⟩ :=
        exists_ends (before ++ nodes) left (found ++ more) (treated ++ recognizedTitles [node])
      refine ⟨last, .step hstep hends, ?_, ?_, ?_⟩
      · rw [hnodes, ← hreading, andThen, List.append_assoc]
      · rw [hfound, ← hreading, andThen, List.append_assoc]
      · rw [htreated, htitles, List.append_assoc, ← recognizedTitles_append]
        rfl
termination_by ((recognizedTitles rest).length, rest.length)
decreasing_by
  have hcons : (recognizedTitles (node :: rest)).length
      = (recognizedTitles [node]).length + (recognizedTitles rest).length := by
    rw [← List.length_append, ← recognizedTitles_append]
    rfl
  rw [Prod.lex_def, htitles, hcons]
  by_cases hnil : recognizedTitles [node] = []
  · right
    rw [hnil, hleft hnil]
    simp
  · left
    have hpos : 0 < (recognizedTitles [node]).length := List.length_pos_iff.mpr hnil
    dsimp only
    omega

end Scan

/-- The nodes edited in place: the scan comes to an end for every sequence of nodes, and in one way
only.  It has then treated every heading of the front matter once, in order, and what it has made of
the nodes is their reading part by part, findings included.  The pass over the headings makes the
same of them. -/
theorem scan_eq_reading (nodes : List (Node String)) :
    ∃ last : Scan, (∀ s, Scan.Ends { nodes } s ↔ s = last) ∧
      last.treated = recognizedTitles nodes ∧
      (last.nodes, last.found) = reading nodes ∧ applyHeadings nodes = reading nodes := by
  obtain ⟨last, hends, hnodes, hfound, htreated⟩ := Scan.exists_ends [] nodes [] []
  refine ⟨last, fun s => ⟨fun hs => hs.eq hends, fun hs => hs ▸ hends⟩, htreated, ?_,
    applyHeadings_eq_reading nodes⟩
  rw [hnodes, hfound]
  rfl

end ReportPress.Enrich
