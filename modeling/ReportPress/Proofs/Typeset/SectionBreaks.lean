import Mathlib.Data.List.Forall2
import Mathlib.Data.List.Induction
import ReportPress.Proofs.Typeset.Acts

/-!
# Sections between breaks, and the sections of a document

A break ends a section of a report.  Breaks that follow each other, or stand at an end, leave
sections with nothing in them; these are dropped with the page numbers that they would have had.

* `NodePlace`, `keptPlaces` — where nodes stand in a report, and where those do that are no breaks.
* `startBefore` — the page number that counts for a node: that of the last break before it.
* `AreTogether` — two places of one section with no break between them.
* `IsHeld`, `IsCutInto` — a section between breaks holds the nodes at some places, and the sections
  of a report are cut into such sections.
* `IsSetAs`, `AreSetAs` — sections of a document are what sections of a report are set as, one
  after another.
* `grown` — a document that grows section by section, the first in the place of the one that every
  document begins with.

**Splitting.**  `exists_around_piece` — a piece between separators is as long as can be.  With the
index of each node beside it, this says which nodes share a section (`mem_piece_iff`), and
`forall₂_cutSection` which page number that has.

**Growing.**  `grown_eq_withSections` — whatever is added goes to the last section, so that a
document that has grown has the sections that were added.

**The document.**  `sections_typeset` puts these together.
-/

namespace ReportPress

namespace Typeset

variable {T : Type}

/-! ## Places -/

/-- Where a node stands in a report: in which section, and where in that. -/
structure NodePlace where
  part : Nat
  index : Nat
deriving DecidableEq

/-- The node at a place. -/
def NodePlace.node? (sections : List (Section T)) (p : NodePlace) : Option (Node T) :=
  (sections[p.part]?).bind fun s => s.nodes[p.index]?

/-- The first page number behind a break, if a node is one. -/
def breakStart? : Node T → Option (Option UInt32)
  | .sectionBreak start => some start
  | _ => none

/-- Whether a node ends a section. -/
def isBreak (n : Node T) : Bool := (breakStart? n).isSome

/-- The places of the nodes of a section that are no breaks, by the number of the section. -/
def placesIn (part : Nat) (nodes : List (Node T)) : List NodePlace :=
  (nodes.zipIdx.filter fun n => !isBreak n.1).map fun n => ⟨part, n.2⟩

/-- The places of all nodes of a report that are no breaks, in order. -/
def keptPlaces (sections : List (Section T)) : List NodePlace :=
  sections.zipIdx.flatMap fun s => placesIn s.2 s.1.nodes

/-- The page number behind the last break among some nodes; without one it is the given one. -/
def lastStart (start : Option UInt32) (nodes : List (Node T)) : Option UInt32 :=
  (nodes.filterMap breakStart?).getLast?.getD start

/-- The first page number that counts for a node of a section. -/
def startBefore (s : Section T) (index : Nat) : Option UInt32 :=
  lastStart s.pageStart (s.nodes.take index)

/-- Two places in one section of a report with no break between them. -/
def AreTogether (sections : List (Section T)) (p q : NodePlace) : Prop :=
  p.part = q.part ∧ ∀ k, p.index < k ∧ k < q.index ∨ q.index < k ∧ k < p.index →
    ∀ n, NodePlace.node? sections ⟨p.part, k⟩ = some n → isBreak n = false

/-- A section between breaks holds the nodes at some places of a report, and has the page number
that counts for each of them. -/
structure IsHeld (sections : List (Section T)) (group : List NodePlace) (held : Section T) :
    Prop where
  nodes : List.Forall₂ (fun p n => p.node? sections = some n) group held.nodes
  pageStart : ∀ p ∈ group, ∀ s, sections[p.part]? = some s →
    held.pageStart = startBefore s p.index

/-! ## Pieces between separators -/

section Pieces

variable {α : Type} {p : α → Bool} {xs piece : List α}

/-- Between separators there is all but these. -/
lemma flatten_splitOnP (p : α → Bool) (xs : List α) :
    (xs.splitOnP p).flatten = xs.filter fun x => !p x := by
  induction xs with
  | nil => simp
  | cons x xs ih =>
      rw [List.splitOnP_cons_eq_if_modifyHead, List.filter_cons, ← ih]
      cases hx : p x with
      | true => simp
      | false =>
          obtain ⟨first, rest, hsplit⟩ := List.exists_cons_of_ne_nil (List.splitOnP_ne_nil p xs)
          simp [hsplit]

/-- A piece has no separator in it, and one on either side unless it is the first or the last. -/
lemma exists_around_piece {front behind : List (List α)}
    (h : xs.splitOnP p = front ++ piece :: behind) :
    ∃ before after, xs = before ++ piece ++ after ∧ (before = [] ↔ front = []) ∧
      (∀ x ∈ piece, p x = false) ∧ (∀ x ∈ before.getLast?, p x = true) ∧
        ∀ x ∈ after.head?, p x = true := by
  induction xs generalizing front piece with
  | nil =>
      rw [List.splitOnP_nil, eq_comm, List.append_eq_singleton_iff] at h
      obtain ⟨rfl, h⟩ | ⟨-, h⟩ := h
      · obtain ⟨rfl, -⟩ := List.cons_eq_cons.mp h
        exact ⟨[], [], by simp⟩
      · exact absurd h (by simp)
  | cons x xs ih =>
      rw [List.splitOnP_cons_eq_if_modifyHead] at h
      split_ifs at h with hx
      · cases front with
        | nil =>
            obtain ⟨rfl, -⟩ := List.cons_eq_cons.mp h
            exact ⟨[], x :: xs, by simp [hx]⟩
        | cons first front =>
            obtain ⟨before, after, rfl, -, hpiece, hbefore, hafter⟩ := ih (List.cons_eq_cons.mp h).2
            refine ⟨x :: before, after, by simp, by simp, hpiece, ?_, hafter⟩
            cases before with
            | nil => simpa using hx
            | cons y before => simpa using hbefore
      · obtain ⟨first, rest, hsplit⟩ := List.exists_cons_of_ne_nil (List.splitOnP_ne_nil p xs)
        rw [hsplit, List.modifyHead_cons] at h
        cases front with
        | nil =>
            obtain ⟨rfl, rfl⟩ := List.cons_eq_cons.mp h
            obtain ⟨before, after, hxs, hfront, hpiece, -, hafter⟩ :=
              ih (show xs.splitOnP p = [] ++ first :: rest from hsplit)
            obtain rfl : before = [] := hfront.mpr rfl
            refine ⟨[], after, by simp [hxs], by simp, ?_, by simp, hafter⟩
            simpa [hx] using hpiece
        | cons _ front =>
            obtain ⟨rfl, rfl⟩ := List.cons_eq_cons.mp h
            obtain ⟨before, after, rfl, hfront, hpiece, hbefore, hafter⟩ :=
              ih (show xs.splitOnP p = (first :: front) ++ piece :: behind from hsplit)
            refine ⟨x :: before, after, by simp, by simp, hpiece, ?_, hafter⟩
            cases before with
            | nil => exact absurd (hfront.mp rfl) (by simp)
            | cons y before => simpa using hbefore

end Pieces

/-! ## Splitting -/

section Splitting

variable {nodes : List (Node T)} {piece : List (Node T × Nat)} {n m : Node T × Nat}

/-- The pieces of a section between its breaks, each node with its index. -/
def pieces (nodes : List (Node T)) : List (List (Node T × Nat)) :=
  nodes.zipIdx.splitOnP fun n => isBreak n.1

lemma pairwise_zipIdx (nodes : List (Node T)) :
    nodes.zipIdx.Pairwise fun n m => n.2 < m.2 := by
  rw [← List.pairwise_map (f := Prod.snd), List.zipIdx_map_snd]
  exact List.pairwise_lt_range' 1

/-- Nothing within a piece is a break. -/
lemma isBreak_eq_false_of_between {x : Node T × Nat} (hpiece : piece ∈ pieces nodes)
    (hn : n ∈ piece) (hm : m ∈ piece) (hx : x ∈ nodes.zipIdx)
    (hk : n.2 < x.2 ∧ x.2 < m.2 ∨ m.2 < x.2 ∧ x.2 < n.2) : isBreak x.1 = false := by
  obtain ⟨front, behind, hsplit⟩ := List.mem_iff_append.mp hpiece
  obtain ⟨before, after, hnodes, -, hplain, -, -⟩ := exists_around_piece hsplit
  -- The indices go up from what is before the piece to what is after it.
  have hpairs := pairwise_zipIdx nodes
  rw [hnodes, List.pairwise_append, List.pairwise_append] at hpairs
  obtain ⟨⟨-, -, hin⟩, -, hout⟩ := hpairs
  rw [hnodes, List.mem_append, List.mem_append] at hx
  rcases hx with (hx | hx) | hx
  · have hlt : x.2 < n.2 := hin _ hx _ hn
    have hlt' : x.2 < m.2 := hin _ hx _ hm
    omega
  · exact hplain _ hx
  · have hlt : n.2 < x.2 := hout _ (List.mem_append_right _ hn) _ hx
    have hlt' : m.2 < x.2 := hout _ (List.mem_append_right _ hm) _ hx
    omega

/-- A break stands between a piece and whatever is not in it. -/
lemma exists_break_of_not_mem (hpiece : piece ∈ pieces nodes) (hn : n ∈ piece)
    (hm : m ∈ nodes.zipIdx) (hkept : isBreak m.1 = false) (hnot : m ∉ piece) :
    ∃ b ∈ nodes.zipIdx, isBreak b.1 = true ∧
      (n.2 < b.2 ∧ b.2 < m.2 ∨ m.2 < b.2 ∧ b.2 < n.2) := by
  obtain ⟨front, behind, hsplit⟩ := List.mem_iff_append.mp hpiece
  obtain ⟨before, after, hnodes, -, -, hbefore, hafter⟩ := exists_around_piece hsplit
  have hpairs := pairwise_zipIdx nodes
  rw [hnodes, List.pairwise_append, List.pairwise_append] at hpairs
  obtain ⟨⟨hfirst, -, hin⟩, hlast, hout⟩ := hpairs
  rw [hnodes] at hm ⊢
  rcases (List.mem_append.mp hm).imp_left List.mem_append.mp with (hm | hm) | hm
  · -- What is before the piece ends with a break.
    obtain rfl | ⟨init, b, rfl⟩ := before.eq_nil_or_concat'
    · exact absurd hm List.not_mem_nil
    have hsep : isBreak b.1 = true := hbefore b (by simp)
    refine ⟨b, by simp, hsep, Or.inr ⟨?_, hin _ (by simp) _ hn⟩⟩
    rcases List.mem_append.mp hm with hm | hm
    · exact (List.pairwise_append.mp hfirst).2.2 _ hm _ (by simp)
    · rw [List.mem_singleton.mp hm, hsep] at hkept
      exact absurd hkept (by simp)
  · exact absurd hm hnot
  · -- What is after it begins with one.
    cases after with
    | nil => exact absurd hm List.not_mem_nil
    | cons b tail =>
        have hsep : isBreak b.1 = true := hafter b (by simp)
        refine ⟨b, by simp, hsep, Or.inl ⟨hout _ (List.mem_append_right _ hn) _ (by simp), ?_⟩⟩
        rcases List.mem_cons.mp hm with rfl | hm
        · rw [hsep] at hkept
          exact absurd hkept (by simp)
        · exact (List.pairwise_cons.mp hlast).1 _ hm

/-- A node is in the piece of another exactly if no break stands between them. -/
lemma mem_piece_iff (hpiece : piece ∈ pieces nodes) (hn : n ∈ piece) (hm : m ∈ nodes.zipIdx)
    (hkept : isBreak m.1 = false) :
    m ∈ piece ↔ ∀ k, n.2 < k ∧ k < m.2 ∨ m.2 < k ∧ k < n.2 →
      ∀ x, nodes[k]? = some x → isBreak x = false := by
  constructor
  · intro hm k hk x hx
    have hxk : (x, k) ∈ nodes.zipIdx := List.mk_mem_zipIdx_iff_getElem?.mpr hx
    exact isBreak_eq_false_of_between hpiece hn hm hxk hk
  · intro hbetween
    by_contra hnot
    obtain ⟨b, hb, hsep, hk⟩ := exists_break_of_not_mem hpiece hn hm hkept hnot
    have hplain := hbetween b.2 hk b.1 (List.mem_zipIdx_iff_getElem?.mp hb)
    exact Bool.noConfusion (hsep.symm.trans hplain)

lemma cutSection_of_breakStart?_some {n : Node T} {next : Option UInt32}
    (h : breakStart? n = some next) (start : Option UInt32) (nodes : List (Node T)) :
    cutSection start (n :: nodes) = ⟨start, []⟩ :: cutSection next nodes := by
  cases n with
  | sectionBreak _ =>
      obtain rfl := Option.some.inj h
      rfl
  | _ => exact nomatch h

/-- The first of the sections that nodes are cut into has the page number that it is given, and a
node that is no break joins it. -/
lemma exists_cutSection_eq : ∀ (start : Option UInt32) (nodes : List (Node T)),
    ∃ first rest, cutSection start nodes = ⟨start, first⟩ :: rest ∧
      ∀ n, breakStart? n = none → cutSection start (n :: nodes) = ⟨start, n :: first⟩ :: rest
  | start, nodes => by
      have hcons {first : List (Node T)} {rest : List (Section T)}
          (hcut : cutSection start nodes = ⟨start, first⟩ :: rest) (n : Node T)
          (hn : breakStart? n = none) :
          cutSection start (n :: nodes) = ⟨start, n :: first⟩ :: rest := by
        cases n with
        | sectionBreak _ => exact nomatch hn
        | _ => simp only [cutSection, hcut]
      cases nodes with
      | nil => exact ⟨[], [], rfl, hcons rfl⟩
      | cons m nodes =>
          cases hm : breakStart? m with
          | some next =>
              have hcut := cutSection_of_breakStart?_some hm start nodes
              exact ⟨[], _, hcut, hcons hcut⟩
          | none =>
              obtain ⟨first, rest, -, hcut⟩ := exists_cutSection_eq start nodes
              exact ⟨m :: first, rest, hcut m hm, hcons (hcut m hm)⟩

/-- The sections that nodes are cut into are the pieces between the breaks, with the page number
behind the last break before them.  `prior` are the nodes in front that have been cut. -/
lemma forall₂_cutSection (start : Option UInt32) : ∀ prior nodes : List (Node T),
    List.Forall₂
      (fun piece held => piece.map Prod.fst = held.nodes ∧ ∀ n ∈ piece,
        held.pageStart = lastStart start ((prior ++ nodes).take n.2))
      ((nodes.zipIdx prior.length).splitOnP fun n => isBreak n.1)
      (cutSection (lastStart start prior) nodes)
  | prior, [] => by
      rw [List.zipIdx_nil, List.splitOnP_nil, cutSection]
      exact .cons ⟨rfl, by simp⟩ .nil
  | prior, n :: nodes => by
      have ih := forall₂_cutSection start (prior ++ [n]) nodes
      rw [List.append_assoc, List.singleton_append, List.length_append, List.length_singleton] at ih
      rw [List.zipIdx_cons, List.splitOnP_cons_eq_if_modifyHead]
      cases hn : breakStart? n with
      | some next =>
          have hbreak : isBreak n = true := by simp [isBreak, hn]
          have hstart : lastStart start (prior ++ [n]) = next := by simp [lastStart, hn]
          rw [if_pos hbreak, cutSection_of_breakStart?_some hn, ← hstart]
          exact .cons ⟨rfl, by simp⟩ ih
      | none =>
          have hbreak : isBreak n = false := by simp [isBreak, hn]
          have hstart : lastStart start (prior ++ [n]) = lastStart start prior := by
            simp [lastStart, hn]
          obtain ⟨held, rest, hcut, hcons⟩ := exists_cutSection_eq (lastStart start prior) nodes
          rw [hstart, hcut, List.forall₂_cons_right_iff] at ih
          obtain ⟨piece, others, ⟨hnodes, hpage⟩, hrest, hsplit⟩ := ih
          rw [if_neg (by simp [hbreak]), hcons n hn, hsplit, List.modifyHead_cons]
          refine .cons ⟨by simp [hnodes], fun m hm => ?_⟩ hrest
          rcases List.mem_cons.mp hm with rfl | hm
          · simp
          · exact hpage m hm

end Splitting

/-! ## The sections between breaks -/

section Groups

variable {sections : List (Section T)} {s : Section T × Nat} {n : Node T × Nat} {p q : NodePlace}

/-- The places of the nodes of a section, piece by piece. -/
def groupsIn (s : Section T × Nat) : List (List NodePlace) :=
  (pieces s.1.nodes).map fun piece => piece.map fun n => ⟨s.2, n.2⟩

/-- The places of the nodes of a report, by the sections between breaks. -/
def groupsOf (sections : List (Section T)) : List (List NodePlace) :=
  (sections.zipIdx.flatMap groupsIn).filter fun group => !group.isEmpty

lemma node?_of_mem_zipIdx (hs : s ∈ sections.zipIdx) (index : Nat) :
    NodePlace.node? sections ⟨s.2, index⟩ = s.1.nodes[index]? := by
  rw [NodePlace.node?, List.mem_zipIdx_iff_getElem?.mp hs]
  rfl

/-- A node of a piece stands in the section, and is no break. -/
lemma mem_flatten_pieces {nodes : List (Node T)} :
    n ∈ (pieces nodes).flatten ↔ n ∈ nodes.zipIdx ∧ isBreak n.1 = false := by
  rw [pieces, flatten_splitOnP, List.mem_filter, Bool.not_eq_true']

lemma mem_keptPlaces :
    p ∈ keptPlaces sections ↔ ∃ s ∈ sections.zipIdx, ∃ n ∈ s.1.nodes.zipIdx,
      isBreak n.1 = false ∧ p = ⟨s.2, n.2⟩ := by
  simp only [keptPlaces, placesIn, List.mem_flatMap, List.mem_map, List.mem_filter,
    Bool.not_eq_true', and_assoc, eq_comm (a := p)]

lemma mem_groupsIn {group : List NodePlace} :
    group ∈ groupsIn s ↔ ∃ piece ∈ pieces s.1.nodes, piece.map (fun n => ⟨s.2, n.2⟩) = group := by
  rw [groupsIn, List.mem_map]

lemma flatten_groupsOf (sections : List (Section T)) :
    (groupsOf sections).flatten = keptPlaces sections := by
  have hin (s : Section T × Nat) : (groupsIn s).flatten = placesIn s.2 s.1.nodes := by
    rw [groupsIn, ← List.map_flatten, pieces, flatten_splitOnP, placesIn]
  rw [groupsOf, List.flatten_filter_not_isEmpty, keptPlaces, List.flatMap_def, List.flatten_flatten,
    List.map_map, List.flatMap_def]
  congr 2
  funext s
  exact hin s

/-- Two nodes are in one section between breaks exactly if they are in one section with no break
between them. -/
lemma exists_mem_groupsOf_iff (hp : p ∈ keptPlaces sections) (hq : q ∈ keptPlaces sections) :
    (∃ group ∈ groupsOf sections, p ∈ group ∧ q ∈ group) ↔ AreTogether sections p q := by
  obtain ⟨s, hs, n, hn, hkept, rfl⟩ := mem_keptPlaces.mp hp
  obtain ⟨s', hs', m, hm, hkept', rfl⟩ := mem_keptPlaces.mp hq
  have hsame (h : s.2 = s'.2) : s = s' := by
    have hget := List.mem_zipIdx_iff_getElem?.mp hs
    rw [h, List.mem_zipIdx_iff_getElem?.mp hs', Option.some.injEq] at hget
    exact Prod.ext hget.symm h
  constructor
  · rintro ⟨group, hgroup, hn, hm⟩
    obtain ⟨t, ht, hgroup⟩ := List.mem_flatMap.mp (List.mem_of_mem_filter hgroup)
    obtain ⟨piece, hpiece, rfl⟩ := mem_groupsIn.mp hgroup
    obtain ⟨n', hn', hnn⟩ := List.mem_map.mp hn
    obtain ⟨m', hm', hmm⟩ := List.mem_map.mp hm
    obtain ⟨htn, hn⟩ := NodePlace.mk.inj hnn
    obtain ⟨htm, hm⟩ := NodePlace.mk.inj hmm
    obtain ⟨hin, hkept⟩ := mem_flatten_pieces.mp (List.mem_flatten_of_mem hpiece hm')
    refine ⟨htn.symm.trans htm, fun k hk x hx => ?_⟩
    rw [← htn, node?_of_mem_zipIdx ht] at hx
    rw [← hn, ← hm] at hk
    exact (mem_piece_iff hpiece hn' hin hkept).mp hm' k hk x hx
  · rintro ⟨hpart, hbetween⟩
    obtain rfl := hsame hpart
    obtain ⟨piece, hpiece, hnp⟩ := List.mem_flatten.mp (mem_flatten_pieces.mpr ⟨hn, hkept⟩)
    have hmp : m ∈ piece := by
      refine (mem_piece_iff hpiece hnp hm hkept').mpr fun k hk x hx => hbetween k hk x ?_
      rw [node?_of_mem_zipIdx hs, hx]
    have hgroup : piece.map (fun n => ⟨s.2, n.2⟩) ∈ groupsOf sections := by
      have hin := List.mem_flatMap.mpr ⟨s, hs, mem_groupsIn.mpr ⟨piece, hpiece, rfl⟩⟩
      exact List.mem_filter.mpr ⟨hin, by simpa using List.ne_nil_of_mem hnp⟩
    exact ⟨_, hgroup, List.mem_map_of_mem hnp, List.mem_map_of_mem hmp⟩

/-- The sections that a section is cut into hold its pieces. -/
lemma forall₂_groupsIn (hs : s ∈ sections.zipIdx) :
    List.Forall₂ (IsHeld sections) (groupsIn s) (cutSection s.1.pageStart s.1.nodes) := by
  have hget := List.mem_zipIdx_iff_getElem?.mp hs
  have hcut := forall₂_cutSection s.1.pageStart [] s.1.nodes
  have hpieces : List.Forall₂ (fun piece held => piece ∈ pieces s.1.nodes ∧
      piece.map Prod.fst = held.nodes ∧ ∀ n ∈ piece, held.pageStart = startBefore s.1 n.2)
      (pieces s.1.nodes) (cutSection s.1.pageStart s.1.nodes) :=
    (List.forall₂_and_left _ _).mpr ⟨fun _ h => h, hcut⟩
  rw [groupsIn, List.forall₂_map_left_iff]
  refine hpieces.imp fun piece held ⟨hpiece, hnodes, hstart⟩ => ⟨?_, ?_⟩
  · rw [← hnodes, List.forall₂_map_left_iff, List.forall₂_map_right_iff, List.forall₂_same]
    intro n hn
    obtain ⟨hin, -⟩ := mem_flatten_pieces.mp (List.mem_flatten_of_mem hpiece hn)
    rw [node?_of_mem_zipIdx hs, List.mem_zipIdx_iff_getElem?.mp hin]
  · intro p hp t ht
    obtain ⟨n, hn, rfl⟩ := List.mem_map.mp hp
    rw [hget, Option.some.injEq] at ht
    rw [hstart n hn, ht]

lemma IsHeld.isEmpty_eq {group : List NodePlace} {held : Section T}
    (h : IsHeld sections group held) : group.isEmpty = held.nodes.isEmpty := by
  rw [Bool.eq_iff_iff, List.isEmpty_iff_length_eq_zero, List.isEmpty_iff_length_eq_zero,
    h.nodes.length_eq]

/-- The sections between breaks hold the nodes of a report that are no breaks, piece by piece. -/
lemma forall₂_groupsOf (sections : List (Section T)) :
    List.Forall₂ (IsHeld sections) (groupsOf sections) (splitSections sections) := by
  have hzip : List.Forall₂ (fun (s : Section T × Nat) t => s ∈ sections.zipIdx ∧ s.1 = t)
      sections.zipIdx sections := by
    rw [List.forall₂_and_left]
    refine ⟨fun _ h => h, ?_⟩
    conv => rhs; rw [← List.zipIdx_map_fst 0 sections]
    rw [List.forall₂_map_right_iff, List.forall₂_same]
    exact fun _ _ => rfl
  have hall : List.Forall₂ (IsHeld sections) (sections.zipIdx.flatMap groupsIn)
      (sections.flatMap fun s => cutSection s.pageStart s.nodes) := by
    refine List.rel_flatMap hzip ?_
    rintro s _ ⟨hs, rfl⟩
    exact forall₂_groupsIn hs
  refine List.rel_filter ?_ hall
  intro group held h
  simp only [h.isEmpty_eq]

lemma nodes_ne_nil_of_mem_splitSections {held : Section T} (h : held ∈ splitSections sections) :
    held.nodes ≠ [] := by
  simpa using (List.mem_filter.mp h).2

end Groups

/-- The sections of a report are cut into parts, which hold the nodes at groups of places. -/
structure IsCutInto (sections : List (Section T)) (groups : List (List NodePlace))
    (parts : List (Section T)) : Prop where
  /-- All nodes are kept but the breaks, in order. -/
  flatten : groups.flatten = keptPlaces sections
  together : ∀ p ∈ keptPlaces sections, ∀ q ∈ keptPlaces sections,
    (∃ group ∈ groups, p ∈ group ∧ q ∈ group) ↔ AreTogether sections p q
  held : List.Forall₂ (IsHeld sections) groups parts
  nonempty : ∀ part ∈ parts, part.nodes ≠ []

theorem isCutInto_splitSections (sections : List (Section T)) :
    IsCutInto sections (groupsOf sections) (splitSections sections) where
  flatten := flatten_groupsOf sections
  together _ hp _ hq := exists_mem_groupsOf_iff hp hq
  held := forall₂_groupsOf sections
  nonempty _ h := nodes_ne_nil_of_mem_splitSections h

/-! ## Setting -/

section Setting

variable {s : Surroundings} {l l' middle : Ledger} {part : Section Runes}
  {parts : List (Section Runes)} {set : Word.Section} {sets : List Word.Section}

/-- A section of a document is what a section of a report is set as, by work that begins with a
ledger and leaves another. -/
structure IsSetAs (s : Surroundings) (l : Ledger) (part : Section Runes) (set : Word.Section)
    (l' : Ledger) : Prop where
  /-- The section shows what its nodes come to, one after another. -/
  blocks : ∃ items, Yields (part.nodes.mapM (nodeItems s)) l items l' ∧
    set.blocks = blocksOf items.flatten
  setup : set.setup = { Word.PageSetup.report with pageStart := part.pageStart }
  /-- Pages are numbered exactly if the section says where to begin. -/
  numbered : (∃ p ∈ set.footer, .run .pageNumber ∈ p.inlines) ↔ part.pageStart.isSome
  footer : set.footer = if part.pageStart.isSome then [numberFooter] else []

/-- Sections of a document are what sections of a report are set as, one after another. -/
inductive AreSetAs (s : Surroundings) :
    Ledger → List (Section Runes) → List Word.Section → Ledger → Prop
  | nil (l : Ledger) : AreSetAs s l [] [] l
  | cons {l l' middle : Ledger} {part : Section Runes} {parts : List (Section Runes)}
      {set : Word.Section} {sets : List Word.Section} (first : IsSetAs s l part set middle)
      (rest : AreSetAs s middle parts sets l') : AreSetAs s l (part :: parts) (set :: sets) l'

lemma isSetAs_of_yields (h : Yields (typesetSection s part) l set l') :
    IsSetAs s l part set l' := by
  simp only [typesetSection, yields_bind, yields_pure] at h
  obtain ⟨items, middle, hitems, rfl, rfl⟩ := h
  refine ⟨⟨items, hitems, rfl⟩, rfl, ?_, rfl⟩
  cases part.pageStart with
  | none => simp
  | some start => simp [numberFooter]

lemma areSetAs_of_yields : ∀ {parts : List (Section Runes)} {l l' : Ledger}
    {sets : List Word.Section}, Yields (parts.mapM (typesetSection s)) l sets l' →
      AreSetAs s l parts sets l'
  | [], l, l', sets, h => by
      rw [List.mapM_nil] at h
      obtain ⟨rfl, rfl⟩ := yields_pure.mp h
      exact .nil l'
  | part :: parts, l, l', sets, h => by
      simp only [List.mapM_cons, yields_bind, yields_pure] at h
      obtain ⟨set, middle, hset, more, middle', hmore, rfl, rfl⟩ := h
      exact .cons (isSetAs_of_yields hset) (areSetAs_of_yields hmore)

end Setting

end Typeset

/-! ## Growing -/

namespace Word.Document

variable {d : Document} {set : Section} {sets : List Section}

/-- A document with the footer and the blocks of a section added to its last one. -/
def filled (d : Document) (set : Section) : Document :=
  set.blocks.foldl push (set.footer.foldl pushFooter d)

/-- A document that grows by sections: the first takes the place of the first that there is, the
others come behind the last. -/
def grown (d : Document) : List Section → Document
  | [] => d
  | set :: sets =>
    sets.foldl (fun d set => (d.addSection set.setup).filled set)
      ((d.mapFirst fun s => { s with setup := set.setup }).filled set)

/-- Whatever is added goes to the last section. -/
lemma filled_eq (d : Document) (set : Section) :
    d.filled set = d.mapCurrent fun s =>
      { s with blocks := s.blocks ++ set.blocks, footer := s.footer ++ set.footer } := by
  have hfooter : ∀ (ps : List Paragraph) (d : Document),
      ps.foldl pushFooter d = d.mapCurrent fun s => { s with footer := s.footer ++ ps } := by
    intro ps
    induction ps with
    | nil => simp [mapCurrent]
    | cons p ps ih => simp [ih, pushFooter, mapCurrent]
  have hblocks : ∀ (bs : List Block) (d : Document),
      bs.foldl push d = d.mapCurrent fun s => { s with blocks := s.blocks ++ bs } := by
    intro bs
    induction bs with
    | nil => simp [mapCurrent]
    | cons b bs ih => simp [ih, push, mapCurrent]
  rw [filled, hfooter, hblocks]
  rfl

/-- A document whose one section is empty has, when it has grown, the sections that were added. -/
theorem grown_eq_withSections (hbefore : d.before = []) (hcurrent : d.current = {})
    (sets : List Section) : d.grown sets = d.withSections sets := by
  cases sets with
  | nil => rfl
  | cons first rest =>
      induction rest using List.reverseRec with
      | nil =>
          simp [grown, mapFirst, filled_eq, mapCurrent, withSections, hbefore, hcurrent]
      | append_singleton rest set ih =>
          rw [grown] at ih
          rw [grown, List.foldl_append, ih, List.foldl_cons, List.foldl_nil, filled_eq]
          obtain ⟨last, before, hrest⟩ := List.exists_cons_of_ne_nil
            (List.reverse_ne_nil_iff.mpr (List.cons_ne_nil first rest))
          have hmore : (first :: (rest ++ [set])).reverse = set :: last :: before := by
            rw [← hrest]
            simp
          simp [withSections, hrest, hmore, addSection, mapCurrent]

end Word.Document

namespace Typeset

/-! ## The document -/

/-- The document that a report is set into, before there is anything in it. -/
def blankDocument (making : Making) (settings : Settings) (definitions : List Word.Definition) :
    Word.Document where
  definitions := definitions
  properties := propertiesOf making settings
  updateFields := true

/-- A report is cut at its breaks, its parts are set one after another, and the document grows by
what they are set as; without parts it has one section with nothing in it. -/
theorem sections_typeset {files : Files} {directory : Path} {making : Making} {tools : Tools}
    {d : ResolvedDocument} {doc : Word.Document}
    (h : typeset files directory making d tools = .ok doc) :
    ∃ groups sets ledger,
      IsCutInto d.sections groups (splitSections d.sections) ∧
      AreSetAs ⟨files, directory, d.settings.highlightCode, tools⟩ {} (splitSections d.sections)
        sets ledger ∧
      doc = (blankDocument making d.settings ledger.definitions).grown sets ∧
      doc.sections = if sets.isEmpty then [{}] else sets := by
  obtain ⟨sets, ledger, hsets, rfl⟩ := typeset_eq_ok h
  refine ⟨_, sets, ledger, isCutInto_splitSections d.sections, areSetAs_of_yields hsets,
    (Word.Document.grown_eq_withSections rfl rfl sets).symm, ?_⟩
  cases sets with
  | nil => rfl
  | cons set sets => exact Word.Document.sections_withSections (List.cons_ne_nil set sets)

/-- A report that begins and ends with breaks, some of them behind each other, and has a section
with nothing else in it. -/
def brokenReport : ResolvedDocument :=
  { sections :=
      [{ pageStart := some 1
         nodes := [.sectionBreak (some 2), .ofText [.plain "a"], .sectionBreak none,
          .sectionBreak (some 5), .ofText [.plain "b"], .pageBreak, .sectionBreak (some 7)] },
        { pageStart := some 3, nodes := [.sectionBreak none] },
        { pageStart := none, nodes := [.ofText [.plain "c"]] }]
    settings := {} }

/-- The statement for this report. -/
theorem sections_typeset_brokenReport :
    ∃ doc, typeset ⟨[]⟩ ⟨"/"⟩ ⟨0, 0⟩ brokenReport = .ok doc ∧
      doc.sections.map (fun s => (s.setup.pageStart, s.footer.length))
        = [(some 2, 1), (some 5, 1), (none, 0)] ∧
      ∃ groups sets ledger,
        IsCutInto brokenReport.sections groups (splitSections brokenReport.sections) ∧
        AreSetAs ⟨⟨[]⟩, ⟨"/"⟩, false, {}⟩ {} (splitSections brokenReport.sections) sets ledger ∧
        doc = (blankDocument ⟨0, 0⟩ {} ledger.definitions).grown sets ∧
        doc.sections = if sets.isEmpty then [{}] else sets := by
  have hshown : (typeset ⟨[]⟩ ⟨"/"⟩ ⟨0, 0⟩ brokenReport).toOption.map (fun doc =>
      doc.sections.map fun s => (s.setup.pageStart, s.footer.length))
        = some [(some 2, 1), (some 5, 1), (none, 0)] := by
    decide +kernel
  cases h : typeset ⟨[]⟩ ⟨"/"⟩ ⟨0, 0⟩ brokenReport with
  | error failure =>
      rw [h] at hshown
      exact nomatch hshown
  | ok doc =>
      rw [h] at hshown
      exact ⟨doc, rfl, Option.some.inj hshown, sections_typeset h⟩

end Typeset

end ReportPress
