import ReportPress.Proofs.Typeset.BookmarkNames

/-!
# The texts that a report shows

The only text that can be left out is the caption of a picture that says nothing.

* `Act.texts`, `actsTexts` — the texts that acts show, each in a paragraph of its own.
* `IsCaptioned` — whether a node is no picture, or one whose caption says something.

**All texts.**  `actsTexts_nodeActs` is the recursion over nodes, cells and rows, and
`actsTexts_documentActs` its result: where all pictures have captions, the acts of a report show
its texts, one after another.
-/

namespace ReportPress.Typeset

/-- The texts that an act shows. -/
def Act.texts : Act → List Runes
  | .define | .register _ _ => []
  | .item _ runes => [runes]
  | .paragraph _ runes => [runes]

/-- The texts that acts show, in order. -/
def actsTexts (acts : List Act) : List Runes := acts.flatMap Act.texts

@[simp] lemma actsTexts_append (before acts : List Act) :
    actsTexts (before ++ acts) = actsTexts before ++ actsTexts acts :=
  List.flatMap_append

@[simp] lemma actsTexts_cons (a : Act) (acts : List Act) :
    actsTexts (a :: acts) = a.texts ++ actsTexts acts :=
  List.flatMap_cons

/-- The runes that acts show are those of their texts. -/
lemma flatten_actsTexts (acts : List Act) : (actsTexts acts).flatten = actsRunes acts := by
  induction acts with
  | nil => rfl
  | cons a acts ih =>
      rw [actsTexts_cons, actsRunes_cons, List.flatten_append, ih]
      cases a <;> simp [Act.texts, Act.runes]

/-- Whether a node is no picture, or one whose caption says something. -/
def IsCaptioned : Node Runes → Prop
  | .image i => (Text.trimmed (plainText i.alt)).isEmpty = false
  | _ => True

instance : DecidablePred IsCaptioned
  | .image i => inferInstanceAs (Decidable ((Text.trimmed (plainText i.alt)).isEmpty = false))
  | .text _ | .title _ | .pageBreak | .contents | .table _ _ _ | .list _ | .code _ | .external _
  | .sectionBreak _ => isTrue trivial

mutual

lemma actsTexts_entryActs {alternate : Bool} : ∀ (level : Nat) (e : Entry Runes),
    actsTexts (entryActs alternate level e) = e.texts
  | _, .item _ => rfl
  | level, .list style entries => by
      rw [entryActs, Entry.texts, actsTexts_cons]
      exact actsTexts_entriesActs (level + 1) entries

lemma actsTexts_entriesActs {alternate : Bool} : ∀ (level : Nat) (es : List (Entry Runes)),
    actsTexts (entriesActs alternate level es) = entriesTexts es
  | _, [] => rfl
  | level, e :: es => by
      rw [entriesActs, entriesTexts, actsTexts_append, actsTexts_entryActs level e,
        actsTexts_entriesActs level es]

end

/-- The text of a cell does not depend on whether it is set as a text or as a node. -/
lemma actsTexts_cellsActs_cons {normalFontSize : Bool} {n : Node Runes} {ns : List (Node Runes)}
    (hnode : actsTexts (nodeActs n) = n.parts.flatMap Node.ownTexts)
    (hnodes : actsTexts (cellsActs normalFontSize ns) = (nodesParts ns).flatMap Node.ownTexts) :
    actsTexts (cellsActs normalFontSize (n :: ns))
      = (nodesParts (n :: ns)).flatMap Node.ownTexts := by
  rw [nodesParts, List.flatMap_append, ← hnode, ← hnodes]
  cases n with
  | text p =>
      rw [cellsActs, actsTexts_cons]
      rfl
  | _ =>
      rw [cellsActs, actsTexts_append]
      simp

mutual

lemma actsTexts_nodeActs : ∀ n : Node Runes, (∀ m ∈ n.parts, IsCaptioned m) →
    actsTexts (nodeActs n) = n.parts.flatMap Node.ownTexts
  | .text _, _ => rfl
  | .title _, _ => rfl
  | .pageBreak, _ => rfl
  | .contents, _ => rfl
  | .table caption rows normalFontSize, h => by
      have hrows : ∀ m ∈ rowsParts rows, IsCaptioned m := by
        intro m hm
        refine h m ?_
        rw [Node.parts]
        exact List.mem_cons_of_mem _ hm
      have hcaption : actsTexts (captionActs caption) = caption.toList := by
        cases caption <;> rfl
      rw [nodeActs, actsTexts_append, hcaption, actsTexts_rowsActs rows hrows, Node.parts,
        List.flatMap_cons]
      rfl
  | .list l, _ => by
      have htexts : actsTexts (nodeActs (.list l)) = entriesTexts l.entries :=
        actsTexts_entriesActs 0 l.entries
      rw [htexts]
      exact (List.append_nil _).symm
  | .image i, h => by
      have hcaption : (Text.trimmed (plainText i.alt)).isEmpty = false := by
        refine h (.image i) ?_
        rw [Node.parts]
        exact List.mem_singleton.mpr rfl
      rw [nodeActs, imageActs, if_neg (by rw [hcaption]; exact Bool.false_ne_true)]
      rfl
  | .code _, _ => rfl
  | .external _, _ => rfl
  | .sectionBreak _, _ => rfl

lemma actsTexts_cellsActs {normalFontSize : Bool} : ∀ ns : List (Node Runes),
    (∀ m ∈ nodesParts ns, IsCaptioned m) →
      actsTexts (cellsActs normalFontSize ns) = (nodesParts ns).flatMap Node.ownTexts
  | [], _ => rfl
  | n :: ns, h => by
      rw [nodesParts, List.forall_mem_append] at h
      exact actsTexts_cellsActs_cons (actsTexts_nodeActs n h.1) (actsTexts_cellsActs ns h.2)

lemma actsTexts_rowsActs {normalFontSize : Bool} : ∀ rs : List (List (Node Runes)),
    (∀ m ∈ rowsParts rs, IsCaptioned m) →
      actsTexts (rowsActs normalFontSize rs) = (rowsParts rs).flatMap Node.ownTexts
  | [], _ => rfl
  | r :: rs, h => by
      rw [rowsParts, List.forall_mem_append] at h
      rw [rowsActs, rowsParts, actsTexts_append, List.flatMap_append, actsTexts_cellsActs r h.1,
        actsTexts_rowsActs rs h.2]

end

lemma actsTexts_nodesActs : ∀ ns : List (Node Runes), (∀ m ∈ nodesParts ns, IsCaptioned m) →
    actsTexts (ns.flatMap nodeActs) = (nodesParts ns).flatMap Node.ownTexts
  | [], _ => rfl
  | n :: ns, h => by
      rw [nodesParts, List.forall_mem_append] at h
      rw [List.flatMap_cons, nodesParts, actsTexts_append, List.flatMap_append,
        actsTexts_nodeActs n h.1, actsTexts_nodesActs ns h.2]

/-- Where all pictures have captions, a report shows all its texts. -/
theorem actsTexts_documentActs {d : ResolvedDocument} (h : ∀ n ∈ d.parts, IsCaptioned n) :
    actsTexts (documentActs d) = d.texts := by
  have hsections : ∀ sections : List (Section Runes),
      (∀ n ∈ sections.flatMap fun s => nodesParts s.nodes, IsCaptioned n) →
        actsTexts (sections.flatMap fun s => s.nodes.flatMap nodeActs)
          = (sections.flatMap fun s => nodesParts s.nodes).flatMap Node.ownTexts := by
    intro sections hsections
    induction sections with
    | nil => rfl
    | cons s sections ih =>
        rw [List.flatMap_cons, List.forall_mem_append] at hsections
        rw [List.flatMap_cons, List.flatMap_cons, actsTexts_append, List.flatMap_append,
          actsTexts_nodesActs s.nodes hsections.1, ih hsections.2]
  exact hsections d.sections h

end ReportPress.Typeset
