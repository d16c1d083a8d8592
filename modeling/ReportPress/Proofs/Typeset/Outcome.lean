import ReportPress.Proofs.Typeset.Acceptance
import ReportPress.Proofs.Typeset.Acts

/-!
# How the setting of a report ends

Setting a report changes a ledger and can fail, but what the ledger holds has no part in that.

* `Outcome` — work on a report that fails with a given failure whatever the ledger is, or succeeds
  if there is none.
* `firstFailure?` — what is in the way of the first of some attachments that is not acceptable.
* `HasStyles` — whether the titles among some nodes have levels that there are styles for.

**Nodes.**  Runes and lists can always be set, titles if there is a style for them, and pictures
once they are loaded, if the reader of their sizes goes by signatures.  Nodes end with the first
failure among their attachments (`outcome_nodeItems`, by recursion over nodes, cells and rows).

**The result.**  `endsWith_typeset` — so does a whole report.
-/

namespace ReportPress.Typeset

variable {α β : Type} {failure? later? : Option Failure} {work : Typesetter α}

/-! ## Work -/

/-- Work that fails with a given failure whatever the ledger is, or succeeds if there is none. -/
def Outcome (failure? : Option Failure) (work : Typesetter α) : Prop :=
  ∀ l, EndsWith failure? (work.run l)

lemma outcome_pure (a : α) : Outcome none (pure a) := fun _ => .ok _

/-- One piece of work after another ends with the first failure. -/
lemma Outcome.bind {next : α → Typesetter β} (h : Outcome failure? work)
    (hnext : ∀ a, Outcome later? (next a)) : Outcome (failure?.or later?) (work >>= next) := by
  intro l
  rw [StateT.run_bind]
  exact (h l).bind fun result _ => hnext result.1 result.2

/-- Nothing can fail after work whose result is only put into another. -/
lemma Outcome.bind_pure {f : α → β} (h : Outcome failure? work) :
    Outcome failure? (do return f (← work)) := by
  have hbind := h.bind fun a => outcome_pure (f a)
  rwa [Option.or_none] at hbind

/-- Work that does not look at the ledger leaves it as it is, and then what comes of it is known. -/
lemma outcome_lift_bind {work : Except Failure α} {next : α → Typesetter β}
    (h : EndsWith failure? work) (hnext : ∀ a, work = .ok a → Outcome none (next a)) :
    Outcome failure? (liftM work >>= next) := by
  intro l
  cases h with
  | ok a => exact hnext a rfl l
  | error failure => exact .error failure

/-! ## Runes, titles and lists -/

lemma outcome_inlines (size : Option Nat) (runes : Runes) : Outcome none (inlines size runes) :=
  fun _ => .ok _

lemma outcome_paragraph (style : Option String) (format : Word.ParagraphFormat) (runes : Runes) :
    Outcome none (paragraph style format runes) :=
  (outcome_inlines none runes).bind_pure

/-- A title can be set if there is a style for its level. -/
lemma outcome_titleItems {t : Title Runes} (h : t.level ≤ maxTitleLevel) :
    Outcome none (titleItems t) := by
  unfold titleItems
  rw [if_neg (Nat.not_lt.mpr h)]
  exact (outcome_paragraph _ _ _).bind_pure

mutual

lemma outcome_entryItems (alternate : Bool) (number : Nat) : ∀ (level : Nat) (e : Entry Runes),
    Outcome none (entryItems alternate number level e)
  | _, .item _ => (outcome_paragraph _ _ _).bind_pure.bind_pure
  | level, .list _ entries =>
      Outcome.bind (fun _ => .ok _)
        fun _ => outcome_entriesItems alternate number (level + 1) entries

lemma outcome_entriesItems (alternate : Bool) (number : Nat) :
    ∀ (level : Nat) (es : List (Entry Runes)),
      Outcome none (entriesItems alternate number level es)
  | _, [] => outcome_pure _
  | level, e :: es =>
      (outcome_entryItems alternate number level e).bind
        fun _ => (outcome_entriesItems alternate number level es).bind_pure

end

/-- A list can always be set. -/
lemma outcome_listItems (list : ItemList Runes) : Outcome none (listItems list) := by
  have hnumber : Outcome none newDefinition := fun _ => .ok _
  have hlevel (number : Nat) : Outcome none (registerLevel number 0 list.style) :=
    fun _ => .ok _
  exact hnumber.bind fun number =>
    (hlevel number).bind fun _ => outcome_entriesItems list.style.alternate number 0 list.entries

/-! ## Pictures, code and other documents -/

section Nodes

variable {s : Surroundings}

/-- A picture that is loaded can be set, its format is one that a document may embed. -/
lemma outcome_imageItems (hsizes : ReadsBySignature s.tools.sizeOf?) (i : Image Runes) :
    Outcome ((Attachment.picture i.source).failure? s.tools.sizeOf? s.files s.directory)
      (imageItems s i) := by
  unfold imageItems
  refine outcome_lift_bind (endsWith_loadImage i.source) fun loaded hloaded => ?_
  obtain ⟨width, height⟩ := fit (loaded.width, loaded.height) i.width i.height
  obtain ⟨picture, hpicture⟩ :=
    Option.isSome_iff_exists.mp (isSome_ofBytes?_of_loadImage hsizes hloaded width height)
  dsimp only
  rw [hpicture]
  dsimp only
  split_ifs
  · exact outcome_pure _
  · exact (outcome_paragraph _ _ _).bind_pure

lemma outcome_codeItems (c : CodeBlock Runes) : Outcome none (codeItems s c) :=
  (outcome_paragraph _ _ _).bind_pure

lemma outcome_externalItems (d : ExternalDocument) :
    Outcome ((Attachment.document d.path).failure? s.tools.sizeOf? s.files s.directory)
      (externalItems s d) :=
  outcome_lift_bind (endsWith_placeholder d) fun _ _ => outcome_pure _

lemma outcome_captionItems : ∀ caption : Option Runes, Outcome none (captionItems caption)
  | none => outcome_pure _
  | some _ => (outcome_paragraph _ _ _).bind_pure

lemma outcome_cellText (normalFontSize isHeader : Bool) (p : Paragraph Runes) :
    Outcome none (cellText normalFontSize isHeader p) :=
  (outcome_inlines _ _).bind_pure

/-! ## Nodes -/

variable (s) in
/-- What is in the way of the first of some attachments that is not acceptable. -/
def firstFailure? (as : List Attachment) : Option Failure :=
  as.findSome? (Attachment.failure? s.tools.sizeOf? s.files s.directory)

lemma firstFailure?_append (as bs : List Attachment) :
    firstFailure? s (as ++ bs) = (firstFailure? s as).or (firstFailure? s bs) :=
  List.findSome?_append

lemma firstFailure?_singleton (a : Attachment) :
    firstFailure? s [a] = a.failure? s.tools.sizeOf? s.files s.directory := by
  simp [firstFailure?]

/-- Whether there are styles for the titles among some nodes. -/
def HasStyles (ns : List (Node Runes)) : Prop :=
  ∀ level ∈ seenIn Node.levels ns, level ≤ maxTitleLevel

lemma hasStyles_append {ms ns : List (Node Runes)} :
    HasStyles (ms ++ ns) ↔ HasStyles ms ∧ HasStyles ns := by
  simp [HasStyles, or_imp, forall_and]

lemma hasStyles_cons {n : Node Runes} {ns : List (Node Runes)} :
    HasStyles (n :: ns) ↔ HasStyles [n] ∧ HasStyles ns := by
  rw [← List.singleton_append, hasStyles_append]

/-- A cell with text is set in a way of its own, all others as their node is. -/
lemma outcome_cells_cons {normalFontSize isHeader : Bool} {n : Node Runes} {ns : List (Node Runes)}
    (hnode : Outcome (firstFailure? s (seenIn Node.attachments [n])) (nodeItems s n))
    (hnodes : Outcome (firstFailure? s (seenIn Node.attachments ns))
      (cellsBlocks s normalFontSize isHeader ns)) :
    Outcome (firstFailure? s (seenIn Node.attachments (n :: ns)))
      (cellsBlocks s normalFontSize isHeader (n :: ns)) := by
  rw [seenIn_cons, firstFailure?_append]
  cases n with
  | text p =>
      rw [cellsBlocks]
      exact (outcome_cellText normalFontSize isHeader p).bind fun _ =>
        (outcome_pure _).bind fun _ => hnodes.bind_pure
  | _ =>
      rw [cellsBlocks]
      · exact hnode.bind fun _ => (outcome_pure _).bind fun _ => hnodes.bind_pure
      · simp

mutual

/-- A node ends with the first failure among its attachments. -/
theorem outcome_nodeItems (hsizes : ReadsBySignature s.tools.sizeOf?) :
    ∀ n : Node Runes, HasStyles [n] →
      Outcome (firstFailure? s (seenIn Node.attachments [n])) (nodeItems s n)
  | .text p, _ => by
      rw [nodeItems]
      exact (outcome_paragraph _ _ _).bind_pure
  | .title t, h => by
      rw [nodeItems]
      exact outcome_titleItems (h t.level (List.mem_singleton.mpr rfl))
  | .pageBreak, _ => by
      rw [nodeItems]
      exact outcome_pure _
  | .contents, _ => by
      rw [nodeItems]
      exact outcome_pure _
  | .table caption rows normalFontSize, h => by
      have hrows : ∀ row ∈ rows, HasStyles row := by
        intro row hrow level hlevel
        refine h level ?_
        rw [seenIn_table]
        exact List.mem_append_right _ (List.mem_flatMap.mpr ⟨row, hrow, hlevel⟩)
      rw [nodeItems, seenIn_table]
      exact (outcome_captionItems caption).bind fun _ =>
        (outcome_rowsBlocks hsizes rows hrows).bind_pure
  | .list list, _ => by
      rw [nodeItems]
      exact outcome_listItems list
  | .image i, _ => by
      rw [nodeItems, seenIn_singleton rfl, Node.attachments, firstFailure?_singleton]
      exact outcome_imageItems hsizes i
  | .code c, _ => by
      rw [nodeItems]
      exact outcome_codeItems c
  | .external d, _ => by
      rw [nodeItems, seenIn_singleton rfl, Node.attachments, firstFailure?_singleton]
      exact outcome_externalItems d
  | .sectionBreak _, _ => by
      rw [nodeItems]
      exact outcome_pure _

/-- So do the cells of a row. -/
theorem outcome_cellsBlocks (hsizes : ReadsBySignature s.tools.sizeOf?)
    {normalFontSize isHeader : Bool} : ∀ ns : List (Node Runes), HasStyles ns →
      Outcome (firstFailure? s (seenIn Node.attachments ns))
        (cellsBlocks s normalFontSize isHeader ns)
  | [], _ => by
      rw [cellsBlocks]
      exact outcome_pure _
  | n :: ns, h =>
      outcome_cells_cons (outcome_nodeItems hsizes n (hasStyles_cons.mp h).1)
        (outcome_cellsBlocks hsizes ns (hasStyles_cons.mp h).2)

/-- So do the rows of a table. -/
theorem outcome_rowsBlocks (hsizes : ReadsBySignature s.tools.sizeOf?)
    {normalFontSize isHeader : Bool} :
    ∀ rows : List (List (Node Runes)), (∀ row ∈ rows, HasStyles row) →
      Outcome (firstFailure? s (rows.flatMap (seenIn Node.attachments)))
        (rowsBlocks s normalFontSize isHeader rows)
  | [], _ => by
      rw [rowsBlocks]
      exact outcome_pure _
  | row :: rows, h => by
      rw [rowsBlocks, List.flatMap_cons, firstFailure?_append]
      exact (outcome_cellsBlocks hsizes row (h row List.mem_cons_self)).bind fun _ =>
        (outcome_rowsBlocks hsizes rows fun r hr => h r (List.mem_cons_of_mem row hr)).bind_pure

end

/-! ## Sections and reports -/

/-- Pieces of work one after another end with the first failure. -/
lemma outcome_mapM {see : α → List Attachment} {f : α → Typesetter β} : ∀ as : List α,
    (∀ a ∈ as, Outcome (firstFailure? s (see a)) (f a)) →
      Outcome (firstFailure? s (as.flatMap see)) (as.mapM f)
  | [], _ => by
      rw [List.mapM_nil]
      exact outcome_pure _
  | a :: as, h => by
      rw [List.mapM_cons, List.flatMap_cons, firstFailure?_append]
      exact (h a List.mem_cons_self).bind fun _ =>
        (outcome_mapM as fun b hb => h b (List.mem_cons_of_mem a hb)).bind_pure

lemma outcome_typesetSection (hsizes : ReadsBySignature s.tools.sizeOf?) {part : Section Runes}
    (h : HasStyles part.nodes) :
    Outcome (firstFailure? s (part.nodes.flatMap fun n => seenIn Node.attachments [n]))
      (typesetSection s part) := by
  refine (outcome_mapM part.nodes fun n hn => ?_).bind_pure
  exact outcome_nodeItems hsizes n fun level hlevel => h level (mem_seenIn.mpr ⟨n, hn, hlevel⟩)

end Nodes

/-- Cutting sections at breaks keeps what is seen in the nodes of a report. -/
lemma flatMap_seenIn_splitSections {V : Type} {look : Node Runes → List V}
    (hlook : ∀ next, look (.sectionBreak next) = []) (sections : List (Section Runes)) :
    ((splitSections sections).flatMap fun part =>
        part.nodes.flatMap fun n => seenIn look [n])
      = sections.flatMap fun part => seenIn look part.nodes := by
  rw [flatMap_splitSections (fun next => (seenIn_singleton rfl).trans (hlook next))]
  simp only [← seenIn_eq_flatMap]

/-- A report ends with what is in the way of the first of its attachments that is not acceptable,
if there are styles for its titles and sizes are read by signatures. -/
theorem endsWith_typeset {files : Files} {directory : Path} {making : Making} {tools : Tools}
    {d : ResolvedDocument} (hsizes : ReadsBySignature tools.sizeOf?)
    (h : ∀ level ∈ d.levels, level ≤ maxTitleLevel) :
    EndsWith (d.attachments.findSome? (Attachment.failure? tools.sizeOf? files directory))
      (typeset files directory making d tools) := by
  have hstyles : ∀ part ∈ splitSections d.sections, HasStyles part.nodes := by
    intro part hpart level hlevel
    refine h level ?_
    rw [Document.levels_eq, ← flatMap_seenIn_splitSections fun _ => rfl]
    simp only [← seenIn_eq_flatMap]
    exact List.mem_flatMap.mpr ⟨part, hpart, hlevel⟩
  rw [Document.attachments_eq, ← flatMap_seenIn_splitSections fun _ => rfl]
  have hsections := outcome_mapM (s := ⟨files, directory, d.settings.highlightCode, tools⟩)
    (splitSections d.sections) fun part hpart => outcome_typesetSection hsizes (hstyles part hpart)
  have hall := (hsections {}).bind fun result _ => EndsWith.ok
    (({ definitions := result.2.definitions
        properties := propertiesOf making d.settings
        updateFields := true : Word.Document }).withSections result.1)
  rw [Option.or_none] at hall
  exact hall

end ReportPress.Typeset
