import ReportPress.Proofs.Document.Parts

/-!
# Replacing the texts of a report

Texts are replaced in document order, and a state can be handed on from each to the next.

* `Document.map` — a report with every text replaced for itself.

**What is replaced.**  `map_traverse` — where the state makes no difference to what is looked at in
the new texts, replacing with a state looks like replacing without one.

**The order.**  `texts_traverse` — the new texts are those that come of the old ones one after
another, and so is the state at the end.

**What is kept.**  `flatMap_parts_traverse` — what does not depend on the texts.
-/

namespace ReportPress

variable {T U V σ : Type}

/-- A node with every text replaced for itself. -/
def Node.map (f : T → U) (n : Node T) : Node U := n.traverse (m := Id) f

/-- A report with every text replaced for itself. -/
def Document.map (f : T → U) (d : Document T) : Document U := d.traverse (m := Id) f

/-- Replaces every text of a section. -/
def Section.traverse {m : Type → Type} [Monad m] (f : T → m U) (part : Section T) :
    m (Section U) := do
  let nodes ← traverseNodes f part.nodes
  return { pageStart := part.pageStart, nodes := nodes }

/-- The sections of a report have their texts replaced one after another. -/
lemma run_traverse (f : T → StateM σ U) (d : Document T) (s : σ) :
    (d.traverse f).run s =
      (⟨((d.sections.mapM (Section.traverse f)).run s).1, d.settings⟩,
        ((d.sections.mapM (Section.traverse f)).run s).2) :=
  rfl

/-! ## What is replaced -/

section Map

variable {f : T → StateM σ U} {look : U → V} {g : T → V}

mutual

lemma map_traverse_entry (h : ∀ t s, look ((f t).run s).1 = g t) : ∀ (e : Entry T) (s : σ),
    ((e.traverse f).run s).1.traverse (m := Id) look = e.traverse (m := Id) g
  | .item text, s => congrArg Entry.item (h text s)
  | .list style entries, s => congrArg (Entry.list style) (map_traverseEntries h entries s)

lemma map_traverseEntries (h : ∀ t s, look ((f t).run s).1 = g t) :
    ∀ (es : List (Entry T)) (s : σ),
      traverseEntries (m := Id) look ((traverseEntries f es).run s).1
        = traverseEntries (m := Id) g es
  | [], _ => rfl
  | e :: es, s =>
      congrArg₂ List.cons (map_traverse_entry h e s)
        (map_traverseEntries h es ((e.traverse f).run s).2)

end

mutual

lemma map_traverse_node (h : ∀ t s, look ((f t).run s).1 = g t) : ∀ (n : Node T) (s : σ),
    ((n.traverse f).run s).1.map look = n.map g
  | .text p, s => congrArg (fun text => Node.text { p with text }) (h p.text s)
  | .title t, s => congrArg (fun text => Node.title { t with text }) (h t.text s)
  | .pageBreak, _ => rfl
  | .contents, _ => rfl
  | .table none rows normal, s =>
      congrArg (fun rows => Node.table none rows normal) (map_traverseRows h rows s)
  | .table (some caption) rows normal, s =>
      congrArg₂ (fun caption rows => Node.table (some caption) rows normal) (h caption s)
        (map_traverseRows h rows ((f caption).run s).2)
  | .list l, s =>
      congrArg (fun entries => Node.list ⟨l.style, entries⟩) (map_traverseEntries h l.entries s)
  | .image i, s => congrArg (fun alt => Node.image { i with alt }) (h i.alt s)
  | .code c, s => congrArg (fun title => Node.code { c with title }) (h c.title s)
  | .external _, _ => rfl
  | .sectionBreak _, _ => rfl

lemma map_traverseNodes (h : ∀ t s, look ((f t).run s).1 = g t) : ∀ (ns : List (Node T)) (s : σ),
    traverseNodes (m := Id) look ((traverseNodes f ns).run s).1 = traverseNodes (m := Id) g ns
  | [], _ => rfl
  | n :: ns, s =>
      congrArg₂ List.cons (map_traverse_node h n s)
        (map_traverseNodes h ns ((n.traverse f).run s).2)

lemma map_traverseRows (h : ∀ t s, look ((f t).run s).1 = g t) :
    ∀ (rs : List (List (Node T))) (s : σ),
      traverseRows (m := Id) look ((traverseRows f rs).run s).1 = traverseRows (m := Id) g rs
  | [], _ => rfl
  | r :: rs, s =>
      congrArg₂ List.cons (map_traverseNodes h r s)
        (map_traverseRows h rs ((traverseNodes f r).run s).2)

end

/-- Where the state makes no difference to what is looked at, replacing with a state looks like
replacing without one. -/
theorem map_traverse (h : ∀ t s, look ((f t).run s).1 = g t) (d : Document T) (s : σ) :
    ((d.traverse f).run s).1.map look = d.map g := by
  have hparts : ∀ (parts : List (Section T)) (s : σ),
      ((parts.mapM (Section.traverse f)).run s).1.mapM (Section.traverse (m := Id) look)
        = parts.mapM (Section.traverse (m := Id) g) := by
    intro parts
    induction parts with
    | nil => exact fun _ => rfl
    | cons part parts ih =>
        intro s
        have hpart : Section.traverse (m := Id) look ((Section.traverse f part).run s).1
            = Section.traverse (m := Id) g part :=
          congrArg (Section.mk part.pageStart) (map_traverseNodes h part.nodes s)
        rw [run_mapM_cons, List.mapM_cons, List.mapM_cons, hpart, ih]
  rw [run_traverse]
  exact congrArg (Document.mk · d.settings) (hparts d.sections s)

end Map

/-! ## The order -/

/-- An action for the items of two lists is done for those of the first, and then for those of the
second. -/
lemma run_mapM_append (f : T → StateM σ U) (as bs : List T) (s : σ) :
    ((as ++ bs).mapM f).run s =
      (((as.mapM f).run s).1 ++ ((bs.mapM f).run ((as.mapM f).run s).2).1,
        ((bs.mapM f).run ((as.mapM f).run s).2).2) := by
  rw [List.mapM_append]
  rfl

section Order

variable {f : T → StateM σ U}

mutual

lemma texts_traverse_entry : ∀ (e : Entry T) (s : σ),
    (e.texts.mapM f).run s = (((e.traverse f).run s).1.texts, ((e.traverse f).run s).2)
  | .item text, s => by
      rw [Entry.texts, run_mapM_cons]
      rfl
  | .list _ entries, s => texts_traverseEntries entries s

lemma texts_traverseEntries : ∀ (es : List (Entry T)) (s : σ),
    ((entriesTexts es).mapM f).run s =
      (entriesTexts ((traverseEntries f es).run s).1, ((traverseEntries f es).run s).2)
  | [], _ => rfl
  | e :: es, s => by
      rw [entriesTexts, run_mapM_append, texts_traverse_entry e s, texts_traverseEntries es]
      rfl

end

mutual

lemma texts_traverse_node : ∀ (n : Node T) (s : σ),
    ((n.parts.flatMap Node.ownTexts).mapM f).run s =
      (((n.traverse f).run s).1.parts.flatMap Node.ownTexts, ((n.traverse f).run s).2)
  | .text p, s => run_mapM_cons f p.text [] s
  | .title t, s => run_mapM_cons f t.text [] s
  | .pageBreak, _ => rfl
  | .contents, _ => rfl
  | .table none rows normal, s => texts_traverseRows rows s
  | .table (some caption) rows normal, s => by
      have hparts : (Node.table (some caption) rows normal).parts.flatMap Node.ownTexts
          = caption :: (rowsParts rows).flatMap Node.ownTexts := rfl
      rw [hparts, run_mapM_cons, texts_traverseRows rows]
      rfl
  | .list l, s => by
      have hparts : (Node.list l).parts.flatMap Node.ownTexts = entriesTexts l.entries :=
        List.append_nil _
      rw [hparts, texts_traverseEntries l.entries s]
      exact congrArg (·, _) (List.append_nil _).symm
  | .image i, s => run_mapM_cons f i.alt [] s
  | .code c, s => run_mapM_cons f c.title [] s
  | .external _, _ => rfl
  | .sectionBreak _, _ => rfl

lemma texts_traverseNodes : ∀ (ns : List (Node T)) (s : σ),
    ((nodesParts ns).flatMap Node.ownTexts |>.mapM f).run s =
      ((nodesParts ((traverseNodes f ns).run s).1).flatMap Node.ownTexts,
        ((traverseNodes f ns).run s).2)
  | [], _ => rfl
  | n :: ns, s => by
      rw [nodesParts, List.flatMap_append, run_mapM_append, texts_traverse_node n s,
        texts_traverseNodes ns, ← List.flatMap_append]
      rfl

lemma texts_traverseRows : ∀ (rs : List (List (Node T))) (s : σ),
    ((rowsParts rs).flatMap Node.ownTexts |>.mapM f).run s =
      ((rowsParts ((traverseRows f rs).run s).1).flatMap Node.ownTexts,
        ((traverseRows f rs).run s).2)
  | [], _ => rfl
  | r :: rs, s => by
      rw [rowsParts, List.flatMap_append, run_mapM_append, texts_traverseNodes r s,
        texts_traverseRows rs, ← List.flatMap_append]
      rfl

end

/-- The new texts are those that come of the old ones one after another. -/
theorem texts_traverse (d : Document T) (s : σ) :
    (d.texts.mapM f).run s = (((d.traverse f).run s).1.texts, ((d.traverse f).run s).2) := by
  have hparts : ∀ (parts : List (Section T)) (s : σ),
      (((parts.flatMap fun part => nodesParts part.nodes).flatMap Node.ownTexts).mapM f).run s =
        ((((parts.mapM (Section.traverse f)).run s).1.flatMap fun part =>
          nodesParts part.nodes).flatMap Node.ownTexts,
          ((parts.mapM (Section.traverse f)).run s).2) := by
    intro parts
    induction parts with
    | nil => exact fun _ => rfl
    | cons part parts ih =>
        intro s
        rw [List.flatMap_cons, List.flatMap_append, run_mapM_append, texts_traverseNodes, ih,
          run_mapM_cons, List.flatMap_cons, List.flatMap_append]
        rfl
  rw [run_traverse]
  exact hparts d.sections s

end Order

/-! ## What is kept -/

section Parts

variable {f : T → StateM σ U} {look : Node U → List V} {g : Node T → List V}

mutual

lemma flatMap_parts_traverse_node (h : ∀ n s, look ((n.traverse f).run s).1 = g n) :
    ∀ (n : Node T) (s : σ), ((n.traverse f).run s).1.parts.flatMap look = n.parts.flatMap g
  | .text p, s => congrArg (· ++ []) (h (.text p) s)
  | .title t, s => congrArg (· ++ []) (h (.title t) s)
  | .pageBreak, s => congrArg (· ++ []) (h .pageBreak s)
  | .contents, s => congrArg (· ++ []) (h .contents s)
  | .table none rows normal, s =>
      congrArg₂ (· ++ ·) (h (.table none rows normal) s) (flatMap_rowsParts_traverse h rows s)
  | .table (some caption) rows normal, s =>
      congrArg₂ (· ++ ·) (h (.table (some caption) rows normal) s)
        (flatMap_rowsParts_traverse h rows ((f caption).run s).2)
  | .list l, s => congrArg (· ++ []) (h (.list l) s)
  | .image i, s => congrArg (· ++ []) (h (.image i) s)
  | .code c, s => congrArg (· ++ []) (h (.code c) s)
  | .external d, s => congrArg (· ++ []) (h (.external d) s)
  | .sectionBreak pageStart, s => congrArg (· ++ []) (h (.sectionBreak pageStart) s)

lemma flatMap_nodesParts_traverse (h : ∀ n s, look ((n.traverse f).run s).1 = g n) :
    ∀ (ns : List (Node T)) (s : σ),
      (nodesParts ((traverseNodes f ns).run s).1).flatMap look = (nodesParts ns).flatMap g
  | [], _ => rfl
  | n :: ns, s => by
      rw [nodesParts, List.flatMap_append, ← flatMap_parts_traverse_node h n s,
        ← flatMap_nodesParts_traverse h ns ((n.traverse f).run s).2, ← List.flatMap_append]
      rfl

lemma flatMap_rowsParts_traverse (h : ∀ n s, look ((n.traverse f).run s).1 = g n) :
    ∀ (rs : List (List (Node T))) (s : σ),
      (rowsParts ((traverseRows f rs).run s).1).flatMap look = (rowsParts rs).flatMap g
  | [], _ => rfl
  | r :: rs, s => by
      rw [rowsParts, List.flatMap_append, ← flatMap_nodesParts_traverse h r s,
        ← flatMap_rowsParts_traverse h rs ((traverseNodes f r).run s).2, ← List.flatMap_append]
      rfl

end

/-- What does not depend on the texts is kept, part by part. -/
theorem flatMap_parts_traverse (h : ∀ n s, look ((n.traverse f).run s).1 = g n) (d : Document T)
    (s : σ) : ((d.traverse f).run s).1.parts.flatMap look = d.parts.flatMap g := by
  have hparts : ∀ (parts : List (Section T)) (s : σ),
      (((parts.mapM (Section.traverse f)).run s).1.flatMap fun part =>
          nodesParts part.nodes).flatMap look
        = (parts.flatMap fun part => nodesParts part.nodes).flatMap g := by
    intro parts
    induction parts with
    | nil => exact fun _ => rfl
    | cons part parts ih =>
        intro s
        rw [run_mapM_cons, List.flatMap_cons, List.flatMap_cons, List.flatMap_append,
          List.flatMap_append, ih, ← flatMap_nodesParts_traverse h part.nodes s]
        rfl
  exact hparts d.sections s

end Parts

end ReportPress
