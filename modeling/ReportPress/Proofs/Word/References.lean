import Mathlib.Data.List.Forall2
import ReportPress.Proofs.Word.Elements
import ReportPress.Proofs.Word.Soundness

/-!
# What the text of a document refers to

Identifiers, the numbers of pictures and the pictures themselves are collected while the text is
written.  What has been collected at the end fits the text, however sections, tables and links
are nested.

* `referencesIn` — the references in some elements, each with the kind of what it refers to.
* `Leads` — an identifier stands for a relation.
* `picturesIn` — the pictures in contents of paragraphs.
* `Draws` — some pictures are kept in order, each with the next number, and the references to
  them lead to their files.

**From text to relations.**  `leads_of_writes` — every reference leads to a relation of its kind;
`draws_of_writes` — the pictures.

**From relations to files.**  `relation_of_writes` — every relation that is added is a link, a
footer or the file of a picture.
-/

namespace ReportPress.Word

variable {S F : String → Prop} {is : List Inline} {refs middle refs' : References}
  {xs ys : List Xml}

/-! ## References in elements -/

/-- The references in a tag. -/
def tagReferences (t : Tag) : List (RelationKind × String) :=
  t.attributes.filterMap fun a => (referenceKind? t.name a.name).map fun kind => (kind, a.value)

/-- The references in some elements, in order. -/
def referencesIn (xs : List Xml) : List (RelationKind × String) := (tagsOf xs).flatMap tagReferences

/-- The elements that can refer to something. -/
def referringNames : List String := ["w:footerReference", "w:hyperlink", "a:blip"]

@[simp] lemma referencesIn_append :
    referencesIn (xs ++ ys) = referencesIn xs ++ referencesIn ys := by
  simp [referencesIn]

lemma mem_referringNames {element key : String} {kind : RelationKind}
    (h : referenceKind? element key = some kind) : element ∈ referringNames := by
  unfold referenceKind? at h
  split_ifs at h with hfooter hlink hpicture
  · simp [referringNames, hfooter.1]
  · simp [referringNames, hlink.1]
  · simp [referringNames, hpicture.1]

lemma tagReferences_eq_nil {t : Tag} (h : t.name ∉ referringNames) : tagReferences t = [] := by
  rw [tagReferences, List.filterMap_eq_nil_iff]
  intro a _
  cases hkind : referenceKind? t.name a.name with
  | none => rfl
  | some kind => exact absurd (mem_referringNames hkind) h

lemma mem_referencesIn {t : Tag} {a : Attribute} {kind : RelationKind} (ht : t ∈ tagsOf xs)
    (ha : a ∈ t.attributes) (h : referenceKind? t.name a.name = some kind) :
    (kind, a.value) ∈ referencesIn xs := by
  refine List.mem_flatMap.mpr ⟨t, ht, List.mem_filterMap.mpr ⟨a, ha, ?_⟩⟩
  rw [h, Option.map_some]

lemma referencesIn_of_isMadeOf {names : List String} (h : IsMadeOf names xs)
    (hn : ∀ name ∈ names, name ∉ referringNames) : referencesIn xs = [] := by
  rw [referencesIn, List.flatMap_eq_nil_iff]
  intro t ht
  exact tagReferences_eq_nil (hn t.name (h t ht))

lemma referencesIn_element {name : String} {attributes : List Attribute} :
    referencesIn [.element name attributes xs]
      = tagReferences ⟨name, attributes⟩ ++ referencesIn xs := by
  simp [referencesIn, tagsOf, Xml.tags]

/-! ## Identifiers -/

/-- An identifier stands for a relation. -/
def References.Leads (refs : References) (id : String) (kind : RelationKind) (target : String) :
    Prop :=
  ∃ n, id = relationId (n + 1) ∧ refs.relations[n]? = some ⟨kind, target⟩

lemma References.Leads.mono {id target : String} {kind : RelationKind}
    (h : refs.Leads id kind target) (hgrow : refs.relations <+: refs'.relations) :
    refs'.Leads id kind target := by
  obtain ⟨n, hid, hn⟩ := h
  obtain ⟨more, hmore⟩ := hgrow
  refine ⟨n, hid, ?_⟩
  rw [← hmore, List.getElem?_append_left (List.getElem?_eq_some_iff.mp hn).1, hn]

/-- The identifier that is given out for a relation leads to it. -/
lemma leads_add (kind : RelationKind) (target : String) (refs : References) :
    (((References.add kind target).run refs).2).Leads ((References.add kind target).run refs).1
      kind target := by
  refine ⟨refs.relations.length, rfl, ?_⟩
  show (refs.relations ++ [⟨kind, target⟩])[refs.relations.length]? = _
  simp

/-! ## From the text to relations -/

/-- The references in what is written for the contents of a paragraph lead somewhere. -/
lemma leads_inline (i : Inline) (refs : References) : ∀ r ∈ referencesIn (i.xml.run refs).1,
    ∃ target, ((i.xml.run refs).2).Leads r.2 r.1 target := by
  have hrun (r : Run) : referencesIn r.xml = [] :=
    referencesIn_of_isMadeOf (isMadeOf_run r) (by decide)
  have hruns (runs : List Run) : referencesIn (runs.flatMap Run.xml) = [] :=
    referencesIn_of_isMadeOf (isMadeOf_flatMap fun r _ => isMadeOf_run r) (by decide)
  cases i with
  | run r =>
      intro reference hmem
      have hnil : referencesIn ((Inline.run r).xml.run refs).1 = [] := hrun r
      simp [hnil] at hmem
  | link target runs =>
      cases target with
      | external address =>
          intro reference hmem
          have hlink : referencesIn ((Inline.link (.external address) runs).xml.run refs).1 =
              (.hyperlink, relationId (refs.relations.length + 1)) ::
                referencesIn (runs.flatMap Run.xml) := referencesIn_element
          rw [hlink, hruns, List.mem_singleton] at hmem
          subst hmem
          exact ⟨address, leads_add .hyperlink address refs⟩
      | anchor name =>
          intro reference hmem
          have hlink : referencesIn ((Inline.link (.anchor name) runs).xml.run refs).1 =
              referencesIn (runs.flatMap Run.xml) := referencesIn_element
          simp [hlink, hruns] at hmem
  | picture p =>
      intro reference hmem
      have hpicture : referencesIn ((Inline.picture p).xml.run refs).1 =
          [(.image, relationId (refs.relations.length + 1))] := rfl
      rw [hpicture, List.mem_singleton] at hmem
      subst hmem
      refine ⟨"media/" ++ mediaName (refs.media.length + 1) p.format, ?_⟩
      exact leads_add .image _ { refs with media := refs.media ++ [⟨p.format, p.data⟩] }
  | bookmarkStart id anchor => exact fun _ hmem => nomatch hmem
  | bookmarkEnd id => exact fun _ hmem => nomatch hmem

lemma referencesIn_setup (setup : PageSetup) (id : String) :
    referencesIn [setup.xml id] = [(.footer, id)] := by
  unfold PageSetup.xml
  cases setup.pageStart <;> rfl

/-- Every reference in what is written leads to a relation of its kind. -/
theorem leads_of_writes (h : Writes S F is refs xs refs') :
    ∀ r ∈ referencesIn xs, ∃ target, refs'.Leads r.2 r.1 target := by
  induction h with
  | nil refs => simp [referencesIn, tagsOf]
  | append _ hafter ih ih' =>
      intro r hr
      rw [referencesIn_append, List.mem_append] at hr
      rcases hr with hr | hr
      · obtain ⟨target, hleads⟩ := ih r hr
        exact ⟨target, hleads.mono hafter.prefix⟩
      · exact ih' r hr
  | inline i refs => exact leads_inline i refs
  | fixed refs h =>
      intro r hr
      rw [referencesIn_of_isMadeOf (isMadeOf_fixed h) (by decide)] at hr
      simp at hr
  | @frame name _ _ _ _ hname _ ih =>
      have hnames : ∀ name ∈ frameNames, name ∉ referringNames := by decide
      rw [Xml.plain, referencesIn_element, tagReferences_eq_nil (hnames name hname)]
      exact ih
  | footer refs _ => simp [referencesIn, tagsOf]
  | @setup setup n target refs hn =>
      intro r hr
      rw [referencesIn_setup, List.mem_singleton] at hr
      subst hr
      exact ⟨target, n, rfl, hn⟩

/-! ## Pictures -/

/-- The pictures in contents of paragraphs. -/
def picturesIn (is : List Inline) : List Picture :=
  is.filterMap fun i => match i with
    | .picture p => some p
    | _ => none

/-- A picture as it is kept beside the text. -/
def Picture.media (p : Picture) : Media := ⟨p.format, p.data⟩

/-- The target of the relation to a picture, by its number. -/
def mediaTarget (number : Nat) (format : ImageFormat) : String :=
  "media/" ++ mediaName number format

/-- Pictures that are drawn: they are kept in order, have the next numbers, and are referred to
by identifiers that lead to their files. -/
structure Draws (pictures : List Picture) (refs : References) (xs : List Xml)
    (refs' : References) : Prop where
  media : refs'.media = refs.media ++ pictures.map Picture.media
  numbers : valuesIn "wp:docPr" "id" xs
    = (pictures.zipIdx (refs.media.length + 1)).map fun p => toString p.2
  embeds : List.Forall₂ (fun p id => refs'.Leads id .image (mediaTarget p.2 p.1.format))
    (pictures.zipIdx (refs.media.length + 1)) (valuesIn "a:blip" "r:embed" xs)

/-- Without pictures there is nothing to draw. -/
lemma draws_nil (hmedia : refs'.media = refs.media) (hnumbers : valuesIn "wp:docPr" "id" xs = [])
    (hembeds : valuesIn "a:blip" "r:embed" xs = []) : Draws [] refs xs refs' :=
  ⟨by simpa using hmedia, by simpa using hnumbers, by simp [hembeds]⟩

lemma draws_nil_of_isMadeOf {names : List String} (hmedia : refs'.media = refs.media)
    (h : IsMadeOf names xs) (hnumber : "wp:docPr" ∉ names) (hembed : "a:blip" ∉ names) :
    Draws [] refs xs refs' :=
  draws_nil hmedia (valuesIn_of_isMadeOf h hnumber) (valuesIn_of_isMadeOf h hembed)

lemma Draws.append {before after : List Picture} (h : Draws before refs xs middle)
    (h' : Draws after middle ys refs') (hgrow : middle.relations <+: refs'.relations) :
    Draws (before ++ after) refs (xs ++ ys) refs' := by
  have hlength : refs.media.length + 1 + before.length = middle.media.length + 1 := by
    rw [h.media, List.length_append, List.length_map]
    omega
  refine ⟨?_, ?_, ?_⟩
  · rw [h'.media, h.media, List.map_append, List.append_assoc]
  · rw [valuesIn_append, h.numbers, h'.numbers, List.zipIdx_append, List.map_append, hlength]
  · rw [valuesIn_append, List.zipIdx_append, hlength]
    exact List.rel_append (h.embeds.imp fun _ _ hleads => hleads.mono hgrow) h'.embeds

lemma draws_inline (i : Inline) (refs : References) :
    Draws (picturesIn [i]) refs (i.xml.run refs).1 (i.xml.run refs).2 := by
  have hruns {key value : String} (runs : List Run) :
      IsMadeOf ("w:hyperlink" :: runNames) [.element "w:hyperlink"
        [⟨key, value, false⟩, .nat "w:history" 1] (runs.flatMap Run.xml)] := by
    refine isMadeOf_element.mpr ⟨by simp, isMadeOf_flatMap fun r _ => ?_⟩
    exact (isMadeOf_run r).mono fun name => List.mem_cons_of_mem _
  cases i with
  | run r => exact draws_nil_of_isMadeOf rfl (isMadeOf_run r) (by decide) (by decide)
  | link target runs =>
      cases target with
      | external address => exact draws_nil_of_isMadeOf rfl (hruns runs) (by decide) (by decide)
      | anchor name => exact draws_nil_of_isMadeOf rfl (hruns runs) (by decide) (by decide)
  | picture p =>
      have hleads := leads_add .image (mediaTarget (refs.media.length + 1) p.format)
        { refs with media := refs.media ++ [p.media] }
      exact ⟨rfl, rfl, .cons hleads .nil⟩
  | bookmarkStart id anchor => exact draws_nil rfl rfl rfl
  | bookmarkEnd id => exact draws_nil rfl rfl rfl

/-- The pictures of a text are drawn in order. -/
theorem draws_of_writes (h : Writes S F is refs xs refs') :
    Draws (picturesIn is) refs xs refs' := by
  induction h with
  | nil refs => exact draws_nil rfl rfl rfl
  | append _ hafter ih ih' =>
      rw [picturesIn, List.filterMap_append]
      exact ih.append ih' hafter.prefix
  | inline i refs => exact draws_inline i refs
  | fixed refs h => exact draws_nil_of_isMadeOf rfl (isMadeOf_fixed h) (by decide) (by decide)
  | @frame name _ _ _ _ hname _ ih =>
      have hnames : ∀ name ∈ frameNames, name ≠ "wp:docPr" ∧ name ≠ "a:blip" := by decide
      obtain ⟨hnumber, hembed⟩ := hnames name hname
      refine ⟨ih.media, ?_, ?_⟩
      · rw [Xml.plain, valuesIn_element hnumber, ih.numbers]
      · rw [Xml.plain, valuesIn_element hembed]
        exact ih.embeds
  | footer refs _ => exact draws_nil rfl rfl rfl
  | setup setup _ =>
      exact draws_nil_of_isMadeOf rfl (isMadeOf_setup setup _) (by decide) (by decide)

/-! ## From relations to files -/

/-- A relation that a text adds: a link, a footer, or a picture that is kept. -/
def IsSettled (F : String → Prop) (media : List Media) (r : Relation) : Prop :=
  r.kind = .hyperlink ∨ (r.kind = .footer ∧ F r.target) ∨
    ∃ n m, media[n]? = some m ∧ r = ⟨.image, mediaTarget (n + 1) m.format⟩

lemma IsSettled.mono {media more : List Media} {r : Relation} (h : IsSettled F media r)
    (hgrow : media <+: more) : IsSettled F more r := by
  rcases h with h | h | ⟨n, m, hm, hr⟩
  · exact Or.inl h
  · exact Or.inr (Or.inl h)
  · obtain ⟨rest, rfl⟩ := hgrow
    refine Or.inr (Or.inr ⟨n, m, ?_, hr⟩)
    rw [List.getElem?_append_left (List.getElem?_eq_some_iff.mp hm).1, hm]

lemma relation_of_inline (i : Inline) (refs : References) : ∀ r ∈ ((i.xml.run refs).2).relations,
    r ∈ refs.relations ∨ IsSettled F ((i.xml.run refs).2).media r := by
  cases i with
  | run r => exact fun _ => Or.inl
  | link target runs =>
      cases target with
      | anchor name => exact fun _ => Or.inl
      | external address =>
          intro r hr
          have hmem : r ∈ refs.relations ++ [⟨.hyperlink, address⟩] := hr
          rcases List.mem_append.mp hmem with h | h
          · exact Or.inl h
          · rw [List.mem_singleton] at h
            exact Or.inr (Or.inl (by rw [h]))
  | picture p =>
      intro r hr
      have hmem : r ∈ refs.relations ++
          [⟨.image, mediaTarget (refs.media.length + 1) p.format⟩] := hr
      rcases List.mem_append.mp hmem with h | h
      · exact Or.inl h
      · rw [List.mem_singleton] at h
        have hmedia : (refs.media ++ [p.media])[refs.media.length]? = some p.media := by simp
        exact Or.inr (Or.inr (Or.inr ⟨refs.media.length, p.media, hmedia, h⟩))
  | bookmarkStart id anchor => exact fun _ => Or.inl
  | bookmarkEnd id => exact fun _ => Or.inl

/-- A relation was there before the text was written, or the text has added it. -/
theorem relation_of_writes (h : Writes S F is refs xs refs') :
    ∀ r ∈ refs'.relations, r ∈ refs.relations ∨ IsSettled F refs'.media r := by
  induction h with
  | nil refs => exact fun _ => Or.inl
  | append _ hafter ih ih' =>
      intro r hr
      have hmedia : _ <+: _ := ⟨_, (draws_of_writes hafter).media.symm⟩
      rcases ih' r hr with h | h
      · exact (ih r h).imp id fun h => h.mono hmedia
      · exact Or.inr h
  | inline i refs => exact relation_of_inline i refs
  | fixed refs _ => exact fun _ => Or.inl
  | frame _ _ ih => exact ih
  | @footer target refs hf =>
      intro r hr
      have hmem : r ∈ refs.relations ++ [⟨.footer, target⟩] := hr
      rcases List.mem_append.mp hmem with h | h
      · exact Or.inl h
      · rw [List.mem_singleton] at h
        exact Or.inr (Or.inr (Or.inl (by rw [h]; exact ⟨rfl, hf⟩)))
  | setup setup _ => exact fun _ => Or.inl

end ReportPress.Word
