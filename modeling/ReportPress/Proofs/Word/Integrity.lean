import ReportPress.Proofs.Word.Package

/-!
# The parts of a package fit together

A document is spread over the entries of a package, which refer to each other by names and
identifiers.  All that is said here is said of the texts in the package as they are read, not of
the trees that they were printed from.

* `IsPart` — a package has an entry with a text that is read as a tree.
* `IsRelation` — an element of the relations: an identifier, a kind, a target.
* `mediaIn` — the entries that are not text.
* `IsIntact` — whatever is referred to is there, as the kind that the reference asks for.

`package_isIntact` — the package of every document whose runs are safe is intact.  What is known
of the references in its text (`leads_of_writes`, `draws_of_writes`) is carried over to the texts
by `exists_readPart?`.
-/

namespace ReportPress.Word

/-! ## What is found in a package -/

/-- A package has an entry with a text that is read as a tree. -/
def IsPart (entries : List Entry) (name : String) (x : Xml) : Prop :=
  ∃ text, ⟨name, .text text⟩ ∈ entries ∧ readPart? text = some x

/-- The element of a relation. -/
structure IsRelation (t : Tag) (id : String) (kind : RelationKind) (target : String) : Prop where
  name : t.name = "Relationship"
  id : ⟨"Id", id, false⟩ ∈ t.attributes
  kind : ⟨"Type", kind.address, false⟩ ∈ t.attributes
  target : ⟨"Target", target, false⟩ ∈ t.attributes

/-- An identifier stands for a relation in some elements. -/
def RelatesIn (rels : Xml) (id : String) (kind : RelationKind) (target : String) : Prop :=
  ∃ t ∈ tagsOf [rels], IsRelation t id kind target

/-- Whether the content of an entry is not text. -/
def Entry.isMedia (e : Entry) : Bool :=
  match e.content with
  | .bytes _ => true
  | .text _ => false

/-- The entries that are not text, in order. -/
def mediaIn (entries : List Entry) : List Entry := entries.filter Entry.isMedia

/-- A package whose parts fit together, with the pictures that are to be in it. -/
structure IsIntact (pictures : List Picture) (entries : List Entry) (body rels types : Xml) :
    Prop where
  document : IsPart entries "word/document.xml" body
  relations : IsPart entries "word/_rels/document.xml.rels" rels
  contentTypes : IsPart entries "[Content_Types].xml" types
  names : (entries.map Entry.name).Nodup
  ids : (valuesIn "Relationship" "Id" [rels]).Nodup
  /-- A reference in the text stands where its kind is known, and leads to a relation of that
  kind. -/
  references : ∀ t ∈ tagsOf [body], ∀ a ∈ t.attributes, a.name ∈ referenceKeys →
    ∃ kind target, referenceKind? t.name a.name = some kind ∧ RelatesIn rels a.value kind target
  targets : ∀ t ∈ tagsOf [rels], t.name = "Relationship" → ∃ id kind target,
    IsRelation t id kind target ∧
      (kind = .hyperlink ∨ ∃ e ∈ entries, e.name = "word/" ++ target)
  /-- The pictures are kept in the order in which they are drawn. -/
  media : (mediaIn entries).map Entry.content = pictures.map fun p => .bytes p.data
  /-- The references to pictures lead to them, in the same order. -/
  embeds : List.Forall₂
    (fun id e => ∃ target, RelatesIn rels id .image target ∧ e.name = "word/" ++ target)
    (valuesIn "a:blip" "r:embed" [body]) (mediaIn entries)
  types : ∀ e ∈ entries, e.name = "[Content_Types].xml" ∨
    "/" ++ e.name ∈ valuesIn "Override" "PartName" [types] ∨
      extensionOf e.name ∈ valuesIn "Default" "Extension" [types]
  drawings : (valuesIn "wp:docPr" "id" [body]).Nodup

/-! ## The relations -/

section Relations

variable {refs : References} {rels : Xml}

lemma areSound_relations (refs : References) : AreSound areNames [refs.xml] := by
  refine areSound_element.mpr ⟨by simp; decide, areSound_iff_forall.mpr fun x hx => ?_⟩
  obtain ⟨i, hi, rfl⟩ := List.mem_mapIdx.mp hx
  refine areSound_empty.mpr ?_
  split_ifs <;> simp <;> decide

lemma ids_relations (h : [rels] = allAsRead [refs.xml]) :
    valuesIn "Relationship" "Id" [rels]
      = (List.range refs.relations.length).map fun n => relationId (n + 1) := by
  have hone : ∀ r : Relation × Nat, valuesIn "Relationship" "Id"
      [References.relationXml (r.2 + 1) r.1] = [relationId (r.2 + 1)] := by
    intro r
    rw [References.relationXml]
    split_ifs <;> rfl
  rw [h, valuesIn_allAsRead, References.xml, valuesIn_element (by decide),
    List.mapIdx_eq_zipIdx_map, valuesIn_map hone, List.range_eq_range',
    ← List.zipIdx_map_snd 0 refs.relations, List.map_map]
  rfl

lemma nodup_ids (h : [rels] = allAsRead [refs.xml]) :
    (valuesIn "Relationship" "Id" [rels]).Nodup := by
  rw [ids_relations h]
  refine List.Nodup.map (fun m n heq => ?_) List.nodup_range
  have hsucc := relationId_inj.mp heq
  omega

lemma exists_isRelation (n : Nat) (r : Relation) :
    ∃ t, (References.relationXml n r).tags = [t] ∧
      IsRelation t.asRead (relationId n) r.kind r.target := by
  refine ⟨_, rfl, rfl, ?_, ?_, ?_⟩
  all_goals simp [Tag.asRead, Attribute.asRead]

/-- The elements of the relations stand for the relations. -/
lemma relation_of_mem (h : [rels] = allAsRead [refs.xml]) {t : Tag} (ht : t ∈ tagsOf [rels])
    (hname : t.name = "Relationship") :
    ∃ n r, refs.relations[n]? = some r ∧ IsRelation t (relationId (n + 1)) r.kind r.target := by
  rw [h, tagsOf_allAsRead] at ht
  obtain ⟨printed, hprinted, rfl⟩ := List.mem_map.mp ht
  obtain ⟨x, hx, htag⟩ := mem_tagsOf.mp hprinted
  rw [List.mem_singleton.mp hx, References.xml, Xml.tags, List.mem_cons] at htag
  rcases htag with rfl | htag
  · exact absurd hname (by simp [Tag.asRead])
  · obtain ⟨relation, hrelation, htag⟩ := mem_tagsOf.mp htag
    obtain ⟨n, hn, rfl⟩ := List.mem_mapIdx.mp hrelation
    obtain ⟨tag, htags, hrelates⟩ := exists_isRelation (n + 1) refs.relations[n]
    rw [htags, List.mem_singleton] at htag
    subst htag
    exact ⟨n, refs.relations[n], List.getElem?_eq_getElem hn, hrelates⟩

lemma relatesIn_of_leads (h : [rels] = allAsRead [refs.xml]) {id target : String}
    {kind : RelationKind} (hleads : refs.Leads id kind target) : RelatesIn rels id kind target := by
  obtain ⟨n, rfl, hn⟩ := hleads
  obtain ⟨hlength, hget⟩ := List.getElem?_eq_some_iff.mp hn
  obtain ⟨t, htags, hrelates⟩ := exists_isRelation (n + 1) ⟨kind, target⟩
  refine ⟨t.asRead, ?_, hrelates⟩
  have hrelation : References.relationXml (n + 1) ⟨kind, target⟩ ∈
      refs.relations.mapIdx fun i relation => References.relationXml (i + 1) relation :=
    List.mem_mapIdx.mpr ⟨n, hlength, by rw [hget]⟩
  rw [h, tagsOf_allAsRead]
  refine List.mem_map_of_mem (mem_tagsOf.mpr ⟨refs.xml, List.mem_singleton_self _, ?_⟩)
  rw [References.xml, Xml.tags]
  exact List.mem_cons_of_mem _ (mem_tagsOf.mpr ⟨_, hrelation, by rw [htags]; simp⟩)

end Relations

/-! ## The content types -/

section ContentTypes

variable {p : Package} {types : Xml}

lemma areSound_contentTypes (p : Package) : AreSound areNames [p.contentTypes] := by
  have hdefault (extension type : String) :
      AreSound areNames [Package.defaultType extension type] := by
    refine areSound_empty.mpr ?_
    simp
    decide
  have hoverride (part : String × String) : AreSound areNames [Package.overrideType part] := by
    refine areSound_empty.mpr ?_
    simp
    decide
  refine areSound_element.mpr ⟨by simp; decide, areSound_iff_forall.mpr fun x hx => ?_⟩
  simp only [List.cons_append, List.mem_cons, List.mem_append, List.mem_map] at hx
  rcases hx with rfl | rfl | ⟨f, -, rfl⟩ | ⟨part, -, rfl⟩
  · exact hdefault _ _
  · exact hdefault _ _
  · exact hdefault _ _
  · exact hoverride part

/-- What a package covers is in the list of content types. -/
lemma mem_contentTypes_of_covers (h : [types] = allAsRead [p.contentTypes]) {name : String}
    (hcovers : p.Covers name) : "/" ++ name ∈ valuesIn "Override" "PartName" [types] ∨
      extensionOf name ∈ valuesIn "Default" "Extension" [types] := by
  have hmem {x : Xml} {t : Tag} (hx : x ∈ Package.defaultType "rels" relationsType ::
      Package.defaultType "xml" "application/xml" ::
        p.formats.map (fun f => Package.defaultType f.extension f.mediaType) ++
          p.overrides.map Package.overrideType) (ht : t ∈ x.tags) :
      t ∈ tagsOf [p.contentTypes] := by
    refine mem_tagsOf.mpr ⟨_, List.mem_singleton_self _, ?_⟩
    rw [Package.contentTypes, Xml.tags]
    exact List.mem_cons_of_mem _ (mem_tagsOf.mpr ⟨x, hx, ht⟩)
  simp only [h, valuesIn_allAsRead]
  rcases hcovers with hcovers | hcovers
  · obtain ⟨part, hpart, hname⟩ := List.mem_map.mp hcovers
    refine Or.inl (mem_valuesIn.mpr ⟨_, hmem (List.mem_append_right _
      (List.mem_map_of_mem hpart)) (List.mem_singleton_self _), rfl, ?_⟩)
    exact ⟨_, List.mem_cons_self, rfl, hname⟩
  · rcases List.mem_cons.mp hcovers with hcovers | hcovers
    · refine Or.inr (mem_valuesIn.mpr ⟨_, hmem (List.mem_append_left _ List.mem_cons_self)
        (List.mem_singleton_self _), rfl, ?_⟩)
      exact ⟨_, List.mem_cons_self, rfl, hcovers.symm⟩
    · obtain ⟨format, hformat, hname⟩ := List.mem_map.mp hcovers
      refine Or.inr (mem_valuesIn.mpr ⟨_, hmem (List.mem_append_left _ (List.mem_cons_of_mem _
        (List.mem_cons_of_mem _ (List.mem_map_of_mem hformat)))) (List.mem_singleton_self _),
        rfl, ?_⟩)
      exact ⟨_, List.mem_cons_self, rfl, hname⟩

end ContentTypes

/-! ## Pictures -/

lemma mediaIn_append (before after : List Entry) :
    mediaIn (before ++ after) = mediaIn before ++ mediaIn after := List.filter_append ..

lemma mediaIn_footerEntries (number : Nat) (sections : List Section) :
    mediaIn (footerEntries number sections) = [] := by
  rw [mediaIn, List.filter_eq_nil_iff]
  intro e he
  obtain ⟨s, -, rfl⟩ := List.mem_map.mp he
  simp [Entry.isMedia]

lemma mediaIn_mediaEntries (number : Nat) (media : List Media) :
    mediaIn (mediaEntries number media) = mediaEntries number media := by
  rw [mediaIn, List.filter_eq_self]
  intro e he
  obtain ⟨m, -, rfl⟩ := List.mem_map.mp he
  rfl

lemma contents_mediaEntries (number : Nat) (media : List Media) :
    (mediaEntries number media).map Entry.content = media.map fun m => .bytes m.data := by
  rw [mediaEntries, List.map_map]
  conv_rhs => rw [← List.zipIdx_map_fst number media, List.map_map]
  rfl

/-- Nothing but pictures is not text. -/
lemma mediaIn_entries (d : Document) (body : Xml) (refs : References) (p : Package) :
    mediaIn (d.entries body refs ++ lastEntries p) = mediaEntries 1 refs.media := by
  have htext (name text : String) : mediaIn [⟨name, .text text⟩] = [] := rfl
  have hlast : mediaIn (lastEntries p) = [] := rfl
  simp only [Document.entries, mediaIn_append, htext, hlast, mediaIn_footerEntries,
    mediaIn_mediaEntries, List.nil_append, List.append_nil]

/-! ## Targets -/

/-- The footers of a document are among its entries. -/
lemma exists_footer (d : Document) (body : Xml) (refs : References) {n : Nat} (hn : 1 ≤ n)
    (hlast : n ≤ d.sections.length) :
    ∃ e ∈ d.entries body refs, e.name = "word/" ++ footerName n := by
  have hname : "word/" ++ footerName n ∈ (footerEntries 1 d.sections).map Entry.name := by
    rw [names_footerEntries]
    exact List.mem_map_of_mem (List.mem_range'_1.mpr ⟨hn, by omega⟩)
  obtain ⟨e, he, hename⟩ := List.mem_map.mp hname
  exact ⟨e, by simp [Document.entries, he], hename⟩

/-- So are its pictures. -/
lemma exists_picture (d : Document) (body : Xml) {refs : References} {n : Nat} {m : Media}
    (h : refs.media[n]? = some m) :
    ∃ e ∈ d.entries body refs, e.name = "word/" ++ mediaTarget (n + 1) m.format := by
  let e : Entry := ⟨"word/media/" ++ mediaName (n + 1) m.format, .bytes m.data⟩
  have hmem : e ∈ mediaEntries 1 refs.media := by
    refine List.mem_map.mpr ⟨(m, n + 1), ?_, rfl⟩
    rw [List.mk_mem_zipIdx_iff_le_and_getElem?_sub]
    exact ⟨by omega, by simpa using h⟩
  refine ⟨e, by simp [Document.entries, hmem], ?_⟩
  rw [mediaTarget, ← String.append_assoc]
  rfl

/-- Whatever is referred to and is no link is an entry. -/
lemma exists_target (d : Document) (body : Xml) {refs : References} {r : Relation}
    (h : r ∈ References.initial.relations ∨
      IsSettled (fun s => ∃ n, 1 ≤ n ∧ n ≤ d.sections.length ∧ s = footerName n) refs.media r) :
    r.kind = .hyperlink ∨ ∃ e ∈ d.entries body refs, e.name = "word/" ++ r.target := by
  rcases h with h | hlink | ⟨-, n, hn, hlast, htarget⟩ | ⟨n, m, hm, rfl⟩
  · have hinitial : r ∈ [⟨.styles, "styles.xml"⟩, ⟨.numbering, "numbering.xml"⟩,
      ⟨.settings, "settings.xml"⟩] := h
    simp only [List.mem_cons, List.not_mem_nil, or_false] at hinitial
    rcases hinitial with rfl | rfl | rfl
    · exact Or.inr ⟨⟨"word/styles.xml", .text (Xml.part (stylesXml d.styles))⟩,
        by simp [Document.entries], rfl⟩
    · exact Or.inr ⟨⟨"word/numbering.xml", .text (Xml.part (numberingXml d.definitions))⟩,
        by simp [Document.entries], rfl⟩
    · exact Or.inr ⟨⟨"word/settings.xml", .text (Xml.part (settingsXml d))⟩,
        by simp [Document.entries], rfl⟩
  · exact Or.inl hlink
  · rw [htarget]
    exact Or.inr (exists_footer d body refs hn hlast)
  · exact Or.inr (exists_picture d body hm)

/-! ## The text -/

section Text

variable {F : String → Prop} {is : List Inline} {refs : References} {xs : List Xml}
  {body rels : Xml}

/-- Every reference in a text leads to a relation of its kind. -/
lemma references_lead (hwrites : Writes (fun _ => True) F is .initial xs refs)
    (hsound : AreSound bodyRule [.element "w:document" namespaces xs])
    (hbody : [body] = allAsRead [.element "w:document" namespaces xs])
    (hrels : [rels] = allAsRead [refs.xml]) {t : Tag} {a : Attribute} (ht : t ∈ tagsOf [body])
    (ha : a ∈ t.attributes) (hkey : a.name ∈ referenceKeys) :
    ∃ kind target, referenceKind? t.name a.name = some kind ∧
      RelatesIn rels a.value kind target := by
  rw [hbody, tagsOf_allAsRead] at ht
  obtain ⟨printed, hprinted, rfl⟩ := List.mem_map.mp ht
  obtain ⟨b, hb, rfl⟩ := List.mem_map.mp ha
  have hrule := (hsound printed hprinted).names
  obtain ⟨kind, hkind⟩ := exists_referenceKind_of_bodyRule hrule (List.mem_map_of_mem hb) hkey
  have hreference : (kind, b.value) ∈ referencesIn xs := by
    have hmem := mem_referencesIn hprinted hb hkind
    rwa [referencesIn_element, tagReferences_eq_nil (by decide)] at hmem
  obtain ⟨target, hleads⟩ := leads_of_writes hwrites _ hreference
  exact ⟨kind, target, hkind, relatesIn_of_leads hrels hleads⟩

/-- The references to pictures lead to them in the order in which they are drawn. -/
lemma embeds_lead (hdraws : Draws (picturesIn is) .initial xs refs)
    (hbody : [body] = allAsRead [.element "w:document" namespaces xs])
    (hrels : [rels] = allAsRead [refs.xml]) :
    List.Forall₂
      (fun id e => ∃ target, RelatesIn rels id .image target ∧ e.name = "word/" ++ target)
      (valuesIn "a:blip" "r:embed" [body]) (mediaEntries 1 refs.media) := by
  have hmedia : refs.media = (picturesIn is).map Picture.media := hdraws.media
  rw [hmedia, mediaEntries, List.zipIdx_map, List.map_map, List.forall₂_map_right_iff, hbody,
    valuesIn_allAsRead, valuesIn_element (by decide)]
  refine (hdraws.embeds.imp fun q id hleads => ?_).flip
  refine ⟨_, relatesIn_of_leads hrels hleads, ?_⟩
  rw [mediaTarget, ← String.append_assoc]
  rfl

/-- Pictures are numbered in the order in which they are drawn. -/
lemma nodup_drawings (hdraws : Draws (picturesIn is) .initial xs refs)
    (hbody : [body] = allAsRead [.element "w:document" namespaces xs]) :
    (valuesIn "wp:docPr" "id" [body]).Nodup := by
  rw [hbody, valuesIn_allAsRead, valuesIn_element (by decide), hdraws.numbers]
  have hnumbers : ((picturesIn is).zipIdx 1).map (fun q => toString q.2)
      = (List.range' 1 (picturesIn is).length).map toString := by
    rw [← List.zipIdx_map_snd 1 (picturesIn is), List.map_map]
    rfl
  exact hnumbers ▸ List.Nodup.map (fun m n => toString_inj.mp) (List.nodup_range' 1)

end Text

/-! ## The whole package -/

/-- The package of a document is intact, as long as the colours and languages of its runs, which
are written as they are, hold no markup. -/
theorem package_isIntact (d : Document) (hsafe : ∀ i ∈ d.inlines, i.IsSafe) :
    ∃ entries body rels types, d.package = .ok entries ∧
      IsIntact (picturesIn d.inlines) entries body rels types := by
  let isFooter (s : String) : Prop := ∃ n, 1 ≤ n ∧ n ≤ d.sections.length ∧ s = footerName n
  obtain ⟨xs, hbody, hwrites⟩ : ∃ xs, ((bodyXml d).run .initial).1 = _ ∧
      Writes (fun _ => True) isFooter d.inlines .initial xs ((bodyXml d).run .initial).2 :=
    writes_body (fun _ _ => trivial) (fun n hn hlast => ⟨n, hn, hlast, rfl⟩) .initial
  obtain ⟨refs, hrefs⟩ : ∃ refs, refs = ((bodyXml d).run .initial).2 := ⟨_, rfl⟩
  rw [← hrefs] at hwrites
  have hrun : (bodyXml d).run .initial = (.element "w:document" namespaces xs, refs) :=
    Prod.ext hbody hrefs.symm
  obtain ⟨p, hpackage, hcovers⟩ := exists_package d hrun
  -- The three parts are read as they were printed.
  have hsound : AreSound bodyRule [.element "w:document" namespaces xs] :=
    areSound_element.mpr ⟨by simp [namespaces]; decide, areSound_of_writes hwrites hsafe⟩
  obtain ⟨body, hread, htree⟩ := exists_readPart? hsound fun _ _ => areNames_of_bodyRule
  obtain ⟨rels, hreadRels, hrels⟩ := exists_readPart? (areSound_relations refs) fun _ _ => id
  obtain ⟨types, hreadTypes, htypes⟩ := exists_readPart? (areSound_contentTypes p) fun _ _ => id
  have hdraws := draws_of_writes hwrites
  refine ⟨_, body, rels, types, hpackage, ?_⟩
  constructor
  case document => exact ⟨_, by simp [Document.entries], hread⟩
  case relations => exact ⟨Xml.part refs.xml, by simp [Document.entries], hreadRels⟩
  case contentTypes => exact ⟨Xml.part p.contentTypes, by simp [lastEntries], hreadTypes⟩
  case names => exact nodup_entryNames d _ refs p
  case ids => exact nodup_ids hrels
  case references =>
    exact fun t ht a ha hkey => references_lead hwrites hsound htree hrels ht ha hkey
  case targets =>
    intro t ht hname
    obtain ⟨n, r, hr, hrelates⟩ := relation_of_mem hrels ht hname
    have hmem : r ∈ refs.relations := List.mem_of_getElem? hr
    refine ⟨_, _, _, hrelates, ?_⟩
    rcases exists_target d (.element "w:document" namespaces xs)
      (relation_of_writes hwrites r hmem) with hlink | ⟨e, he, hentry⟩
    · exact Or.inl hlink
    · exact Or.inr ⟨e, List.mem_append_left _ he, hentry⟩
  case media =>
    rw [mediaIn_entries, contents_mediaEntries, hdraws.media, List.map_append, List.map_map]
    rfl
  case embeds =>
    rw [mediaIn_entries]
    exact embeds_lead hdraws htree hrels
  case types =>
    intro e he
    exact (hcovers e he).imp id (mem_contentTypes_of_covers htypes)
  case drawings => exact nodup_drawings hdraws htree

/-- Two sections; a coloured link beside a picture, and a picture in a table. -/
def illustratedDocument : Document :=
  let link : Inline := .link (.external "https://a.org/?q=1&r=2")
    [{ content := .text "a", format := { color := some "FF0000", language := some "en-US" } }]
  let first : Picture := ⟨ImageFormat.pngSignature, .png, 1, 2, ""⟩
  let second : Picture := ⟨ImageFormat.jpegSignature, .jpeg, 3, 4, ""⟩
  { before := [{ blocks := [.paragraph { inlines := [link, .picture first] }] }]
    current := { blocks := [.table 9354 1 [[[.paragraph { inlines := [.picture second] }]]]] } }

/-- The package of a document with links and pictures. -/
theorem package_isIntact_illustratedDocument :
    (picturesIn illustratedDocument.inlines).length = 2 ∧
      ∃ entries body rels types, illustratedDocument.package = .ok entries ∧
        IsIntact (picturesIn illustratedDocument.inlines) entries body rels types := by
  refine ⟨rfl, package_isIntact illustratedDocument fun i hi r hr => ?_⟩
  have hruns : illustratedDocument.inlines.flatMap Inline.runs =
      [⟨.text "a", { color := some "FF0000", language := some "en-US" }, false⟩] := rfl
  have hmem := List.mem_flatMap.mpr ⟨i, hi, hr⟩
  rw [hruns, List.mem_singleton] at hmem
  subst hmem
  constructor
  · rintro color ⟨⟩
    decide
  · rintro language ⟨⟩
    decide

end ReportPress.Word
