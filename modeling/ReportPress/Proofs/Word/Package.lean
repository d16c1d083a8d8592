import Mathlib.Data.List.Nodup
import ReportPress.Proofs.Word.References

/-!
# Filling a package

A document is written as a package of named entries.  Here is which entries these are, and that
the package always takes them.

* `extensionOf` — the extension of the name of an entry.
* `Package.Covers` — the list of content types will say what an entry with a name is.
* `Package.Grows` — a package with some entries more, all of which it covers.
* `Adds` — work on a package that adds some entries, as long as their names are new.
* `Document.entries` — the entries of a document, but for the two that every package ends with.

**Names.**  Footers and pictures are numbered, so all names differ (`nodup_entryNames`).

**Filling.**  `adds_entries` puts the additions together, and `exists_package` finishes the package.
-/

namespace ReportPress.Word

/-! ## Numbers in names -/

lemma toString_inj {m n : Nat} : toString m = toString n ↔ m = n := by
  refine ⟨fun h => ?_, congrArg toString⟩
  have hdigits := congrArg String.toList h
  simp only [Nat.toString_eq_ofList_toDigits, String.toList_ofList] at hdigits
  calc m = Nat.ofDigitChars 10 (Nat.toDigits 10 m) 0 := Nat.ofDigitChars_ten_toDigits.symm
    _ = Nat.ofDigitChars 10 (Nat.toDigits 10 n) 0 := by rw [hdigits]
    _ = n := Nat.ofDigitChars_ten_toDigits

lemma relationId_inj {m n : Nat} : relationId m = relationId n ↔ m = n := by
  rw [relationId, relationId, String.append_right_inj, toString_inj]

lemma footerName_inj {m n : Nat} : footerName m = footerName n ↔ m = n := by
  rw [footerName, footerName, String.append_left_inj, String.append_right_inj, toString_inj]

lemma dot_not_mem_toString (n : Nat) : '.' ∉ (toString n).toList := by
  intro h
  rw [Nat.toString_eq_ofList_toDigits, String.toList_ofList] at h
  have hdigit := Nat.isDigit_of_mem_toDigits (by omega) (by omega) h
  exact absurd hdigit (by decide)

lemma dot_not_mem_extension (f : ImageFormat) : '.' ∉ f.extension.toList := by
  cases f <;> decide

/-- The number of a picture can be read off the name of its file. -/
lemma eq_of_mediaName_eq {m n : Nat} {f g : ImageFormat} (h : mediaName m f = mediaName n g) :
    m = n := by
  have hlist := congrArg String.toList h
  have hdot : ".".toList = ['.'] := rfl
  simp only [mediaName, String.toList_append, List.append_assoc, hdot, List.singleton_append]
    at hlist
  have hrest := List.append_cancel_left hlist
  rw [List.append_cons_inj_of_notMem (dot_not_mem_toString m) (dot_not_mem_extension f)] at hrest
  exact toString_inj.mp (String.toList_inj.mp hrest.1)

/-! ## Extensions -/

/-- The extension of the name of an entry: what stands behind its last point. -/
def extensionOf (name : String) : String :=
  String.ofList (name.toList.reverse.takeWhile (· ≠ '.')).reverse

lemma extensionOf_append (stem : String) {extension : String} (h : '.' ∉ extension.toList) :
    extensionOf (stem ++ "." ++ extension) = extension := by
  have hdot : ".".toList = ['.'] := rfl
  have htake : (extension.toList.reverse ++ '.' :: stem.toList.reverse).takeWhile (· ≠ '.')
      = extension.toList.reverse := by
    rw [List.takeWhile_append_of_pos]
    · simp
    · intro c hc
      rw [decide_eq_true_eq]
      rintro rfl
      exact h (List.mem_reverse.mp hc)
  rw [extensionOf, String.toList_append, String.toList_append, hdot, List.reverse_append,
    List.reverse_append, List.reverse_singleton, List.singleton_append, htake, List.reverse_reverse,
    String.ofList_toList]

/-! ## Packages that grow -/

namespace Package

/-- The names of the entries. -/
def names (p : Package) : List String := p.entries.map Entry.name

/-- The list of content types will say what an entry with the name is, by its name or by its
extension. -/
def Covers (p : Package) (name : String) : Prop :=
  "/" ++ name ∈ p.overrides.map Prod.fst ∨
    extensionOf name ∈ "rels" :: p.formats.map ImageFormat.extension

/-- A package with some entries more.  What it covered it still covers, and the new entries too. -/
structure Grows (p : Package) (added : List Entry) (p' : Package) : Prop where
  entries : p'.entries = p.entries ++ added
  overrides : p.overrides ⊆ p'.overrides
  formats : p.formats ⊆ p'.formats
  covers : ∀ e ∈ added, p'.Covers e.name

variable {p middle p' : Package} {before added : List Entry}

lemma Covers.mono {name : String} (h : p.Covers name) (hoverrides : p.overrides ⊆ p'.overrides)
    (hformats : p.formats ⊆ p'.formats) : p'.Covers name := by
  rcases h with h | h
  · exact Or.inl (List.map_subset _ hoverrides h)
  · exact Or.inr (List.cons_subset_cons _ (List.map_subset _ hformats) h)

lemma Grows.refl (p : Package) : p.Grows [] p :=
  ⟨(List.append_nil _).symm, List.Subset.refl _, List.Subset.refl _, by simp⟩

lemma Grows.trans (h : p.Grows before middle) (h' : middle.Grows added p') :
    p.Grows (before ++ added) p' := by
  refine ⟨?_, List.Subset.trans h.overrides h'.overrides, List.Subset.trans h.formats h'.formats,
    fun e he => ?_⟩
  · rw [h'.entries, h.entries, List.append_assoc]
  · rcases List.mem_append.mp he with he | he
    · exact (h.covers e he).mono h'.overrides h'.formats
    · exact h'.covers e he

lemma add_eq_ok {name : String} {content : Content} (h : name ∉ p.names) :
    p.add name content = .ok { p with entries := p.entries ++ [⟨name, content⟩] } := by
  have hany : (p.entries.any fun e => e.name = name) = false := by
    rw [List.any_eq_false]
    intro e he
    rw [decide_eq_true_eq]
    rintro rfl
    exact h (List.mem_map_of_mem he)
  rw [add, hany]
  rfl

end Package

/-! ## Work that adds entries -/

/-- Work on a package that adds some entries if no two names are the same then. -/
def Adds (work : Package → Except DuplicateEntry Package) (added : List Entry) : Prop :=
  ∀ p : Package, (p.names ++ added.map Entry.name).Nodup →
    ∃ p', work p = .ok p' ∧ p.Grows added p'

section Adds

variable {work more : Package → Except DuplicateEntry Package} {before added : List Entry}
  {name type text : String} {format : ImageFormat} {data : Bytes}

lemma Adds.bind (h : Adds work before) (hmore : Adds more added) :
    Adds (fun p => work p >>= more) (before ++ added) := by
  intro p hnodup
  rw [List.map_append, ← List.append_assoc] at hnodup
  obtain ⟨middle, hwork, hmiddle⟩ := h p (List.nodup_append.mp hnodup).1
  have hnames : middle.names = p.names ++ before.map Entry.name := by
    rw [Package.names, hmiddle.entries, List.map_append, ← Package.names]
  obtain ⟨p', hmore, hp'⟩ := hmore middle (by rwa [hnames])
  refine ⟨p', ?_, hmiddle.trans hp'⟩
  show work p >>= more = _
  rw [hwork]
  exact hmore

/-- A name is new if all names differ once it is there. -/
lemma not_mem_of_nodup_concat {names : List String} (h : (names ++ [name]).Nodup) :
    name ∉ names := fun hmem => (List.nodup_append.mp h).2.2 name hmem name (by simp) rfl

lemma adds_nil : Adds .ok [] := fun p _ => ⟨p, rfl, .refl p⟩

lemma adds_part : Adds (fun p => p.addPart name type text) [⟨name, .text text⟩] := by
  intro p hnodup
  refine ⟨{ p with
    entries := p.entries ++ [⟨name, .text text⟩]
    overrides := p.overrides ++ [("/" ++ name, type)] }, ?_, rfl, ?_, ?_, ?_⟩
  · show p.addPart name type text = _
    rw [Package.addPart, Package.add_eq_ok (not_mem_of_nodup_concat hnodup)]
    rfl
  · exact List.subset_append_left _ _
  · exact List.Subset.refl _
  · intro e he
    rw [List.mem_singleton.mp he]
    exact Or.inl (by simp)

lemma adds_relations (h : extensionOf name = "rels") :
    Adds (fun p => p.addRelations name text) [⟨name, .text text⟩] := by
  intro p hnodup
  refine ⟨_, Package.add_eq_ok (not_mem_of_nodup_concat hnodup), rfl, ?_, ?_, ?_⟩
  · exact List.Subset.refl _
  · exact List.Subset.refl _
  · intro e he
    rw [List.mem_singleton.mp he]
    exact Or.inr (by simp [h])

lemma adds_media (h : extensionOf name = format.extension) :
    Adds (fun p => p.addMedia name format data) [⟨name, .bytes data⟩] := by
  intro p hnodup
  let p' : Package := { p with entries := p.entries ++ [⟨name, .bytes data⟩] }
  have hrun : p.addMedia name format data
      = .ok (if p.formats.contains format then p'
        else { p' with formats := p.formats ++ [format] }) := by
    rw [Package.addMedia, Package.add_eq_ok (not_mem_of_nodup_concat hnodup)]
    rfl
  show ∃ p', p.addMedia name format data = .ok p' ∧ _
  rw [hrun]
  by_cases hformat : format ∈ p.formats
  · refine ⟨p', by simp [hformat], rfl, List.Subset.refl _, List.Subset.refl _, ?_⟩
    intro e he
    rw [List.mem_singleton.mp he]
    exact Or.inr (List.mem_cons_of_mem _ (h ▸ List.mem_map_of_mem hformat))
  · refine ⟨{ p' with formats := p.formats ++ [format] }, by simp [hformat], rfl,
      List.Subset.refl _, List.subset_append_left _ _, ?_⟩
    intro e he
    rw [List.mem_singleton.mp he]
    exact Or.inr (by simp [h])

end Adds

/-! ## The entries of a document -/

/-- The footers of sections, the first of which has the given number. -/
def footerEntries (number : Nat) (sections : List Section) : List Entry :=
  (sections.zipIdx number).map fun s =>
    ⟨"word/" ++ footerName s.2, .text (Xml.part (footerXml s.1))⟩

/-- The files of pictures, the first of which has the given number. -/
def mediaEntries (number : Nat) (media : List Media) : List Entry :=
  (media.zipIdx number).map fun m => ⟨"word/media/" ++ mediaName m.2 m.1.format, .bytes m.1.data⟩

/-- The entries of a document with its text and what that refers to, but for the list of content
types and the relations of the package. -/
def Document.entries (d : Document) (body : Xml) (refs : References) : List Entry :=
  [⟨"word/document.xml", .text (Xml.part body)⟩] ++
  ([⟨"word/_rels/document.xml.rels", .text (Xml.part refs.xml)⟩] ++
  ([⟨"word/styles.xml", .text (Xml.part (stylesXml d.styles))⟩] ++
  ([⟨"word/numbering.xml", .text (Xml.part (numberingXml d.definitions))⟩] ++
  ([⟨"word/settings.xml", .text (Xml.part (settingsXml d))⟩] ++
  (footerEntries 1 d.sections ++ (mediaEntries 1 refs.media ++
  ([⟨"docProps/core.xml", .text (Xml.part d.properties.coreXml)⟩] ++
  [⟨"docProps/app.xml", .text (Xml.part d.properties.appXml)⟩])))))))

lemma adds_footers : ∀ (number : Nat) (sections : List Section),
    Adds (fun p => addFooters number p sections) (footerEntries number sections)
  | _, [] => adds_nil
  | number, _ :: rest => adds_part.bind (adds_footers (number + 1) rest)

lemma extensionOf_mediaName (number : Nat) (format : ImageFormat) :
    extensionOf ("word/media/" ++ mediaName number format) = format.extension := by
  rw [mediaName, ← String.append_assoc, ← String.append_assoc]
  exact extensionOf_append _ (dot_not_mem_extension format)

lemma adds_pictures : ∀ (number : Nat) (media : List Media),
    Adds (fun p => addPictures number p media) (mediaEntries number media)
  | _, [] => adds_nil
  | number, m :: rest =>
      (adds_media (extensionOf_mediaName number m.format)).bind (adds_pictures (number + 1) rest)

/-! ### All names differ -/

lemma names_footerEntries (number : Nat) (sections : List Section) :
    (footerEntries number sections).map Entry.name
      = (List.range' number sections.length).map fun n => "word/" ++ footerName n := by
  rw [footerEntries, List.map_map, ← List.zipIdx_map_snd number sections, List.map_map]
  rfl

lemma nodup_footerEntries (number : Nat) (sections : List Section) :
    ((footerEntries number sections).map Entry.name).Nodup := by
  rw [names_footerEntries]
  refine List.Nodup.map ?_ (List.nodup_range' 1)
  intro m n h
  rw [String.append_right_inj, footerName_inj] at h
  exact h

lemma nodup_mediaEntries (number : Nat) (media : List Media) :
    ((mediaEntries number media).map Entry.name).Nodup := by
  rw [mediaEntries, List.map_map]
  have hnumbers : ((media.zipIdx number).map Prod.snd).Nodup := by
    rw [List.zipIdx_map_snd]
    exact List.nodup_range' 1
  refine List.Nodup.map_on ?_ (List.Nodup.of_map _ hnumbers)
  intro m hm n hn h
  have hnumber : m.2 = n.2 := eq_of_mediaName_eq ((String.append_right_inj _).mp h)
  exact List.inj_on_of_nodup_map hnumbers hm hn hnumber

/-- The entries that every package ends with, for the packages that they are added to. -/
def lastEntries (p : Package) : List Entry :=
  [⟨"_rels/.rels", .text (Xml.part Package.rootRelations)⟩,
    ⟨"[Content_Types].xml", .text (Xml.part p.contentTypes)⟩]

lemma nodup_entryNames (d : Document) (body : Xml) (refs : References) (p : Package) :
    ((d.entries body refs ++ lastEntries p).map Entry.name).Nodup := by
  let front := ["word/document.xml", "word/_rels/document.xml.rels", "word/styles.xml",
    "word/numbering.xml", "word/settings.xml"]
  let back := ["docProps/core.xml", "docProps/app.xml", "_rels/.rels", "[Content_Types].xml"]
  let footers := (footerEntries 1 d.sections).map Entry.name
  let pictures := (mediaEntries 1 refs.media).map Entry.name
  have hnames : (d.entries body refs ++ lastEntries p).map Entry.name
      = front ++ (footers ++ (pictures ++ back)) := by
    simp [Document.entries, lastEntries, front, back, footers, pictures]
  -- The first six characters tell footers and pictures from each other and from the rest.
  have hfooters : ∀ name ∈ footers, name.toList.take 6 = "word/f".toList := by
    intro name hname
    rw [show footers = _ from names_footerEntries 1 d.sections] at hname
    obtain ⟨n, -, rfl⟩ := List.mem_map.mp hname
    rw [footerName, String.toList_append, String.toList_append, String.toList_append]
    rfl
  have hpictures : ∀ name ∈ pictures, name.toList.take 6 = "word/m".toList := by
    intro name hname
    obtain ⟨e, he, rfl⟩ := List.mem_map.mp hname
    obtain ⟨m, -, rfl⟩ := List.mem_map.mp he
    rw [String.toList_append]
    rfl
  have hfixed : ∀ name ∈ front ++ back, name.toList.take 6 ≠ "word/f".toList ∧
      name.toList.take 6 ≠ "word/m".toList := by decide
  have hdisjoint : ∀ a ∈ front, ∀ b ∈ back, a ≠ b := by decide
  rw [hnames]
  simp only [List.nodup_append, List.mem_append]
  refine ⟨by decide, ⟨nodup_footerEntries 1 _, ⟨nodup_mediaEntries 1 _, by decide, ?_⟩, ?_⟩, ?_⟩
  · rintro a ha b hb rfl
    exact (hfixed a (List.mem_append_right _ hb)).2 (hpictures a ha)
  · rintro a ha b (hb | hb) rfl
    · exact absurd ((hfooters a ha).symm.trans (hpictures a hb)) (by decide)
    · exact (hfixed a (List.mem_append_right _ hb)).1 (hfooters a ha)
  · rintro a ha b (hb | hb | hb) rfl
    · exact (hfixed a (List.mem_append_left _ ha)).1 (hfooters a hb)
    · exact (hfixed a (List.mem_append_left _ ha)).2 (hpictures a hb)
    · exact hdisjoint a ha a hb rfl

/-! ## The whole package -/

/-- The entries of a document are added to a package. -/
def Document.fill (d : Document) (body : Xml) (refs : References) (p : Package) :
    Except DuplicateEntry Package := do
  let p ← p.addPart "word/document.xml" PartType.document.name (Xml.part body)
  let p ← p.addRelations "word/_rels/document.xml.rels" (Xml.part refs.xml)
  let p ← p.addPart "word/styles.xml" PartType.styles.name (Xml.part (stylesXml d.styles))
  let p ← p.addPart "word/numbering.xml" PartType.numbering.name
    (Xml.part (numberingXml d.definitions))
  let p ← p.addPart "word/settings.xml" PartType.settings.name (Xml.part (settingsXml d))
  let p ← addFooters 1 p d.sections
  let p ← addPictures 1 p refs.media
  let p ← p.addPart "docProps/core.xml" PartType.coreProperties.name
    (Xml.part d.properties.coreXml)
  p.addPart "docProps/app.xml" PartType.extendedProperties.name (Xml.part d.properties.appXml)

lemma package_eq_fill {d : Document} {body : Xml} {refs : References}
    (hbody : (bodyXml d).run .initial = (body, refs)) :
    d.package = d.fill body refs {} >>= Package.finish := by
  rw [Document.package, hbody]
  simp only [Document.fill, bind_assoc]

lemma adds_entries (d : Document) (body : Xml) (refs : References) :
    Adds (d.fill body refs) (d.entries body refs) :=
  adds_part.bind ((adds_relations rfl).bind (adds_part.bind (adds_part.bind (adds_part.bind
    ((adds_footers 1 d.sections).bind ((adds_pictures 1 refs.media).bind
      (adds_part.bind adds_part)))))))

lemma finish_eq_ok {p : Package} (h : (p.names ++ (lastEntries p).map Entry.name).Nodup) :
    ∃ p' : Package, p.finish = .ok (p.entries ++ lastEntries p') ∧
      p'.overrides = p.overrides ∧ p'.formats = p.formats := by
  let p' : Package := { p with
    entries := p.entries ++ [⟨"_rels/.rels", .text (Xml.part Package.rootRelations)⟩] }
  have hnames : p'.names = p.names ++ ["_rels/.rels"] := by simp [Package.names, p']
  have hlast : (lastEntries p).map Entry.name = ["_rels/.rels"] ++ ["[Content_Types].xml"] := rfl
  rw [hlast, ← List.append_assoc] at h
  have hfirst : "_rels/.rels" ∉ p.names :=
    not_mem_of_nodup_concat (List.nodup_append.mp h).1
  have hsecond : "[Content_Types].xml" ∉ p'.names := by
    rw [hnames]
    exact not_mem_of_nodup_concat h
  refine ⟨p', ?_, rfl, rfl⟩
  have hadd : p.add "_rels/.rels" (.text (Xml.part Package.rootRelations)) = .ok p' :=
    Package.add_eq_ok hfirst
  have hadd' : p'.add "[Content_Types].xml" (.text (Xml.part p'.contentTypes)) = .ok { p' with
      entries := p'.entries ++ [⟨"[Content_Types].xml", .text (Xml.part p'.contentTypes)⟩] } :=
    Package.add_eq_ok hsecond
  have hentries : p.entries ++ lastEntries p'
      = p'.entries ++ [⟨"[Content_Types].xml", .text (Xml.part p'.contentTypes)⟩] := by
    simp [p', lastEntries]
  rw [Package.finish, hadd, hentries]
  show (p'.add "[Content_Types].xml" (.text (Xml.part p'.contentTypes)) >>= _) = _
  rw [hadd']
  rfl

/-- The package of a document never fails.  Its last entry, the list of content types, covers all
others. -/
theorem exists_package (d : Document) {body : Xml} {refs : References}
    (hbody : (bodyXml d).run .initial = (body, refs)) :
    ∃ p : Package, d.package = .ok (d.entries body refs ++ lastEntries p) ∧
      ∀ e ∈ d.entries body refs ++ lastEntries p,
        e.name = "[Content_Types].xml" ∨ p.Covers e.name := by
  have hnodup (p : Package) := nodup_entryNames d body refs p
  simp only [List.map_append] at hnodup
  obtain ⟨filled, hfilled, hgrows⟩ := adds_entries d body refs {} (by
    simpa [Package.names] using (List.nodup_append.mp (hnodup {})).1)
  have hentries : filled.entries = d.entries body refs := by simpa using hgrows.entries
  obtain ⟨p, hfinish, hoverrides, hformats⟩ := finish_eq_ok (p := filled) (by
    rw [Package.names, hentries]
    exact hnodup filled)
  refine ⟨p, ?_, fun e he => ?_⟩
  · rw [package_eq_fill hbody, hfilled, ← hentries]
    exact hfinish
  · rcases List.mem_append.mp he with he | he
    · exact Or.inr ((hgrows.covers e he).mono (by simp [hoverrides]) (by simp [hformats]))
    · simp only [lastEntries, List.mem_cons, List.not_mem_nil, or_false] at he
      rcases he with rfl | rfl
      · exact Or.inr (Or.inr (List.mem_cons.mpr (Or.inl rfl)))
      · exact Or.inl rfl

end ReportPress.Word
