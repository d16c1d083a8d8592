import ReportPress.Compile
import ReportPress.Proofs.Enrich.Characters
import ReportPress.Proofs.Markup.Provenance
import ReportPress.Proofs.Typeset.BodyText
import ReportPress.Proofs.Word.Characters

/-!
# Which sources become packages that can be read

Texts of a source get into three parts of a package.  Escaping deals with the marks of XML, and
control characters have no escapes, so these go through as they are.

* `IsEscapable` — text without U+FFFE and U+FFFF.

**Placeholders.**  `isXmlText_placeholder` — the values for another document are printed as JSON,
which has escapes for control characters but leaves those two as they are.

**Stages.**  `isXmlText_of_readReport` is reading, and `isWithin_of_typesetRaw` and
`exists_readsAs_of_typesetRaw` are typesetting.

**Compiling.**  `readsAs_of_compile` says of each part exactly when it can be read, by what the
document holds, and that all of them can if the source consists of characters that XML allows.
`not_isReadable_of_control` is a source with a control character in its text.
-/

namespace ReportPress

open Text Typeset

/-! ## Placeholders -/

/-- Text that can be written once its control characters are escaped. -/
def IsEscapable (s : String) : Prop := ConsistsOf (fun c => c ≠ '\uFFFE' ∧ c ≠ '\uFFFF') s

instance : DecidablePred IsEscapable := fun s =>
  List.decidableBAll (fun c : Char => c ≠ '\uFFFE' ∧ c ≠ '\uFFFF') s.toList

lemma isXmlChar_of_escapable {c : Char} (hc : 0x20 ≤ c.toNat) (h : c ≠ '\uFFFE' ∧ c ≠ '\uFFFF') :
    isXmlChar c = true := by
  have hvalid : c.toNat < 0xD800 ∨ 0xDFFF < c.toNat ∧ c.toNat < 0x110000 := c.valid
  have hmark {d : Char} (hd : c ≠ d) : c.toNat ≠ d.toNat := fun e => hd (Char.toNat_inj.mp e)
  have hfirst : c.toNat ≠ 0xFFFE := hmark h.1
  have hlast : c.toNat ≠ 0xFFFF := hmark h.2
  rcases hvalid with hlow | ⟨hhigh, hbound⟩
  · exact isXmlChar_of_range (r := ⟨0x20, 0xD7FF⟩) (by decide) hc (Nat.le_of_lt_succ hlow)
  · by_cases hplane : c.toNat < 0xFFFE
    · exact isXmlChar_of_range (r := ⟨0xE000, 0xFFFD⟩) (by decide) hhigh
        (Nat.le_of_lt_succ hplane)
    · exact isXmlChar_of_range (r := ⟨0x10000, 0x10FFFF⟩) (by decide)
        (by show 0x10000 ≤ c.toNat; omega) (Nat.le_of_lt_succ hbound)

/-- Escaping leaves no control characters. -/
lemma isXmlChar_of_mem_escapeChar {c d : Char} (h : c ≠ '\uFFFE' ∧ c ≠ '\uFFFF')
    (hd : d ∈ Json.escapeChar c) : isXmlChar d = true := by
  have hdigit (n : Nat) : isXmlChar (Json.hexDigit n) = true := by
    have hall : ∀ n : Fin 16, isXmlChar (Nat.digitChar n.val) = true := by decide
    exact hall ⟨n % 16, Nat.mod_lt n (by omega)⟩
  have hmarks : ['\x22', '\\', 'b', 'f', 'n', 'r', 't', 'u', '0'].all isXmlChar = true := by
    decide
  simp only [List.all_cons, Bool.and_eq_true] at hmarks
  have hescaped : ∀ e ∈ Json.escapeChar c, isXmlChar e = true := by
    unfold Json.escapeChar
    split_ifs with _ _ _ _ _ _ _ hcontrol
    case neg => simpa using isXmlChar_of_escapable (Nat.le_of_not_lt hcontrol) h
    all_goals simp [hmarks, hdigit]
  exact hescaped d hd

lemma isXmlChar_of_mem_quote {s : String} (h : IsEscapable s) :
    ∀ c ∈ Json.quote s, isXmlChar c = true := by
  have hmark : isXmlChar '\x22' = true := by decide
  rw [Json.quote, List.cons_append, List.forall_mem_cons, List.forall_mem_append,
    List.forall_mem_flatMap]
  exact ⟨hmark, fun d hd c hc => isXmlChar_of_mem_escapeChar (h d hd) hc, by simpa using hmark⟩

/-- The members of an object of strings. -/
lemma isXmlChar_of_mem_renderMembers : ∀ {values : List (String × String)},
    (∀ m ∈ values, IsEscapable m.1 ∧ IsEscapable m.2) →
      ∀ c ∈ Json.renderMembers (values.map fun m => (m.1, .string m.2)), isXmlChar c = true
  | [], _ => by simp [Json.renderMembers]
  | m :: rest, h => by
      have hmarks : isXmlChar ':' = true ∧ isXmlChar ',' = true := by decide
      obtain ⟨⟨hname, hvalue⟩, hrest⟩ := List.forall_mem_cons.mp h
      have hmember : ∀ c ∈ Json.quote m.1 ++ ':' :: Json.render (.string m.2),
          isXmlChar c = true := by
        rw [List.forall_mem_append, List.forall_mem_cons, Json.render]
        exact ⟨isXmlChar_of_mem_quote hname, hmarks.1, isXmlChar_of_mem_quote hvalue⟩
      cases rest with
      | nil => exact hmember
      | cons next rest =>
          have hmore := isXmlChar_of_mem_renderMembers hrest
          rw [List.map_cons, List.map_cons, Json.renderMembers, List.forall_mem_append,
            List.forall_mem_cons]
          · exact ⟨hmember, hmarks.2, hmore⟩
          · simp

lemma isXmlText_renderStrings {values : List (String × String)}
    (h : ∀ m ∈ values, IsEscapable m.1 ∧ IsEscapable m.2) :
    IsXmlText (Json.renderStrings values) := by
  have hbraces : isXmlChar '\x7b' = true ∧ isXmlChar '\x7d' = true := by decide
  refine consistsOf_ofList.mpr ?_
  rw [Json.render, List.cons_append, List.forall_mem_cons, List.forall_mem_append]
  exact ⟨hbraces.1, isXmlChar_of_mem_renderMembers h, by simpa using hbraces.2⟩

lemma isXmlText_join {p below : Path} (h : IsXmlText p.text) (hbelow : IsXmlText below.text) :
    IsXmlText (p.join below).text := by
  have hslash : IsXmlText "/" := by decide
  unfold Path.join
  split_ifs
  · exact hbelow
  · exact isXmlText_append.mpr ⟨h, hbelow⟩
  · exact isXmlText_append.mpr ⟨isXmlText_append.mpr ⟨h, hslash⟩, hbelow⟩

lemma isXmlText_cleaned {p : Path} (h : IsXmlText p.text) : IsXmlText p.cleaned.text := by
  have hslashes : IsXmlText "/" ∧ IsXmlText "//" ∧ IsXmlText "" := by decide
  have hnames : IsXmlText (joined "/" p.names) := by
    refine consistsOf_ofList.mpr fun c hc => ?_
    rcases mem_joinWith hc with hc | ⟨name, hname, hc⟩
    · exact hslashes.1 c hc
    · obtain ⟨piece, hpiece, rfl⟩ := List.mem_map.mp hname
      obtain ⟨cs, hcs, rfl⟩ := List.mem_map.mp (List.mem_filter.mp hpiece).1
      rw [String.toList_ofList] at hc
      exact h c (mem_of_mem_splitOn hcs hc)
  have hroot : IsXmlText p.root := by
    unfold Path.root
    dsimp only
    split_ifs
    · exact hslashes.2.1
    · exact hslashes.1
  have hlast : IsXmlText
      (if p.text.toList.getLast? = some '/' && !p.names.isEmpty then "/" else "") := by
    split_ifs
    · exact hslashes.1
    · exact hslashes.2.2
  exact isXmlText_append.mpr ⟨isXmlText_append.mpr ⟨hroot, hnames⟩, hlast⟩

lemma isXmlText_placeholder {files : Files} {directory : Path} {d : ExternalDocument}
    {text : String} (hdirectory : IsXmlText directory.text) (hpath : IsXmlText d.path)
    (hvalues : ∀ m ∈ d.values, IsEscapable m.1 ∧ IsEscapable m.2)
    (h : placeholder files directory d = .ok text) : IsXmlText text := by
  have hmarks : IsXmlText "!!(" ∧ IsXmlText ")" := by decide
  rw [placeholder_eq_ok h]
  simp only [placeholderText, isXmlText_append]
  exact ⟨⟨⟨hmarks.1, isXmlText_cleaned (isXmlText_join hdirectory hpath)⟩, hmarks.2⟩,
    isXmlText_renderStrings hvalues⟩

/-! ## What is set -/

/-- The parts of a package that hold texts of a report. -/
def shownParts : List String :=
  ["word/document.xml", "word/_rels/document.xml.rels", "docProps/core.xml"]

section Set

variable {files : Files} {directory : Path} {making : Making} {tools : Tools} {d : RawDocument}
  {doc : Word.Document}

lemma isXmlText_of_isPlain {s : String} (h : IsPlain s) : IsXmlText s := by
  intro c hc
  rcases h c hc with hletter | rfl
  · exact isXmlChar_of_isAlphanum hletter
  · decide

lemma Typeset.IsWithin.hasXmlNames {P : Char → Prop} {i : Word.Inline} (h : IsWithin P i) :
    i.HasXmlNames :=
  fun r hr s hs => isXmlText_of_isPlain ((h.runs r hr).names s hs)

lemma Typeset.IsWithin.strings {P : Char → Prop} {i : Word.Inline} (h : IsWithin P i) :
    ∀ s ∈ i.strings, ConsistsOf P s := by
  intro s hs
  by_cases hpicture : ∃ p, i = .picture p
  · obtain ⟨p, rfl⟩ := hpicture
    rw [List.mem_singleton.mp hs]
    exact h.description p rfl
  · rw [Word.Inline.strings] at hs
    · obtain ⟨r, hr, rfl⟩ := List.mem_map.mp hs
      exact (h.runs r hr).text
    · exact fun p hp => hpicture ⟨p, hp⟩

lemma Typeset.IsWithin.addresses {P : Char → Prop} {i : Word.Inline} (h : IsWithin P i) :
    ∀ s ∈ i.addresses, ConsistsOf P s := by
  intro s hs
  by_cases hlink : ∃ address runs, i = .link (.external address) runs
  · obtain ⟨address, runs, rfl⟩ := hlink
    rw [List.mem_singleton.mp hs]
    exact h.address address runs rfl
  · rw [Word.Inline.addresses] at hs
    · exact absurd hs List.not_mem_nil
    · exact fun address runs hi => hlink ⟨address, runs, hi⟩

/-- A report is set with its own title and its own author, under names that can be written. -/
lemma exists_readsAs_of_typesetRaw (h : typesetRaw files directory making d tools = .ok doc) :
    ∃ entries, doc.package = .ok entries ∧ Word.ReadsAs doc entries ∧
      doc.properties.title = d.settings.title ∧ doc.properties.creator = d.settings.author := by
  obtain ⟨sets, ledger, -, hdoc⟩ := typeset_eq_ok h
  have hproperties : doc.properties = propertiesOf making d.settings := by
    rw [hdoc, Word.Document.withSections]
    split <;> rfl
  have hreport : ∀ name ∈ reportNames, IsXmlText name := by decide +kernel
  have hlanguage : ∀ s ∈ some reportLanguage, IsXmlText s := by decide
  obtain ⟨entries, hpackage, hreads⟩ := Word.exists_readsAs
    (fun name hname => hreport name ((ofReport_typeset h).1 name hname))
    (fun i hi => (isWithin_typeset h i hi).hasXmlNames)
    (by rw [hproperties]; exact hlanguage)
  exact ⟨entries, hpackage, hreads, by rw [hproperties]; rfl, by rw [hproperties]; rfl⟩

/-- What is set for a report with texts that can be written can be written. -/
lemma isWithin_of_typesetRaw (h : typesetRaw files directory making d tools = .ok doc)
    (hcut : tools.Keeps (fun c => isXmlChar c = true)) (hstrings : ∀ s ∈ d.strings, IsXmlText s)
    (hdirectory : IsXmlText directory.text)
    (hvalues : ∀ m ∈ d.values, IsEscapable m.1 ∧ IsEscapable m.2) :
    ∀ i ∈ doc.inlines, IsWithin (fun c => isXmlChar c = true) i := by
  have hparts : ∀ n ∈ d.parts, ∀ s ∈ n.strings, IsXmlText s := fun n hn s hs =>
    hstrings s (List.mem_append_left _ (List.mem_flatMap.mpr ⟨n, hn, hs⟩))
  have hnodes (highlight : Bool) : AreWithin (fun c => isXmlChar c = true)
      ⟨files, directory, highlight, tools⟩
      ((Inline.resolveDocument d).run (.ofDegrees 0)).1.parts :=
    resolved_areWithin hcut hparts (List.all_eq_true.mp (by decide)) fun e he text htext =>
      isXmlText_placeholder hdirectory (hparts _ he e.path (by simp [Node.strings]))
        (fun m hm => hvalues m (List.mem_flatMap.mpr ⟨_, he, hm⟩)) htext
  exact fun i hi => isWithin_of_comesFrom (hnodes _) (by decide) ((ofReport_typeset h).2 i hi)

end Set

/-! ## Compiling -/

variable {files : Files} {directory : Path} {making : Making} {tools : Tools} {source : String}
  {compiled : Compiled}

lemma compile_eq_ok (h : compile files directory making source tools = .ok compiled) :
    ∃ report, readReport source = .ok (report, compiled.diagnostics) ∧
      typesetRaw files directory making report tools = .ok compiled.document := by
  unfold compile at h
  cases hread : readReport source with
  | error failure => simp [hread, bind, Except.bind] at h
  | ok read =>
      cases hset : typesetRaw files directory making read.1 tools with
      | error failure => simp [hread, hset, bind, Except.bind] at h
      | ok doc =>
          simp only [hread, hset, bind, Except.bind, pure, Except.pure, Except.ok.injEq] at h
          rw [← h]
          exact ⟨read.1, rfl, hset⟩

/-- A report says nothing that its source does not say, but for letter case, and for sentences that
can be written. -/
lemma isXmlText_of_readReport {report : RawDocument} {diagnostics : List Diagnostic}
    (h : readReport source = .ok (report, diagnostics)) (hsource : IsXmlText source) :
    ∀ s ∈ report.strings, IsXmlText s := by
  unfold readReport at h
  cases hparse : Markup.parse source with
  | error fault => simp [hparse, bind, Except.bind, Except.mapError] at h
  | ok parsed =>
      simp only [hparse, bind, Except.bind, Except.mapError, pure, Except.pure, Except.ok.injEq,
        Prod.mk.injEq] at h
      rw [← h.1]
      exact Enrich.isXmlText_of_enrich
        (Markup.consistsOf_of_parse (by decide) (by decide) hsource hparse)

/-- The package of a compiled source.  Each of the parts with texts can be read if and only if the
texts in it consist of characters that XML allows, which they do whenever the source does and pieces
of code are cut out of its lines. -/
theorem readsAs_of_compile (h : compile files directory making source tools = .ok compiled) :
    ∃ report entries, readReport source = .ok (report, compiled.diagnostics) ∧
      compiled.document.package = .ok entries ∧ Word.ReadsAs compiled.document entries ∧
      ((∀ token, ∀ t ∈ tools.tokenizerOf token, t.Splits) →
        IsXmlText source → IsXmlText directory.text →
        (∀ m ∈ report.values, IsEscapable m.1 ∧ IsEscapable m.2) →
        ∀ name ∈ shownParts, Word.IsReadable entries name) := by
  obtain ⟨report, hread, hset⟩ := compile_eq_ok h
  obtain ⟨entries, hpackage, hreads, htitle, hauthor⟩ := exists_readsAs_of_typesetRaw hset
  refine ⟨report, entries, hread, hpackage, hreads, fun hsplits hsource hdirectory hvalues => ?_⟩
  have hstrings := isXmlText_of_readReport hread hsource
  have hwithin := isWithin_of_typesetRaw hset (fun token t ht => (hsplits token t ht).keeps)
    hstrings hdirectory hvalues
  have hfacts : ∀ s ∈ report.settings.title.toList ++ report.settings.author.toList, IsXmlText s :=
    fun s hs => hstrings s (List.mem_append_right _ hs)
  simp only [shownParts, List.forall_mem_cons]
  refine ⟨hreads.text.mpr ?_, hreads.relations.mpr ?_, hreads.facts.mpr ?_, by simp⟩
  · exact List.forall_mem_flatMap.mpr fun i hi => (hwithin i hi).strings
  · exact List.forall_mem_flatMap.mpr fun i hi => (hwithin i hi).addresses
  · rwa [htitle, hauthor]

/-- A source that has something for each of the parts, and stands for another document. -/
def annotatedSource : String :=
  "!!rule title Notes\n!!rule author A & B\n[see](https://a.org) x < y\n\n" ++
    "!!(a.docx)\x7b\x22k\x22: \x22v\x22\x7d"

/-- The document that `annotatedSource` stands for. -/
def annotatedFiles : Files := { places := [(["a.docx"], .file { content := .bytes [] })] }

/-- The parts for a source that can be read. -/
theorem readsAs_of_compile_annotatedSource :
    ∃ compiled entries, compile annotatedFiles ⟨"/"⟩ ⟨0, 0⟩ annotatedSource = .ok compiled ∧
      compiled.document.package = .ok entries ∧
      ∀ name ∈ shownParts, Word.IsReadable entries name := by
  have hvalues : ((readReport annotatedSource).toOption.map fun read => read.1.values)
      = some [("k", "v")] := by decide +kernel
  have hsuccess : (compile annotatedFiles ⟨"/"⟩ ⟨0, 0⟩ annotatedSource).toOption.isSome := by
    decide +kernel
  cases hcompile : compile annotatedFiles ⟨"/"⟩ ⟨0, 0⟩ annotatedSource with
  | error failure =>
      rw [hcompile] at hsuccess
      exact nomatch hsuccess
  | ok compiled =>
      obtain ⟨report, entries, hread, hpackage, -, hreadable⟩ := readsAs_of_compile hcompile
      rw [hread] at hvalues
      have hreport : report.values = [("k", "v")] := Option.some.inj hvalues
      refine ⟨compiled, entries, rfl, hpackage,
        hreadable Code.splits_grammarOf (by decide +kernel) (by decide) ?_⟩
      rw [hreport]
      decide

/-- A control character goes through to the text of the document, which cannot be read then. -/
theorem not_isReadable_of_control :
    ∃ compiled entries, compile {} ⟨"/"⟩ ⟨0, 0⟩ "a\x01b" = .ok compiled ∧
      compiled.document.package = .ok entries ∧
      ¬ Word.IsReadable entries "word/document.xml" := by
  have hstrings : ((compile {} ⟨"/"⟩ ⟨0, 0⟩ "a\x01b").toOption.map fun compiled =>
      compiled.document.inlines.flatMap Word.Inline.strings) = some ["a\x01b"] := by
    decide +kernel
  cases hcompile : compile {} ⟨"/"⟩ ⟨0, 0⟩ "a\x01b" with
  | error failure =>
      rw [hcompile] at hstrings
      exact nomatch hstrings
  | ok compiled =>
      rw [hcompile] at hstrings
      have hshown : compiled.document.inlines.flatMap Word.Inline.strings = ["a\x01b"] :=
        Option.some.inj hstrings
      obtain ⟨report, -, hset⟩ := compile_eq_ok hcompile
      obtain ⟨entries, hpackage, hreads, -⟩ := exists_readsAs_of_typesetRaw hset
      have hcontrol : ¬ IsXmlText "a\x01b" := by decide
      refine ⟨compiled, entries, rfl, hpackage, fun h => ?_⟩
      rw [hreads.text, hshown, List.forall_mem_singleton] at h
      exact hcontrol h

end ReportPress
