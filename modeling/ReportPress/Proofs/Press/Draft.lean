import ReportPress.Press.Render
import ReportPress.Proofs.Press.Work
import ReportPress.Proofs.Storage.Files

/-!
# Drafting a document

The document for a source is written under a name for the time being, after all that could stop it
has been looked at.

* `IsReady` — what a document is drafted from, and that nothing is in its way.
* `IsDrafted` — what held before a document was drafted, and what has changed since.

**Drafting.**  `failsQuietly_draft` — a document that cannot be drafted leaves the files as they
were.  `exists_isReady_of_ends` and `isDrafted_of_ends` — otherwise it was ready, and only the place
for the time being has changed.
-/

namespace ReportPress.Press

variable {o : Options} {now : Int} {source : Path} {paths : OutputPaths} {p : Path}
  {tools : Typeset.Tools} {w w' : World} {fs : Files} {text : String} {parsed : Markup.Parsed}
  {entries : List Word.Entry}

/-- A file of the given name without any text is all there is. -/
def emptySource (name : String) : World :=
  { files := ⟨[([name], .file { content := .bytes [] })]⟩ }

/-! ## Looking first -/

lemma eq_ok_of_mapError {ε ε' α : Type} {f : ε → ε'} {known : Except ε α} {a : α}
    (h : known.mapError f = .ok a) : known = .ok a := by
  cases known with
  | error fault => exact nomatch h
  | ok a' => exact congrArg Except.ok (Except.ok.inj h)

lemma isQuiet_ensureUnlocked (p : Path) : IsQuiet (ensureUnlocked p) := by
  refine (isQuiet_look _).bind fun locked => ?_
  split_ifs
  · exact isQuiet_throw _
  · exact isQuiet_pure _

lemma ends_ensureUnlocked_ok {u : Unit} :
    Ends (ensureUnlocked p) w (.ok u) w' ↔ w.files.isLocked p = .ok false ∧ w' = w := by
  rw [ensureUnlocked, ends_bind_ok]
  simp only [ends_look]
  cases hlocked : w.files.isLocked p with
  | error fault => simp [Except.mapError]
  | ok locked => cases locked <;> simp [Except.mapError, ends_pure, ends_throw]

lemma isQuiet_readSource (source : Path) : IsQuiet (readSource source) := by
  refine isQuiet_get.bind fun read => ?_
  split_ifs
  · exact isQuiet_look _
  · exact (isQuiet_throw _).bind fun _ => isQuiet_look _

/-- A source that has been read is a file. -/
lemma readText_of_readSource (h : Ends (readSource source) w (.ok text) w') :
    w.files.isFile source = true ∧ w.files.readText source = .ok text ∧ w' = w := by
  obtain ⟨read, middle, hget, hrest⟩ := ends_bind_ok.mp h
  obtain ⟨hworld, rfl⟩ := ends_get.mp hget
  obtain rfl := Except.ok.inj hworld
  clear h hget
  split_ifs at hrest with hfile
  · obtain ⟨htext, rfl⟩ := ends_look.mp hrest
    exact ⟨hfile, eq_ok_of_mapError htext.symm, rfl⟩
  · obtain ⟨_, _, hthrow, _⟩ := ends_bind_ok.mp hrest
    exact nomatch (ends_throw.mp hthrow).1

/-- The text of a file is that of its bytes. -/
lemma exists_of_readText (h : fs.readText p = .ok text) :
    ∃ f data, fs.fileAt p = .ok f ∧ f.content = .bytes data := by
  cases hfile : fs.fileAt p with
  | error fault => simp [Files.readText, Files.readBytes, hfile, bind, Except.bind] at h
  | ok f =>
      cases hcontent : f.content with
      | bytes data => exact ⟨f, data, rfl, hcontent⟩
      | archive entries =>
          simp [Files.readText, Files.readBytes, hfile, hcontent, bind, Except.bind, throw,
            throwThe, MonadExceptOf.throw] at h

/-! ## Drafting -/

/-- A document has been drafted. -/
structure IsDrafted (source : Path) (paths : OutputPaths) (w w' : World) : Prop where
  source : ∃ f data, w.files.fileAt source = .ok f ∧ f.content = .bytes data
  /-- Where the document is to be in the end, no file is held. -/
  free : w.files.isLocked paths.docx = .ok false
  written : ∃ entries, w.files.write paths.temp (.archive entries) = .ok w'.files
  stages : w'.stages = w.stages ++ [.parsing, .enriching, .writing]

/-- A drafted document is where it should be for the time being. -/
lemma IsDrafted.exists_document (h : IsDrafted source paths w w') :
    ∃ f entries, w'.files.fileAt paths.temp = .ok f ∧ f.content = .archive entries := by
  obtain ⟨entries, hwrite⟩ := h.written
  obtain ⟨t, f, ht, hplace, hcontent, hfiles⟩ := Files.exists_of_write hwrite
  exact ⟨f, entries, hfiles ▸ Files.fileAt_set_self hplace ht, hcontent⟩

/-- A document that cannot be drafted leaves the files as they were. -/
theorem failsQuietly_draft (o : Options) (now : Int) (source : Path) (paths : OutputPaths)
    (tools : Typeset.Tools) : FailsQuietly (draft o now source paths tools) := by
  refine (isQuiet_ensureUnlocked _).failsQuietly_bind fun _ => ?_
  refine (isQuiet_ensureUnlocked _).failsQuietly_bind fun _ => ?_
  refine (isQuiet_report _).failsQuietly_bind fun _ => ?_
  refine (isQuiet_readSource _).failsQuietly_bind fun text => ?_
  refine (isQuiet_ofExcept _).failsQuietly_bind fun parsed => ?_
  refine (isQuiet_report _).failsQuietly_bind fun _ => ?_
  refine (isQuiet_report _).failsQuietly_bind fun _ => ?_
  refine isQuiet_get.failsQuietly_bind fun read => ?_
  refine (isQuiet_ofExcept _).failsQuietly_bind fun entries => ?_
  exact failsQuietly_change _ _

/-- All that a document is drafted from, by the files as they are found: its places are free, and
there are the text of the source, the report that this is read as, and the entries of the document
for that. -/
structure IsReady (o : Options) (now : Int) (source : Path) (paths : OutputPaths)
    (tools : Typeset.Tools) (fs : Files) (text : String) (parsed : Markup.Parsed)
    (entries : List Word.Entry) : Prop where
  tempFree : fs.isLocked paths.temp = .ok false
  docxFree : fs.isLocked paths.docx = .ok false
  isFile : fs.isFile source = true
  isRead : fs.readText source = .ok text
  isParsed : Markup.parse text = .ok parsed
  isSet : documentEntries fs paths.directory ⟨now, o.editMinutes⟩
    (Enrich.enrich parsed.document).1 tools = .ok entries

/-- What is drafted was ready, and is written under the name for the time being. -/
theorem exists_isReady_of_ends {answer : List Diagnostic × Bool}
    (h : Ends (draft o now source paths tools) w (.ok answer) w') :
    ∃ text parsed entries, IsReady o now source paths tools w.files text parsed entries ∧
      w.files.write paths.temp (.archive entries) = .ok w'.files ∧
      w'.stages = w.stages ++ [.parsing, .enriching, .writing] := by
  obtain ⟨_, w₁, htemp, h₁⟩ := ends_bind_ok.mp h
  obtain ⟨_, w₂, hdocx, h₂⟩ := ends_bind_ok.mp h₁
  obtain ⟨_, w₃, hparsing, h₃⟩ := ends_bind_ok.mp h₂
  obtain ⟨text, w₄, hread, h₄⟩ := ends_bind_ok.mp h₃
  obtain ⟨parsed, w₅, hparsed, h₅⟩ := ends_bind_ok.mp h₄
  obtain ⟨_, w₆, henriching, h₆⟩ := ends_bind_ok.mp h₅
  obtain ⟨_, w₇, hwriting, h₇⟩ := ends_bind_ok.mp h₆
  obtain ⟨read, w₈, hget, h₈⟩ := ends_bind_ok.mp h₇
  obtain ⟨entries, w₉, hentries, h₉⟩ := ends_bind_ok.mp h₈
  obtain ⟨_, drafted, hwrite, hanswer⟩ := ends_bind_ok.mp h₉
  clear h h₁ h₂ h₃ h₄ h₅ h₆ h₇ h₈ h₉
  obtain ⟨htempFree, rfl⟩ := ends_ensureUnlocked_ok.mp htemp
  obtain ⟨hdocxFree, rfl⟩ := ends_ensureUnlocked_ok.mp hdocx
  obtain ⟨-, rfl⟩ := ends_report.mp hparsing
  obtain ⟨hfile, htext, rfl⟩ := readText_of_readSource hread
  obtain ⟨hreport, rfl⟩ := ends_ofExcept.mp hparsed
  obtain ⟨-, rfl⟩ := ends_report.mp henriching
  obtain ⟨-, rfl⟩ := ends_report.mp hwriting
  obtain ⟨hworld, rfl⟩ := ends_get.mp hget
  obtain rfl := Except.ok.inj hworld
  obtain ⟨hdocument, rfl⟩ := ends_ofExcept.mp hentries
  obtain ⟨-, rfl⟩ := ends_pure.mp hanswer
  obtain ⟨files, hfiles, -, rfl⟩ | ⟨_, -, hfault, -⟩ := ends_change.mp hwrite
  · exact ⟨text, parsed, entries,
      ⟨htempFree, hdocxFree, hfile, htext, eq_ok_of_mapError hreport.symm, hdocument.symm⟩,
      hfiles, by simp⟩
  · exact nomatch hfault

/-- Drafting changes nothing but the place for the time being. -/
theorem isDrafted_of_ends {answer : List Diagnostic × Bool}
    (h : Ends (draft o now source paths tools) w (.ok answer) w') :
    IsDrafted source paths w w' := by
  obtain ⟨text, parsed, entries, hready, hwrite, hstages⟩ := exists_isReady_of_ends h
  exact ⟨exists_of_readText hready.isRead, hready.docxFree, ⟨entries, hwrite⟩, hstages⟩

end ReportPress.Press
