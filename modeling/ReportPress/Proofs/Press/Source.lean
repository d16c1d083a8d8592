import ReportPress.Proofs.Press.Course
import ReportPress.Proofs.Press.Draft
import ReportPress.Proofs.Press.OutputPaths

/-!
# What a report does to its source

The document for a source is written beside it, under two names one after the other.

* `IsDrafted.fileAt_source`, `IsDrafted.fileAt_source_renamed` — the file of the source after each
  of the two steps.
* `fileAt_source_ne_iff` — what is left of it by the whole work, if that is done without finishing
  touches.

**The result.**  `source_kept` — which outputs take the place of their source, and that nothing else
happens to it.
-/

namespace ReportPress.Press

variable {programs : Programs} {o : Options} {now : Int} {source : Path} {w w' drafted : World}
  {tools : Typeset.Tools} {result : Except Failure Rendered} {reported : List Stage}
  {fs fs' : Files} {f : File}

/-! ## Step by step -/

section Source

variable {t : List String}

/-- A document beside a source is at another place, unless it has the same name. -/
lemma locate_source_ne {name : String} {p : Path} (hp : p.names = source.names.dropLast ++ [name])
    (hname : Path.IsName name) (hne : p.names ≠ source.names) (hfile : fs.fileAt source = .ok f)
    (h : fs.locate p = .ok t) : fs.locate source ≠ .ok t := by
  obtain ⟨x, hx, hplace⟩ := Files.fileAt_eq_ok_iff.mp hfile
  obtain ⟨last, hlast, hnames⟩ := Files.exists_name_of_locate hx (by simp [hplace])
  refine Files.locate_ne hp hnames hname hlast ?_ h
  rintro rfl
  exact hne (hp.trans hnames.symm)

/-- The source is left alone while its document is drafted. -/
lemma IsDrafted.fileAt_source (h : IsDrafted source (OutputPaths.ofSource source) w drafted) :
    drafted.files.fileAt source = w.files.fileAt source := by
  obtain ⟨f, data, hfile, -⟩ := h.source
  obtain ⟨entries, hwrite⟩ := h.written
  obtain ⟨t, g, ht, hplace, -, hfiles⟩ := Files.exists_of_write hwrite
  rw [hfiles, hfile]
  exact Files.fileAt_set hplace hfile
    (locate_source_ne (names_temp source) (isName_temp source) (names_temp_ne source) hfile ht)

/-- A document that takes its final name takes the place of the source if this has the same. -/
lemma IsDrafted.fileAt_source_renamed
    (h : IsDrafted source (OutputPaths.ofSource source) w drafted)
    (hrename : drafted.files.rename (OutputPaths.ofSource source).temp
      (OutputPaths.ofSource source).docx = .ok fs') :
    fs'.fileAt source ≠ w.files.fileAt source ↔
      (OutputPaths.ofSource source).docx.names = source.names := by
  obtain ⟨f, data, hfile, hbytes⟩ := h.source
  obtain ⟨document, entries, hdocument, harchive⟩ := h.exists_document
  obtain ⟨t, u, g, ht, hg, hu, hplace, rfl⟩ := Files.rename_eq_ok_iff.mp hrename
  have hgone : drafted.files.get? t ≠ some .directory := by simp [hg]
  have htop := Files.ne_nil_of_get?_ne hgone
  have hdrafted : drafted.files.fileAt source = .ok f := h.fileAt_source.trans hfile
  have hkept : (drafted.files.without t).fileAt source = .ok f :=
    Files.fileAt_without hgone hdrafted
      (locate_source_ne (names_temp source) (isName_temp source) (names_temp_ne source)
        hdrafted ht)
  have hfree := Files.get?_without_ne htop hplace
  rw [hfile]
  constructor
  · -- The new place is that of the source.
    intro hchanged
    by_contra hnames
    refine hchanged (Files.fileAt_set hfree hkept fun hsource => ?_)
    exact locate_source_ne (names_docx source) (isName_docx source) hnames hdrafted hu
      (Files.locate_of_without htop hsource)
  · intro hnames
    obtain ⟨x, hx, -⟩ := Files.fileAt_eq_ok_iff.mp hkept
    obtain rfl := Files.locate_congr hnames hu (Files.locate_of_without htop hx)
    rw [Files.fileAt_set_self hfree hx]
    have hsame : g = document :=
      Except.ok.inj ((Files.fileAt_eq_ok_iff.mpr ⟨t, ht, hg⟩).symm.trans hdocument)
    intro heq
    rw [← hsame, Except.ok.inj heq, hbytes] at harchive
    exact nomatch harchive

end Source

/-! ## The whole work -/

/-- The ways in which making a report ends that has not reported any finishing touches. -/
lemma ends_renderFile_plain (h : Ends (renderFile programs o now source tools) w result w')
    (hstages : w'.stages = w.stages ++ reported) (hfinishing : Stage.finishing ∉ reported) :
    let paths := OutputPaths.ofSource source
    (∃ failure, Ends (draft o now source paths tools) w (.error failure) w' ∧
        result = .error failure) ∨
      ∃ diagnostics drafted moved,
        Ends (draft o now source paths tools) w (.ok (diagnostics, false)) drafted ∧
          Ends (Work.change (·.rename paths.temp paths.docx)) drafted moved w' ∧
            result = moved.map fun _ => ⟨paths.docx, diagnostics⟩ := by
  obtain hfailed | ⟨diagnostics, finishing, drafted, hdraft, hrest⟩ := ends_renderFile h
  · exact Or.inl hfailed
  cases finishing with
  | true =>
      obtain ⟨made, hmade, -⟩ := hrest
      obtain ⟨more, hmore⟩ := stages_finished hmade
      rw [hstages, (isDrafted_of_ends hdraft).stages, List.append_assoc, List.append_assoc,
        List.append_cancel_left_eq] at hmore
      exact absurd (by simp [← hmore]) hfinishing
  | false =>
      obtain ⟨moved, hmoved, hresult⟩ := hrest
      exact Or.inr ⟨diagnostics, drafted, moved, hdraft, hmoved, hresult⟩

/-- A report without finishing touches changes its source exactly if it succeeds and the document
has the name of the source. -/
lemma fileAt_source_ne_iff (h : Ends (renderFile programs o now source tools) w result w')
    (hstages : w'.stages = w.stages ++ reported) (hfinishing : Stage.finishing ∉ reported) :
    w'.files.fileAt source ≠ w.files.fileAt source ↔
      (∃ rendered, result = .ok rendered) ∧
        (OutputPaths.ofSource source).docx.names = source.names := by
  obtain ⟨failure, hdraft, rfl⟩ | ⟨diagnostics, drafted, moved, hdraft, hmoved, rfl⟩ :=
    ends_renderFile_plain h hstages hfinishing
  · rw [failsQuietly_draft _ _ _ _ _ hdraft]
    simp
  · have hdrafted := isDrafted_of_ends hdraft
    obtain ⟨files, hfiles, rfl, rfl⟩ | ⟨fault, -, rfl, rfl⟩ := ends_change.mp hmoved
    · rw [hdrafted.fileAt_source_renamed hfiles]
      simp [Except.map]
    · rw [hdrafted.fileAt_source]
      simp [Except.map]

/-- Where the outputs of a source lie, paths being compared by the names that lead to them, and
what making a report without finishing touches does to its source. -/
theorem source_kept (source : Path) :
    ((OutputPaths.ofSource source).temp.names ≠ source.names ∧
      ((OutputPaths.ofSource source).docx.names = source.names ↔
        source.extension? = some "docx" ∧ ¬ IsMarked source.stem) ∧
      ((OutputPaths.ofSource source).pdf.names = source.names ↔
        source.extension? = some "pdf" ∧ ¬ IsMarked source.stem) ∧
      ((OutputPaths.ofSource source).pdfParts.names = source.names ↔
        source.fileName? = some ".md2gost_out")) ∧
    ∀ programs o now tools w result w' reported,
      Ends (renderFile programs o now source tools) w result w' →
      w'.stages = w.stages ++ reported → Stage.finishing ∉ reported →
        (w'.files.fileAt source ≠ w.files.fileAt source ↔
          (∃ rendered, result = .ok rendered) ∧
            source.extension? = some "docx" ∧ ¬ IsMarked source.stem) := by
  refine ⟨⟨names_temp_ne source, names_docx_eq_iff, names_pdf_eq_iff, names_pdfParts_eq_iff⟩, ?_⟩
  intro programs o now tools w result w' reported h hstages hfinishing
  rw [fileAt_source_ne_iff h hstages hfinishing, names_docx_eq_iff]

/-- The options of a report without finishing touches. -/
def plainOptions : Options := { finishing := { enabled := false } }

/-- A source whose name has another extension is left alone. -/
theorem source_kept_markdown : ∃ result w',
    Ends (renderFile (fun _ _ => none) plainOptions 0 ⟨"/a.md"⟩) (emptySource "a.md") result w' ∧
      result = .ok ⟨⟨"/a.docx"⟩, []⟩ ∧ w'.stages = [.parsing, .enriching, .writing] ∧
      w'.files.fileAt ⟨"/a.md"⟩ = (emptySource "a.md").files.fileAt ⟨"/a.md"⟩ := by
  have hresult : ((renderFile (fun _ _ => none) plainOptions 0 ⟨"/a.md"⟩).run.run
      (emptySource "a.md")).run.1 = .ok ⟨⟨"/a.docx"⟩, []⟩ := by decide +kernel
  have hstages : ((renderFile (fun _ _ => none) plainOptions 0 ⟨"/a.md"⟩).run.run
      (emptySource "a.md")).run.2.stages = [.parsing, .enriching, .writing] := by decide +kernel
  refine ⟨_, _, rfl, hresult, hstages, ?_⟩
  by_contra hchanged
  have hcollision := ((source_kept ⟨"/a.md"⟩).2 (fun _ _ => none) plainOptions 0 {}
    (emptySource "a.md") _ _ [.parsing, .enriching, .writing] rfl hstages (by decide)).mp hchanged
  exact absurd hcollision.2.1 (by decide)

/-- A source that has the name of its own document is replaced by it. -/
theorem source_replaced :
    (OutputPaths.ofSource ⟨"/a.docx"⟩).docx = ⟨"/a.docx"⟩ ∧ ∃ result w',
      Ends (renderFile (fun _ _ => none) plainOptions 0 ⟨"/a.docx"⟩) (emptySource "a.docx")
          result w' ∧
        w'.stages = [.parsing, .enriching, .writing] ∧
        w'.files.fileAt ⟨"/a.docx"⟩ ≠ (emptySource "a.docx").files.fileAt ⟨"/a.docx"⟩ :=
  ⟨by decide, _, _, rfl, by decide +kernel, by decide +kernel⟩

end ReportPress.Press
