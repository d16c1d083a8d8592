import ReportPress.Proofs.Press.Cleanup
import ReportPress.Proofs.Press.Source

/-!
# What a report does to the files

Without finishing touches, a report is made altogether or not at all.

* `IsHindered` — what keeps a document from being drafted, by the files as they are found.
* `IsMade` — the document is there, nothing is left of what was made for the time being, and paths
  to other places lead to what they led to before.

**Not at all.**  `IsReady.not_isHindered` — where something is in the way, no document is drafted.

**Altogether.**  `isMade_of_rename` — a document that has been drafted and given its final name.

**The result.**  `files_of_renderFile`.
-/

namespace ReportPress.Press

variable {programs : Programs} {o : Options} {now : Int} {source : Path} {paths : OutputPaths}
  {tools : Typeset.Tools} {w w' : World} {result : Except Failure Rendered}
  {fs written renamed : Files} {text : String} {parsed : Markup.Parsed} {entries : List Word.Entry}

/-! ## Not at all -/

/-- What keeps a document from being drafted. -/
inductive IsHindered (o : Options) (now : Int) (source : Path) (paths : OutputPaths)
    (tools : Typeset.Tools) (fs : Files) : Prop
  | locked {p : Path} : p = paths.temp ∨ p = paths.docx → fs.isLocked p = .ok true →
      IsHindered o now source paths tools fs
  | missing : fs.isFile source = false → IsHindered o now source paths tools fs
  /-- The source is no text, or it cannot be read for another reason. -/
  | unread {fault : Fault} : fs.readText source = .error fault →
      IsHindered o now source paths tools fs
  | unparsed {text : String} {fault : Markup.ParseFailure} : fs.readText source = .ok text →
      Markup.parse text = .error fault → IsHindered o now source paths tools fs
  /-- There is no document for the report, whichever node is to blame. -/
  | unset {text : String} {parsed : Markup.Parsed} {failure : Failure} :
      fs.readText source = .ok text → Markup.parse text = .ok parsed →
      documentEntries fs paths.directory ⟨now, o.editMinutes⟩
        (Enrich.enrich parsed.document).1 tools = .error failure →
      IsHindered o now source paths tools fs

/-- Nothing is in the way of a document that can be drafted. -/
lemma IsReady.not_isHindered (h : IsReady o now source paths tools fs text parsed entries) :
    ¬ IsHindered o now source paths tools fs := by
  intro hhindered
  cases hhindered with
  | locked hp hlocked =>
      obtain rfl | rfl := hp
      · exact nomatch h.tempFree.symm.trans hlocked
      · exact nomatch h.docxFree.symm.trans hlocked
  | missing hmissing => exact nomatch h.isFile.symm.trans hmissing
  | unread hfault => exact nomatch h.isRead.symm.trans hfault
  | unparsed hread hfault =>
      obtain rfl := Except.ok.inj (h.isRead.symm.trans hread)
      exact nomatch h.isParsed.symm.trans hfault
  | unset hread hparsed hfailure =>
      obtain rfl := Except.ok.inj (h.isRead.symm.trans hread)
      obtain rfl := Except.ok.inj (h.isParsed.symm.trans hparsed)
      exact nomatch h.isSet.symm.trans hfailure

/-! ## Altogether -/

/-- A document has been made of entries, and nothing else has happened to the files. -/
structure IsMade (source : Path) (entries : List Word.Entry) (fs fs' : Files) : Prop where
  docx : ∃ f, fs'.fileAt (OutputPaths.ofSource source).docx = .ok f ∧
    f.content = .archive entries
  temp : ¬ fs'.isPresent (OutputPaths.ofSource source).temp = true
  elsewhere : ∀ p, fs.locate p ≠ fs.locate (OutputPaths.ofSource source).docx →
    fs.locate p ≠ fs.locate (OutputPaths.ofSource source).temp →
      (fs'.find p).toOption = (fs.find p).toOption

lemma toOption_congr {ε α : Type} {known known' : Except ε α}
    (h : ∀ a, known = .ok a ↔ known' = .ok a) : known.toOption = known'.toOption := by
  cases known with
  | ok a => rw [(h a).mp rfl]
  | error _ =>
      cases known' with
      | ok a => exact nomatch (h a).mpr rfl
      | error _ => rfl

/-- The two names of a document lead to different places. -/
lemma locate_docx_ne {t : List String}
    (h : fs.locate (OutputPaths.ofSource source).temp = .ok t) :
    fs.locate (OutputPaths.ofSource source).docx ≠ .ok t := by
  refine Files.locate_ne (names_temp source) (names_docx source) (isName_temp source)
    (isName_docx source) (fun heq => ?_) h
  have hlength := congrArg String.length heq
  simp at hlength

/-- A document that is written under the name for the time being, and then given its own. -/
theorem isMade_of_rename
    (hwrite : fs.write (OutputPaths.ofSource source).temp (.archive entries) = .ok written)
    (hrename : written.rename (OutputPaths.ofSource source).temp
      (OutputPaths.ofSource source).docx = .ok renamed) : IsMade source entries fs renamed := by
  obtain ⟨t, f, ht, hplace, hcontent, rfl⟩ := Files.exists_of_write hwrite
  obtain ⟨t', u, g, ht', hg, hu, hfree, rfl⟩ := Files.rename_eq_ok_iff.mp hrename
  have htop := Files.ne_nil_of_get?_ne hplace
  obtain rfl : t = t' := Except.ok.inj ((Files.locate_set hplace ht).symm.trans ht')
  obtain rfl : f = g := by
    rw [Files.get?_set htop, if_pos rfl] at hg
    simpa using hg
  have hgone : (fs.set t (.file f)).get? t ≠ some .directory := by simp [hg]
  have hfree' := Files.get?_without_ne htop hfree
  refine ⟨⟨f, Files.fileAt_set_self hfree' (Files.locate_without hgone hu), hcontent⟩, ?_, ?_⟩
  · have hne : ((fs.set t (.file f)).without t).locate (OutputPaths.ofSource source).temp
        ≠ .ok u := by
      intro htemp
      obtain rfl := Except.ok.inj (ht'.symm.trans (Files.locate_of_without htop htemp))
      exact locate_docx_ne ht (Files.locate_of_set htop hu)
    simp only [Files.isPresent_iff_find, Files.find_set_iff hfree' hne]
    rw [← Files.isPresent_iff_find]
    exact Files.not_isPresent_without htop ht'
  · intro p hdocx htemp
    rw [Files.locate_of_set htop hu] at hdocx
    rw [ht] at htemp
    have htemp' : (fs.set t (.file f)).locate p ≠ .ok t :=
      fun h => htemp (Files.locate_of_set htop h)
    have hdocx' : ((fs.set t (.file f)).without t).locate p ≠ .ok u :=
      fun h => hdocx (Files.locate_of_set htop (Files.locate_of_without htop h))
    refine toOption_congr fun place => ?_
    rw [Files.find_set_iff hfree' hdocx', Files.find_without_iff hgone htemp',
      Files.find_set_iff hplace htemp]

/-! ## The result -/

/-- **What a report without finishing touches does to the files.**  Where something is in its way it
fails, and whenever it fails, the files stay as they were.  Where it succeeds, the document for the
source has been made, and nothing else. -/
theorem files_of_renderFile (h : Ends (renderFile programs o now source tools) w result w') :
    (IsHindered o now source (OutputPaths.ofSource source) tools w.files →
      (∃ failure, result = .error failure) ∧ w'.files = w.files) ∧
    ∀ reported, w'.stages = w.stages ++ reported → Stage.finishing ∉ reported →
      (∀ failure, result = .error failure → w'.files = w.files) ∧
      ∀ rendered, result = .ok rendered → ∃ text parsed entries,
        IsReady o now source (OutputPaths.ofSource source) tools w.files text parsed entries ∧
          IsMade source entries w.files w'.files := by
  refine ⟨fun hhindered => ?_, fun reported hstages hfinishing => ?_⟩
  · obtain ⟨failure, hdraft, rfl⟩ | ⟨_, _, drafted, hdraft, -⟩ := ends_renderFile h
    · exact ⟨⟨failure, rfl⟩, failsQuietly_draft _ _ _ _ _ hdraft⟩
    · obtain ⟨_, _, _, hready, -⟩ := exists_isReady_of_ends hdraft
      exact absurd hhindered hready.not_isHindered
  · obtain ⟨failure, hdraft, rfl⟩ | ⟨diagnostics, drafted, moved, hdraft, hmoved, rfl⟩ :=
      ends_renderFile_plain h hstages hfinishing
    · exact ⟨fun _ _ => failsQuietly_draft _ _ _ _ _ hdraft, nofun⟩
    · obtain ⟨text, parsed, entries, hready, hwrite, -⟩ := exists_isReady_of_ends hdraft
      obtain ⟨renamed, hrenamed⟩ := (isDrafted_of_ends hdraft).exists_renamed
      obtain ⟨files, hfiles, rfl, rfl⟩ | ⟨fault, hfault, -, -⟩ := ends_change.mp hmoved
      · exact ⟨nofun,
          fun _ _ => ⟨text, parsed, entries, hready, isMade_of_rename hwrite hfiles⟩⟩
      · exact nomatch hrenamed.symm.trans hfault

/-- One source is made into a document, and another is missing. -/
theorem files_of_renderFile_markdown :
    (∃ rendered w',
      Ends (renderFile (fun _ _ => none) plainOptions 0 ⟨"/a.md"⟩) (emptySource "a.md")
          (.ok rendered) w' ∧
        w'.stages = [.parsing, .enriching, .writing] ∧ ∃ text parsed entries,
          IsReady plainOptions 0 ⟨"/a.md"⟩ (OutputPaths.ofSource ⟨"/a.md"⟩) {}
              (emptySource "a.md").files text parsed entries ∧
            IsMade ⟨"/a.md"⟩ entries (emptySource "a.md").files w'.files) ∧
      ∃ failure w',
        Ends (renderFile (fun _ _ => none) plainOptions 0 ⟨"/b.md"⟩) (emptySource "a.md")
            (.error failure) w' ∧ w'.files = (emptySource "a.md").files := by
  constructor
  · have hresult : ((renderFile (fun _ _ => none) plainOptions 0 ⟨"/a.md"⟩).run.run
        (emptySource "a.md")).run.1 = .ok ⟨⟨"/a.docx"⟩, []⟩ := by decide +kernel
    have hstages : ((renderFile (fun _ _ => none) plainOptions 0 ⟨"/a.md"⟩).run.run
        (emptySource "a.md")).run.2.stages = [.parsing, .enriching, .writing] := by decide +kernel
    have hends : Ends (renderFile (fun _ _ => none) plainOptions 0 ⟨"/a.md"⟩) (emptySource "a.md")
        (.ok ⟨⟨"/a.docx"⟩, []⟩) ((renderFile (fun _ _ => none) plainOptions 0 ⟨"/a.md"⟩).run.run
          (emptySource "a.md")).run.2 := Prod.ext hresult rfl
    exact ⟨_, _, hends, hstages,
      ((files_of_renderFile hends).2 _ hstages (by decide)).2 _ rfl⟩
  · have hends : Ends (renderFile (fun _ _ => none) plainOptions 0 ⟨"/b.md"⟩) (emptySource "a.md")
        _ _ := rfl
    obtain ⟨⟨failure, hfailure⟩, hfiles⟩ :=
      (files_of_renderFile hends).1 (.missing (by decide +kernel))
    exact ⟨failure, _, Prod.ext hfailure rfl, hfiles⟩

end ReportPress.Press
