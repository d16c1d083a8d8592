import ReportPress.Proofs.Press.Course
import ReportPress.Proofs.Press.Draft
import ReportPress.Proofs.Press.OutputPaths

/-!
# What a report that fails leaves behind

Once a document has been drafted, the finishing touches can still break down.  What was made for the
time being should then be gone: the drafted document, and the exported parts.

* `IsClean` — nothing made for the time being is left.
* `Breakdown`, `BreaksDown` — the ways in which the finishing touches break down.

**Nothing else breaks down.**  `IsDrafted.exists_renamed` — a drafted document can always take its
final name.  `breaksDown_of_finished` — there are no other ways.

**The result.**  `exists_breakdown` — in which of these ways nothing is left.
-/

namespace ReportPress.Press

variable {programs : Programs} {o : Options} {now : Int} {source : Path} {paths : OutputPaths}
  {tools : Typeset.Tools} {w w' drafted : World} {fs left : Files} {p : Path} {failure : Failure}

/-- Nothing made for the time being is left: no drafted document and, where parts are exported,
nothing under the name of their folder. -/
def IsClean (o : Options) (paths : OutputPaths) (files : Files) : Prop :=
  ¬ files.isPresent paths.temp = true ∧
    (o.renderPdf = true → ¬ files.isPresent paths.pdfParts = true)

/-! ## The ways in which the finishing touches break down -/

/-- The files without one, if it can be removed. -/
def withoutFile (p : Path) (files : Files) : Files := (files.remove p).toOption.getD files

/-- How the first program is called. -/
def finishCall (o : Options) (paths : OutputPaths) : Call where
  program := o.finishing.program
  args := finishingArgs o paths.temp paths.docx o.renderPdf
  directory := some paths.directory

/-- How the second program is called. -/
def joinCall (o : Options) (paths : OutputPaths) (parts : List Path) : Call where
  program := o.joining.program
  args := o.joining.args ++ (parts ++ [paths.pdf]).map Path.text

/-- What has been cleared away before the first program is called. -/
inductive Clears (o : Options) (paths : OutputPaths) (files : Files) : Files → Prop where
  | unwanted (hpdf : o.renderPdf = false) : Clears o paths files files
  | absent (hpdf : o.renderPdf = true) (h : files.removeTree paths.pdfParts = .error .notFound) :
      Clears o paths files files
  | removed {clear : Files} (hpdf : o.renderPdf = true)
      (h : files.removeTree paths.pdfParts = .ok clear) : Clears o paths files clear

/-- The first program has exported parts, and the drafted document has been removed. -/
inductive Exports (programs : Programs) (o : Options) (paths : OutputPaths) (files : Files) :
    Files → List Path → Prop where
  | exported {clear : Files} {outcome : Outcome} {parts : List Path} (hpdf : o.renderPdf = true)
      (hclear : Clears o paths files clear)
      (hfinish : programs (finishCall o paths) clear = some outcome)
      (hgarbled : outcome.garbled = false) (hstatus : outcome.status = 0)
      (hparts : exportedParts (withoutFile paths.temp outcome.files) paths.pdfParts = .ok parts) :
      Exports programs o paths files (withoutFile paths.temp outcome.files) parts

/-- Where the finishing touches break down, with the files that a program left. -/
inductive Breakdown where
  /-- What is in the way of the exported parts cannot be cleared away. -/
  | clearing
  /-- The first program cannot be begun. -/
  | noFinisher
  /-- The first program fails, prints what is no text, or does not export anything. -/
  | finisher (left : Files)
  /-- The second program cannot be begun. -/
  | noJoiner
  /-- The second program fails, or the exported parts cannot be cleared away afterwards. -/
  | joiner (left : Files)

/-- The finishing touches break down with a failure, and leave files behind. -/
inductive BreaksDown (programs : Programs) (o : Options) (paths : OutputPaths) (files : Files) :
    Breakdown → Failure → Files → Prop where
  | clearing {fault : Fault} (hpdf : o.renderPdf = true)
      (h : files.removeTree paths.pdfParts = .error fault) (hfault : fault ≠ .notFound) :
      BreaksDown programs o paths files .clearing (.storage fault) files
  | noFinisher {clear : Files} (hclear : Clears o paths files clear)
      (hfinish : programs (finishCall o paths) clear = none) :
      BreaksDown programs o paths files .noFinisher
        (.stage (.cannotStart o.finishing.program)) (withoutFile paths.temp clear)
  | finisherGarbled {clear : Files} {outcome : Outcome} (hclear : Clears o paths files clear)
      (hfinish : programs (finishCall o paths) clear = some outcome)
      (hgarbled : outcome.garbled = true) :
      BreaksDown programs o paths files (.finisher outcome.files) (.storage .notText)
        (withoutFile paths.temp outcome.files)
  | finisherExited {clear : Files} {outcome : Outcome} (hclear : Clears o paths files clear)
      (hfinish : programs (finishCall o paths) clear = some outcome)
      (hgarbled : outcome.garbled = false) (hstatus : outcome.status ≠ 0) :
      BreaksDown programs o paths files (.finisher outcome.files)
        (.stage (.exited o.finishing.program outcome.status)) (withoutFile paths.temp outcome.files)
  | noFolder {clear : Files} {outcome : Outcome} (hpdf : o.renderPdf = true)
      (hclear : Clears o paths files clear)
      (hfinish : programs (finishCall o paths) clear = some outcome)
      (hgarbled : outcome.garbled = false) (hstatus : outcome.status = 0)
      (hfolder : ¬ (withoutFile paths.temp outcome.files).isDirectory paths.pdfParts = true) :
      BreaksDown programs o paths files (.finisher outcome.files)
        (.stage (.noFolder paths.pdfParts)) (withoutFile paths.temp outcome.files)
  | noJoiner {exported : Files} {parts : List Path}
      (hexports : Exports programs o paths files exported parts)
      (hjoin : programs (joinCall o paths parts) exported = none) :
      BreaksDown programs o paths files .noJoiner (.stage (.cannotStart o.joining.program)) exported
  | joinerExited {exported : Files} {parts : List Path} {joined : Outcome}
      (hexports : Exports programs o paths files exported parts)
      (hjoin : programs (joinCall o paths parts) exported = some joined)
      (hstatus : joined.status ≠ 0) :
      BreaksDown programs o paths files (.joiner joined.files)
        (.stage (.exited o.joining.program joined.status)) joined.files
  | folderStays {exported : Files} {parts : List Path} {joined : Outcome} {fault : Fault}
      (hexports : Exports programs o paths files exported parts)
      (hjoin : programs (joinCall o paths parts) exported = some joined)
      (hstatus : joined.status = 0) (h : joined.files.removeTree paths.pdfParts = .error fault)
      (hfault : fault ≠ .notFound) :
      BreaksDown programs o paths files (.joiner joined.files) (.storage fault) joined.files

/-! ## Nothing else breaks down -/

/-- Removing a folder fails if something else is in its place. -/
lemma ends_removeFolder {done : Except Failure Unit} (h : Ends (removeFolder p) w done w') :
    (∃ fault, w.files.removeTree p = .error fault ∧ fault ≠ .notFound ∧
        done = .error (.storage fault) ∧ w'.files = w.files) ∨
      done = .ok () ∧ (w.files.removeTree p = .error .notFound ∧ w'.files = w.files ∨
        w.files.removeTree p = .ok w'.files) := by
  obtain ⟨files, hfiles, rfl, rfl⟩ | ⟨fault, hfault, rfl, rfl⟩ := ends_change.mp h
  · refine Or.inr ⟨rfl, ?_⟩
    split at hfiles
    case h_1 hremove => exact Or.inl ⟨hremove, (Except.ok.inj hfiles).symm⟩
    case h_2 => exact Or.inr hfiles
  · refine Or.inl ⟨fault, ?_⟩
    split at hfault
    case h_1 => exact nomatch hfault
    case h_2 hremove =>
      refine ⟨hfault, ?_, rfl, rfl⟩
      rintro rfl
      exact hremove hfault

lemma ends_removeQuietly {done : Except Failure Unit} :
    Ends (removeQuietly p) w done w' ↔
      done = .ok () ∧ w' = { w with files := withoutFile p w.files } := by
  simp only [removeQuietly, ends_change, withoutFile, Except.ok.injEq]
  simp

lemma ends_cleared {done : Except Failure Unit} (h : Ends (cleared o paths) w done w') :
    (∃ fault, o.renderPdf = true ∧ w.files.removeTree paths.pdfParts = .error fault ∧
        fault ≠ .notFound ∧ done = .error (.storage fault) ∧ w'.files = w.files) ∨
      done = .ok () ∧ Clears o paths w.files w'.files := by
  rw [cleared] at h
  split_ifs at h with hpdf
  · obtain ⟨fault, hfault⟩ | ⟨rfl, ⟨hremove, hfiles⟩ | hremove⟩ := ends_removeFolder h
    · exact Or.inl ⟨fault, hpdf, hfault⟩
    · rw [hfiles]
      exact Or.inr ⟨rfl, .absent hpdf hremove⟩
    · exact Or.inr ⟨rfl, .removed hpdf hremove⟩
  · obtain ⟨rfl, rfl⟩ := ends_pure.mp h
    exact Or.inr ⟨rfl, .unwanted (by simpa using hpdf)⟩

/-- How the second program ends. -/
lemma ends_join {parts : List Path} {done : Except Failure Unit}
    (h : Ends (join programs o parts paths.pdf) w done w') :
    (programs (joinCall o paths parts) w.files = none ∧
        done = .error (.stage (.cannotStart o.joining.program)) ∧ w'.files = w.files) ∨
      ∃ joined, programs (joinCall o paths parts) w.files = some joined ∧
        w'.files = joined.files ∧
          done = if joined.status ≠ 0 then
              .error (.stage (.exited o.joining.program joined.status))
            else .ok () := by
  obtain ⟨hnone, hdone, rfl⟩ | ⟨joined, hsome, rfl, hdone⟩ := ends_call.mp h
  · exact Or.inl ⟨Option.map_eq_none_iff.mp hnone, hdone, rfl⟩
  · obtain ⟨outcome, houtcome, rfl⟩ := Option.map_eq_some_iff.mp hsome
    exact Or.inr ⟨outcome, houtcome, rfl, by simpa using hdone⟩

/-- Joining the parts breaks down by the second program, or by what that leaves. -/
lemma breaksDown_of_joining {parts : List Path}
    (hexports : Exports programs o paths fs w.files parts)
    (h : Ends (do join programs o parts paths.pdf; removeFolder paths.pdfParts; return paths.pdf) w
      (.error failure) w') :
    ∃ breakdown, BreaksDown programs o paths fs breakdown failure w'.files := by
  obtain hfailed | ⟨_, joining, hjoined, hremoving⟩ := ends_bind_error.mp h
  · obtain ⟨hnone, hfailure, hleft⟩ | ⟨joined, hsome, hleft, hfailure⟩ := ends_join hfailed
    · obtain rfl := Except.error.inj hfailure
      rw [hleft]
      exact ⟨_, .noJoiner hexports hnone⟩
    · split_ifs at hfailure with hstatus
      obtain rfl := Except.error.inj hfailure
      rw [hleft]
      exact ⟨_, .joinerExited hexports hsome hstatus⟩
  · obtain ⟨-, hdone, -⟩ | ⟨joined, hsome, hleft, hdone⟩ := ends_join hjoined
    · exact nomatch hdone
    split_ifs at hdone with hstatus
    obtain hstays | ⟨_, removing, -, hpure⟩ := ends_bind_error.mp hremoving
    · obtain ⟨fault, hremove, hfault, hfailure, hfiles⟩ | ⟨hdone, -⟩ := ends_removeFolder hstays
      · obtain rfl := Except.error.inj hfailure
        rw [hleft] at hremove hfiles
        rw [hfiles]
        exact ⟨_, .folderStays hexports hsome (Decidable.not_not.mp hstatus) hremove hfault⟩
      · exact nomatch hdone
    · exact nomatch (ends_pure.mp hpure).1

/-- The export breaks down by parts that are missing, or when they are joined. -/
lemma breaksDown_of_exported {clear : Files} {outcome : Outcome} (hpdf : o.renderPdf = true)
    (hclear : Clears o paths fs clear)
    (hfinish : programs (finishCall o paths) clear = some outcome)
    (hgarbled : outcome.garbled = false) (hstatus : outcome.status = 0)
    (hfiles : w.files = withoutFile paths.temp outcome.files)
    (h : Ends (exported programs o paths) w (.error failure) w') :
    ∃ breakdown, BreaksDown programs o paths fs breakdown failure w'.files := by
  obtain hreport | ⟨_, reporting, hreport, hread⟩ := ends_bind_error.mp h
  · exact nomatch (ends_report.mp hreport).1
  obtain hget | ⟨read, reading, hget, hlist⟩ := ends_bind_error.mp hread
  · exact nomatch (ends_get.mp hget).1
  have hreporting : reporting.files = withoutFile paths.temp outcome.files := by
    rw [(ends_report.mp hreport).2, hfiles]
  obtain ⟨heq, rfl⟩ := ends_get.mp hget
  obtain rfl := Except.ok.inj heq
  obtain hmissing | ⟨parts, listing, hparts, hjoining⟩ := ends_bind_error.mp hlist
  · obtain ⟨hmissing, rfl⟩ := ends_ofExcept.mp hmissing
    rw [hreporting, exportedParts] at hmissing
    split_ifs at hmissing with hfolder
    obtain rfl := Except.error.inj hmissing
    rw [hreporting]
    exact ⟨_, .noFolder hpdf hclear hfinish hgarbled hstatus hfolder⟩
  · obtain ⟨hparts, rfl⟩ := ends_ofExcept.mp hparts
    refine breaksDown_of_joining ?_ hjoining
    rw [hreporting] at hparts ⊢
    exact .exported hpdf hclear hfinish hgarbled hstatus hparts.symm

/-- Once all is cleared away, the first program or the export breaks down. -/
lemma breaksDown_of_touched (hclear : Clears o paths fs w.files)
    (h : Ends (touched programs o paths) w (.error failure) w') :
    ∃ breakdown, BreaksDown programs o paths fs breakdown failure w'.files := by
  obtain houtcome | ⟨result, finishing, houtcome, hremoving⟩ := ends_bind_error.mp h
  · obtain ⟨_, -, hok⟩ := ends_outcome.mp houtcome
    exact nomatch hok
  obtain hremove | ⟨_, removing, hremove, hresult⟩ := ends_bind_error.mp hremoving
  · exact nomatch (ends_removeQuietly.mp hremove).1
  obtain ⟨ended, hfinish, hok⟩ := ends_outcome.mp houtcome
  obtain rfl := Except.ok.inj hok
  have hfiles : removing.files = withoutFile paths.temp finishing.files := by
    rw [(ends_removeQuietly.mp hremove).2]
  obtain hfailed | ⟨_, middle, hdone, hexported⟩ := ends_bind_error.mp hresult
  · obtain ⟨rfl, rfl⟩ := ends_ofExcept.mp hfailed
    rw [hfiles]
    obtain ⟨hnone, hfailure, rfl⟩ | ⟨outcome, hsome, rfl, hfailure⟩ := ends_call.mp hfinish
    · obtain rfl := Except.error.inj hfailure
      exact ⟨_, .noFinisher hclear hnone⟩
    · split_ifs at hfailure with hgarbled hstatus
      · obtain rfl := Except.error.inj hfailure
        exact ⟨_, .finisherGarbled hclear hsome hgarbled⟩
      · obtain rfl := Except.error.inj hfailure
        exact ⟨_, .finisherExited hclear hsome (by simpa using hgarbled) hstatus⟩
  · obtain ⟨rfl, rfl⟩ := ends_ofExcept.mp hdone
    obtain ⟨-, hfailure, -⟩ | ⟨outcome, hsome, rfl, hfailure⟩ := ends_call.mp hfinish
    · exact nomatch hfailure
    split_ifs at hfailure with hgarbled hstatus
    split_ifs at hexported with hpdf
    · exact breaksDown_of_exported hpdf hclear hsome (by simpa using hgarbled)
        (Decidable.not_not.mp hstatus) hfiles hexported
    · exact nomatch (ends_pure.mp hexported).1

/-- There are no other ways in which the finishing touches break down. -/
theorem breaksDown_of_finished (h : Ends (finished programs o paths) w (.error failure) w') :
    ∃ breakdown, BreaksDown programs o paths w.files breakdown failure w'.files := by
  rw [finished_eq] at h
  obtain hreport | ⟨_, reporting, hreport, hrest⟩ := ends_bind_error.mp h
  · exact nomatch (ends_report.mp hreport).1
  obtain ⟨-, rfl⟩ := ends_report.mp hreport
  obtain hclear | ⟨_, clear, hclear, htouched⟩ := ends_bind_error.mp hrest
  · obtain ⟨fault, hpdf, hremove, hfault, hfailure, hfiles⟩ | ⟨hdone, -⟩ := ends_cleared hclear
    · obtain rfl := Except.error.inj hfailure
      rw [hfiles]
      exact ⟨_, .clearing hpdf hremove hfault⟩
    · exact nomatch hdone
  · obtain ⟨_, -, -, -, hdone, -⟩ | ⟨-, hclears⟩ := ends_cleared hclear
    · exact nomatch hdone
    · exact breaksDown_of_touched hclears htouched

/-! ## What is left -/

/-- The document for the time being and the folder for parts are never at the same place. -/
lemma locate_pdfParts_ne {t : List String}
    (h : fs.locate (OutputPaths.ofSource source).temp = .ok t) :
    fs.locate (OutputPaths.ofSource source).pdfParts ≠ .ok t := by
  refine Files.locate_ne (names_temp source) (names_pdfParts source) (isName_temp source)
    (by decide) ?_ h
  intro heq
  have hlast := congrArg (fun name : String => name.toList.getLast?) heq
  simp at hlast

/-- The files without one are the same, or it was a file. -/
lemma withoutFile_eq (p : Path) (fs : Files) :
    (∃ t f, fs.locate p = .ok t ∧ fs.get? t = some (.file f) ∧
        withoutFile p fs = fs.without t) ∨
      withoutFile p fs = fs ∧ ∀ f, fs.fileAt p ≠ .ok f := by
  rw [withoutFile]
  cases hremove : fs.remove p with
  | ok left =>
      obtain ⟨t, f, ht, hf, rfl⟩ := Files.remove_eq_ok_iff.mp hremove
      exact Or.inl ⟨t, f, ht, hf, rfl⟩
  | error fault =>
      refine Or.inr ⟨rfl, fun f hfile => ?_⟩
      obtain ⟨t, ht, hf⟩ := Files.fileAt_eq_ok_iff.mp hfile
      exact nomatch hremove.symm.trans (Files.remove_eq_ok_iff.mpr ⟨t, f, ht, hf, rfl⟩)

/-- A file that is removed is gone; only a directory in its place would stay. -/
lemma isPresent_withoutFile : (withoutFile p fs).isPresent p = true ↔ fs.isDirectory p = true := by
  rw [Files.isDirectory_iff]
  obtain ⟨t, f, ht, hf, heq⟩ | ⟨heq, hnone⟩ := withoutFile_eq p fs
  · have hgone : fs.get? t ≠ some .directory := by simp [hf]
    have htop := Files.ne_nil_of_get?_ne hgone
    rw [heq]
    refine ⟨fun h => absurd h (Files.not_isPresent_without htop ht), ?_⟩
    rintro ⟨x, hx, hplace⟩
    obtain rfl := Except.ok.inj (ht.symm.trans hx)
    exact nomatch hf.symm.trans hplace
  · rw [heq, Files.isPresent_iff]
    constructor
    · rintro ⟨x, place, hx, hplace⟩
      cases place with
      | directory => exact ⟨x, hx, hplace⟩
      | file f => exact absurd (Files.fileAt_eq_ok_iff.mpr ⟨x, hx, hplace⟩) (hnone f)
    · rintro ⟨x, hx, hplace⟩
      exact ⟨x, _, hx, hplace⟩

/-- The drafted document is not in the folder for parts. -/
lemma isPresent_pdfParts_withoutFile :
    (withoutFile (OutputPaths.ofSource source).temp fs).isPresent
        (OutputPaths.ofSource source).pdfParts = true ↔
      fs.isPresent (OutputPaths.ofSource source).pdfParts = true := by
  obtain ⟨t, f, ht, hf, heq⟩ | ⟨heq, -⟩ := withoutFile_eq (OutputPaths.ofSource source).temp fs
  · rw [heq]
    exact Files.isPresent_without_iff (by simp [hf]) (locate_pdfParts_ne ht)
  · rw [heq]

lemma isClean_withoutFile :
    IsClean o (OutputPaths.ofSource source) (withoutFile (OutputPaths.ofSource source).temp fs) ↔
      ¬ fs.isDirectory (OutputPaths.ofSource source).temp = true ∧
        (o.renderPdf = true → ¬ fs.isPresent (OutputPaths.ofSource source).pdfParts = true) := by
  rw [IsClean, isPresent_withoutFile, isPresent_pdfParts_withoutFile]

/-- What has been cleared away is gone, and nothing else has come. -/
lemma Clears.isClean {clear : Files} {f : File}
    (hclear : Clears o (OutputPaths.ofSource source) fs clear)
    (hfile : fs.fileAt (OutputPaths.ofSource source).temp = .ok f) :
    IsClean o (OutputPaths.ofSource source)
      (withoutFile (OutputPaths.ofSource source).temp clear) := by
  have hdirectory := Files.not_isDirectory_of_fileAt hfile
  rw [isClean_withoutFile]
  cases hclear with
  | unwanted hpdf => exact ⟨hdirectory, fun h => absurd h (by simp [hpdf])⟩
  | absent hpdf h => exact ⟨hdirectory, fun _ => Files.not_isPresent_of_removeTree h⟩
  | removed hpdf h =>
      obtain ⟨t, ht, -, rfl⟩ := Files.removeTree_eq_ok_iff.mp h
      have htop : t ≠ [] := by
        obtain ⟨directory, rfl⟩ := Files.names_locate ht (names_pdfParts source) (by decide)
        simp
      exact ⟨fun h => hdirectory (Files.isDirectory_of_without htop h),
        fun _ => Files.not_isPresent_without htop ht⟩

/-- Where parts have been exported, their folder is there. -/
lemma Exports.isPresent {exported : Files} {parts : List Path}
    (h : Exports programs o paths fs exported parts) :
    o.renderPdf = true ∧ exported.isPresent paths.pdfParts = true := by
  obtain ⟨hpdf, -, -, -, -, hparts⟩ := h
  rw [exportedParts] at hparts
  split_ifs at hparts with hfolder
  exact ⟨hpdf, Files.isPresent_of_isDirectory hfolder⟩

/-- Whether nothing is left depends on where the finishing touches break down, and on what the
programs left. -/
def Breakdown.IsTidy (o : Options) (paths : OutputPaths) : Breakdown → Prop
  | clearing | noJoiner => False
  | noFinisher => True
  | finisher left => ¬ left.isDirectory paths.temp = true ∧
      (o.renderPdf = true → ¬ left.isPresent paths.pdfParts = true)
  | joiner left => ¬ left.isPresent paths.temp = true ∧ ¬ left.isPresent paths.pdfParts = true

lemma isClean_iff_of_breaksDown {breakdown : Breakdown} {f : File}
    (hfile : fs.fileAt (OutputPaths.ofSource source).temp = .ok f)
    (h : BreaksDown programs o (OutputPaths.ofSource source) fs breakdown failure left) :
    IsClean o (OutputPaths.ofSource source) left ↔
      breakdown.IsTidy o (OutputPaths.ofSource source) := by
  cases h with
  | clearing hpdf h hfault =>
      exact iff_of_false (fun hclean => hclean.1 (Files.isPresent_of_fileAt hfile)) id
  | noFinisher hclear hfinish => exact iff_of_true (hclear.isClean hfile) trivial
  | finisherGarbled hclear hfinish hgarbled => exact isClean_withoutFile
  | finisherExited hclear hfinish hgarbled hstatus => exact isClean_withoutFile
  | noFolder hpdf hclear hfinish hgarbled hstatus hfolder => exact isClean_withoutFile
  | noJoiner hexports hjoin =>
      obtain ⟨hpdf, hfolder⟩ := hexports.isPresent
      exact iff_of_false (fun hclean => hclean.2 hpdf hfolder) id
  | joinerExited hexports hjoin hstatus => simp [IsClean, Breakdown.IsTidy, hexports.isPresent.1]
  | folderStays hexports hjoin hstatus h hfault =>
      simp [IsClean, Breakdown.IsTidy, hexports.isPresent.1]

/-! ## The final name -/

/-- A drafted document can always take its final name. -/
theorem IsDrafted.exists_renamed
    (h : IsDrafted source (OutputPaths.ofSource source) w drafted) :
    ∃ renamed, drafted.files.rename (OutputPaths.ofSource source).temp
      (OutputPaths.ofSource source).docx = .ok renamed := by
  obtain ⟨entries, hwrite⟩ := h.written
  obtain ⟨t, f, ht, hplace, -, hfiles⟩ := Files.exists_of_write hwrite
  -- The final name is the other one without something in its middle.
  have hsubset : (outputStem source ++ "." ++ "docx").toList
      ⊆ (outputStem source ++ ".tmp" ++ "." ++ "docx").toList := by
    intro c hc
    simp only [String.toList_append, List.mem_append] at hc ⊢
    obtain (hc | hc) | hc := hc
    · exact Or.inl (Or.inl (Or.inl hc))
    · exact Or.inl (Or.inr hc)
    · exact Or.inr hc
  have hsize : (outputStem source ++ "." ++ "docx").utf8ByteSize
      ≤ (outputStem source ++ ".tmp" ++ "." ++ "docx").utf8ByteSize := by
    simp only [String.utf8ByteSize_append]
    omega
  have hjoined := ht
  rw [(ofSource_eq source).1] at hjoined
  obtain ⟨u, hu⟩ := Files.exists_locate_join hjoined (isName_temp source)
    (isName_docx source).ne_empty hsubset hsize
  rw [← (ofSource_eq source).2.1] at hu
  have hfree := Files.get?_ne_of_isLocked h.free hu
  refine ⟨_, Files.rename_eq_ok_iff.mpr ⟨t, u, f, ?_, ?_, ?_, ?_, rfl⟩⟩
  · exact hfiles ▸ Files.locate_set hplace ht
  · rw [hfiles, Files.get?_set (Files.ne_nil_of_get?_ne hplace), if_pos rfl]
  · exact hfiles ▸ Files.locate_set hplace hu
  · rw [hfiles, Files.get?_set (Files.ne_nil_of_get?_ne hplace)]
    split_ifs
    · exact nofun
    · exact hfree

/-- **What is left of a report that fails.**  Once the document has been drafted, only the
finishing touches fail, and nothing made for the time being is left where they break down tidily. -/
theorem exists_breakdown {answer : List Diagnostic × Bool}
    (hdraft : Ends (draft o now source (OutputPaths.ofSource source) tools) w (.ok answer) drafted)
    (h : Ends (renderFile programs o now source tools) w (.error failure) w') :
    ∃ breakdown,
      BreaksDown programs o (OutputPaths.ofSource source) drafted.files breakdown failure
          w'.files ∧
        (IsClean o (OutputPaths.ofSource source) w'.files ↔
          breakdown.IsTidy o (OutputPaths.ofSource source)) := by
  have hdrafted := isDrafted_of_ends hdraft
  obtain ⟨f, entries, hfile, -⟩ := hdrafted.exists_document
  obtain ⟨_, hfailed, -⟩ | ⟨diagnostics, finishing, drafted', hdraft', hrest⟩ := ends_renderFile h
  · exact nomatch (hdraft.unique hfailed).1
  obtain ⟨hanswer, rfl⟩ := hdraft.unique hdraft'
  cases finishing with
  | true =>
      obtain ⟨made, hmade, hresult⟩ := hrest
      cases made with
      | ok output => exact nomatch hresult
      | error cause =>
          obtain rfl := Except.error.inj hresult
          obtain ⟨breakdown, hbreaks⟩ := breaksDown_of_finished hmade
          exact ⟨breakdown, hbreaks, isClean_iff_of_breaksDown hfile hbreaks⟩
  | false =>
      obtain ⟨renamed, hrenamed⟩ := hdrafted.exists_renamed
      obtain ⟨moved, hmoved, hresult⟩ := hrest
      obtain ⟨_, -, rfl, -⟩ | ⟨fault, hfault, -, -⟩ := ends_change.mp hmoved
      · exact nomatch hresult
      · exact nomatch hrenamed.symm.trans hfault

/-- The failure tells where the finishing touches broke down. -/
lemma BreaksDown.eq_noFinisher {breakdown : Breakdown}
    (h : BreaksDown programs o paths fs breakdown failure left)
    (hfailure : failure = .stage (.cannotStart o.finishing.program))
    (hne : o.joining.program ≠ o.finishing.program) : breakdown = .noFinisher := by
  cases h with
  | noFinisher hclear hfinish => rfl
  | noJoiner hexports hjoin =>
      exact absurd (StageFault.cannotStart.inj (Failure.stage.inj hfailure)) hne
  | _ => simp at hfailure

/-- The options of a report whose pages are exported. -/
def exportOptions : Options := { renderPdf := true }

/-- If the first program cannot be begun, nothing is left. -/
theorem exists_breakdown_noFinisher : ∃ drafted w',
    Ends (draft exportOptions 0 ⟨"/a.md"⟩ (OutputPaths.ofSource ⟨"/a.md"⟩)) (emptySource "a.md")
        (.ok ([], true)) drafted ∧
      Ends (renderFile (fun _ _ => none) exportOptions 0 ⟨"/a.md"⟩) (emptySource "a.md")
        (.error (.stage (.cannotStart "powershell"))) w' ∧
      drafted.files.isPresent (OutputPaths.ofSource ⟨"/a.md"⟩).temp = true ∧
      IsClean exportOptions (OutputPaths.ofSource ⟨"/a.md"⟩) w'.files := by
  have hdraft : Ends (draft exportOptions 0 ⟨"/a.md"⟩ (OutputPaths.ofSource ⟨"/a.md"⟩))
      (emptySource "a.md") (.ok ([], true)) _ := Prod.ext (by decide +kernel) rfl
  have hrender : Ends (renderFile (fun _ _ => none) exportOptions 0 ⟨"/a.md"⟩)
      (emptySource "a.md") (.error (.stage (.cannotStart "powershell"))) _ :=
    Prod.ext (by decide +kernel) rfl
  obtain ⟨breakdown, hbreaks, hclean⟩ := exists_breakdown hdraft hrender
  obtain rfl := hbreaks.eq_noFinisher rfl (by decide)
  exact ⟨_, _, hdraft, hrender, by decide +kernel, hclean.mpr trivial⟩

/-- A program that exports one part and fails all the same. -/
def failingExport : Programs := fun _ files => some
  { files := ⟨([".md2gost_out", "01.pdf"], .file ⟨.bytes [], false, false⟩) ::
      ([".md2gost_out"], .directory) :: files.places⟩
    status := 3 }

/-- A source as it is, and a file in the way of the folder for parts. -/
def blockedSource : World :=
  { files := ⟨([".md2gost_out"], .file ⟨.bytes [], false, false⟩) ::
      (emptySource "a.md").files.places⟩ }

/-- What a failing program has exported is left, and a file that is in the way of the folder keeps
the drafted document from being removed. -/
theorem leftovers :
    (∃ drafted w',
      Ends (draft exportOptions 0 ⟨"/a.md"⟩ (OutputPaths.ofSource ⟨"/a.md"⟩)) (emptySource "a.md")
          (.ok ([], true)) drafted ∧
        Ends (renderFile failingExport exportOptions 0 ⟨"/a.md"⟩) (emptySource "a.md")
          (.error (.stage (.exited "powershell" 3))) w' ∧
        w'.files.isDirectory (OutputPaths.ofSource ⟨"/a.md"⟩).pdfParts = true) ∧
    ∃ drafted w',
      Ends (draft exportOptions 0 ⟨"/a.md"⟩ (OutputPaths.ofSource ⟨"/a.md"⟩)) blockedSource
          (.ok ([], true)) drafted ∧
        Ends (renderFile failingExport exportOptions 0 ⟨"/a.md"⟩) blockedSource
          (.error (.storage .notDirectory)) w' ∧
        w'.files.isFile (OutputPaths.ofSource ⟨"/a.md"⟩).temp = true := by
  refine ⟨⟨_, _, Prod.ext ?_ rfl, Prod.ext ?_ rfl, ?_⟩, _, _, Prod.ext ?_ rfl, Prod.ext ?_ rfl, ?_⟩
  all_goals decide +kernel

end ReportPress.Press
