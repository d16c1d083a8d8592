import ReportPress.Press.OutputPaths
import ReportPress.Proofs.Storage.Paths

/-!
# Where outputs lie

All that is written for a source lies beside it.  Whether it takes the place of the source is a
question of names.

* `names_beside` — a name in the directory of a source.
* `IsMarked` — a text with the mark of sources at its end.

**Stems.**  `outputStem_eq_iff` — the stem of outputs is that of the source exactly if this has no
mark at its end.

**Collisions.**  `names_temp_ne`, `names_docx_eq_iff`, `names_pdf_eq_iff` and
`names_pdfParts_eq_iff` — which outputs have the names of their source.
-/

namespace ReportPress.Press

open ReportPress.Path

variable {source : Path} {name extension : String}

/-! ## Beside a source -/

lemma directory_ofSource (source : Path) :
    (OutputPaths.ofSource source).directory = source.cleaned.directory?.getD ⟨""⟩ := by
  simp only [OutputPaths.ofSource]

lemma names_directory_ofSource (source : Path) :
    (OutputPaths.ofSource source).directory.names = source.names.dropLast := by
  rw [directory_ofSource, names_directory source.isAbsolute_cleaned, names_cleaned]

/-- A name beside a source. -/
lemma names_beside (h : IsName name) :
    ((OutputPaths.ofSource source).directory.join ⟨name⟩).names
      = source.names.dropLast ++ [name] := by
  rw [names_join (isAbsolute_of_not_mem h.noSlash), names_name h, names_directory_ofSource]

/-- A name beside a source is that of the source itself if this ends with it. -/
lemma dropLast_append_eq_iff (hname : IsName name) :
    source.names.dropLast ++ [name] = source.names ↔ source.fileName? = some name := by
  have hlast : source.names.dropLast ++ [name] = source.names
      ↔ source.names.getLast? = some name := by
    constructor
    · intro h
      rw [← h, List.getLast?_concat]
    · exact List.dropLast_append_getLast? _
  rw [hlast, fileName?]
  cases source.names.getLast? with
  | none => simp
  | some last =>
      split
      case h_1 heq =>
        obtain rfl := Option.some.inj heq
        simp [Ne.symm hname.notAbove]
      case h_2 => rfl

/-! ## Stems -/

/-- A text with the mark of sources at its end. -/
def IsMarked (s : String) : Prop := ".g".toList <:+ s.toList

instance : DecidablePred IsMarked := fun s =>
  inferInstanceAs (Decidable (".g".toList <:+ s.toList))

lemma suffix_dropSourceMarks (cs : List Char) : dropSourceMarks cs <:+ cs := by
  fun_induction dropSourceMarks cs with
  | case1 rest ih => exact ih.trans ⟨['g', '.'], rfl⟩
  | case2 => exact List.suffix_rfl

/-- No mark is left. -/
lemma dropSourceMarks_ne (cs rest : List Char) : dropSourceMarks cs ≠ 'g' :: '.' :: rest := by
  fun_induction dropSourceMarks cs with
  | case1 _ ih => exact ih
  | case2 cs hcs => exact hcs rest

lemma dropSourceMarks_eq_self_iff {cs : List Char} :
    dropSourceMarks cs = cs ↔ ¬ ['g', '.'] <+: cs := by
  constructor
  · rintro h ⟨rest, rfl⟩
    exact dropSourceMarks_ne _ rest h
  · intro h
    fun_cases dropSourceMarks cs with
    | case1 rest => exact absurd ⟨rest, rfl⟩ h
    | case2 => rfl

lemma toList_outputStem (source : Path) :
    (outputStem source).toList = (dropSourceMarks source.stem.toList.reverse).reverse := by
  rw [outputStem, String.toList_ofList]

/-- The stem of outputs is that of the source exactly if this has no mark at its end. -/
theorem outputStem_eq_iff : outputStem source = source.stem ↔ ¬ IsMarked source.stem := by
  have hmarked : IsMarked source.stem ↔ ['g', '.'] <+: source.stem.toList.reverse := by
    rw [IsMarked, ← List.reverse_prefix]
    rfl
  rw [hmarked, ← dropSourceMarks_eq_self_iff, ← String.toList_inj, toList_outputStem,
    List.reverse_eq_iff]

/-- A source has its stem from its last name. -/
lemma stem_eq (h : source.fileName? = some name) : source.stem = (cutName name).1 := by
  rw [stem, h]
  rfl

lemma extension?_eq (h : source.fileName? = some name) :
    source.extension? = (cutName name).2 := by
  rw [extension?, h]
  rfl

lemma mem_names_of_fileName? (h : source.fileName? = some name) : name ∈ source.names := by
  rw [fileName?] at h
  split at h
  · exact absurd h (by simp)
  · exact List.mem_of_getLast? h

lemma slash_not_mem_outputStem (source : Path) : '/' ∉ (outputStem source).toList := by
  have hstem : '/' ∉ source.stem.toList := by
    cases hname : source.fileName? with
    | none =>
        rw [stem, hname]
        exact List.not_mem_nil
    | some name =>
        have hslash := not_mem_of_mem_names (mem_names_of_fileName? hname)
        rw [stem_eq hname]
        cases hcut : (cutName name).2 with
        | none => rwa [cutName_eq_none hcut]
        | some extension =>
            obtain ⟨-, -, heq⟩ := cutName_eq_some_iff.mp (Prod.ext rfl hcut)
            intro hmem
            refine hslash ?_
            rw [heq, toList_dotted]
            exact List.mem_append_left _ hmem
  rw [toList_outputStem, List.mem_reverse]
  exact fun hmem => hstem (List.mem_reverse.mp ((suffix_dropSourceMarks _).subset hmem))

/-! ## Collisions -/

/-- The name of a source is that of an output exactly if it has the extension of this and no
mark. -/
lemma fileName?_eq_output_iff (hdot : '.' ∉ extension.toList)
    (hmark : ¬ IsMarked ("." ++ extension)) :
    source.fileName? = some (outputStem source ++ "." ++ extension) ↔
      source.extension? = some extension ∧ ¬ IsMarked source.stem := by
  constructor
  · intro h
    have hcut : cutName (outputStem source ++ "." ++ extension) = _ := cutName_dotted hdot
    by_cases hempty : outputStem source = ""
    · -- The name begins with its only dot, so that nothing is taken off.
      rw [if_pos hempty] at hcut
      have hstem : source.stem = "." ++ extension := by
        rw [stem_eq h, hcut, hempty, String.empty_append]
      have heq := outputStem_eq_iff.mpr (hstem ▸ hmark)
      rw [hempty, hstem, ← String.toList_inj] at heq
      exact absurd heq (by simp)
    · rw [if_neg hempty] at hcut
      have hstem : source.stem = outputStem source := by rw [stem_eq h, hcut]
      exact ⟨by rw [extension?_eq h, hcut], outputStem_eq_iff.mp hstem.symm⟩
  · rintro ⟨hextension, hstem⟩
    cases hname : source.fileName? with
    | none =>
        rw [extension?, hname] at hextension
        exact absurd hextension (by simp)
    | some name =>
        rw [extension?_eq hname] at hextension
        obtain ⟨-, -, heq⟩ := cutName_eq_some_iff.mp (Prod.ext rfl hextension)
        rw [outputStem_eq_iff.mpr hstem, stem_eq hname, ← heq]

/-- An output has a name. -/
lemma isName_output (source : Path) (hdot : '.' ∉ extension.toList)
    (hslash : '/' ∉ extension.toList) (hne : extension ≠ "") :
    IsName (outputStem source ++ "." ++ extension) := by
  obtain ⟨last, hlast⟩ : ∃ last, extension.toList.getLast? = some last :=
    Option.isSome_iff_exists.mp (List.getLast?_isSome.mpr (by simpa using hne))
  have hdotted (s : String) (hs : s.toList.getLast? = some '.') :
      outputStem source ++ "." ++ extension ≠ s := by
    rintro rfl
    rw [toList_dotted, List.getLast?_append, List.getLast?_cons, hlast] at hs
    obtain rfl : last = '.' := by simpa using hs
    exact hdot (List.mem_of_getLast? hlast)
  refine ⟨?_, ?_, hdotted ".." rfl⟩
  · rw [toList_dotted, List.mem_append, List.mem_cons, not_or, not_or]
    exact ⟨slash_not_mem_outputStem source, by decide, hslash⟩
  · have hempty : outputStem source ++ "." ++ extension ≠ "" := by
      rw [Ne, ← String.toList_inj, toList_dotted]
      simp
    simp [isVoid, hempty, hdotted "." rfl]

/-- An output takes the place of its source exactly if this has its extension and no mark. -/
theorem names_output_eq_iff (hdot : '.' ∉ extension.toList) (hslash : '/' ∉ extension.toList)
    (hne : extension ≠ "") (hmark : ¬ IsMarked ("." ++ extension)) :
    ((OutputPaths.ofSource source).directory.join
        ⟨outputStem source ++ "." ++ extension⟩).names = source.names ↔
      source.extension? = some extension ∧ ¬ IsMarked source.stem := by
  have hname := isName_output source hdot hslash hne
  rw [names_beside hname, dropLast_append_eq_iff hname, fileName?_eq_output_iff hdot hmark]

lemma outputStem_cleaned (source : Path) : outputStem source.cleaned = outputStem source := by
  rw [outputStem, outputStem, stem, stem, fileName?, fileName?, names_cleaned]

/-- Where the outputs of a source lie. -/
lemma ofSource_eq (source : Path) :
    let paths := OutputPaths.ofSource source
    paths.temp = paths.directory.join ⟨outputStem source ++ ".tmp" ++ "." ++ "docx"⟩ ∧
      paths.docx = paths.directory.join ⟨outputStem source ++ "." ++ "docx"⟩ ∧
      paths.pdf = paths.directory.join ⟨outputStem source ++ "." ++ "pdf"⟩ ∧
      paths.pdfParts = paths.directory.join partsFolder := by
  have hdocx : ".docx" = "." ++ "docx" := rfl
  have hpdf : ".pdf" = "." ++ "pdf" := rfl
  simp only [OutputPaths.ofSource, outputStem_cleaned, String.append_assoc, ← hdocx, ← hpdf]
  trivial

/-- The name of the document for the time being. -/
lemma isName_temp (source : Path) : IsName (outputStem source ++ ".tmp" ++ "." ++ "docx") := by
  have hne {s : String} (hs : s.toList.length < 5) :
      outputStem source ++ ".tmp" ++ "." ++ "docx" ≠ s := by
    rintro rfl
    rw [toList_dotted, List.length_append, List.length_cons] at hs
    have hdocx : "docx".toList.length = 4 := rfl
    omega
  refine ⟨?_, ?_, hne (by decide)⟩
  · rw [toList_dotted, String.toList_append, List.mem_append, List.mem_append, not_or, not_or]
    exact ⟨⟨slash_not_mem_outputStem source, by decide⟩, by decide⟩
  · simp [isVoid, hne (s := "") (by decide), hne (s := ".") (by decide)]

lemma names_temp (source : Path) :
    (OutputPaths.ofSource source).temp.names
      = source.names.dropLast ++ [outputStem source ++ ".tmp" ++ "." ++ "docx"] := by
  rw [(ofSource_eq source).1]
  exact names_beside (isName_temp source)

/-- The document for the time being never takes the place of the source. -/
theorem names_temp_ne (source : Path) :
    (OutputPaths.ofSource source).temp.names ≠ source.names := by
  rw [names_temp, Ne, dropLast_append_eq_iff (isName_temp source)]
  intro hname
  have hfront : outputStem source ++ ".tmp" ≠ "" := by
    rw [Ne, ← String.toList_inj, String.toList_append]
    simp
  have hstem : source.stem = outputStem source ++ ".tmp" := by
    rw [stem_eq hname, cutName_dotted (by decide), if_neg hfront]
  have hmark : ¬ IsMarked source.stem := by
    rintro ⟨front, hsuffix⟩
    have hlast := congrArg List.getLast? hsuffix
    rw [hstem, String.toList_append] at hlast
    simp at hlast
  have hlength := congrArg String.length (outputStem_eq_iff.mpr hmark)
  rw [hstem, String.length_append] at hlength
  have htmp : ".tmp".length = 4 := rfl
  omega

/-- The name of the document in the end. -/
lemma isName_docx (source : Path) : IsName (outputStem source ++ "." ++ "docx") :=
  isName_output source (by decide) (by decide) (by decide)

lemma names_docx (source : Path) :
    (OutputPaths.ofSource source).docx.names
      = source.names.dropLast ++ [outputStem source ++ "." ++ "docx"] := by
  rw [(ofSource_eq source).2.1]
  exact names_beside (isName_docx source)

lemma names_pdfParts (source : Path) :
    (OutputPaths.ofSource source).pdfParts.names
      = source.names.dropLast ++ [".md2gost_out"] := by
  rw [(ofSource_eq source).2.2.2]
  exact names_beside (by decide)

theorem names_docx_eq_iff :
    (OutputPaths.ofSource source).docx.names = source.names ↔
      source.extension? = some "docx" ∧ ¬ IsMarked source.stem := by
  rw [(ofSource_eq source).2.1]
  exact names_output_eq_iff (by decide) (by decide) (by decide) (by decide)

theorem names_pdf_eq_iff :
    (OutputPaths.ofSource source).pdf.names = source.names ↔
      source.extension? = some "pdf" ∧ ¬ IsMarked source.stem := by
  rw [(ofSource_eq source).2.2.1]
  exact names_output_eq_iff (by decide) (by decide) (by decide) (by decide)

/-- The folder for exported parts takes the place of the source exactly if this has its name. -/
theorem names_pdfParts_eq_iff :
    (OutputPaths.ofSource source).pdfParts.names = source.names ↔
      source.fileName? = some ".md2gost_out" := by
  rw [names_pdfParts, dropLast_append_eq_iff (by decide)]

end ReportPress.Press
