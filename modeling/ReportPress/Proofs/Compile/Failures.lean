import ReportPress.Compile
import ReportPress.Proofs.Enrich.Attachments
import ReportPress.Proofs.Markup.Composition
import ReportPress.Proofs.Markup.HeadingLevels
import ReportPress.Proofs.Typeset.Outcome

/-!
# When a source cannot be compiled

Nothing is known here of the reader of sizes but that it goes by the signatures of files
(`ReadsBySignature`).

**The stages.**  The conventions for reports and the resolving of runes keep the attachments of a
report, and neither gives a title a level beyond six.  So a source that can be read ends with the
first failure among the attachments that were read (`endsWith_compile`).

**Which failures there are.**  The first failure is that of the first attachment that is not
acceptable (`exists_first_of_findSome?_failure?`), and never that of a heading
(`Attachment.failure?_ne_headingLevel`).

**The result.**  `compile_failures` — a source is compiled exactly if it can be read and everything
it takes from elsewhere is acceptable, and if it is not, the first attachment that is not acceptable
says why.
-/

namespace ReportPress

variable {files : Files} {directory : Path} {making : Typeset.Making} {tools : Typeset.Tools}
  {sizeOf? : Raster.SizeReader} {source : String} {parsed : Markup.Parsed}

/-! ## The stages -/

lemma attachments_resolveDocument (d : RawDocument) (hue : Inline.Hue) :
    ((Inline.resolveDocument d).run hue).1.attachments = d.attachments :=
  attachments_traverse _ d hue

lemma levels_resolveDocument (d : RawDocument) (hue : Inline.Hue) :
    ((Inline.resolveDocument d).run hue).1.levels = d.levels :=
  levels_traverse _ d hue

/-- There are styles for all titles of a report that has been read. -/
lemma level_le_of_enrich (h : Markup.parse source = .ok parsed) :
    ∀ level ∈ (Enrich.enrich parsed.document).1.levels, level ≤ Typeset.maxTitleLevel := by
  intro level hlevel
  rcases Enrich.level_of_enrich hlevel with rfl | hlevel
  · exact Nat.zero_le _
  · exact Markup.level_le_of_parse h level hlevel

/-- A source that can be read ends with what is in the way of the first of its attachments that is
not acceptable. -/
theorem endsWith_compile (hsizes : ReadsBySignature tools.sizeOf?)
    (h : Markup.parse source = .ok parsed) :
    Typeset.EndsWith
      (parsed.document.attachments.findSome? (Attachment.failure? tools.sizeOf? files directory))
      (compile files directory making source tools) := by
  have hread : readReport source = .ok ((Enrich.enrich parsed.document).1,
      parsed.diagnostics ++ (Enrich.enrich parsed.document).2) := by
    rw [readReport, h]
    rfl
  have hset : Typeset.EndsWith
      (parsed.document.attachments.findSome? (Attachment.failure? tools.sizeOf? files directory))
      (typesetRaw files directory making (Enrich.enrich parsed.document).1 tools) := by
    rw [← Enrich.attachments_enrich, ← attachments_resolveDocument _ (.ofDegrees 0), typesetRaw]
    refine Typeset.endsWith_typeset hsizes ?_
    rw [levels_resolveDocument]
    exact level_le_of_enrich h
  rw [compile, hread]
  have hall := hset.bind fun doc _ => Typeset.EndsWith.ok
    (⟨doc, parsed.diagnostics ++ (Enrich.enrich parsed.document).2⟩ : Compiled)
  rw [Option.or_none] at hall
  exact hall

lemma compile_of_parse_error {fault : Markup.ParseFailure}
    (h : Markup.parse source = .error fault) :
    compile files directory making source tools = .error (.parse fault) := by
  rw [compile, readReport, h]
  rfl

/-! ## Failures -/

/-- No attachment fails as a heading does. -/
lemma Attachment.failure?_ne_headingLevel (a : Attachment) (level : Nat) :
    a.failure? sizeOf? files directory ≠ some (.headingLevel level) := by
  intro h
  cases a with
  | picture source =>
      unfold failure? at h
      dsimp only at h
      split_ifs at h
      · exact nomatch h
      · split at h
        · exact nomatch h
        · split_ifs at h
          exact nomatch h
      · exact nomatch h
  | document path =>
      unfold failure? at h
      dsimp only at h
      split_ifs at h
      · exact nomatch h
      · exact nomatch h

/-- There is no failure among attachments if all of them are acceptable. -/
lemma findSome?_failure?_eq_none_iff {as : List Attachment} :
    as.findSome? (Attachment.failure? sizeOf? files directory) = none ↔
      ∀ a ∈ as, a.IsAcceptable sizeOf? files directory := by
  rw [List.findSome?_eq_none_iff]
  exact forall₂_congr fun a _ => Attachment.failure?_eq_none_iff

/-- The first failure among attachments is that of the first that is not acceptable. -/
lemma exists_first_of_findSome?_failure? {as : List Attachment} {failure : Failure}
    (h : as.findSome? (Attachment.failure? sizeOf? files directory) = some failure) :
    ∃ before a after, as = before ++ a :: after ∧
      (∀ b ∈ before, b.IsAcceptable sizeOf? files directory) ∧
        ¬ a.IsAcceptable sizeOf? files directory ∧
          a.failure? sizeOf? files directory = some failure := by
  obtain ⟨before, a, after, has, hfailure, hbefore⟩ := List.findSome?_eq_some_iff.mp h
  refine ⟨before, a, after, has, fun b hb => Attachment.failure?_eq_none_iff.mp (hbefore b hb), ?_,
    hfailure⟩
  rw [← Attachment.failure?_eq_none_iff, hfailure]
  exact Option.some_ne_none failure

/-- An acceptable picture is loaded, and its contents have a format that a document may embed. -/
lemma exists_loadImage_of_isAcceptable (hsizes : ReadsBySignature sizeOf?) {image : String}
    (h : (Attachment.picture image).IsAcceptable sizeOf? files directory) :
    ∃ loaded, Typeset.loadImage files directory image sizeOf? = .ok loaded ∧
      ∀ width height, (Word.Picture.ofBytes? loaded.data width height).isSome := by
  have hload : Typeset.EndsWith ((Attachment.picture image).failure? sizeOf? files directory)
      (Typeset.loadImage files directory image sizeOf?) := Typeset.endsWith_loadImage image
  rw [Attachment.failure?_eq_none_iff.mpr h] at hload
  obtain ⟨loaded, hloaded⟩ := hload.exists_eq_ok
  exact ⟨loaded, hloaded, Typeset.isSome_ofBytes?_of_loadImage hsizes hloaded⟩

/-! ## The result -/

/-- A source is compiled exactly if it can be read and all that it takes from elsewhere is
acceptable; otherwise it fails as the reading does, or as the first of its attachments that is not
acceptable.  It never fails for the level of a heading, nor for the format of a picture that is
acceptable. -/
theorem compile_failures (files : Files) (directory : Path) (making : Typeset.Making)
    (source : String) (tools : Typeset.Tools) (hsizes : ReadsBySignature tools.sizeOf?) :
    ((∃ compiled, compile files directory making source tools = .ok compiled) ↔
        ∃ parsed, Markup.parse source = .ok parsed ∧
          ∀ a ∈ parsed.document.attachments, a.IsAcceptable tools.sizeOf? files directory) ∧
      (∀ fault, Markup.parse source = .error fault →
        compile files directory making source tools = .error (.parse fault)) ∧
      (∀ parsed failure, Markup.parse source = .ok parsed →
        compile files directory making source tools = .error failure →
          ∃ before a after, parsed.document.attachments = before ++ a :: after ∧
            (∀ b ∈ before, b.IsAcceptable tools.sizeOf? files directory) ∧
              ¬ a.IsAcceptable tools.sizeOf? files directory ∧
                a.failure? tools.sizeOf? files directory = some failure) ∧
      (∀ level, compile files directory making source tools ≠ .error (.headingLevel level)) ∧
      ∀ image, (Attachment.picture image).IsAcceptable tools.sizeOf? files directory →
        ∃ loaded, Typeset.loadImage files directory image tools.sizeOf? = .ok loaded ∧
          ∀ width height, (Word.Picture.ofBytes? loaded.data width height).isSome := by
  have hends {parsed : Markup.Parsed} (h : Markup.parse source = .ok parsed) :
      Typeset.EndsWith
        (parsed.document.attachments.findSome? (Attachment.failure? tools.sizeOf? files directory))
        (compile files directory making source tools) := endsWith_compile hsizes h
  refine ⟨⟨?_, ?_⟩, fun fault => compile_of_parse_error, ?_, ?_,
    fun image => exists_loadImage_of_isAcceptable hsizes⟩
  · rintro ⟨compiled, hcompile⟩
    rw [hcompile] at hends
    cases hparse : Markup.parse source with
    | error fault => exact nomatch hcompile.symm.trans (compile_of_parse_error hparse)
    | ok parsed => exact ⟨parsed, rfl, findSome?_failure?_eq_none_iff.mp (hends hparse).eq_none⟩
  · rintro ⟨parsed, hparse, hacceptable⟩
    have hnone := findSome?_failure?_eq_none_iff.mpr hacceptable
    exact (hnone ▸ hends hparse).exists_eq_ok
  · intro parsed failure hparse hcompile
    exact exists_first_of_findSome?_failure? (hcompile ▸ hends hparse).eq_some
  · intro level hcompile
    rw [hcompile] at hends
    cases hparse : Markup.parse source with
    | error fault => exact nomatch hcompile.symm.trans (compile_of_parse_error hparse)
    | ok parsed =>
        obtain ⟨a, -, ha⟩ := List.exists_of_findSome?_eq_some (hends hparse).eq_some
        exact Attachment.failure?_ne_headingLevel a level ha

/-- Another document, and below it a picture. -/
def attachedSource : String := "!!(a.docx)\x7b\x7d\n![x](b.gif)"

/-- The smallest GIF file, a single dot. -/
def dotFile : Bytes :=
  [0x47, 0x49, 0x46, 0x38, 0x39, 0x61, 1, 0, 1, 0, 0x80, 0, 0, 0xFF, 0xFF, 0xFF, 0, 0, 0,
    0x2C, 0, 0, 0, 0, 1, 0, 1, 0, 0, 2, 2, 0x44, 1, 0, 0x3B]

/-- A directory with that document, but without the picture. -/
def documentFiles : Files := ⟨[(["a.docx"], .file { content := .bytes [] })]⟩

/-- A directory with both. -/
def attachedFiles : Files :=
  ⟨[(["a.docx"], .file { content := .bytes [] }), (["b.gif"], .file { content := .bytes dotFile })]⟩

lemma parse_attachedSource :
    ∃ parsed, Markup.parse attachedSource = .ok parsed ∧
      parsed.document.attachments = [.document "a.docx", .picture "b.gif"] := by
  have hlines : Markup.sourceLines attachedSource
      = ["!!(a.docx)\x7b\x7d", "![x](b.gif)"] := rfl
  have hdirective : Markup.classify "!!(a.docx)\x7b\x7d"
      = .ok ⟨.plain, "!!(a.docx)\x7b\x7d", 0⟩ := by decide
  have hpicture : Markup.classify "![x](b.gif)"
      = .ok ⟨.image "x" "b.gif" none none, "![x](b.gif)", 0⟩ := by decide
  have hread : Markup.Reads {} (Markup.sourceLines attachedSource)
      { newest := [.image ⟨"x", "b.gif", none, none⟩, .ofText "!!(a.docx)\x7b\x7d"] } := by
    have hfirst : Markup.Reader.step {} "!!(a.docx)\x7b\x7d"
        = .ok { newest := [.ofText "!!(a.docx)\x7b\x7d"] } := by
      simp only [Markup.Reader.step, hdirective, bind, Except.bind]
      rfl
    have hsecond : Markup.Reader.step { newest := [.ofText "!!(a.docx)\x7b\x7d"] } "![x](b.gif)"
        = .ok { newest := [.image ⟨"x", "b.gif", none, none⟩, .ofText "!!(a.docx)\x7b\x7d"] } := by
      simp only [Markup.Reader.step, hpicture, bind, Except.bind]
      rfl
    rw [hlines]
    exact .cons hfirst (.cons hsecond (.nil _))
  have hexternal : Markup.external? "!!(a.docx)\x7b\x7d" = some (⟨"a.docx", []⟩, []) := by cbv
  have hdetect : Markup.detect
      [.ofText "!!(a.docx)\x7b\x7d", .image ⟨"x", "b.gif", none, none⟩]
        = ([.external ⟨"a.docx", []⟩, .image ⟨"x", "b.gif", none, none⟩], []) := by
    have hnode : Markup.externalNode (.ofText "!!(a.docx)\x7b\x7d")
        = (.external ⟨"a.docx", []⟩, []) := by
      simp only [Node.ofText, Markup.externalNode, hexternal]
    have hkept : Markup.dropEmptyTexts
        [.ofText "!!(a.docx)\x7b\x7d", .image ⟨"x", "b.gif", none, none⟩]
          = [.ofText "!!(a.docx)\x7b\x7d", .image ⟨"x", "b.gif", none, none⟩] := rfl
    rw [Markup.detect, hkept, Markup.externals, List.map_cons, List.flatMap_cons, hnode]
    rfl
  refine ⟨_, Markup.parse_of_reads hread, ?_⟩
  simp only [Markup.Reader.finish, List.reverse_cons, List.reverse_nil, List.nil_append,
    List.singleton_append, hdetect]
  rfl

/-- Where the document and the picture are, the source is compiled, and the picture can be embedded.
Where only the document is, the picture says what the failure is. -/
theorem compile_attachedSource :
    (∃ compiled, compile attachedFiles ⟨"/"⟩ ⟨0, 0⟩ attachedSource = .ok compiled) ∧
      (∃ loaded, Typeset.loadImage attachedFiles ⟨"/"⟩ "b.gif" = .ok loaded ∧
        (Word.Picture.ofBytes? loaded.data 1 1).isSome) ∧
      compile documentFiles ⟨"/"⟩ ⟨0, 0⟩ attachedSource = .error (.missingFile ⟨"/b.gif"⟩) := by
  obtain ⟨parsed, hparse, hattachments⟩ := parse_attachedSource
  have hboth : ∀ a ∈ parsed.document.attachments,
      a.IsAcceptable Raster.pixelSize? attachedFiles ⟨"/"⟩ := by
    intro a ha
    rw [hattachments] at ha
    have hall : ∀ a ∈ [Attachment.document "a.docx", .picture "b.gif"],
        a.failure? Raster.pixelSize? attachedFiles ⟨"/"⟩ = none := by decide
    exact Attachment.failure?_eq_none_iff.mp (hall a ha)
  obtain ⟨hok, -, -, -, hembedded⟩ :=
    compile_failures attachedFiles ⟨"/"⟩ ⟨0, 0⟩ attachedSource {} readsBySignature_pixelSize?
  obtain ⟨loaded, hloaded, hsome⟩ := hembedded "b.gif" (hboth _ (by simp [hattachments]))
  refine ⟨hok.mpr ⟨parsed, hparse, hboth⟩, ⟨loaded, hloaded, hsome 1 1⟩, ?_⟩
  obtain ⟨hok, -, hfirst, -⟩ :=
    compile_failures documentFiles ⟨"/"⟩ ⟨0, 0⟩ attachedSource {} readsBySignature_pixelSize?
  have hdocument : (Attachment.document "a.docx").failure? Raster.pixelSize? documentFiles ⟨"/"⟩
      = none := by decide
  have hpicture : (Attachment.picture "b.gif").failure? Raster.pixelSize? documentFiles ⟨"/"⟩
      = some (.missingFile ⟨"/b.gif"⟩) := by decide
  cases hcompile : compile documentFiles ⟨"/"⟩ ⟨0, 0⟩ attachedSource with
  | ok compiled =>
      obtain ⟨parsed', hparse', hacceptable⟩ := hok.mp ⟨compiled, hcompile⟩
      obtain rfl := Except.ok.inj (hparse.symm.trans hparse')
      have hnone := Attachment.failure?_eq_none_iff.mpr
        (hacceptable (.picture "b.gif") (by simp [hattachments]))
      exact nomatch hpicture.symm.trans hnone
  | error failure =>
      obtain ⟨before, a, after, hcut, -, -, hfailure⟩ := hfirst parsed failure hparse hcompile
      have ha : a ∈ [Attachment.document "a.docx", .picture "b.gif"] := by
        rw [← hattachments, hcut]
        exact List.mem_append_cons_self
      rcases List.mem_pair.mp ha with rfl | rfl
      · exact nomatch hdocument.symm.trans hfailure
      · exact congrArg _ (Option.some.inj (hfailure.symm.trans hpicture))

end ReportPress
