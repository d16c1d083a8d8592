import ReportPress.Proofs.Document.Attachments
import ReportPress.Typeset.Pictures
import ReportPress.Typeset.Placeholder
import ReportPress.Word.Paragraph

/-!
# Which pictures and documents can be set

* `signatures` — the first bytes of files in the four formats of pictures.
* `ReadsBySignature` — a reader that finds a size only in contents with one of them.
* `Attachment.IsAcceptable` — a picture whose extension is one of five, in a file that can be read
  and in which a reader finds a size; another document that is there and is a Word document by its
  name.
* `Attachment.failure?` — what is in the way of an attachment, the extension of a picture before its
  file and the file of a document before its name.
* `EndsWith` — work that fails with a given failure, or succeeds if there is none.

An attachment is acceptable exactly if nothing is in its way (`failure?_eq_none_iff`).

**Loading.**  `endsWith_loadImage` and `endsWith_placeholder` — loading an attachment fails with
what is in its way, and succeeds if nothing is.

**Two looks at the contents.**  What reads sizes and what embeds pictures look for first bytes by
themselves.  `isSome_ofBytes?_of_loadImage` — whatever is loaded can be embedded, if the reader goes
by signatures.  The one for the four formats does (`readsBySignature_pixelSize?`).
-/

namespace ReportPress

open Text

/-- The first bytes of files in the formats PNG, JPEG, GIF, of which there are two versions, and
BMP. -/
def signatures : List Bytes :=
  [[0x89, 0x50, 0x4E, 0x47, 0x0D, 0x0A, 0x1A, 0x0A], [0xFF, 0xD8, 0xFF],
    [0x47, 0x49, 0x46, 0x38, 0x37, 0x61], [0x47, 0x49, 0x46, 0x38, 0x39, 0x61], [0x42, 0x4D]]

/-- A size is found only in contents that begin with one of the signatures. -/
def ReadsBySignature (sizeOf? : Raster.SizeReader) : Prop :=
  ∀ data size, sizeOf? data = some size → ∃ signature ∈ signatures, signature <+: data

/-- The reader for the four formats goes by their signatures. -/
theorem readsBySignature_pixelSize? : ReadsBySignature Raster.pixelSize? := by
  have hformats : ∀ format ∈ Raster.formats, format.1 ∈ signatures := by
    intro format hformat
    have hmem := List.mem_map_of_mem (f := Prod.fst) hformat
    exact (by decide : ∀ s ∈ Raster.formats.map Prod.fst, s ∈ signatures) _ hmem
  intro data size hsize
  obtain ⟨format, hformat, -⟩ := Option.bind_eq_some_iff.mp hsize
  have hbegins := List.find?_some hformat
  exact ⟨format.1, hformats format (List.mem_of_find?_eq_some hformat),
    List.isPrefixOf_iff_prefix.mp hbegins⟩

/-- The extensions of pictures, in small letters. -/
def pictureExtensions : List String := ["png", "jpg", "jpeg", "gif", "bmp"]

namespace Attachment

variable {sizeOf? : Raster.SizeReader} {files : Files} {directory : Path} {a : Attachment}

/-- Whether an attachment can be set. -/
def IsAcceptable (sizeOf? : Raster.SizeReader) (files : Files) (directory : Path) :
    Attachment → Prop
  | .picture source =>
    let path := directory.join ⟨source⟩
    (∃ extension ∈ path.extension?, lowerAscii extension ∈ pictureExtensions) ∧
      files.isFile path = true ∧
      ∃ data size, files.readBytes path = .ok data ∧ sizeOf? data = some size
  | .document path =>
    let path := directory.join ⟨path⟩
    files.isPresent path = true ∧
      ∃ extension ∈ path.extension?, lowerAscii extension = Typeset.documentExtension

/-- What is in the way of an attachment. -/
def failure? (sizeOf? : Raster.SizeReader) (files : Files) (directory : Path) :
    Attachment → Option Failure
  | .picture source =>
    let path := directory.join ⟨source⟩
    let extension := path.extension?.getD ""
    if lowerAscii extension ∉ pictureExtensions then some (.unsupportedImage extension path)
    else if !files.isFile path then some (.missingFile path)
    else
      match files.readBytes path with
      | .error fault => some (.storage fault)
      | .ok data => if (sizeOf? data).isSome then none else some (.unreadableImage path)
  | .document path =>
    let path := directory.join ⟨path⟩
    if !files.isPresent path then some (.missingFile path)
    else if path.extension?.map lowerAscii ≠ some Typeset.documentExtension then
      some (.notWordDocument path)
    else none

/-- A path without an extension is not one with an extension that is empty, but neither is that of a
picture. -/
lemma lowerAscii_extension_mem_iff {path : Path} :
    lowerAscii (path.extension?.getD "") ∈ pictureExtensions ↔
      ∃ extension ∈ path.extension?, lowerAscii extension ∈ pictureExtensions := by
  cases path.extension? with
  | none => simp [pictureExtensions, lowerAscii]
  | some extension => simp

/-- An attachment is acceptable if nothing is in its way. -/
theorem failure?_eq_none_iff :
    a.failure? sizeOf? files directory = none ↔ a.IsAcceptable sizeOf? files directory := by
  cases a with
  | picture source =>
      unfold failure? IsAcceptable
      dsimp only
      rw [← lowerAscii_extension_mem_iff]
      split_ifs with hknown hmissing
      · simp_all
      · cases hread : files.readBytes (directory.join ⟨source⟩) with
        | error fault => simp
        | ok data => simp_all [Option.isSome_iff_exists]
      · simp_all
  | document path =>
      unfold failure? IsAcceptable
      dsimp only
      split_ifs with hmissing hextension
      · simp_all
      · simp_all
      · simp_all

end Attachment

namespace Typeset

variable {α β : Type} {sizeOf? : Raster.SizeReader} {files : Files} {directory : Path}
  {failure? : Option Failure} {work : Except Failure α}

/-! ## How work ends -/

/-- Work that fails with a given failure, or succeeds if there is none. -/
inductive EndsWith : Option Failure → Except Failure α → Prop
  | ok (a : α) : EndsWith none (.ok a)
  | error (failure : Failure) : EndsWith (some failure) (.error failure)

namespace EndsWith

lemma exists_eq_ok (h : EndsWith none work) : ∃ a, work = .ok a := by
  cases h with
  | ok a => exact ⟨a, rfl⟩

lemma eq_none {a : α} (h : EndsWith failure? (.ok a)) : failure? = none := by
  cases h with
  | ok => rfl

lemma eq_some {failure : Failure} (h : EndsWith failure? (.error failure : Except Failure α)) :
    failure? = some failure := by
  cases h with
  | error => rfl

/-- One piece of work after another ends with the first failure. -/
lemma bind {next : α → Except Failure β} {later? : Option Failure}
    (h : EndsWith failure? work) (hnext : ∀ a, work = .ok a → EndsWith later? (next a)) :
    EndsWith (failure?.or later?) (work >>= next) := by
  cases h with
  | ok a => exact hnext a rfl
  | error failure => exact .error failure

end EndsWith

/-! ## Loading -/

/-- A format is known by an extension in any letter case. -/
lemma ofExtension?_eq_none_iff {extension : String} :
    Word.ImageFormat.ofExtension? extension = none ↔ lowerAscii extension ∉ pictureExtensions := by
  unfold Word.ImageFormat.ofExtension?
  rw [← lowerAscii]
  generalize lowerAscii extension = small
  split <;> simp_all [pictureExtensions]

/-- A picture is loaded unless something is in its way. -/
theorem endsWith_loadImage (source : String) :
    EndsWith ((Attachment.picture source).failure? sizeOf? files directory)
      (loadImage files directory source sizeOf?) := by
  unfold Attachment.failure? loadImage
  dsimp only
  cases hformat :
      Word.ImageFormat.ofExtension? ((directory.join ⟨source⟩).extension?.getD "") with
  | none =>
      rw [if_pos (ofExtension?_eq_none_iff.mp hformat)]
      exact .error _
  | some format =>
      have hknown := ofExtension?_eq_none_iff.not.mp (by rw [hformat]; simp)
      rw [if_neg hknown]
      cases hfile : files.isFile (directory.join ⟨source⟩) with
      | false => exact .error _
      | true =>
          cases hread : files.readBytes (directory.join ⟨source⟩) with
          | error fault => exact .error _
          | ok data =>
              simp only [Bool.not_true, Bool.false_eq_true, if_false, if_true, Except.mapError,
                bind, Except.bind]
              cases sizeOf? data with
              | none => exact .error _
              | some size => exact .ok _

/-- Another document gets its placeholder unless something is in its way. -/
theorem endsWith_placeholder (d : ExternalDocument) :
    EndsWith ((Attachment.document d.path).failure? sizeOf? files directory)
      (placeholder files directory d) := by
  unfold Attachment.failure? placeholder
  dsimp only
  cases files.isPresent (directory.join ⟨d.path⟩) with
  | false => exact .error _
  | true =>
      by_cases hextension : (directory.join ⟨d.path⟩).extension?.map lowerAscii
          = some documentExtension
      · rw [if_neg (by simp), if_neg (not_not.mpr hextension), if_pos hextension]
        exact .ok _
      · rw [if_neg (by simp), if_pos hextension, if_neg hextension]
        exact .error _

/-! ## Embedding -/

/-- What is loaded has a size. -/
lemma exists_size_of_loadImage {source : String} {loaded : LoadedImage}
    (h : loadImage files directory source sizeOf? = .ok loaded) :
    ∃ size, sizeOf? loaded.data = some size := by
  unfold loadImage at h
  dsimp only at h
  split at h
  case h_2 => exact nomatch h
  case h_1 format hformat =>
    split_ifs at h
    · cases hread : files.readBytes (directory.join ⟨source⟩) with
      | error fault =>
          rw [hread] at h
          exact nomatch h
      | ok data =>
          simp only [hread, Except.mapError, bind, Except.bind] at h
          split at h
          case h_2 => exact nomatch h
          case h_1 width height hsize =>
            obtain rfl := Except.ok.inj h
            exact ⟨_, hsize⟩
    · exact nomatch h

/-- Contents with a signature have a format that a document may embed. -/
lemma isSome_detect {data signature : Bytes} (h : signature ∈ signatures)
    (hdata : signature <+: data) : (Word.ImageFormat.detect data).isSome := by
  have hbegins : signature.isPrefixOf data = true := List.isPrefixOf_iff_prefix.mpr hdata
  unfold Word.ImageFormat.detect
  split_ifs with hpng hjpeg hgif hbmp
  · rfl
  · rfl
  · rfl
  · rfl
  · have hknown : ∀ s ∈ signatures, s = Word.ImageFormat.pngSignature ∨
        s = Word.ImageFormat.jpegSignature ∨ s ∈ Word.ImageFormat.gifSignatures ∨
        s = Word.ImageFormat.bmpSignature := by decide
    rcases hknown signature h with hsame | hsame | hmem | hsame
    · exact absurd (hsame ▸ hbegins) hpng
    · exact absurd (hsame ▸ hbegins) hjpeg
    · exact absurd (List.any_eq_true.mpr ⟨signature, hmem, hbegins⟩) hgif
    · exact absurd (hsame ▸ hbegins) hbmp

/-- What is loaded can be embedded, if sizes are read by signatures. -/
theorem isSome_ofBytes?_of_loadImage (hsizes : ReadsBySignature sizeOf?) {source : String}
    {loaded : LoadedImage} (h : loadImage files directory source sizeOf? = .ok loaded)
    (width height : UInt32) : (Word.Picture.ofBytes? loaded.data width height).isSome := by
  obtain ⟨size, hsize⟩ := exists_size_of_loadImage h
  obtain ⟨signature, hsignature, hdata⟩ := hsizes _ _ hsize
  rw [Word.Picture.ofBytes?, Option.isSome_map]
  exact isSome_detect hsignature hdata

end Typeset

end ReportPress
