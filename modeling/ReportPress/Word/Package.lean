import ReportPress.Word.ImageFormat
import ReportPress.Xml.Tree

/-!
# Packages

A document is an archive of named entries.  One of them lists the content type of every other, by
name for the parts that are XML and by extension for the rest.

* `Content`, `Entry`, `Package` — entries in the order in which they were added, with what the
  list of content types will say about them.
* `Package.add` and its kinds — one more entry; no two have the same name.
* `Package.finish` — the entries that every archive ends with.
-/

namespace ReportPress.Word

/-- The content of an entry. -/
inductive Content where
  | text (s : String)
  | bytes (data : Bytes)
deriving DecidableEq, Repr

/-- A named content. -/
structure Entry where
  name : String
  content : Content
deriving DecidableEq, Repr

/-- Two entries of the same name. -/
structure DuplicateEntry where
  name : String
deriving DecidableEq, Repr

/-- An archive that is being filled. -/
structure Package where
  entries : List Entry := []
  /-- Names of parts and their content types. -/
  overrides : List (String × String) := []
  /-- The formats of the pictures. -/
  formats : List ImageFormat := []
deriving Repr

/-- The types of the parts of a document. -/
inductive PartType where
  | document
  | styles
  | numbering
  | settings
  | footer
  | coreProperties
  | extendedProperties
deriving DecidableEq, Repr

/-- The content type that stands for a type of part. -/
def PartType.name : PartType → String
  | document => "application/vnd.openxmlformats-officedocument.wordprocessingml.document.main+xml"
  | styles => "application/vnd.openxmlformats-officedocument.wordprocessingml.styles+xml"
  | numbering => "application/vnd.openxmlformats-officedocument.wordprocessingml.numbering+xml"
  | settings => "application/vnd.openxmlformats-officedocument.wordprocessingml.settings+xml"
  | footer => "application/vnd.openxmlformats-officedocument.wordprocessingml.footer+xml"
  | coreProperties => "application/vnd.openxmlformats-package.core-properties+xml"
  | extendedProperties => "application/vnd.openxmlformats-officedocument.extended-properties+xml"

/-- The content type of relations. -/
def relationsType : String := "application/vnd.openxmlformats-package.relationships+xml"

namespace Package

/-! ## Entries -/

/-- One more entry. -/
def add (p : Package) (name : String) (content : Content) : Except DuplicateEntry Package :=
  if p.entries.any fun e => e.name = name then .error ⟨name⟩
  else .ok { p with entries := p.entries ++ [⟨name, content⟩] }

/-- A part that is XML, with its content type. -/
def addPart (p : Package) (name type text : String) : Except DuplicateEntry Package := do
  let p ← p.add name (.text text)
  return { p with overrides := p.overrides ++ [("/" ++ name, type)] }

/-- Relations; all of them have the same content type. -/
def addRelations (p : Package) (name text : String) : Except DuplicateEntry Package :=
  p.add name (.text text)

/-- A picture; its extension tells the content type. -/
def addMedia (p : Package) (name : String) (format : ImageFormat) (data : Bytes) :
    Except DuplicateEntry Package := do
  let p ← p.add name (.bytes data)
  return if p.formats.contains format then p else { p with formats := p.formats ++ [format] }

/-! ## The last entries -/

/-- What the whole package refers to. -/
def rootRelations : Xml :=
  .element "Relationships"
    [⟨"xmlns", "http://schemas.openxmlformats.org/package/2006/relationships", false⟩] [
    .empty "Relationship" [⟨"Id", "rId1", false⟩,
      ⟨"Type", "http://schemas.openxmlformats.org/officeDocument/2006/relationships/officeDocument",
        false⟩,
      ⟨"Target", "word/document.xml", false⟩],
    .empty "Relationship" [⟨"Id", "rId2", false⟩,
      ⟨"Type",
        "http://schemas.openxmlformats.org/package/2006/relationships/metadata/core-properties",
        false⟩,
      ⟨"Target", "docProps/core.xml", false⟩],
    .empty "Relationship" [⟨"Id", "rId3", false⟩,
      ⟨"Type",
        "http://schemas.openxmlformats.org/officeDocument/2006/relationships/extended-properties",
        false⟩,
      ⟨"Target", "docProps/app.xml", false⟩]]

/-- The content type of an extension. -/
def defaultType (extension type : String) : Xml :=
  .empty "Default" [⟨"Extension", extension, false⟩, ⟨"ContentType", type, false⟩]

/-- The content type of a part. -/
def overrideType (part : String × String) : Xml :=
  .empty "Override" [⟨"PartName", part.1, false⟩, ⟨"ContentType", part.2, false⟩]

/-- The list of content types. -/
def contentTypes (p : Package) : Xml :=
  .element "Types"
    [⟨"xmlns", "http://schemas.openxmlformats.org/package/2006/content-types", false⟩]
    (defaultType "rels" relationsType :: defaultType "xml" "application/xml" ::
      p.formats.map (fun f => defaultType f.extension f.mediaType) ++
      p.overrides.map overrideType)

/-- The finished archive. -/
def finish (p : Package) : Except DuplicateEntry (List Entry) := do
  let p ← p.add "_rels/.rels" (.text (Xml.part rootRelations))
  let p ← p.add "[Content_Types].xml" (.text (Xml.part p.contentTypes))
  return p.entries

end Package

end ReportPress.Word
