import ReportPress.Word.ImageFormat
import ReportPress.Xml.Tree

/-!
# What the text of a document refers to

Links, pictures and footers stand outside the text of a document and are referred to by
identifiers.  Identifiers are given out while the text is written, in the order of their first and
only use, so the identifier of a relation is its place in the list.

* `RelationKind`, `Relation` — what is referred to.
* `Media` — a picture that is referred to.
* `References` — all relations and pictures so far; the first three relations are there from the
  start.
* `References.add`, `References.addPicture` — one more, with its identifier.
* `References.xml` — the relations as a part of the package.
-/

namespace ReportPress.Word

/-- The kind of what is referred to. -/
inductive RelationKind where
  | styles
  | numbering
  | settings
  | footer
  | image
  | hyperlink
deriving DecidableEq, Repr

namespace RelationKind

/-- The last part of the address that stands for the kind. -/
def name : RelationKind → String
  | styles => "styles"
  | numbering => "numbering"
  | settings => "settings"
  | footer => "footer"
  | image => "image"
  | hyperlink => "hyperlink"

/-- The address that stands for the kind. -/
def address (kind : RelationKind) : String :=
  "http://schemas.openxmlformats.org/officeDocument/2006/relationships/" ++ kind.name

end RelationKind

/-- Something that is referred to. -/
structure Relation where
  kind : RelationKind
  target : String
deriving DecidableEq, Repr

/-- A picture that is referred to. -/
structure Media where
  format : ImageFormat
  data : Bytes
deriving DecidableEq, Repr

/-- All that has been referred to, in order. -/
structure References where
  relations : List Relation
  media : List Media
deriving Repr

/-- The name of a picture's file, by its place among the pictures. -/
def mediaName (number : Nat) (format : ImageFormat) : String :=
  "image" ++ toString number ++ "." ++ format.extension

/-- The identifier of a relation, by its place. -/
def relationId (number : Nat) : String := "rId" ++ toString number

namespace References

/-- What every document refers to: styles, numbering and settings. -/
def initial : References where
  relations := [⟨.styles, "styles.xml"⟩, ⟨.numbering, "numbering.xml"⟩,
    ⟨.settings, "settings.xml"⟩]
  media := []

/-- One more relation; the answer is its identifier. -/
def add (kind : RelationKind) (target : String) : StateM References String :=
  modifyGet fun r =>
    (relationId (r.relations.length + 1), { r with relations := r.relations ++ [⟨kind, target⟩] })

/-- One more picture; the answers are the identifier of its relation and its number. -/
def addPicture (format : ImageFormat) (data : Bytes) : StateM References (String × Nat) := do
  let number := (← get).media.length + 1
  modify fun r => { r with media := r.media ++ [⟨format, data⟩] }
  let id ← add .image ("media/" ++ mediaName number format)
  return (id, number)

/-- One relation, by its number. -/
def relationXml (number : Nat) (r : Relation) : Xml :=
  .empty "Relationship" ([⟨"Id", relationId number, false⟩, ⟨"Type", r.kind.address, false⟩,
    ⟨"Target", r.target, false⟩] ++
    if r.kind = .hyperlink then [⟨"TargetMode", "External", false⟩] else [])

/-- The relations as a part of the package. -/
def xml (r : References) : Xml :=
  .element "Relationships"
    [⟨"xmlns", "http://schemas.openxmlformats.org/package/2006/relationships", false⟩]
    (r.relations.mapIdx fun i relation => relationXml (i + 1) relation)

end References

end ReportPress.Word
