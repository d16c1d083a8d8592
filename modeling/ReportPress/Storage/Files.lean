import ReportPress.Storage.Path
import ReportPress.Word.Package

/-!
# File systems as values

What a report reads and writes is a value: a list of places, each with a file or a directory.  The
root is a directory without being listed.

* `FileContent`, `File`, `Stored`, `Files` — the value.
* `Fault` — why something cannot be done.
* `Files.locate` — the place that a path leads to, whether or not something is there.
* `Files.isFile`, `Files.isDirectory`, `Files.readText` — what is there.
* `Files.write`, `Files.remove`, `Files.rename`, `Files.makeDirectory`, `Files.removeTree` — what
  can be changed.
-/

namespace ReportPress

open Text (joined)

/-- The content of a file.  A document is kept as the entries of its archive: how these are laid
out in bytes is of no concern here. -/
inductive FileContent where
  | bytes (data : Bytes)
  | archive (entries : List Word.Entry)
deriving DecidableEq, Repr

/-- The bytes of a text. -/
def FileContent.ofText (s : String) : FileContent := .bytes s.toUTF8.toList

/-- A file. -/
structure File where
  content : FileContent
  executable : Bool := false
  /-- Another program keeps the file from being opened for writing. -/
  held : Bool := false
deriving DecidableEq, Repr

/-- What is at a place. -/
inductive Stored where
  | file (f : File)
  | directory
deriving DecidableEq, Repr

/-- Why something cannot be done. -/
inductive Fault where
  | notFound
  | notDirectory
  | isDirectory
  /-- A name that no directory could hold, or a path that is too long. -/
  | badName
  /-- The file is held by another program. -/
  | held
  /-- Something is there already. -/
  | present
  /-- The content is no text. -/
  | notText
deriving DecidableEq, Repr

/-- Places by the names that lead to them from the root; every directory above a place is listed
too, except the root. -/
structure Files where
  places : List (List String × Stored) := []
deriving DecidableEq, Repr

namespace Files

/-- What is at a place. -/
def get? (fs : Files) (names : List String) : Option Stored :=
  if names = [] then some .directory else fs.places.lookup names

/-- The places without those at or below `names`. -/
def without (fs : Files) (names : List String) : Files :=
  ⟨fs.places.filter fun place => !names.isPrefixOf place.1⟩

/-- Something else at a place; what lies below it stays. -/
def set (fs : Files) (names : List String) (place : Stored) : Files :=
  ⟨(names, place) :: fs.places.filter fun other => other.1 ≠ names⟩

/-- Something at a place, with all directories above it.  What is at these places already stays. -/
def put (fs : Files) (names : List String) (place : Stored) : Files :=
  ((List.range names.length).foldl (fun fs n =>
    if (fs.get? (names.take n)).isSome then fs else fs.set (names.take n) .directory) fs).set
      names place

/-- The paths of all files below a place, from there on, in ascending order. -/
def filesBelow (fs : Files) (names : List String) : List String :=
  (fs.places.filterMap fun place =>
    match place.2 with
    | .file _ =>
      if names.isPrefixOf place.1 then some (joined "/" (place.1.drop names.length)) else none
    | .directory => none).mergeSort

/-! ## Where a path leads -/

/-- No name is longer, in bytes. -/
def maxName : Nat := 255

/-- No path is longer, in bytes. -/
def maxPath : Nat := 4095

/-- The place that names lead to from a directory.  All but the last of them have to be there. -/
def follow (fs : Files) (here : List String) : List String → Except Fault (List String)
  | [] => .ok here
  | name :: rest =>
    match fs.get? here with
    | none => .error .notFound
    | some (.file _) => .error .notDirectory
    | some .directory =>
      if Path.isVoid name then fs.follow here rest
      else if name = ".." then fs.follow here.dropLast rest
      else if maxName < name.utf8ByteSize then .error .badName
      else fs.follow (here ++ [name]) rest

/-- The place that a path leads to. -/
def locate (fs : Files) (p : Path) : Except Fault (List String) :=
  if p.text.isEmpty then .error .notFound
  else if p.text.toList.contains '\x00' || maxPath < p.text.utf8ByteSize then .error .badName
  else fs.follow [] p.pieces

/-- What a path leads to. -/
def find (fs : Files) (p : Path) : Except Fault Stored := do
  match fs.get? (← fs.locate p) with
  | some place => return place
  | none => throw .notFound

/-- Whether a path leads to something. -/
def isPresent (fs : Files) (p : Path) : Bool := (fs.find p).toOption.isSome

/-- Whether a path leads to a file. -/
def isFile (fs : Files) (p : Path) : Bool :=
  match fs.find p with
  | .ok (.file _) => true
  | _ => false

/-- Whether a path leads to a directory. -/
def isDirectory (fs : Files) (p : Path) : Bool :=
  match fs.find p with
  | .ok .directory => true
  | _ => false

/-- The names of the files in a directory, in ascending order. -/
def fileNames (fs : Files) (p : Path) : List String :=
  match fs.locate p with
  | .error _ => []
  | .ok directory =>
    (fs.places.filterMap fun place =>
      match place.2 with
      | .file _ => if place.1.dropLast = directory then place.1.getLast? else none
      | .directory => none).mergeSort

/-! ## Reading -/

/-- The file that a path leads to. -/
def fileAt (fs : Files) (p : Path) : Except Fault File := do
  match ← fs.find p with
  | .file f => return f
  | .directory => throw .isDirectory

/-- The bytes of a file; those of an archive are not at hand. -/
def readBytes (fs : Files) (p : Path) : Except Fault Bytes := do
  match (← fs.fileAt p).content with
  | .bytes data => return data
  | .archive _ => throw .notText

/-- The text of a file. -/
def readText (fs : Files) (p : Path) : Except Fault String := do
  match String.fromUTF8? ⟨(← fs.readBytes p).toArray⟩ with
  | some text => return text
  | none => throw .notText

/-- Whether a file is there and cannot be opened for writing.  A file that is not there is free. -/
def isLocked (fs : Files) (p : Path) : Except Fault Bool :=
  match fs.fileAt p with
  | .ok f => .ok f.held
  | .error .notFound => .ok false
  | .error fault => .error fault

/-! ## Changing -/

/-- The place that a path leads to, where a file is or could be. -/
def locateFile (fs : Files) (p : Path) : Except Fault (List String) := do
  let names ← fs.locate p
  match fs.get? names with
  | some .directory => throw .isDirectory
  | some (.file f) => if f.held then throw .held else return names
  | none => return names

/-- A file with a new content. -/
def write (fs : Files) (p : Path) (content : FileContent) : Except Fault Files := do
  let names ← fs.locateFile p
  match fs.get? names with
  | some (.file f) => return fs.set names (.file { f with content })
  | _ => return fs.set names (.file { content })

/-- The files without one. -/
def remove (fs : Files) (p : Path) : Except Fault Files := do
  match ← fs.find p with
  | .directory => throw .isDirectory
  | .file _ => return fs.without (← fs.locate p)

/-- A file under another path. -/
def rename (fs : Files) (old new : Path) : Except Fault Files := do
  let f ← fs.fileAt old
  let place ← fs.locate old
  match fs.get? (← fs.locate new) with
  | some .directory => throw .isDirectory
  | _ => return (fs.without place).set (← fs.locate new) (.file f)

/-- A new directory. -/
def makeDirectory (fs : Files) (p : Path) : Except Fault Files := do
  let names ← fs.locate p
  match fs.get? names with
  | some _ => throw .present
  | none => return fs.set names .directory

/-- The files without a directory and all that is in it. -/
def removeTree (fs : Files) (p : Path) : Except Fault Files := do
  match ← fs.find p with
  | .file _ => throw .notDirectory
  | .directory => return fs.without (← fs.locate p)

end Files

end ReportPress
