import ReportPress.Text.Alphanumeric

/-!
# Names of bookmarks

A place that links lead to is a bookmark, and a bookmark has a name of at most forty letters,
digits and underscores that begins with a letter.

* `bookmarkName` — the name for an anchor.  A bookmark and the links to it are named by the same
  function, so they agree.
-/

namespace ReportPress.Word

/-- No bookmark has a longer name. -/
def maxBookmarkName : Nat := 40

/-- A character of an anchor in a name. -/
def bookmarkChar (c : Char) : Char := if Text.isAlphanumeric c then c else '_'

/-- The name of the bookmark for an anchor. -/
def bookmarkName (anchor : String) : String :=
  let name := (anchor.toList.map bookmarkChar).take maxBookmarkName
  if name.head?.any Text.isLetter then String.ofList name
  else String.ofList (('b' :: name).take maxBookmarkName)

end ReportPress.Word
