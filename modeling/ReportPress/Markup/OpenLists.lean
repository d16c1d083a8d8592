import ReportPress.Document.Node
import ReportPress.Markup.Line

/-!
# Lists that are still being read

While a list is read, it and the lists around it are open, one at each depth of indentation.  A
line is offered to the innermost list first.  A list that does not take the line is closed and
becomes an entry of the list around it, which is offered the line in turn.

* `OpenList` — a list with its entries so far, the newest first.
* `OpenLists` — the innermost open list and those around it, from the inside out.
* `place?` — the open lists after a line, unless every one of them refuses it.
* `close` — the outermost list with all that was read into it.
-/

namespace ReportPress.Markup

/-- A list with the entries read so far, the newest first. -/
structure OpenList where
  ordered : Bool
  start : UInt32
  newest : List (Entry String)
deriving Repr

namespace OpenList

/-- A list that begins with an item. -/
def ofItem (ordered : Bool) (start : UInt32) (text : String) : OpenList :=
  ⟨ordered, start, [.item text]⟩

/-- The list as it stands. -/
def toList (l : OpenList) : ItemList String :=
  ⟨{ ordered := l.ordered, start := l.start }, l.newest.reverse⟩

/-- The list with one more entry. -/
def push (l : OpenList) (e : Entry String) : OpenList := { l with newest := e :: l.newest }

/-- The list with a line of text added to its last entry, if that is an item. -/
def extend? (l : OpenList) (text : String) : Option OpenList :=
  match l.newest with
  | .item last :: rest => some { l with newest := .item (last ++ "\n" ++ text) :: rest }
  | _ => none

end OpenList

/-- The innermost open list and the lists around it, from the inside out. -/
structure OpenLists where
  inner : OpenList
  outer : List OpenList
deriving Repr

namespace OpenLists

/-- A list that has just been opened. -/
def single (l : OpenList) : OpenLists := ⟨l, []⟩

/-- The closed list `l` as the newest entry of the list around it, and so on outwards. -/
def closeInto (l : OpenList) : List OpenList → OpenList
  | [] => l
  | around :: outer => closeInto (around.push l.toList.toEntry) outer

/-- The outermost list with everything read into it. -/
def close (opened : OpenLists) : ItemList String := (closeInto opened.inner opened.outer).toList

/-- What a list at the given depth makes of a line: the list with the line in it, together with
a list that the line opens inside it.  `bare` is the line without its indentation. -/
def offer? (l : OpenList) (depth : Nat) (line bare : Line) : Option (OpenList × Option OpenList) :=
  if line.depth = depth then
    match bare.marker with
    | .plain => (l.extend? bare.text).map fun l => (l, none)
    | marker =>
      if marker.continuesList l.ordered then some (l.push (.item bare.text), none) else none
  else if line.depth = depth + 1 then
    match bare.marker with
    | .plain => (l.extend? bare.text).map fun l => (l, none)
    | .bullet => some (l, some (.ofItem false 1 bare.text))
    | .ordered index => some (l, some (.ofItem true index bare.text))
    | _ => none
  else if depth < line.depth then (l.extend? line.text).map fun l => (l, none)
  else none

/-- The open lists after a line; lists that do not take it are closed.  No answer if every list
refuses the line. -/
def placeFrom? (line bare : Line) (l : OpenList) : List OpenList → Option OpenLists
  | [] =>
    match offer? l 0 line bare with
    | some (l, none) => some ⟨l, []⟩
    | some (l, some sub) => some ⟨sub, [l]⟩
    | none => none
  | around :: outer =>
    match offer? l (outer.length + 1) line bare with
    | some (l, none) => some ⟨l, around :: outer⟩
    | some (l, some sub) => some ⟨sub, l :: around :: outer⟩
    | none => placeFrom? line bare (around.push l.toList.toEntry) outer

/-- The open lists after a line, unless every one of them refuses it. -/
def place? (line bare : Line) (opened : OpenLists) : Option OpenLists :=
  placeFrom? line bare opened.inner opened.outer

end OpenLists

end ReportPress.Markup
