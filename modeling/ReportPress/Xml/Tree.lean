/-!
# XML as trees

The parts of a Word document are XML.  They are built as trees, so that every element is closed
where it ends and nothing but the printer deals with brackets and quotation marks.

* `Attribute`, `Xml` — attributes, and trees of elements and text.
* `escape` — the five characters that stand for themselves nowhere.
* `Xml.render` — the text of a tree.
* `part` — a whole file: the declaration and one element.
-/

namespace ReportPress

/-- An attribute of an element. -/
structure Attribute where
  name : String
  value : String
  /-- The value is written as it is; whoever sets this answers for the characters in it. -/
  verbatim : Bool := false
deriving DecidableEq, Repr

/-- An XML tree. -/
inductive Xml where
  | text (s : String)
  /-- An element with a start tag and an end tag. -/
  | element (name : String) (attributes : List Attribute) (children : List Xml)
  /-- An element that is a single tag. -/
  | empty (name : String) (attributes : List Attribute)
deriving Inhabited, Repr, BEq

namespace Xml

/-! ## Building -/

/-- An element with one attribute that holds its value: `<name w:val="value"/>`. -/
def val (name value : String) : Xml := .empty name [⟨"w:val", value, false⟩]

/-- An element without attributes. -/
def plain (name : String) (children : List Xml) : Xml := .element name [] children

/-- A single tag without attributes. -/
def tag (name : String) : Xml := .empty name []

/-! ## Printing -/

/-- A character in text or in the value of an attribute. -/
def escapeChar (c : Char) : List Char :=
  if c = '<' then "&lt;".toList
  else if c = '>' then "&gt;".toList
  else if c = '&' then "&amp;".toList
  else if c = '\x27' then "&apos;".toList
  else if c = '\x22' then "&quot;".toList
  else [c]

/-- A text with markup characters written as entities. -/
def escape (cs : List Char) : List Char := cs.flatMap escapeChar

end Xml

namespace Attribute

/-- An attribute with the space before it. -/
def render (a : Attribute) : List Char :=
  ' ' :: a.name.toList ++ '=' :: '\x22' ::
    (if a.verbatim then a.value.toList else Xml.escape a.value.toList) ++ ['\x22']

/-- A number as the value of an attribute. -/
def nat (name : String) (n : Nat) : Attribute := ⟨name, toString n, false⟩

/-- A signed number as the value of an attribute. -/
def int (name : String) (n : Int) : Attribute := ⟨name, toString n, false⟩

end Attribute

namespace Xml

/-- The inside of a tag: the name and the attributes. -/
def renderTag (name : String) (attributes : List Attribute) : List Char :=
  name.toList ++ attributes.flatMap Attribute.render

mutual

/-- The text of a tree. -/
def render : Xml → List Char
  | .text s => escape s.toList
  | .element name attributes children =>
    '<' :: renderTag name attributes ++ '>' :: renderAll children ++
      '<' :: '/' :: name.toList ++ ['>']
  | .empty name attributes => '<' :: renderTag name attributes ++ ['/', '>']

/-- The texts of trees one after another. -/
def renderAll : List Xml → List Char
  | [] => []
  | x :: xs => render x ++ renderAll xs

end

/-- The declaration that a file begins with. -/
def declaration : String := "<?xml version=\"1.0\" encoding=\"UTF-8\" standalone=\"yes\"?>"

/-- The text of a file with one element. -/
def part (root : Xml) : String := declaration ++ String.ofList root.render

end Xml

end ReportPress
