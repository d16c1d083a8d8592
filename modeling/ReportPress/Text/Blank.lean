import ReportPress.Text.CodeRange

/-!
# White space

The characters of the Unicode property `White_Space`.  Trimming, splitting into words and
collapsing runs of space all use this class; `Char.isWhitespace` is a proper part of it.

* `blanks` — the table.
* `isBlank` — membership.
* `isBlank_of_isWhitespace` — every ASCII white space is in it.
-/

namespace ReportPress.Text

/-- The code points of the property `White_Space`. -/
def blanks : List CodeRange := [
  ⟨0x09, 0x0D⟩, ⟨0x20, 0x20⟩, ⟨0x85, 0x85⟩, ⟨0xA0, 0xA0⟩, ⟨0x1680, 0x1680⟩, ⟨0x2000, 0x200A⟩,
  ⟨0x2028, 0x2029⟩, ⟨0x202F, 0x202F⟩, ⟨0x205F, 0x205F⟩, ⟨0x3000, 0x3000⟩]

/-- White space of any kind, line feeds and no-break spaces included. -/
def isBlank (c : Char) : Bool := inRanges blanks c

theorem isBlank_of_isWhitespace {c : Char} (h : c.isWhitespace = true) : isBlank c = true := by
  simp only [Char.isWhitespace, Bool.or_eq_true, decide_eq_true_eq] at h
  rcases h with ((rfl | rfl) | rfl) | rfl <;> rfl

end ReportPress.Text
