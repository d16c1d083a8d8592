/-!
# Sets of characters as ranges of code points

Character classes that reach beyond ASCII are tables of closed ranges.

* `CodeRange` — the code points from `first` to `last`, both included.
* `inRanges` — whether a character lies in one of the ranges of a table.
-/

namespace ReportPress.Text

/-- The code points from `first` to `last`, both included. -/
structure CodeRange where
  first : Nat
  last : Nat
deriving Repr, DecidableEq

/-- Whether the code point of `c` lies in one of the ranges. -/
def inRanges (ranges : List CodeRange) (c : Char) : Bool :=
  ranges.any fun r => r.first ≤ c.toNat && c.toNat ≤ r.last

theorem inRanges_nil (c : Char) : inRanges [] c = false := rfl

theorem inRanges_iff {ranges : List CodeRange} {c : Char} :
    inRanges ranges c = true ↔ ∃ r ∈ ranges, r.first ≤ c.toNat ∧ c.toNat ≤ r.last := by
  simp [inRanges]

end ReportPress.Text
