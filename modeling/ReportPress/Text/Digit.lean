/-!
# Digits

Numbers written in a base up to sixteen, with ASCII digits and letters of either case.

* `digitValue?` — the value of a digit.
* `digitsValue?` — the number that digits stand for.
-/

namespace ReportPress.Text

/-- The value of a digit of a base up to sixteen. -/
def digitValue? (base : Nat) (c : Char) : Option Nat :=
  let value :=
    if c.isDigit then some (c.toNat - '0'.toNat)
    else if 'a' ≤ c.toLower ∧ c.toLower ≤ 'f' then some (c.toLower.toNat - 'a'.toNat + 10)
    else none
  value.filter (· < base)

/-- The number that digits of a base stand for; there is one digit at least. -/
def digitsValue? (base : Nat) (cs : List Char) : Option Nat :=
  if cs = [] then none
  else (cs.mapM (digitValue? base)).map fun digits => digits.foldl (fun n d => base * n + d) 0

theorem digitsValue?_nil (base : Nat) : digitsValue? base [] = none := rfl

end ReportPress.Text
