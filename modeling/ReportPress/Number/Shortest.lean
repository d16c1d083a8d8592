import ReportPress.Number.Binary64

/-!
# The fewest digits that read back

A binary64 number is printed with the fewest significant decimal digits that round back to it,
and of two such texts with the nearer one.  The search runs over decimal grids of growing
fineness: on each grid only the two neighbours of the value can lie in the interval of numbers
that round to it.

* `Decimal` — digits and a power of ten.
* `readsBack` — whether a rational lies in that interval.
* `shortest` — the digits.
* `DecimalLayout`, `render` — how digits become text.
-/

namespace ReportPress.Number

/-- The number `digits · 10 ^ exponent`. -/
structure Decimal where
  digits : Nat
  exponent : Int
deriving Repr, DecidableEq

/-- The number that the digits stand for. -/
def Decimal.value (d : Decimal) : Rat := (d.digits : Rat) * pow10 d.exponent

/-- Whether `q` rounds to the positive number `v`.  The interval is half as wide below a power of
two, and its ends belong to it when the last place of `v` is even. -/
def readsBack (v q : Rat) : Bool :=
  let exponent := Binary64.quantumExponent v
  let place := pow2 exponent
  let mantissa := (v / place).floor
  let below := if mantissa = 0x10000000000000 ∧ exponent ≠ -1074 then place / 4 else place / 2
  let above := place / 2
  if mantissa % 2 = 0 then decide (v - below ≤ q ∧ q ≤ v + above)
  else decide (v - below < q ∧ q < v + above)

/-- The `e` with `10 ^ e ≤ q < 10 ^ (e + 1)`, for positive `q`. -/
def decimalExponent (q : Rat) : Int :=
  let guess : Int := (Binary64.magnitudeExponent q * 30103) / 100000
  if q < pow10 guess then guess - 1
  else if pow10 (guess + 1) ≤ q then guess + 1
  else guess

/-- The nearest number of the grid `10 ^ exponent` that reads back as `v`, if one does. -/
def onGrid? (v : Rat) (exponent : Int) : Option Decimal :=
  let place := pow10 exponent
  let low := (v / place).floor
  let down : Decimal := ⟨low.toNat, exponent⟩
  let up : Decimal := ⟨(low + 1).toNat, exponent⟩
  match readsBack v down.value, readsBack v up.value with
  | true, true =>
    let fromLow := v - down.value
    let toHigh := up.value - v
    if fromLow < toHigh ∨ (fromLow = toHigh ∧ low % 2 = 0) then some down else some up
  | true, false => some down
  | false, true => some up
  | false, false => none

/-- Digits without zeros at their end. -/
def Decimal.stripped (d : Decimal) : Decimal := go 20 d.digits d.exponent
where
  /-- At most `n` zeros are taken off. -/
  go : Nat → Nat → Int → Decimal
    | 0, digits, exponent => ⟨digits, exponent⟩
    | n + 1, digits, exponent =>
      if digits ≠ 0 ∧ digits % 10 = 0 then go n (digits / 10) (exponent + 1)
      else ⟨digits, exponent⟩

/-- The fewest digits that read back as the positive number `v`; seventeen always do. -/
def shortest (v : Rat) : Decimal :=
  let top := decimalExponent v
  let found := (List.range 17).findSome? fun (n : Nat) => onGrid? v (top - n)
  (found.getD ⟨(v / pow10 (top - 16)).floor.toNat, top - 16⟩).stripped

/-- Which powers of ten are written out and how an exponent looks. -/
structure DecimalLayout where
  /-- The least exponent of the first digit that is written out. -/
  lowest : Int
  /-- The greatest exponent of the first digit that is written out. -/
  highest : Int
  /-- What stands before an exponent that is not negative. -/
  positiveMark : String

/-- `n` zeros. -/
def zeros (n : Nat) : List Char := List.replicate n '0'

/-- The text of a positive number: at least one digit on either side of the point, or an
exponent outside the powers that are written out. -/
def render (layout : DecimalLayout) (v : Rat) : String :=
  if v = 0 then "0.0"
  else
    let d := shortest v
    let digits := Nat.toDigits 10 d.digits
    let first : Int := d.exponent + digits.length - 1
    if layout.lowest ≤ first ∧ first ≤ layout.highest then
      if 0 ≤ d.exponent then String.ofList (digits ++ zeros d.exponent.toNat ++ ".0".toList)
      else if 0 ≤ first then
        let whole := (first + 1).toNat
        String.ofList (digits.take whole ++ '.' :: digits.drop whole)
      else String.ofList ("0.".toList ++ zeros (-first - 1).toNat ++ digits)
    else
      let point := if digits.length = 1 then [] else '.' :: digits.drop 1
      let mark := if first < 0 then "-" else layout.positiveMark
      String.ofList (digits.take 1 ++ point ++ 'e' :: mark.toList ++
        Nat.toDigits 10 first.natAbs)

end ReportPress.Number
