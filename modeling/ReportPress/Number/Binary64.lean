/-!
# Rounding, and binary64 numbers as rationals

Lengths and colours are computed on rationals, so that every rounding is an operation of its own.

* `halfAway` — to the nearest integer, a half away from zero.
* `halfEven` — to the nearest integer, a half to the even neighbour.
* `clamp` — the nearest integer of an interval.
* `pow2`, `pow10` — powers with a signed exponent.

A finite number of the IEEE format binary64 is the rational `m · 2 ^ t` with `m < 2 ^ 53` and
`-1074 ≤ t`.  An operation of the format is the exact operation on rationals followed by one
rounding, so the format needs no type of its own: `Binary64.round` is all there is to it.

* `Binary64.magnitudeExponent` — the binade of a positive number.
* `Binary64.quantumExponent` — the exponent `t` of the last place in that binade.
* `Binary64.round` — the nearest number of the format, ties to even.
* `Binary64.overflows` — beyond the largest finite number.

Rounding here has no largest number; whoever prints or stores a result asks `overflows`, and
whoever saturates an integer conversion need not.
-/

namespace ReportPress.Number

/-- The nearest integer; a half goes away from zero. -/
def halfAway (q : Rat) : Int :=
  if q < 0 then -(-q + 1 / 2).floor else (q + 1 / 2).floor

/-- The nearest integer; a half goes to the even neighbour. -/
def halfEven (q : Rat) : Int :=
  let low := q.floor
  let rest := q - low
  if rest < 1 / 2 then low
  else if 1 / 2 < rest then low + 1
  else if low % 2 = 0 then low
  else low + 1

/-- The integer between `low` and `high` that is nearest to `n`. -/
def clamp (low high n : Int) : Int := max low (min high n)

/-- Two to a signed power. -/
def pow2 (e : Int) : Rat :=
  match e with
  | .ofNat n => (Nat.pow 2 n : Rat)
  | .negSucc n => 1 / (Nat.pow 2 (n + 1) : Rat)

/-- Ten to a signed power. -/
def pow10 (e : Int) : Rat :=
  match e with
  | .ofNat n => (Nat.pow 10 n : Rat)
  | .negSucc n => 1 / (Nat.pow 10 (n + 1) : Rat)

namespace Binary64

/-- The `e` with `2 ^ e ≤ q < 2 ^ (e + 1)`, for positive `q`. -/
def magnitudeExponent (q : Rat) : Int :=
  let guess : Int := (q.num.natAbs.log2 : Int) - (q.den.log2 : Int)
  if q < pow2 guess then guess - 1 else guess

/-- The exponent of the last place of a positive number: 52 below its binade, and never below
that of the smallest subnormal. -/
def quantumExponent (q : Rat) : Int := max (magnitudeExponent q - 52) (-1074)

/-- The nearest number of the format; a tie goes to the even last place. -/
def round (q : Rat) : Rat :=
  if q = 0 then 0
  else
    let magnitude := if q < 0 then -q else q
    let place := pow2 (quantumExponent magnitude)
    let rounded : Rat := (halfEven (magnitude / place) : Rat) * place
    if q < 0 then -rounded else rounded

/-- Whether a rounded magnitude is past the largest finite number of the format. -/
def overflows (q : Rat) : Bool := decide (pow2 1024 ≤ q)

end Binary64

end ReportPress.Number
