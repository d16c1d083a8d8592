import ReportPress.Number.Binary64

/-!
# Colours of the rainbow

Rainbow text gives each character the next of 360 hues.  A colour is written as six hexadecimal
digits for red, green and blue.

* `hexColor` — the colour of a hue with a saturation and a lightness in percent.  Each channel is
  computed in binary64 and rounded to a byte.
* `Hue`, `nextColor` — the hue of the next character, one further round the circle each time.
-/

namespace ReportPress.Inline

open Number

/-- Two hexadecimal digits in capitals. -/
def hexByte (n : Nat) : List Char :=
  [(Nat.digitChar (n / 16 % 16)).toUpper, (Nat.digitChar (n % 16)).toUpper]

/-- The smaller of two numbers. -/
def lesser (a b : Rat) : Rat := if a ≤ b then a else b

/-- The channel with the given offset on the circle of twelve. -/
def channel (hue : Nat) (lightness amplitude : Rat) (offset : Nat) : Nat :=
  let turn := Binary64.round (offset + Binary64.round ((hue % 360 : Nat) / 30))
  let k := if 12 ≤ turn then turn - 12 else turn
  let slope := lesser (lesser (Binary64.round (k - 3)) (Binary64.round (9 - k))) 1
  let level := if slope < -1 then -1 else slope
  let value := Binary64.round (lightness - Binary64.round (amplitude * level))
  (clamp 0 255 (halfAway (Binary64.round (value * 255)))).toNat

/-- The colour of a hue in degrees, with saturation and lightness in percent. -/
def hexColor (hue : Nat) (saturation lightness : Rat) : String :=
  let s := Binary64.round (saturation / 100)
  let l := Binary64.round (lightness / 100)
  let amplitude := Binary64.round (s * lesser l (Binary64.round (1 - l)))
  String.ofList ([0, 8, 4].flatMap fun offset => hexByte (channel hue l amplitude offset))

/-- A place on the circle of hues. -/
abbrev Hue := Fin 360

/-- The place that a number of degrees comes to. -/
def Hue.ofDegrees (degrees : Nat) : Hue := Fin.ofNat 360 degrees

/-- The colour of a place on the circle: full saturation, half lightness. -/
def Hue.color (hue : Hue) : String := hexColor hue.val 100 50

/-- The colour of the next character. -/
def nextColor : StateM Hue String := modifyGet fun hue => (hue.color, hue + 1)

end ReportPress.Inline
