import ReportPress.Number.Binary64

/-!
# Lengths of a Word document

Pages and paragraphs are measured in twips (1/1440 of an inch), fonts in half-points and drawings
in English metric units.  Lengths come in millimetres, points and pixels.  A conversion multiplies
in binary64, rounds a half away from zero and stays within 32 bits.

* `mmToTwip`, `ptToTwip`, `ptToHalfPoints`, `pxToEmu` — the conversions.
* `wrapSigned`, `wrapUnsigned` — sums and differences of lengths and counts, which keep the low
  32 bits instead.
-/

namespace ReportPress.Length

open Number

/-- Twips of an inch. -/
def twipsPerInch : Rat := 1440

/-- Millimetres of an inch, as a binary64 number. -/
def mmPerInch : Rat := Binary64.round (127 / 5)

/-- Twips of a point. -/
def twipsPerPoint : Rat := 20

/-- English metric units of a pixel at 96 dots per inch. -/
def emuPerPixel : Nat := 9525

/-- The greatest signed number of 32 bits. -/
def maxSigned : Int := 0x7FFFFFFF

/-- The greatest unsigned number of 32 bits. -/
def maxUnsigned : Int := 0xFFFFFFFF

/-- The signed number of 32 bits that agrees with a number in its low 32 bits. -/
def wrapSigned (n : Int) : Int := n.bmod 0x100000000

/-- The unsigned number of 32 bits that agrees with a number in its low 32 bits. -/
def wrapUnsigned (n : Nat) : Nat := n % 0x100000000

theorem wrapSigned_of_mem {n : Int} (low : -maxSigned - 1 ≤ n) (high : n ≤ maxSigned) :
    wrapSigned n = n := by
  simp only [maxSigned] at low high
  exact Int.bmod_eq_of_le (by omega) (by omega)

theorem wrapUnsigned_of_le {n : Nat} (high : (n : Int) ≤ maxUnsigned) : wrapUnsigned n = n := by
  simp only [maxUnsigned] at high
  exact Nat.mod_eq_of_lt (by omega)

/-- Millimetres in twips; may be negative. -/
def mmToTwip (mm : Rat) : Int :=
  clamp (-maxSigned - 1) maxSigned
    (halfAway (Binary64.round (Binary64.round (mm * twipsPerInch) / mmPerInch)))

/-- Points in twips; nothing is shorter than zero. -/
def ptToTwip (pt : Rat) : Int :=
  clamp 0 maxUnsigned (halfAway (Binary64.round (pt * twipsPerPoint)))

/-- Points in half-points; nothing is smaller than zero. -/
def ptToHalfPoints (pt : Rat) : Int :=
  clamp 0 maxUnsigned (halfAway (Binary64.round (pt * 2)))

/-- Pixels in English metric units. -/
def pxToEmu (px : UInt32) : Nat := px.toNat * emuPerPixel

end ReportPress.Length
