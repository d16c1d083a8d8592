import Mathlib.Algebra.Module.Prod
import Mathlib.Algebra.Order.Round
import Mathlib.Data.Rat.Floor
import Mathlib.Tactic.Linarith
import Mathlib.Tactic.Ring
import ReportPress.Typeset.Pictures

/-!
# The size of a picture on the page

The size of a picture is computed in three steps: what is asked for, that size brought down to the
box, and its sides in whole pixels.  Here the first two are exact, so that a picture is first scaled
by one factor and then its sides are rounded, each for itself.

* `IsGiven` — a side that is asked for; zero asks for nothing.
* `exactSize` — the size before its sides become whole.
* `FitsBox` — what is certain about the size in whole pixels.

**One factor.**  `exists_factor_wantedSize` for a size of which one side at most is given, and
`exists_factor_boxedSize` for the box: the height is brought down first, and bringing down the width
as well makes the height no greater.  `exists_factor_exactSize` puts them together.

**Whole sides.**  `abs_toNat_wholeSide_sub_le` — a side that has not been raised is half a pixel off
at most, and **`fitsBox_fitBox`** adds up what that makes of the proportions.
-/

namespace ReportPress.Typeset

open Number

variable {own : UInt32 × UInt32} {width height side : Option UInt32}

/-! ## What is asked for -/

/-- A side that is asked for; zero asks for nothing. -/
def IsGiven (side : Option UInt32) : Prop := ∃ n, side = some n ∧ n ≠ 0

/-- The size of a picture before its sides become whole. -/
def exactSize (own : UInt32 × UInt32) (width height : Option UInt32) : Rat × Rat :=
  boxedSize id (wantedSize id (ownSide own.1, ownSide own.2) (givenSide width) (givenSide height))

lemma ownSide_pos (n : UInt32) : 0 < ownSide n := by
  have hpos : 0 < max n.toNat 1 := lt_max_of_lt_right Nat.one_pos
  exact Nat.cast_pos.mpr hpos

lemma givenSide_some {n : UInt32} (h : n ≠ 0) : givenSide (some n) = some (n.toNat : Rat) := by
  rw [givenSide, Option.filter_some_pos (by simpa using h)]
  rfl

lemma ne_zero_of_one_le {n : UInt32} (h : 1 ≤ n.toNat) : n ≠ 0 := by
  rintro rfl
  exact absurd h (by decide)

lemma givenSide_eq_none (h : ¬ IsGiven side) : givenSide side = none := by
  cases side with
  | none => rfl
  | some n =>
      have hzero : n = 0 := by
        by_contra hn
        exact h ⟨n, rfl, hn⟩
      rw [givenSide, hzero]
      rfl

lemma isGiven_of_givenSide {q : Rat} (h : givenSide side = some q) : IsGiven side := by
  by_contra hside
  rw [givenSide_eq_none hside] at h
  exact nomatch h

lemma pos_of_givenSide {q : Rat} (h : givenSide side = some q) : 0 < q := by
  obtain ⟨n, rfl, hn⟩ := isGiven_of_givenSide h
  have hpos : 0 < n.toNat := Nat.pos_of_ne_zero fun hzero => hn (UInt32.toNat_inj.mp hzero)
  rw [givenSide_some hn] at h
  exact Option.some.inj h ▸ Nat.cast_pos.mpr hpos

/-- If one side at most is given, what is asked for has the proportions of the picture. -/
lemma exists_factor_wantedSize (hgiven : ¬ (IsGiven width ∧ IsGiven height)) (size : Rat × Rat)
    (h₁ : 0 < size.1) (h₂ : 0 < size.2) :
    ∃ f : Rat, 0 < f ∧ wantedSize id size (givenSide width) (givenSide height) = f • size := by
  cases hw : givenSide width with
  | some w =>
      have hheight : ¬ IsGiven height := fun h => hgiven ⟨isGiven_of_givenSide hw, h⟩
      refine ⟨w / size.1, div_pos (pos_of_givenSide hw) h₁, ?_⟩
      rw [givenSide_eq_none hheight]
      ext
      · exact (div_mul_cancel₀ w h₁.ne').symm
      · change size.2 / size.1 * w = w / size.1 * size.2
        ring
  | none =>
      cases hh : givenSide height with
      | some h =>
          refine ⟨h / size.2, div_pos (pos_of_givenSide hh) h₂, ?_⟩
          ext
          · change size.1 / size.2 * h = h / size.2 * size.1
            ring
          · exact (div_mul_cancel₀ h h₂.ne').symm
      | none => exact ⟨1, one_pos, (one_smul Rat size).symm⟩

/-- Nothing is asked for that has no extent. -/
lemma wantedSize_pos (width height : Option UInt32) (size : Rat × Rat) (h₁ : 0 < size.1)
    (h₂ : 0 < size.2) :
    0 < (wantedSize id size (givenSide width) (givenSide height)).1 ∧
      0 < (wantedSize id size (givenSide width) (givenSide height)).2 := by
  by_cases hgiven : IsGiven width ∧ IsGiven height
  · obtain ⟨⟨w, rfl, hw⟩, h, rfl, hh⟩ := hgiven
    rw [givenSide_some hw, givenSide_some hh]
    exact ⟨pos_of_givenSide (givenSide_some hw), pos_of_givenSide (givenSide_some hh)⟩
  · obtain ⟨f, hf, hsize⟩ := exists_factor_wantedSize hgiven size h₁ h₂
    rw [hsize]
    exact ⟨mul_pos hf h₁, mul_pos hf h₂⟩

/-! ## The box -/

lemma limitSecond_of_le (round : Rat → Rat) {limit : Rat} {size : Rat × Rat}
    (h : size.2 ≤ limit) : limitSecond round limit size = size := if_neg (not_lt.mpr h)

/-- A size within the box stays as it is. -/
lemma boxedSize_of_le (round : Rat → Rat) {size : Rat × Rat} (h₁ : size.1 ≤ maxWidth)
    (h₂ : size.2 ≤ maxHeight) : boxedSize round size = size := by
  rw [boxedSize, limitSecond_of_le round h₂, limitSecond_of_le round h₁, Prod.swap_swap]

/-- A side is brought down to a limit by a factor for both sides. -/
lemma exists_factor_limitSecond {limit : Rat} (hlimit : 0 < limit) (size : Rat × Rat)
    (hsize : 0 < size.2) :
    ∃ f : Rat, 0 < f ∧ f ≤ 1 ∧ (f • size).2 ≤ limit ∧ limitSecond id limit size = f • size := by
  by_cases h : limit < size.2
  · have hside : limit / size.2 * size.2 = limit := div_mul_cancel₀ limit hsize.ne'
    refine ⟨limit / size.2, div_pos hlimit hsize, (div_le_one hsize).mpr h.le, hside.le, ?_⟩
    rw [limitSecond, if_pos h]
    ext
    · change size.1 / size.2 * limit = limit / size.2 * size.1
      ring
    · exact hside.symm
  · refine ⟨1, one_pos, le_refl 1, ?_, ?_⟩
    · rw [one_smul]
      exact not_lt.mp h
    · rw [one_smul, limitSecond_of_le id (not_lt.mp h)]

/-- A size is brought down to the box by one factor. -/
lemma exists_factor_boxedSize {size : Rat × Rat} (h₁ : 0 < size.1) (h₂ : 0 < size.2) :
    ∃ f : Rat, 0 < f ∧ (f • size).1 ≤ maxWidth ∧ (f • size).2 ≤ maxHeight ∧
      boxedSize id size = f • size := by
  have hwidth : 0 < maxWidth := by norm_num [maxWidth]
  have hheight : 0 < maxHeight := by norm_num [maxHeight]
  obtain ⟨f, hf, -, hfle, hfeq⟩ := exists_factor_limitSecond hheight size h₂
  obtain ⟨g, hg, hgone, hgle, hgeq⟩ :=
    exists_factor_limitSecond hwidth (f • size).swap (mul_pos hf h₁)
  refine ⟨g * f, mul_pos hg hf, ?_, ?_, ?_⟩
  · rw [mul_smul]
    exact hgle
  · rw [mul_smul]
    exact (mul_le_of_le_one_left (mul_pos hf h₂).le hgone).trans hfle
  · rw [boxedSize, hfeq, hgeq, mul_smul]
    rfl

/-- The exact size is within the box. -/
lemma exactSize_mem (own : UInt32 × UInt32) (width height : Option UInt32) :
    (0 ≤ (exactSize own width height).1 ∧ (exactSize own width height).1 ≤ maxWidth) ∧
      0 ≤ (exactSize own width height).2 ∧ (exactSize own width height).2 ≤ maxHeight := by
  obtain ⟨h₁, h₂⟩ := wantedSize_pos width height (ownSide own.1, ownSide own.2)
    (ownSide_pos own.1) (ownSide_pos own.2)
  obtain ⟨f, hf, hwidth, hheight, hboxed⟩ := exists_factor_boxedSize h₁ h₂
  rw [exactSize, hboxed]
  exact ⟨⟨(mul_pos hf h₁).le, hwidth⟩, (mul_pos hf h₂).le, hheight⟩

/-- Two sides that are given are the exact size, if they are within the box. -/
lemma exactSize_of_given (own : UInt32 × UInt32) {w h : UInt32}
    (hw : 1 ≤ w.toNat ∧ w.toNat ≤ 600) (hh : 1 ≤ h.toNat ∧ h.toNat ≤ 800) :
    exactSize own (some w) (some h) = ((w.toNat : Rat), (h.toNat : Rat)) := by
  rw [exactSize, givenSide_some (ne_zero_of_one_le hw.1), givenSide_some (ne_zero_of_one_le hh.1)]
  exact boxedSize_of_le id (Nat.cast_le.mpr hw.2) (Nat.cast_le.mpr hh.2)

/-- If one side at most is given, the exact size has the proportions of the picture. -/
lemma exists_factor_exactSize (hgiven : ¬ (IsGiven width ∧ IsGiven height))
    (own : UInt32 × UInt32) :
    ∃ f : Rat, exactSize own width height = f • (ownSide own.1, ownSide own.2) := by
  have hown₁ := ownSide_pos own.1
  have hown₂ := ownSide_pos own.2
  obtain ⟨h₁, h₂⟩ := wantedSize_pos width height (ownSide own.1, ownSide own.2) hown₁ hown₂
  obtain ⟨f, -, -, -, hboxed⟩ := exists_factor_boxedSize h₁ h₂
  obtain ⟨g, -, hwants⟩ :=
    exists_factor_wantedSize hgiven (ownSide own.1, ownSide own.2) hown₁ hown₂
  exact ⟨f * g, by rw [exactSize, hboxed, hwants, mul_smul]⟩

/-! ## Whole sides -/

/-- A side of less than half a pixel is set one pixel wide all the same. -/
def IsRaised (side : Rat) : Prop := halfAway side < 1

lemma halfAway_eq_round {q : Rat} (h : 0 ≤ q) : halfAway q = round q := by
  rw [halfAway, if_neg (not_lt.mpr h), round_eq]
  rfl

lemma halfAway_le {q : Rat} (h : 0 ≤ q) {n : Nat} (hn : q ≤ n) : halfAway q ≤ n := by
  have hdistance := abs_le.mp (abs_sub_round q)
  have hlt : (round q : Rat) < (n : Int) + 1 := by
    push_cast
    linarith
  rw [halfAway_eq_round h]
  exact Int.lt_add_one_iff.mp (by exact_mod_cast hlt)

lemma toNat_wholeSide {q : Rat} (h : 0 ≤ q) {n : Nat} (hn : q ≤ n) (hsize : n < UInt32.size) :
    (wholeSide q).toNat = max 1 (halfAway q).toNat := by
  have hle := halfAway_le h hn
  rw [wholeSide, UInt32.toNat_ofNat_of_lt']
  simp only [UInt32.size] at hsize ⊢
  omega

/-- A whole side is at least one pixel, and within any whole limit that the exact one is within. -/
lemma wholeSide_mem {q : Rat} (h : 0 ≤ q) {n : Nat} (hn : q ≤ n) (hone : 1 ≤ n)
    (hsize : n < UInt32.size) : 1 ≤ (wholeSide q).toNat ∧ (wholeSide q).toNat ≤ n := by
  have hle := halfAway_le h hn
  rw [toNat_wholeSide h hn hsize]
  omega

/-- A side in whole pixels stays as it is. -/
lemma wholeSide_toNat {n : UInt32} (h : 1 ≤ n.toNat) : wholeSide (n.toNat : Rat) = n := by
  have hround : halfAway (n.toNat : Rat) = n.toNat := by
    rw [halfAway_eq_round (Nat.cast_nonneg _), round_natCast]
  rw [wholeSide, hround, Int.toNat_natCast, Nat.max_eq_right h, UInt32.ofNat_toNat]

/-- Half a pixel is all that a side is off that has not been raised. -/
lemma abs_toNat_wholeSide_sub_le {q : Rat} (h : 0 ≤ q) {n : Nat} (hn : q ≤ n)
    (hsize : n < UInt32.size) (hraised : ¬ IsRaised q) :
    |((wholeSide q).toNat : Rat) - q| ≤ 1 / 2 := by
  have hone : 1 ≤ halfAway q := not_lt.mp hraised
  have hwhole : ((wholeSide q).toNat : Int) = halfAway q := by
    rw [toNat_wholeSide h hn hsize]
    omega
  have hcast : ((wholeSide q).toNat : Rat) = (round q : Rat) := by
    rw [← halfAway_eq_round h, ← hwhole]
    rfl
  rw [hcast, abs_sub_comm]
  exact abs_sub_round q

/-- Sides that are half a pixel off at most change the proportions by half of both own sides at
most. -/
lemma abs_cross_le {x y f a b : Rat} (ha : 0 ≤ a) (hb : 0 ≤ b) (hx : |x - f * a| ≤ 1 / 2)
    (hy : |y - f * b| ≤ 1 / 2) : |x * b - y * a| ≤ (a + b) / 2 := by
  have hsplit : x * b - y * a = (x - f * a) * b - (y - f * b) * a := by ring
  have hfirst : |(x - f * a) * b| ≤ 1 / 2 * b := by
    rw [abs_mul, abs_of_nonneg hb]
    exact mul_le_mul_of_nonneg_right hx hb
  have hsecond : |(y - f * b) * a| ≤ 1 / 2 * a := by
    rw [abs_mul, abs_of_nonneg ha]
    exact mul_le_mul_of_nonneg_right hy ha
  calc |x * b - y * a| = |(x - f * a) * b - (y - f * b) * a| := by rw [hsplit]
    _ ≤ |(x - f * a) * b| + |(y - f * b) * a| := abs_sub _ _
    _ ≤ (a + b) / 2 := by linarith

/-! ## The size on the page -/

/-- A size in whole pixels for a picture.  It is within the box and has some extent.  Two sides that
are given are kept, if they are within the box.  If one side at most is given and none had to be
raised, the proportions of the picture are kept but for the rounding. -/
structure FitsBox (own : UInt32 × UInt32) (width height : Option UInt32) (size : UInt32 × UInt32) :
    Prop where
  width_mem : 1 ≤ size.1.toNat ∧ size.1.toNat ≤ 600
  height_mem : 1 ≤ size.2.toNat ∧ size.2.toNat ≤ 800
  asGiven : ∀ w h, width = some w → height = some h → (1 ≤ w.toNat ∧ w.toNat ≤ 600) →
    (1 ≤ h.toNat ∧ h.toNat ≤ 800) → size = (w, h)
  proportions : ¬ (IsGiven width ∧ IsGiven height) → ¬ IsRaised (exactSize own width height).1 →
    ¬ IsRaised (exactSize own width height).2 →
      |(size.1.toNat : Rat) * ownSide own.2 - size.2.toNat * ownSide own.1|
        ≤ (ownSide own.1 + ownSide own.2) / 2

/-- The size at which a picture is set fits the box, whatever the picture is and whatever is asked
for. -/
theorem fitsBox_fitBox (own : UInt32 × UInt32) (width height : Option UInt32) :
    FitsBox own width height (fitBox id own width height) := by
  obtain ⟨⟨hpos₁, hwidth⟩, hpos₂, hheight⟩ := exactSize_mem own width height
  refine ⟨wholeSide_mem hpos₁ hwidth (by decide) (by decide),
    wholeSide_mem hpos₂ hheight (by decide) (by decide), ?_, ?_⟩
  · rintro w h rfl rfl hw hh
    change (wholeSide (exactSize own (some w) (some h)).1,
      wholeSide (exactSize own (some w) (some h)).2) = (w, h)
    rw [exactSize_of_given own hw hh, wholeSide_toNat hw.1, wholeSide_toNat hh.1]
  · intro hgiven hraised₁ hraised₂
    obtain ⟨f, hexact⟩ := exists_factor_exactSize hgiven own
    have hoff₁ := abs_toNat_wholeSide_sub_le hpos₁ hwidth (by decide) hraised₁
    have hoff₂ := abs_toNat_wholeSide_sub_le hpos₂ hheight (by decide) hraised₂
    rw [hexact] at hoff₁ hoff₂
    have hcross := abs_cross_le (ownSide_pos own.1).le (ownSide_pos own.2).le hoff₁ hoff₂
    rwa [← hexact] at hcross

example : fitBox id (1200, 600) none none = (600, 300) := by decide +kernel

end ReportPress.Typeset
