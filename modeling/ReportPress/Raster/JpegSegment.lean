import ReportPress.Raster.Fields

/-!
# The segments of a JPEG file

What may stand in the segments before the first scan.

* `Mark`, `Mark.ofByte?` — the kinds of segments that matter here.
* `Frame`, `frame?` — what a frame segment says.
* `hasScan` — whether a scan segment refers to the components of a frame.
* `areDivisors`, `areCodes` — whether the tables for quantization and for codes are in order.
* `Mark.accepts` — whether the content of a segment is in order.
-/

namespace ReportPress.Raster

/-- What a mark stands for. -/
inductive Mark where
  | frame
  | scan
  /-- Tables of divisors for quantization. -/
  | divisors
  /-- Tables of codes of various lengths. -/
  | codes
  /-- The distance between restarts. -/
  | interval
  /-- The segment that names the file format. -/
  | format
  /-- The segment that names the transformation of colours. -/
  | transform
  /-- A segment that is skipped. -/
  | other
deriving DecidableEq, Repr

namespace Mark

/-- The kind of a mark by its second byte.  The end of the picture, and the marks that change the
number of lines or the way of coding, make no sense here. -/
def ofByte? (b : UInt8) : Option Mark :=
  if b = 0xD9 ∨ b = 0xDC ∨ b = 0xCC then none
  else if b = 0xC0 ∨ b = 0xC1 ∨ b = 0xC2 then some frame
  else if b = 0xC4 then some codes
  else if b = 0xDA then some scan
  else if b = 0xDB then some divisors
  else if b = 0xDD then some interval
  else if b = 0xE0 then some format
  else if b = 0xEE then some transform
  else some other

/-- How many bytes belong to a segment that announces so many.  One that names the format has at
least five, unless it has fewer than four. -/
def contentLength (mark : Mark) (announced : Nat) : Nat :=
  if mark = format ∧ announced = 4 then 5 else announced

end Mark

/-! ## Frames and scans -/

/-- What a frame segment says. -/
structure Frame where
  width : Nat
  height : Nat
  /-- The names of the parts of a colour. -/
  components : Bytes
deriving DecidableEq, Repr

/-- Whether the three bytes of a component are in order: its name, two numbers of samples in four
bits each, which are powers of two, and the table of divisors. -/
def isComponent (samples table : UInt8) : Bool :=
  [1, 2, 4, 8].contains (samples.toNat / 16) && [1, 2, 4, 8].contains (samples.toNat % 16) &&
    table < 4

/-- The names of components, if all are in order. -/
def components? : Bytes → Option Bytes
  | [] => some []
  | name :: samples :: table :: rest =>
    if isComponent samples table then (components? rest).map (name :: ·) else none
  | _ => none

/-- The frame that the content of a segment describes: samples of eight bits, sides that are not
zero, and three bytes for each of one to four components. -/
def frame? (content : Bytes) : Option Frame := do
  let bits ← big? 0 1 content
  let height ← big? 1 2 content
  let width ← big? 3 2 content
  let count ← big? 5 1 content
  let components ← components? (content.drop 6)
  if bits = 8 ∧ width ≠ 0 ∧ height ≠ 0 ∧ 1 ≤ count ∧ count ≤ 4 ∧ components.length = count then
    some ⟨width, height, components⟩
  else none

/-- Every second byte. -/
def everySecond : Bytes → Bytes
  | a :: _ :: rest => a :: everySecond rest
  | _ => []

/-- Whether a byte occurs twice. -/
def hasRepetition : Bytes → Bool
  | [] => false
  | b :: rest => rest.contains b || hasRepetition rest

/-- Whether the content of a scan segment refers to one or more components of the frame, to none of
them twice, and ends with a sensible range of frequencies and of bits. -/
def hasScan (f : Frame) (content : Bytes) : Bool :=
  match content with
  | [] => false
  | count :: rest =>
    let pairs := 2 * count.toNat
    let names := everySecond (rest.take pairs)
    1 ≤ count && count ≤ 4 && names.all (f.components.contains ·) && !hasRepetition names &&
      match rest.drop pairs with
      | [first, last, bits] =>
        first ≤ 63 && last ≤ 63 && bits.toNat / 16 ≤ 13 && bits.toNat % 16 ≤ 13
      | _ => false

/-! ## Tables -/

/-- Whether bytes are tables of 64 divisors each, of one or two bytes.  A byte in front says which,
and gives the number of the table. -/
def areDivisors (data : Bytes) : Bool :=
  match data with
  | [] => true
  | info :: rest =>
    let size := 64 * (info.toNat / 16 + 1)
    info.toNat / 16 ≤ 1 && info.toNat % 16 < 4 && size ≤ rest.length &&
      areDivisors (rest.drop size)
termination_by data.length
decreasing_by simp only [List.length_drop, List.length_cons]; omega

/-- Whether there are codes without a common beginning, so many of each length, and none of ones
only.  `next` is the first code of the length that is not taken. -/
def areFree (length next : Nat) : Bytes → Bool
  | [] => true
  | count :: counts =>
    let taken := next + count.toNat
    (count = 0 || taken < 1 <<< length) && areFree (length + 1) (2 * taken) counts

/-- Whether bytes are tables of codes: a byte with class and number of the table, sixteen numbers
of codes by their lengths, and what each code stands for.  In the tables of the first class this
is a number of bits, up to fifteen. -/
def areCodes (data : Bytes) : Bool :=
  match data with
  | [] => true
  | info :: rest =>
    let counts := rest.take 16
    let total := counts.foldl (fun n b => n + b.toNat) 0
    let meanings := (rest.drop 16).take total
    info.toNat / 16 ≤ 1 && info.toNat % 16 < 4 && total ≤ 256 && 16 + total ≤ rest.length &&
      areFree 1 0 counts && (info.toNat / 16 = 1 || meanings.all (· ≤ 15)) &&
      areCodes (rest.drop (16 + total))
termination_by data.length
decreasing_by simp only [List.length_drop, List.length_cons]; omega

/-- Whether bytes name a transformation of colours that is known. -/
def isTransform (content : Bytes) : Bool :=
  12 ≤ content.length &&
    (content.take 5 ≠ "Adobe".toUTF8.toList || (content.drop 11).head?.any (· ≤ 2))

/-- Whether the content of a segment is in order. -/
def Mark.accepts (mark : Mark) (content : Bytes) : Bool :=
  match mark with
  | divisors => areDivisors content
  | codes => areCodes content
  | interval => content.length = 2
  | transform => isTransform content
  | _ => true

end ReportPress.Raster
