/-!
# Bytes as letters

Three bytes are written as four of 64 letters.  Where bytes are missing at the end, `=` stands for
the letters that would say nothing.

* `sextet?` — the six bits of a letter.
* `ofBase64?` — the bytes of a text.
-/

namespace ReportPress.Text

/-- The letters in the order of what they stand for. -/
def base64Letters : List Char :=
  "ABCDEFGHIJKLMNOPQRSTUVWXYZabcdefghijklmnopqrstuvwxyz0123456789+/".toList

/-- The six bits of a letter. -/
def sextet? (c : Char) : Option Nat := base64Letters.findIdx? (· = c)

/-- The bytes of a text.  The bits of a letter that belong to no byte are zero. -/
def ofBase64? : List Char → Option (List UInt8)
  | [] => some []
  | [a, b, '=', '='] => do
    let n := 64 * (← sextet? a) + (← sextet? b)
    if n % 16 = 0 then some [UInt8.ofNat (n / 16)] else none
  | [a, b, c, '='] => do
    let n := 64 * (64 * (← sextet? a) + (← sextet? b)) + (← sextet? c)
    if n % 4 = 0 then some [UInt8.ofNat (n / 1024), UInt8.ofNat (n / 4)] else none
  | a :: b :: c :: d :: rest => do
    let n := 64 * (64 * (64 * (← sextet? a) + (← sextet? b)) + (← sextet? c)) + (← sextet? d)
    let more ← ofBase64? rest
    return UInt8.ofNat (n / 65536) :: UInt8.ofNat (n / 256) :: UInt8.ofNat n :: more
  | _ => none

end ReportPress.Text
