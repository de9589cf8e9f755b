import TracePropagation.Text.Radix
/-!
# Hexadecimal digits

Identifiers are written as fixed-width lowercase hexadecimal and read either from a radix-16
number (trace parent) or byte by byte from pairs of digits (cloud trace header).

* `hexDigits w n` writes the low `w` digits of `n`, most significant first.
* `decodeHex n cs` reads exactly `n` bytes from `2 n` digits of either case.
* `bytesValue` is the big-endian value of a list of bytes.
-/

namespace TracePropagation.Text

/-- The lowercase hexadecimal digit of a value below sixteen. -/
def hexDigitChar (d : Nat) : Char :=
  if d < 10 then Char.ofNat ('0'.toNat + d) else Char.ofNat ('a'.toNat + d - 10)

/-- The low `w` hexadecimal digits of `n`, most significant first, zeros in front. -/
def hexDigits : Nat → Nat → List Char
  | 0, _ => []
  | w + 1, n => hexDigits w (n / 16) ++ [hexDigitChar (n % 16)]

@[simp] theorem length_hexDigits (w n : Nat) : (hexDigits w n).length = w := by
  induction w generalizing n with
  | zero => rfl
  | succ w ih => simp [hexDigits, ih]

/-- The value of a hexadecimal digit of either case. -/
def hexValue (c : Char) : Option Nat :=
  if c.isDigit then some (c.toNat - '0'.toNat)
  else if 'a' ≤ c ∧ c ≤ 'f' then some (c.toNat - 'a'.toNat + 10)
  else if 'A' ≤ c ∧ c ≤ 'F' then some (c.toNat - 'A'.toNat + 10)
  else none

/-- Reads pairs of hexadecimal digits as bytes, the first digit of a pair the high one. -/
def hexBytes : List Char → Option (List UInt8)
  | [] => some []
  | [_] => none
  | hi :: lo :: rest => do
    let h ← hexValue hi
    let l ← hexValue lo
    let bs ← hexBytes rest
    pure ((h * 16 + l).toUInt8 :: bs)

/-- Exactly `n` bytes from exactly `2 n` hexadecimal digits; `none` for any other length or a
character that is no digit. -/
def decodeHex (n : Nat) (cs : List Char) : Option (List UInt8) :=
  if cs.length = 2 * n then hexBytes cs else none

/-- The big-endian value of a list of bytes. -/
def bytesValue (bs : List UInt8) : Nat :=
  bs.foldl (fun acc b => acc * 256 + b.toNat) 0

example : decodeHex 2 "aB09".toList = some [0xab, 0x09] := by decide
example : hexDigits 4 255 = "00ff".toList := by decide

end TracePropagation.Text
