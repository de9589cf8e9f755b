/-!
# Reading unsigned numbers in a radix

The number fields of the headers (trace-parent version and flags, ports) are read by one rule:
an optional plus sign, then at least one digit of the radix, letters of either case, and a value
below the bound of the field's width. Leading zeros are allowed in any number.

* `digitValue` is the value of one digit.
* `digitsValue` reads a non-empty list of digits.
* `readUnsigned` adds the plus sign and the bound.
-/

namespace TracePropagation.Text

/-- The value of a digit in a radix of at most 36: `0` to `9`, then the letters of either case
from ten on; `none` for any other character or a value not below the radix. -/
def digitValue (radix : Nat) (c : Char) : Option Nat :=
  let v :=
    if c.isDigit then some (c.toNat - '0'.toNat)
    else if c.isLower then some (c.toNat - 'a'.toNat + 10)
    else if c.isUpper then some (c.toNat - 'A'.toNat + 10)
    else none
  v.filter (· < radix)

/-- Adds one digit to the value read so far. -/
def pushDigit (radix : Nat) (acc : Option Nat) (c : Char) : Option Nat :=
  acc.bind fun a => (digitValue radix c).map fun d => a * radix + d

/-- The value of a non-empty list of digits, most significant first. -/
def digitsValue (radix : Nat) (cs : List Char) : Option Nat :=
  if cs.isEmpty then none else cs.foldl (pushDigit radix) (some 0)

/-- Reads an unsigned number below `bound`: an optional plus sign followed by at least one digit
of the radix. A sign alone, a minus sign, or a value of `bound` or more is refused. -/
def readUnsigned (radix bound : Nat) (cs : List Char) : Option Nat :=
  let ds := match cs with
    | '+' :: d :: r => d :: r
    | _ => cs
  (digitsValue radix ds).filter (· < bound)

example : readUnsigned 16 256 "ff".toList = some 255 := by decide
example : readUnsigned 16 256 "+1".toList = some 1 := by decide
example : readUnsigned 16 256 "100".toList = none := by decide
example : readUnsigned 16 256 "+".toList = none := by decide
example : readUnsigned 10 65536 "0080".toList = some 80 := by decide

end TracePropagation.Text
