/-!
# ASCII character classes and case

Attribute names are matched ignoring the case of ASCII letters only: `É` and `é`, `ß` and `SS`,
the Kelvin sign and `K` stay different. HTTP header names and methods are tokens, whose
characters are the letters, digits and the marks listed in `isTokenChar`.
-/

namespace TracePropagation.Text

/-- The character with an ASCII capital letter made small; every other character unchanged. -/
def asciiLower (c : Char) : Char :=
  if c.isUpper then Char.ofNat (c.toNat + 32) else c

/-- Two texts are equal when ASCII letters are compared without case. -/
def eqIgnoreAsciiCase (a b : String) : Bool :=
  a.toList.map asciiLower == b.toList.map asciiLower

/-- The text with its ASCII capital letters made small. -/
def lowerAscii (s : String) : String :=
  String.ofList (s.toList.map asciiLower)

/-- A token character: an ASCII letter or digit, or one of ``!#$%&'*+-.^_`|~``. -/
def isTokenChar (c : Char) : Bool :=
  c.isAlphanum || "!#$%&'*+-.^_|~".toList.contains c || c.toNat == 0x60

/-- A character that is printed as itself in ASCII text: space to tilde. -/
def isVisibleAscii (c : Char) : Bool :=
  0x20 ≤ c.toNat && c.toNat ≤ 0x7E

example : eqIgnoreAsciiCase "TraceParent" "traceparent" = true := by decide
example : eqIgnoreAsciiCase "É" "é" = false := by decide

end TracePropagation.Text
