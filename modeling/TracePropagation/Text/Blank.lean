/-!
# Blank characters

The characters with the Unicode `White_Space` property, and trimming by them.

Headers, trace-state members and baggage entries are trimmed by this class, not by the ASCII
class of `Char.isWhitespace`: a no-break space or an ideographic space around a value is
dropped, while a zero-width space or a byte-order mark is kept.

* `isBlank` is the class itself, as a table of code points.
* `trimStart`, `trimEnd` and `trim` drop blanks from the ends of a character list.
* `String.trimBlank` and `String.trimStartBlank` are the same on strings.
-/

namespace TracePropagation.Text

/-- A character is blank when it has the Unicode `White_Space` property: the controls from tab
to carriage return, space, next line (U+0085), no-break space (U+00A0), the ogham space mark
(U+1680), the spaces U+2000 to U+200A, the line and paragraph separators (U+2028, U+2029), the
narrow no-break space (U+202F), the medium mathematical space (U+205F) and the ideographic space
(U+3000). -/
def isBlank (c : Char) : Bool :=
  let n := c.toNat
  (0x09 ≤ n && n ≤ 0x0D) || n == 0x20 || n == 0x85 || n == 0xA0 || n == 0x1680 ||
    (0x2000 ≤ n && n ≤ 0x200A) || n == 0x2028 || n == 0x2029 || n == 0x202F ||
    n == 0x205F || n == 0x3000

/-- Every ASCII whitespace character is blank. -/
theorem isBlank_of_isWhitespace {c : Char} (h : c.isWhitespace = true) : isBlank c = true := by
  simp only [Char.isWhitespace, Bool.or_eq_true, decide_eq_true_eq] at h
  rcases h with ((h | h) | h) | h <;>
    simp [isBlank, Char.toNat, h]

/-- Drops the blanks at the start. -/
def trimStart (cs : List Char) : List Char :=
  cs.dropWhile isBlank

/-- Drops the blanks at the end. -/
def trimEnd (cs : List Char) : List Char :=
  (cs.reverse.dropWhile isBlank).reverse

/-- Drops the blanks at both ends. -/
def trim (cs : List Char) : List Char :=
  trimEnd (trimStart cs)

example : trim "  a b　".toList = "a b".toList := by decide
example : trim "﻿a".toList = "﻿a".toList := by decide

end TracePropagation.Text

namespace String

/-- The string without blanks at either end. -/
def trimBlank (s : String) : String :=
  String.ofList (TracePropagation.Text.trim s.toList)

/-- The string without blanks at its start. -/
def trimStartBlank (s : String) : String :=
  String.ofList (TracePropagation.Text.trimStart s.toList)

end String
