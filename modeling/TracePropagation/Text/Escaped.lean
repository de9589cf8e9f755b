/-!
# Quoted text with backslash escapes

Messages and descriptions show a text in double quotes, with the quote and the backslash
escaped, tab, line feed, carriage return and NUL as short escapes, and the other control
characters as `\u{hex}`; every other character stands for itself.
-/

namespace TracePropagation.Text

/-- The characters that show one character inside quotes. -/
def escapeShown (c : Char) : List Char :=
  if c = '"' then ['\\', '"']
  else if c = '\\' then ['\\', '\\']
  else if c = '\n' then ['\\', 'n']
  else if c = '\r' then ['\\', 'r']
  else if c = '\t' then ['\\', 't']
  else if c.toNat = 0 then ['\\', '0']
  else if c.toNat < 0x20 || (0x7F ≤ c.toNat && c.toNat < 0xA0) then
    ['\\', 'u', '\x7b'] ++ Nat.toDigits 16 c.toNat ++ ['\x7d']
  else [c]

/-- A text in double quotes, escaped. -/
def quoted (s : String) : String :=
  String.ofList ('"' :: s.toList.flatMap escapeShown ++ ['"'])

example : quoted "a\"b" = "\"a\\\"b\"" := by decide

end TracePropagation.Text
