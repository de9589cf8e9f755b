import TracePropagation.Json.Value
import TracePropagation.Binary64.Shortest
import TracePropagation.Text.Hex
/-!
# Writing JSON text

The compact text of a value: no blanks, members in the object's key order, strings with `"`
and `\` escaped, the controls written as their short escape where there is one and as `\u00xx`
otherwise, every other character as itself. The text of a list of strings is also the key by
which lists of baggage entries are sorted, so its spelling is part of the answers.

* `escapeChar` and `quote` write strings.
* `Value.render` writes a whole value.
-/

namespace TracePropagation.Json

open TracePropagation.Text

/-- The characters that stand for one character inside a quoted string. -/
def escapeChar (c : Char) : List Char :=
  if c = '"' then ['\\', '"']
  else if c = '\\' then ['\\', '\\']
  else if c = '\n' then ['\\', 'n']
  else if c = '\r' then ['\\', 'r']
  else if c = '\t' then ['\\', 't']
  else if c.toNat = 8 then ['\\', 'b']
  else if c.toNat = 12 then ['\\', 'f']
  else if c.toNat < 0x20 then ['\\', 'u', '0', '0'] ++ hexDigits 2 c.toNat
  else [c]

/-- A string in quotes, escaped. -/
def quote (s : String) : String :=
  String.ofList ('"' :: s.toList.flatMap escapeChar ++ ['"'])

/-- The text of a number: an integer in decimal, a finite double by its shortest decimal
(`1.5`, `100.0`, `6.1e30`), and an infinity or NaN, which JSON cannot write, as `null`. -/
def Number.render : Number → String
  | .int i => toString i
  | .float (.finite negative m e) => Binary64.finiteText negative m e
  | .float _ => "null"

mutual

/-- The compact text of a value. -/
def Value.render : Value → String
  | .null => "null"
  | .bool true => "true"
  | .bool false => "false"
  | .num n => n.render
  | .str s => quote s
  | .arr items => "[" ++ renderItems items ++ "]"
  | .obj fields => "\x7b" ++ renderMembers fields ++ "\x7d"

/-- The items of an array, separated by commas. -/
def renderItems : List Value → String
  | [] => ""
  | [v] => v.render
  | v :: rest => v.render ++ "," ++ renderItems rest

/-- The members of an object, separated by commas. -/
def renderMembers : List (String × Value) → String
  | [] => ""
  | [(k, v)] => quote k ++ ":" ++ v.render
  | (k, v) :: rest => quote k ++ ":" ++ v.render ++ "," ++ renderMembers rest

end

example : Value.render (.arr [.str "a\"", .ofInt (-3), .null]) = "[\"a\\\"\",-3,null]" := by
  decide

end TracePropagation.Json
