import TracePropagation.Config.Toml
import TracePropagation.Text.Blank
/-!
# Values in environment variables

A configuration value given in an environment variable is read as a small value language, and
taken as plain text if it does not read as a whole:

* `true` and `false` are booleans;
* `{key=value, ...}` is a dictionary, its keys made of letters, digits, `_` and `-` or quoted;
* `[value, ...]` is an array;
* `"..."` is a string by the rules of TOML's basic strings (the escapes `\b`, `\t`, `\n`,
  `\f`, `\r`, `\"`, `\\`, `\uXXXX` and `\UXXXXXXXX`; no control character but tab), and
  `'c'` a single character;
* anything else runs up to the next `,`, bracket or brace and is trimmed: a float if it has a
  point and reads as a decimal, an unsigned or signed integer if it reads as one, text
  otherwise.

A value that starts like a string, a character, a dictionary or an array must be one. Blanks
around values are ASCII blanks. An empty dictionary or array is written without blanks inside;
a comma may close the last item.
-/

namespace TracePropagation.EnvValue

open TracePropagation.Json

/-- ASCII blanks: space, tab, line feed, form feed, carriage return. -/
def isBlank (c : Char) : Bool :=
  c = ' ' || c = '\t' || c = '\n' || c.toNat = 12 || c = '\r'

/-- Drops ASCII blanks. -/
def skipBlanks (cs : List Char) : List Char := cs.dropWhile isBlank

/-- A character of a bare dictionary key. -/
def isKeyChar (c : Char) : Bool :=
  (c.isAlphanum && c.toNat < 128) || c = '_' || c = '-'

/-- A character that ends a bare value. -/
def isSeparator (c : Char) : Bool :=
  c = ',' || c = '\x7b' || c = '\x7d' || c = '[' || c = ']'

/-- The value of a bare text, trimmed: a float if it has a point and reads as a decimal, an
unsigned integer below `2^64` (an optional `+`, then digits), a signed one from `-2^63` (a `-`,
then digits), or else the text. -/
def bareValue (t : List Char) : Value :=
  let s := Text.trim t
  let float := if s.contains '.' then Binary64.readDecimal? s else none
  let unsigned := Text.readUnsigned 10 (Nat.pow 2 64) s
  let signed : Option Int := match s with
    | '-' :: r =>
      if !r.isEmpty && r.all Char.isDigit then
        (Text.readUnsigned 10 (Nat.pow 2 63 + 1) r).map fun n => -(n : Int)
      else none
    | _ => none
  match float, unsigned, signed with
  | some d, _, _ => .num (.float d)
  | none, some n, _ => .num (.int n)
  | none, none, some i => .num (.int i)
  | none, none, none => .str (String.ofList s)

example : (bareValue " -+5 ".toList).asString? = some "-+5" := by decide
example : (bareValue "+5".toList).asInt? = some 5 := by decide
example : (bareValue "-0".toList).asInt? = some 0 := by decide

mutual

/-- Reads a value with the blanks around it. -/
def value : Nat → List Char → Option (Value × List Char)
  | 0, _ => none
  | fuel + 1, cs =>
    let cs := skipBlanks cs
    let read : Option (Value × List Char) :=
      if "true".toList.isPrefixOf cs then some (.bool true, cs.drop 4)
      else if "false".toList.isPrefixOf cs then some (.bool false, cs.drop 5)
      else match cs with
        | '\x7b' :: r => (dictItems fuel [] r).map fun (ms, r') => (Value.object ms, r')
        | '[' :: r => (arrayItems fuel [] r).map fun (vs, r') => (.arr vs, r')
        | '"' :: r => (Toml.basicString [] r).map fun (s, r') => (.str s, r')
        | '\'' :: r =>
          match r with
          | c :: '\'' :: r' => some (.str (String.singleton c), r')
          | _ => none
        | _ =>
          let t := cs.takeWhile fun c => !isSeparator c
          some (bareValue t, cs.drop t.length)
    read.map fun (v, r) => (v, skipBlanks r)

/-- Reads dictionary items after `{` or a comma, up to `}`. -/
def dictItems : Nat → List (String × Value) → List Char → Option (List (String × Value) × List Char)
  | 0, _, _ => none
  | fuel + 1, acc, cs =>
    match cs with
    | '\x7d' :: r => some (acc.reverse, r)
    | _ => do
      let cs := skipBlanks cs
      let (k, r) ← match cs with
        | '"' :: r => Toml.basicString [] r
        | _ =>
          let k := cs.takeWhile isKeyChar
          if k.isEmpty then none else some (String.ofList k, cs.drop k.length)
      let r ← match skipBlanks r with
        | '=' :: r => some r
        | _ => none
      let (v, r) ← value fuel r
      match r with
      | ',' :: r' => dictItems fuel ((k, v) :: acc) r'
      | '\x7d' :: r' => some (((k, v) :: acc).reverse, r')
      | _ => none

/-- Reads array items after `[` or a comma, up to `]`. -/
def arrayItems : Nat → List Value → List Char → Option (List Value × List Char)
  | 0, _, _ => none
  | fuel + 1, acc, cs =>
    match cs with
    | ']' :: r => some (acc.reverse, r)
    | _ => do
      let (v, r) ← value fuel cs
      match r with
      | ',' :: r' => arrayItems fuel (v :: acc) r'
      | ']' :: r' => some ((v :: acc).reverse, r')
      | _ => none

end

/-- The value of an environment variable's text: the value it reads as, if it reads as a
whole, or else the text itself. -/
def parse (text : String) : Value :=
  match value (text.length + 2) text.toList with
  | some (v, []) => v
  | _ => .str text

end TracePropagation.EnvValue
