import TracePropagation.Json.Value
import TracePropagation.Binary64.Basic
import TracePropagation.Text.Radix
import TracePropagation.Text.Hex
import TracePropagation.Text.Percent
/-!
# TOML documents

A reader for TOML 1.0 documents that turns a document into a JSON-like value: tables become
objects, arrays arrays, strings strings, integers (64-bit signed) integers, floats doubles,
booleans booleans, and dates and times their text. A document that breaks the format gives no
value at all.

The checks are those of the format: keys bare or quoted, dotted keys, every key defined once,
tables defined once (a table made implicitly by a longer header may be defined later, one made
by dotted keys may not), inline tables closed, arrays of tables extended by `[[...]]`, strings of
the four kinds with their escapes, integers with `_` between digits and in hexadecimal, octal and
binary, floats, and the date and time forms. Two limits are added: a positive decimal float too
large for a double is refused (a negative one is negative infinity), and arrays and inline
tables nest fewer than 80 deep.
-/

namespace TracePropagation.Toml

open TracePropagation.Json

/-! ## Values -/

/-- A TOML value. -/
inductive TomlValue where
  /-- A string. -/
  | str (s : String)
  /-- A 64-bit signed integer. -/
  | int (i : Int)
  /-- A float, as the double it reads as. -/
  | float (d : Binary64)
  /-- A boolean. -/
  | bool (b : Bool)
  /-- A date, time or date-time, as written. -/
  | datetime (text : String)
  /-- An array. -/
  | array (items : List TomlValue)
  /-- An inline table, its keys in order of definition. -/
  | table (entries : List (String × TomlValue))
  deriving Inhabited

/-- How a table came to be. -/
inductive Origin where
  /-- Made as the parent of a header's table; a header may still define it. -/
  | implicit
  /-- Defined by a header. -/
  | header
  /-- Made by a dotted key. -/
  | dotted
  deriving DecidableEq

/-- A node of the document being built. -/
inductive Node where
  /-- A value, inline tables included; nothing can be added to it. -/
  | value (v : TomlValue)
  /-- A table and its entries. -/
  | table (origin : Origin) (entries : List (String × Node))
  /-- An array of tables; the last one is the one headers and keys add to. -/
  | tables (items : List (List (String × Node)))
  deriving Inhabited

/-! ## Lexical parts -/

/-- Space and tab. -/
def isSpace (c : Char) : Bool := c = ' ' || c = '\t'

/-- Drops spaces and tabs. -/
def skipSpace (cs : List Char) : List Char := cs.dropWhile isSpace

/-- A character of a bare key. -/
def isBareKeyChar (c : Char) : Bool := c.isAlphanum || c = '_' || c = '-'

/-- A control character that may not stand in strings and comments: all but tab. -/
def isForbiddenControl (c : Char) : Bool :=
  (c.toNat < 0x20 && c ≠ '\t') || c.toNat = 0x7F

/-- Skips a comment after its `#`, up to the line end. -/
def skipComment (cs : List Char) : Option (List Char) :=
  let body := cs.takeWhile fun c => c ≠ '\n' && c ≠ '\r'
  let rest := cs.dropWhile fun c => c ≠ '\n' && c ≠ '\r'
  if body.any isForbiddenControl then none else some rest

/-- Ends a line: blanks, an optional comment, then a line break or the end. -/
def endLine (cs : List Char) : Option (List Char) := do
  let cs := skipSpace cs
  let cs ← match cs with
    | '#' :: r => skipComment r
    | _ => some cs
  match cs with
  | [] => some []
  | '\n' :: r => some r
  | '\r' :: '\n' :: r => some r
  | _ => none

/-- Skips blanks, line breaks and comments, as between array items. -/
def skipBlankLines : Nat → List Char → Option (List Char)
  | 0, _ => none
  | fuel + 1, cs =>
    match skipSpace cs with
    | '\n' :: r => skipBlankLines fuel r
    | '\r' :: '\n' :: r => skipBlankLines fuel r
    | '#' :: r => (skipComment r).bind (skipBlankLines fuel)
    | r => some r

/-! ## Strings -/

/-- The character of a `\u` or `\U` escape: that many hexadecimal digits naming a scalar. -/
def unicodeEscape (n : Nat) (cs : List Char) : Option (Char × List Char) := do
  let ds := cs.take n
  if ds.length ≠ n then none else
  let v ← Text.digitsValue 16 ds
  if ds.all fun c => (Text.hexValue c).isSome then
    let c ← Text.scalar v
    pure (c, cs.drop n)
  else none

/-- The character of an escape after its backslash. -/
def escape : List Char → Option (Char × List Char)
  | 'b' :: r => some (Char.ofNat 8, r)
  | 't' :: r => some ('\t', r)
  | 'n' :: r => some ('\n', r)
  | 'f' :: r => some (Char.ofNat 12, r)
  | 'r' :: r => some ('\r', r)
  | '"' :: r => some ('"', r)
  | '\\' :: r => some ('\\', r)
  | 'u' :: r => unicodeEscape 4 r
  | 'U' :: r => unicodeEscape 8 r
  | _ => none

/-- A basic string after its opening quote, reversed into `acc`. -/
def basicString (acc : List Char) : List Char → Option (String × List Char)
  | [] => none
  | '"' :: r => some (String.ofList acc.reverse, r)
  | '\\' :: r =>
    match escape r with
    | some (c, r') =>
      if r'.length < r.length then basicString (c :: acc) r' else none
    | none => none
  | c :: r => if isForbiddenControl c then none else basicString (c :: acc) r
termination_by cs => cs.length

/-- A literal string after its opening quote. -/
def literalString (cs : List Char) : Option (String × List Char) :=
  let body := cs.takeWhile (· ≠ '\'')
  match cs.dropWhile (· ≠ '\'') with
  | '\'' :: r => if body.any isForbiddenControl then none else some (String.ofList body, r)
  | _ => none

/-- Drops a line break that directly follows the opening delimiter of a multi-line string. -/
def dropFirstBreak : List Char → List Char
  | '\n' :: r => r
  | '\r' :: '\n' :: r => r
  | r => r

/-- After a line-ending backslash: skips blanks and line breaks. -/
def skipLineContinuation (cs : List Char) : Option (List Char) :=
  let afterSpace := skipSpace cs
  match afterSpace with
  | '\n' :: _ | '\r' :: '\n' :: _ =>
    some (cs.dropWhile fun c => isSpace c || c = '\n' || c = '\r')
  | _ => none

/-- The body of a multi-line basic string, reversed into `acc`, up to its closing `"""`; up to
two quotes just before the closing ones belong to the text. -/
def multilineBasic (acc : List Char) : List Char → Option (String × List Char)
  | [] => none
  | '"' :: '"' :: '"' :: '"' :: '"' :: r => some (String.ofList ('"' :: '"' :: acc).reverse, r)
  | '"' :: '"' :: '"' :: '"' :: r => some (String.ofList ('"' :: acc).reverse, r)
  | '"' :: '"' :: '"' :: r => some (String.ofList acc.reverse, r)
  | '\\' :: c :: r =>
    if isSpace c || c = '\n' || c = '\r' then
      match skipLineContinuation (c :: r) with
      | some r' => if r'.length < r.length + 2 then multilineBasic acc r' else none
      | none => none
    else
      match escape (c :: r) with
      | some (x, r') => if r'.length < r.length + 2 then multilineBasic (x :: acc) r' else none
      | none => none
  | ['\\'] => none
  | '\r' :: '\n' :: r => multilineBasic ('\n' :: '\r' :: acc) r
  | c :: r =>
    if c = '\n' || !isForbiddenControl c then multilineBasic (c :: acc) r else none
termination_by cs => cs.length

/-- The body of a multi-line literal string up to its closing `'''`. -/
def multilineLiteral (acc : List Char) : List Char → Option (String × List Char)
  | [] => none
  | '\'' :: '\'' :: '\'' :: '\'' :: '\'' :: r =>
    some (String.ofList ('\'' :: '\'' :: acc).reverse, r)
  | '\'' :: '\'' :: '\'' :: '\'' :: r => some (String.ofList ('\'' :: acc).reverse, r)
  | '\'' :: '\'' :: '\'' :: r => some (String.ofList acc.reverse, r)
  | '\r' :: '\n' :: r => multilineLiteral ('\n' :: '\r' :: acc) r
  | c :: r =>
    if c = '\n' || !isForbiddenControl c then multilineLiteral (c :: acc) r else none

/-! ## Keys -/

/-- One part of a key: bare, basic-quoted or literal-quoted. -/
def simpleKey : List Char → Option (String × List Char)
  | '"' :: r => basicString [] r
  | '\'' :: r => literalString r
  | cs =>
    let bare := cs.takeWhile isBareKeyChar
    if bare.isEmpty then none else some (String.ofList bare, cs.drop bare.length)

/-- A dotted key: parts separated by `.`, blanks allowed around the dots. -/
def dottedKey : Nat → List Char → Option (List String × List Char)
  | 0, _ => none
  | fuel + 1, cs => do
    let (k, r) ← simpleKey cs
    match skipSpace r with
    | '.' :: r' =>
      let (ks, r'') ← dottedKey fuel (skipSpace r')
      pure (k :: ks, r'')
    | _ => pure ([k], r)

/-! ## Numbers, dates and times -/

/-- Digits with single underscores between them. -/
def digitsWithUnderscores (isDigit : Char → Bool) : List Char → Bool
  | [] => false
  | c :: r => isDigit c && go r
where
  /-- After a digit. -/
  go : List Char → Bool
    | [] => true
    | '_' :: d :: r => isDigit d && go r
    | d :: r => isDigit d && go r

/-- The digits of a number written with underscores, without them. -/
def withoutUnderscores (cs : List Char) : List Char := cs.filter (· ≠ '_')

/-- Whether a decimal integer part is well formed: `0`, or no leading zero. -/
def decimalPart (cs : List Char) : Bool :=
  digitsWithUnderscores Char.isDigit cs && (cs = ['0'] || cs.head? ≠ some '0')

/-- The least and the largest 64-bit signed integers. -/
def intMin : Int := -(Int.pow 2 63)

/-- The largest 64-bit signed integer. -/
def intMax : Int := Int.pow 2 63 - 1

/-- An integer literal. -/
def integer (tok : List Char) : Option Int :=
  let inRange := fun (i : Int) => if intMin ≤ i && i ≤ intMax then some i else none
  match tok with
  | '0' :: 'x' :: ds =>
    if digitsWithUnderscores (fun c => (Text.hexValue c).isSome) ds then
      (Text.digitsValue 16 (withoutUnderscores ds)).bind fun n => inRange n
    else none
  | '0' :: 'o' :: ds =>
    if digitsWithUnderscores (fun c => '0' ≤ c && c ≤ '7') ds then
      (Text.digitsValue 8 (withoutUnderscores ds)).bind fun n => inRange n
    else none
  | '0' :: 'b' :: ds =>
    if digitsWithUnderscores (fun c => c = '0' || c = '1') ds then
      (Text.digitsValue 2 (withoutUnderscores ds)).bind fun n => inRange n
    else none
  | _ =>
    let (neg, ds) := match tok with
      | '-' :: r => (true, r)
      | '+' :: r => (false, r)
      | r => (false, r)
    if decimalPart ds then
      (Text.digitsValue 10 (withoutUnderscores ds)).bind fun n =>
        inRange (if neg then -(n : Int) else n)
    else none

/-- A float literal: a decimal integer part and a fraction, an exponent or both; or `inf` or
`nan`, each with an optional sign. -/
def isFloat (tok : List Char) : Bool :=
  let body := match tok with
    | '-' :: r => r
    | '+' :: r => r
    | r => r
  if body = "inf".toList || body = "nan".toList then true
  else
    let intPart := body.takeWhile fun c => c.isDigit || c = '_'
    let rest := body.drop intPart.length
    if !decimalPart intPart then false
    else
      let (hasFrac, fracOk, afterFrac) := match rest with
        | '.' :: r =>
          let f := r.takeWhile fun c => c.isDigit || c = '_'
          (true, digitsWithUnderscores Char.isDigit f, r.drop f.length)
        | r => (false, true, r)
      if !fracOk then false
      else
        match afterFrac with
        | [] => hasFrac
        | e :: r =>
          if e = 'e' || e = 'E' then
            let ds := match r with
              | '+' :: d => d
              | '-' :: d => d
              | d => d
            digitsWithUnderscores Char.isDigit ds
          else false

/-- Exactly `n` digits and their value. -/
def fixedDigits (n : Nat) (cs : List Char) : Option (Nat × List Char) :=
  let ds := cs.take n
  if ds.length = n && ds.all Char.isDigit then
    (Text.digitsValue 10 ds).map fun v => (v, cs.drop n)
  else none

/-- The days of a month. -/
def daysIn (year month : Nat) : Nat :=
  if month = 2 then
    if year % 4 = 0 && (year % 100 ≠ 0 || year % 400 = 0) then 29 else 28
  else if month = 4 || month = 6 || month = 9 || month = 11 then 30 else 31

/-- A full date `YYYY-MM-DD`, and the rest. -/
def fullDate (cs : List Char) : Option (List Char) := do
  let (y, r) ← fixedDigits 4 cs
  let r ← match r with
    | '-' :: r => some r
    | _ => none
  let (m, r) ← fixedDigits 2 r
  let r ← match r with
    | '-' :: r => some r
    | _ => none
  let (d, r) ← fixedDigits 2 r
  if 1 ≤ m && m ≤ 12 && 1 ≤ d && d ≤ daysIn y m then some r else none

/-- A partial time `HH:MM:SS` with an optional fraction, and the rest. -/
def partialTime (cs : List Char) : Option (List Char) := do
  let (h, r) ← fixedDigits 2 cs
  let r ← match r with
    | ':' :: r => some r
    | _ => none
  let (m, r) ← fixedDigits 2 r
  let r ← match r with
    | ':' :: r => some r
    | _ => none
  let (s, r) ← fixedDigits 2 r
  if h > 23 || m > 59 || s > 60 then none else
  match r with
  | '.' :: f =>
    let ds := f.takeWhile Char.isDigit
    if ds.isEmpty then none else some (f.drop ds.length)
  | _ => some r

/-- A time offset: `Z`, or a sign and `HH:MM`. -/
def timeOffset : List Char → Option (List Char)
  | 'Z' :: r => some r
  | 'z' :: r => some r
  | s :: r =>
    if s = '+' || s = '-' then do
      let (h, r) ← fixedDigits 2 r
      let r ← match r with
        | ':' :: r => some r
        | _ => none
      let (m, r) ← fixedDigits 2 r
      if h > 23 || m > 59 then none else some r
    else none
  | [] => none

/-- The double of a float literal without its underscores: `inf` and `nan` with their sign,
and a decimal rounded to the nearest double. -/
def floatValue (tok : List Char) : Binary64 :=
  let cs := withoutUnderscores tok
  let (negative, body) := match cs with
    | '-' :: r => (true, r)
    | '+' :: r => (false, r)
    | r => (false, r)
  if body = "inf".toList then .infinite negative
  else if body = "nan".toList then .nan
  else (Binary64.readDecimal? cs).getD .nan

/-- Whether a float literal is a decimal too large for a double. Such a literal is refused
when it is positive; a negative one reads as negative infinity. -/
def overflowsPositive (tok : List Char) : Bool :=
  floatValue tok = .infinite false && !(tok = "inf".toList || tok = "+inf".toList)

example : overflowsPositive "1e400".toList ∧ !overflowsPositive "-1e400".toList ∧
    !overflowsPositive "+inf".toList := by decide

/-- The text of a time `HH:MM:SS` with its fraction in nanoseconds: digits after the ninth are
dropped, trailing zeros too, and a zero fraction is not written. -/
def timeText (cs : List Char) : List Char :=
  let hms := cs.take 8
  let frac := match cs.drop 8 with
    | '.' :: r => r.takeWhile Char.isDigit
    | _ => []
  let nanos := ((frac.take 9) ++ List.replicate (9 - (frac.take 9).length) '0').reverse.dropWhile
    (· = '0') |>.reverse
  if nanos.isEmpty then hms else hms ++ '.' :: nanos

/-- The text of an offset: `Z`, or a sign and `HH:MM`, a zero offset with `+`. -/
def offsetText : List Char → List Char
  | 'Z' :: _ => ['Z']
  | 'z' :: _ => ['Z']
  | s :: r => if r.take 5 = "00:00".toList then "+00:00".toList else s :: r.take 5
  | [] => []

/-- The text of a date, time or date-time token in its usual form: `T` between date and time,
the fraction in nanoseconds as `timeText` writes it, and the offset as `offsetText` does. -/
def datetimeText (tok : List Char) : String :=
  match fullDate tok with
  | some (_ :: r) =>
    let time := r.takeWhile fun c => c.isDigit || c = ':' || c = '.'
    String.ofList (tok.take 10 ++ 'T' :: timeText time ++ offsetText (r.drop time.length))
  | some [] => String.ofList tok
  | none => String.ofList (timeText tok)

example : datetimeText "1979-05-27t07:32:00.5000z".toList = "1979-05-27T07:32:00.5Z" := by decide
example : datetimeText "1979-05-27 07:32:00-00:00".toList = "1979-05-27T07:32:00+00:00" := by
  decide

/-- Whether a token is a date, a time or a date-time. -/
def isDateTime (tok : List Char) : Bool :=
  match fullDate tok with
  | some [] => true
  | some (t :: r) =>
    if t = 'T' || t = 't' || t = ' ' then
      match partialTime r with
      | some [] => true
      | some r' => timeOffset r' = some []
      | none => false
    else false
  | none => partialTime tok = some []

/-! ## Tables under construction -/

/-- Replaces the entry of a key. -/
def replaceEntry (k : String) (n : Node) : List (String × Node) → List (String × Node)
  | [] => []
  | (k', n') :: rest => if k' = k then (k, n) :: rest else (k', n') :: replaceEntry k n rest

/-- Sets a dotted key in a table's entries: the parts before the last make or enter tables made
by dotted keys, the last must be new. -/
def setDotted : List String → TomlValue → List (String × Node) → Option (List (String × Node))
  | [], _, _ => none
  | [k], v, entries =>
    if entries.any (·.1 = k) then none else some (entries ++ [(k, .value v)])
  | k :: ks, v, entries =>
    match entries.lookup k with
    | none => (setDotted ks v []).map fun sub => entries ++ [(k, .table .dotted sub)]
    | some (.table .dotted sub) =>
      (setDotted ks v sub).map fun sub' => replaceEntry k (.table .dotted sub') entries
    | some _ => none

mutual

/-- The value of a node. -/
def nodeValue : Node → TomlValue
  | .value v => v
  | .table _ entries => .table (entriesValue entries)
  | .tables items => .array (tablesValue items)

/-- The values of a table's entries. -/
def entriesValue : List (String × Node) → List (String × TomlValue)
  | [] => []
  | (k, n) :: rest => (k, nodeValue n) :: entriesValue rest

/-- The values of an array of tables. -/
def tablesValue : List (List (String × Node)) → List TomlValue
  | [] => []
  | t :: rest => .table (entriesValue t) :: tablesValue rest

end

/-- Builds an inline table from its entries; a key given twice refuses it. -/
def buildInline (entries : List (List String × TomlValue)) : Option TomlValue :=
  (entries.foldlM (fun (t : List (String × Node)) (e : List String × TomlValue) =>
      setDotted e.1 e.2 t) []).map fun t => .table (entriesValue t)

/-! ## Values -/

/-- A character that ends a number or date token. -/
def endsToken (c : Char) : Bool :=
  isSpace c || c = ',' || c = ']' || c = '}' || c = '#' || c = '\n' || c = '\r'

/-- Reads a number, boolean or date token. -/
def scalarToken (cs : List Char) : Option (TomlValue × List Char) :=
  let tok := cs.takeWhile fun c => !endsToken c
  let rest := cs.drop tok.length
  -- a date followed by a space and a time is one date-time
  let (tok, rest) := match fullDate tok, rest with
    | some [], ' ' :: r =>
      let t := r.takeWhile fun c => !endsToken c
      if (partialTime t).isSome then (tok ++ ' ' :: t, r.drop t.length) else (tok, rest)
    | _, _ => (tok, rest)
  if tok = "true".toList then some (.bool true, rest)
  else if tok = "false".toList then some (.bool false, rest)
  else if isDateTime tok then some (.datetime (String.ofList tok), rest)
  else match integer tok with
    | some i => some (.int i, rest)
    | none =>
      if isFloat tok && !overflowsPositive tok then some (.float (floatValue tok), rest)
      else none

/-- The deepest nesting of arrays and inline tables, counting the outermost one, is below
this. -/
def depthLimit : Nat := 80

mutual

/-- Reads a value inside `depth` arrays and inline tables. -/
def value : Nat → Nat → List Char → Option (TomlValue × List Char)
  | 0, _, _ => none
  | fuel + 1, depth, cs =>
    match cs with
    | '"' :: '"' :: '"' :: r =>
      (multilineBasic [] (dropFirstBreak r)).map fun (s, r') => (.str s, r')
    | '"' :: r => (basicString [] r).map fun (s, r') => (.str s, r')
    | '\'' :: '\'' :: '\'' :: r =>
      (multilineLiteral [] (dropFirstBreak r)).map fun (s, r') => (.str s, r')
    | '\'' :: r => (literalString r).map fun (s, r') => (.str s, r')
    | '[' :: r => if depth + 1 < depthLimit then arrayItems fuel (depth + 1) [] r else none
    | '\x7b' :: r =>
      if depth + 1 < depthLimit then
        match skipSpace r with
        | '\x7d' :: r' => some (.table [], r')
        | r' => inlineEntries fuel (depth + 1) [] r'
      else none
    | _ => scalarToken cs

/-- Reads array items after `[` or after a comma, reversed into `acc`, up to the `]`. -/
def arrayItems : Nat → Nat → List TomlValue → List Char → Option (TomlValue × List Char)
  | 0, _, _, _ => none
  | fuel + 1, depth, acc, cs => do
    let cs ← skipBlankLines (cs.length + 1) cs
    match cs with
    | ']' :: r => some (.array acc.reverse, r)
    | _ =>
      let (v, r) ← value fuel depth cs
      let r ← skipBlankLines (r.length + 1) r
      match r with
      | ',' :: r' => arrayItems fuel depth (v :: acc) r'
      | ']' :: r' => some (.array (v :: acc).reverse, r')
      | _ => none

/-- Reads the entries of an inline table, reversed into `acc`, up to the closing brace. -/
def inlineEntries : Nat → Nat → List (List String × TomlValue) → List Char →
    Option (TomlValue × List Char)
  | 0, _, _, _ => none
  | fuel + 1, depth, acc, cs => do
    let (path, r) ← dottedKey (cs.length + 1) cs
    let r ← match skipSpace r with
      | '=' :: r => some (skipSpace r)
      | _ => none
    let (v, r) ← value fuel depth r
    let acc := (path, v) :: acc
    match skipSpace r with
    | ',' :: r' => inlineEntries fuel depth acc (skipSpace r')
    | '\x7d' :: r' => (buildInline acc.reverse).map fun t => (t, r')
    | _ => none

end

end TracePropagation.Toml
