import TracePropagation.Json.Decimal
import TracePropagation.Text.Hex
import TracePropagation.Text.Percent
/-!
# Reading JSON text

JSON is read in two steps. `Doc.read` checks the syntax and builds a `Doc`, a tree whose strings
are still spelled as written, escapes and all. `Doc.toValue` then decodes the strings and
classifies the numbers. Keeping the spelling lets a caller decide per string whether its
escapes must denote a character: the members of an envelope that are read are checked, those
that are skipped are not.

Two dialects of the syntax are used.

* `Dialect.strict` reads requests: at most 127 nested arrays and objects, escapes of surrogates
  must come in pairs, and a number must be a finite double.
* `Dialect.skim` reads envelopes: no limit on nesting (the machine below keeps its own stack),
  and `\u` with any four hexadecimal digits is accepted.

An error names its cause and the number of bytes not yet read where it was found; its message
gives the line and column.
-/

namespace TracePropagation.Json

open TracePropagation.Text

/-! ## Dialects and documents -/

/-- The rules that differ between reading a request and skimming an envelope. -/
structure Dialect where
  /-- The deepest nesting of arrays and objects allowed, if any limit applies. -/
  maxDepth : Option Nat
  /-- Whether escapes must denote characters and numbers must be finite doubles. -/
  validates : Bool

/-- Requests: nesting up to 127, checked escapes and numbers. -/
def Dialect.strict : Dialect := ⟨some 127, true⟩

/-- Envelopes: any nesting, escapes and numbers checked for their syntax only. -/
def Dialect.skim : Dialect := ⟨none, false⟩

/-- A JSON text as read, strings still in their written spelling and members in written order,
repeated names included. -/
inductive Doc where
  /-- `null`. -/
  | null
  /-- `true` or `false`. -/
  | bool (b : Bool)
  /-- A number, as written. -/
  | num (text : List Char)
  /-- A string, as written between its quotes. -/
  | str (raw : List Char)
  /-- An array. -/
  | arr (items : List Doc)
  /-- An object, its members in written order. -/
  | obj (members : List (List Char × Doc))
  deriving Inhabited

/-! ## Lexical parts -/

/-- JSON blanks: space, tab, line feed and carriage return. -/
def isJsonBlank (c : Char) : Bool :=
  c = ' ' || c = '\t' || c = '\n' || c = '\r'

/-- Drops the blanks at the start. -/
def skipBlanks (cs : List Char) : List Char :=
  cs.dropWhile isJsonBlank

/-- The value of four hexadecimal digits. -/
def hex4 (a b c d : Char) : Option Nat := do
  let w ← hexValue a
  let x ← hexValue b
  let y ← hexValue c
  let z ← hexValue d
  pure (((w * 16 + x) * 16 + y) * 16 + z)

/-- A leading surrogate: U+D800 to U+DBFF. -/
def isLeadingSurrogate (n : Nat) : Bool := 0xD800 ≤ n && n ≤ 0xDBFF

/-- A trailing surrogate: U+DC00 to U+DFFF. -/
def isTrailingSurrogate (n : Nat) : Bool := 0xDC00 ≤ n && n ≤ 0xDFFF

/-- The character of a one-letter escape. -/
def unescape : Char → Option Char
  | '"' => some '"'
  | '\\' => some '\\'
  | '/' => some '/'
  | 'b' => some (Char.ofNat 8)
  | 'f' => some (Char.ofNat 12)
  | 'n' => some '\n'
  | 'r' => some '\r'
  | 't' => some '\t'
  | _ => none

/-- The error for a `\u` escape with fewer than four characters left: too few bytes end the
text, while four bytes or more that include a non-ASCII character are no digits. -/
def shortHexError (r : List Char) : ReadError :=
  if byteLength r < 4 then ⟨.eofString, 0⟩ else ⟨.invalidEscape, byteLength r - 4⟩

/-- Reads the rest of a string after its opening quote and returns its spelling, reversed into
`acc`, and what follows the closing quote. In the strict dialect an escaped leading surrogate
must be followed by an escaped trailing one, and a trailing one may not stand alone. -/
def scanString (strict : Bool) (acc : List Char) : List Char →
    Except ReadError (List Char × List Char)
  | [] => .error (failAt .eofString [])
  | '"' :: r => .ok (acc.reverse, r)
  | '\\' :: [] => .error (failAt .eofString [])
  | '\\' :: 'u' :: a :: b :: c :: d :: r =>
    match hex4 a b c d with
    | none => .error (failAt .invalidEscape r)
    | some n =>
      let acc' := d :: c :: b :: a :: 'u' :: '\\' :: acc
      if !strict || !(isLeadingSurrogate n || isTrailingSurrogate n) then
        scanString strict acc' r
      else if isTrailingSurrogate n then .error (failAt .loneSurrogate r)
      else
        match r with
        | [] => .error (failAt .eofString [])
        | '\\' :: [] => .error (failAt .eofString [])
        | '\\' :: 'u' :: a2 :: b2 :: c2 :: d2 :: r2 =>
          match hex4 a2 b2 c2 d2 with
          | none => .error (failAt .invalidEscape r2)
          | some m =>
            if isTrailingSurrogate m then
              scanString strict (d2 :: c2 :: b2 :: a2 :: 'u' :: '\\' :: acc') r2
            else .error (failAt .loneSurrogate r2)
        | '\\' :: 'u' :: r2 => .error (shortHexError r2)
        | '\\' :: _ :: r2 => .error (failAt .unexpectedEndOfHexEscape r2)
        | _ :: _ => .error (⟨.unexpectedEndOfHexEscape, byteLength r - 1⟩ : ReadError)
  | '\\' :: 'u' :: r => .error (shortHexError r)
  | '\\' :: e :: r =>
    if (unescape e).isSome then scanString strict (e :: '\\' :: acc) r
    else .error (failAt .invalidEscape r)
  | c :: r =>
    if c.toNat < 0x20 then .error (failAt .controlCharacter r)
    else scanString strict (c :: acc) r

/-- Decodes the spelling of a string, reversed into `acc`; `none` for an escaped surrogate
without its partner or an unknown escape. -/
def decodeChars (acc : List Char) : List Char → Option (List Char)
  | [] => some acc.reverse
  | '\\' :: 'u' :: a :: b :: c :: d :: r =>
    match hex4 a b c d with
    | none => none
    | some n =>
      if isTrailingSurrogate n then none
      else if isLeadingSurrogate n then
        match r with
        | '\\' :: 'u' :: a2 :: b2 :: c2 :: d2 :: r2 =>
          match hex4 a2 b2 c2 d2 with
          | some m =>
            if isTrailingSurrogate m then
              decodeChars (Char.ofNat ((n - 0xD800) * 1024 + (m - 0xDC00) + 0x10000) :: acc) r2
            else none
          | none => none
        | _ => none
      else decodeChars (Char.ofNat n :: acc) r
  | '\\' :: e :: r =>
    match unescape e with
    | some x => decodeChars (x :: acc) r
    | none => none
  | c :: r => decodeChars (c :: acc) r

/-- The text of a string spelling, if its escapes denote characters. -/
def decodeString (raw : List Char) : Option String :=
  (decodeChars [] raw).map String.ofList

/-- The exponent part of a number, after its `e`: an optional sign and at least one digit. -/
def skimExponent (cs : List Char) : Except ReadError (List Char) :=
  let cs' := match cs with
    | '+' :: r => r
    | '-' :: r => r
    | r => r
  match cs' with
  | c :: r => if c.isDigit then .ok (r.dropWhile Char.isDigit) else .error (failAt .invalidNumber r)
  | [] => .error (failAt .invalidNumber [])

/-- The integer part of a number, after its optional minus: `0`, or a digit other than `0` and
the digits after it. Returns what follows it. -/
def skimInteger : List Char → Except ReadError (List Char)
  | [] => .error (failAt .invalidNumber [])
  | '0' :: r =>
    match r with
    | c :: _ => if c.isDigit then .error (failPeek .invalidNumber r) else .ok r
    | [] => .ok r
  | c :: r => if c.isDigit then .ok (r.dropWhile Char.isDigit) else .error (failAt .invalidNumber r)

/-- The fraction of a number, if it has one: a point and at least one digit. Returns what
follows it. -/
def skimFraction : List Char → Except ReadError (List Char)
  | '.' :: r =>
    match r with
    | c :: _ => if c.isDigit then .ok (r.dropWhile Char.isDigit) else .error (failPeek .invalidNumber r)
    | [] => .error (failPeek .invalidNumber [])
  | r => .ok r

/-- The exponent of a number, if it has one: `e` or `E`, then what `skimExponent` reads.
Returns what follows it. -/
def skimExponentPart : List Char → Except ReadError (List Char)
  | 'e' :: r => skimExponent r
  | 'E' :: r => skimExponent r
  | r => .ok r

/-- Skims a number for its syntax only: an optional minus, an integer part without leading
zeros, an optional fraction and an optional exponent. Returns what follows it. -/
def skimNumber (cs : List Char) : Except ReadError (List Char) := do
  let afterInt ← skimInteger (match cs with
    | '-' :: r => r
    | r => r)
  let afterFrac ← skimFraction afterInt
  skimExponentPart afterFrac

/-- Reads a number, in the strict dialect as a finite double and otherwise for its syntax
only. Returns its spelling and the rest. -/
def scanNumber (strict : Bool) (cs : List Char) : Except ReadError (List Char × List Char) :=
  (if strict then (readNumber cs).map Prod.snd else skimNumber cs).map fun rest =>
    (cs.take (cs.length - rest.length), rest)

/-- Reads the rest of a literal after its first letter; a wrong letter is an error after it. -/
def scanLiteral : List Char → List Char → Except ReadError (List Char)
  | [], cs => .ok cs
  | _ :: _, [] => .error (failAt .eofValue [])
  | x :: xs, c :: cs => if x = c then scanLiteral xs cs else .error (failAt .expectedIdent cs)

/-- Expects the colon after a member name. -/
def scanColon (cs : List Char) : Except ReadError (List Char) :=
  match skipBlanks cs with
  | ':' :: r => .ok r
  | [] => .error (failPeek .eofObject [])
  | r => .error (failPeek .expectedColon r)

/-! ## The reading machine -/

/-- An array or object whose reading has begun. -/
inductive Frame where
  /-- An array, with the items read so far, last first. -/
  | items (done : List Doc)
  /-- An object, with the members read so far, last first, and the name whose value comes
  next. -/
  | members (done : List (List Char × Doc)) (key : List Char)

/-- What the machine does next: read a value, or place a finished one into the innermost open
frame. -/
inductive Next where
  /-- A value starts here. -/
  | value
  /-- This value is finished. -/
  | close (v : Doc)

/-- Reads a key after its opening quote, then the colon. -/
def scanKey (d : Dialect) (cs : List Char) : Except ReadError (List Char × List Char) :=
  match scanString d.validates [] cs with
  | .error e => .error e
  | .ok (k, r) =>
    match scanColon r with
    | .error e => .error e
    | .ok r' => .ok (k, r')

/-- Whether opening one more array or object goes beyond the dialect's nesting limit. -/
def Dialect.tooDeep (d : Dialect) (open_ : Nat) : Bool :=
  match d.maxDepth with
  | some m => open_ + 1 > m
  | none => false

/-- The machine: each step reads at least one character, so `fuel` above the length of the text
is never used up. Open arrays and objects are kept on `stack`, innermost first, so deep nesting
costs no recursion. -/
def run (d : Dialect) : Nat → List Frame → Next → List Char → Except ReadError (Doc × List Char)
  | 0, _, _, cs => .error (failAt .eofValue cs)
  | fuel + 1, stack, .value, cs =>
    match skipBlanks cs with
    | [] => .error (failPeek .eofValue [])
    | 'n' :: r =>
      match scanLiteral "ull".toList r with
      | .ok r' => run d fuel stack (.close .null) r'
      | .error e => .error e
    | 't' :: r =>
      match scanLiteral "rue".toList r with
      | .ok r' => run d fuel stack (.close (.bool true)) r'
      | .error e => .error e
    | 'f' :: r =>
      match scanLiteral "alse".toList r with
      | .ok r' => run d fuel stack (.close (.bool false)) r'
      | .error e => .error e
    | '"' :: r =>
      match scanString d.validates [] r with
      | .ok (s, r') => run d fuel stack (.close (.str s)) r'
      | .error e => .error e
    | '[' :: r =>
      if d.tooDeep stack.length then .error (failPeek .recursionLimit ('[' :: r))
      else
        match skipBlanks r with
        | ']' :: r' => run d fuel stack (.close (.arr [])) r'
        | _ => run d fuel (.items [] :: stack) .value r
    | '{' :: r =>
      if d.tooDeep stack.length then .error (failPeek .recursionLimit ('{' :: r))
      else
        match skipBlanks r with
        | '}' :: r' => run d fuel stack (.close (.obj [])) r'
        | '"' :: r' =>
          match scanKey d r' with
          | .ok (k, r'') => run d fuel (.members [] k :: stack) .value r''
          | .error e => .error e
        | [] => .error (failPeek .eofObject [])
        | r' => .error (failPeek .keyMustBeString r')
    | c :: r =>
      if c = '-' || c.isDigit then
        match scanNumber d.validates (c :: r) with
        | .ok (t, r') => run d fuel stack (.close (.num t)) r'
        | .error e => .error e
      else .error (failPeek .expectedValue (c :: r))
  | _ + 1, [], .close v, cs => .ok (v, cs)
  | fuel + 1, .items done :: st, .close v, cs =>
    match skipBlanks cs with
    | ',' :: r =>
      match skipBlanks r with
      | ']' :: r' => .error (failPeek .trailingComma (']' :: r'))
      | _ => run d fuel (.items (v :: done) :: st) .value r
    | ']' :: r => run d fuel st (.close (.arr (v :: done).reverse)) r
    | [] => .error (failPeek .eofList [])
    | r => .error (failPeek .expectedListCommaOrEnd r)
  | fuel + 1, .members done k :: st, .close v, cs =>
    match skipBlanks cs with
    | ',' :: r =>
      match skipBlanks r with
      | '"' :: r' =>
        match scanKey d r' with
        | .ok (k', r'') => run d fuel (.members ((k, v) :: done) k' :: st) .value r''
        | .error e => .error e
      | '}' :: r' => .error (failPeek .trailingComma ('}' :: r'))
      | [] => .error (failPeek .eofValue [])
      | r' => .error (failPeek .keyMustBeString r')
    | '}' :: r => run d fuel st (.close (.obj ((k, v) :: done).reverse)) r
    | [] => .error (failPeek .eofObject [])
    | r => .error (failPeek .expectedObjectCommaOrEnd r)

/-- Reads one JSON text in a dialect: a value, then nothing but blanks. -/
def Doc.read (d : Dialect) (cs : List Char) : Except ReadError Doc :=
  match run d (2 * cs.length + 2) [] .value cs with
  | .error e => .error e
  | .ok (v, rest) =>
    match skipBlanks rest with
    | [] => .ok v
    | r => .error (failPeek .trailingCharacters r)

/-! ## Values -/

/-- The number a spelling of the strict dialect reads as (see `readNumber`); the strict reader
stores no other spelling, and any other counts as zero. -/
def Number.ofSpelling (t : List Char) : Number :=
  match readNumber t with
  | .ok (n, _) => n
  | .error _ => .int 0

mutual

/-- The value of a document: strings decoded, numbers classified, objects keyed; `none` if a
string's escapes denote no character. -/
def Doc.toValue : Doc → Option Value
  | .null => some .null
  | .bool b => some (.bool b)
  | .num t => some (.num (Number.ofSpelling t))
  | .str raw => (decodeString raw).map .str
  | .arr items => (Doc.itemsToValues items).map .arr
  | .obj members => (Doc.membersToValues members).map Value.object

/-- The values of array items. -/
def Doc.itemsToValues : List Doc → Option (List Value)
  | [] => some []
  | d :: ds => do
    let v ← d.toValue
    let vs ← Doc.itemsToValues ds
    pure (v :: vs)

/-- The members of an object, names decoded. -/
def Doc.membersToValues : List (List Char × Doc) → Option (List (String × Value))
  | [] => some []
  | (k, d) :: ms => do
    let k' ← decodeString k
    let v ← d.toValue
    let vs ← Doc.membersToValues ms
    pure ((k', v) :: vs)

end

/-- Reads a request text into a value, by the strict dialect. -/
def Value.read (text : String) : Except ReadError Value :=
  match Doc.read .strict text.toList with
  | .error e => .error e
  | .ok doc =>
    match doc.toValue with
    | some v => .ok v
    | none => .error ⟨.loneSurrogate, 0⟩

end TracePropagation.Json
