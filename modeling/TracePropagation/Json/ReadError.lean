import TracePropagation.Json.Value
/-!
# Errors of reading JSON

Why a text is no JSON, with the wording of each cause, and where: an error keeps the number of
bytes not yet read, and its message turns that into a line and a column.
-/

namespace TracePropagation.Json

/-- Why a text is no JSON. -/
inductive ReadErrorKind where
  /-- The text ends where a value should start. -/
  | eofValue
  /-- The text ends inside a string. -/
  | eofString
  /-- The text ends inside an array. -/
  | eofList
  /-- The text ends inside an object. -/
  | eofObject
  /-- A member name is not followed by a colon. -/
  | expectedColon
  /-- An array item is followed by neither a comma nor a closing bracket. -/
  | expectedListCommaOrEnd
  /-- An object member is followed by neither a comma nor a closing brace. -/
  | expectedObjectCommaOrEnd
  /-- A literal is misspelt. -/
  | expectedIdent
  /-- No value starts here. -/
  | expectedValue
  /-- A backslash starts no escape. -/
  | invalidEscape
  /-- A number is malformed. -/
  | invalidNumber
  /-- A number is too large for a double. -/
  | numberOutOfRange
  /-- A control character stands in a string. -/
  | controlCharacter
  /-- A member name is not a string. -/
  | keyMustBeString
  /-- An escaped surrogate has no partner. -/
  | loneSurrogate
  /-- An escaped leading surrogate is followed by no second escape. -/
  | unexpectedEndOfHexEscape
  /-- A comma stands before a closing bracket or brace. -/
  | trailingComma
  /-- Something other than blanks follows the value. -/
  | trailingCharacters
  /-- Arrays and objects are nested too deeply. -/
  | recursionLimit
  deriving DecidableEq, Repr

/-- The wording of each cause. -/
def ReadErrorKind.text : ReadErrorKind → String
  | .eofValue => "EOF while parsing a value"
  | .eofString => "EOF while parsing a string"
  | .eofList => "EOF while parsing a list"
  | .eofObject => "EOF while parsing an object"
  | .expectedColon => "expected `:`"
  | .expectedListCommaOrEnd => "expected `,` or `]`"
  | .expectedObjectCommaOrEnd => "expected `,` or `\x7d`"
  | .expectedIdent => "expected ident"
  | .expectedValue => "expected value"
  | .invalidEscape => "invalid escape"
  | .invalidNumber => "invalid number"
  | .numberOutOfRange => "number out of range"
  | .controlCharacter => "control character (\\u0000-\\u001F) found while parsing a string"
  | .keyMustBeString => "key must be a string"
  | .loneSurrogate => "lone leading surrogate in hex escape"
  | .unexpectedEndOfHexEscape => "unexpected end of hex escape"
  | .trailingComma => "trailing comma"
  | .trailingCharacters => "trailing characters"
  | .recursionLimit => "recursion limit exceeded"

/-- A reading error: its cause, and how many bytes of the text were not yet read where it was
found. -/
structure ReadError where
  /-- The cause. -/
  kind : ReadErrorKind
  /-- Bytes of the text after the position of the error. -/
  rest : Nat
  deriving DecidableEq, Repr

/-- The number of UTF-8 bytes of a list of characters. -/
def byteLength (cs : List Char) : Nat :=
  cs.foldl (fun n c => n + c.utf8Size) 0

/-- An error found after the characters read so far, before `rest`. -/
def failAt (kind : ReadErrorKind) (rest : List Char) : ReadError :=
  ⟨kind, byteLength rest⟩

/-- An error found at the next character: its position counts that character's first byte. -/
def failPeek (kind : ReadErrorKind) (rest : List Char) : ReadError :=
  ⟨kind, byteLength rest - 1⟩

/-- Line and column of a byte offset: lines count from one, columns count the bytes since the
last line feed. -/
def lineColumn (text : List Char) (offset : Nat) : Nat × Nat :=
  let step := fun (st : Nat × Nat × Nat) (c : Char) =>
    let (pos, line, lineStart) := st
    if pos < offset ∧ c = '\n' then (pos + c.utf8Size, line + 1, pos + 1)
    else (pos + c.utf8Size, line, lineStart)
  let (_, line, lineStart) := text.foldl step (0, 1, 0)
  (line, offset - lineStart)

/-- The message of an error in a given text: the cause, then its line and column. -/
def ReadError.message (text : List Char) (e : ReadError) : String :=
  let offset := byteLength text - e.rest
  let (line, column) := lineColumn text offset
  e.kind.text ++ " at line " ++ toString line ++ " column " ++ toString column

end TracePropagation.Json
