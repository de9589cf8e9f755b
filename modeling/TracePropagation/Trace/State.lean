import TracePropagation.Text.Split
import TracePropagation.Json.Reader
/-!
# Trace state

The vendor-specific part of a trace context: a list of `key=value` members, written joined
by commas. Reading a trace-state header splits it at commas (a comma at the end closes the last
member), cuts every member at its first `=`, drops further `=` signs at the start of the value,
and then checks the members in order: the key first, then the value.

* A key has at most 256 characters from the small letters, digits and `_-*/@`; it starts with
  a small letter or a digit; it has at most one `@`, followed by a small letter or a digit and
  at most 13 characters in all. The empty key passes.
* A value has at most 256 bytes and holds no `,` and no `=`.

The first failure is the error: a member without `=` before all else, then a key, then a value.
-/

namespace TracePropagation

open TracePropagation.Text

/-- Why a trace-state header was refused. -/
inductive TraceStateError where
  /-- A key breaks the key rule. -/
  | key (k : String)
  /-- A value breaks the value rule. -/
  | value (v : String)
  /-- A member has no `=`. -/
  | member (m : String)
  deriving DecidableEq, Repr

/-- The wording of a trace-state error; it points to the section of the trace-context
recommendation that states the rule. -/
def TraceStateError.message : TraceStateError → String
  | .key k => k ++ " is not a valid key in TraceState, see https://www.w3.org/TR/trace-context/#key for more details"
  | .value v => v ++ " is not a valid value in TraceState, see https://www.w3.org/TR/trace-context/#value for more details"
  | .member m => m ++ " is not a valid list member in TraceState, see https://www.w3.org/TR/trace-context/#list for more details"

/-- A trace state: its members in order. -/
structure TraceState where
  /-- The members, first to last. -/
  members : List (String × String)
  deriving DecidableEq, Repr

namespace TraceState

/-- The empty trace state. -/
def empty : TraceState := ⟨[]⟩

/-- A character allowed in a key. -/
def isKeyChar (c : Char) : Bool :=
  c.isLower || c.isDigit || c = '_' || c = '-' || c = '*' || c = '/' || c = '@'

/-- The key rule, checked character by character; `i` is the position of the next character,
`n` the length of the key and `vendor` the position of an `@` already seen. -/
def keyCharsValid (n : Nat) : Nat → Option Nat → List Char → Bool
  | _, _, [] => true
  | i, vendor, c :: rest =>
    if !isKeyChar c then false
    else if i = 0 && !(c.isLower || c.isDigit) then false
    else if c = '@' then
      if vendor.isSome || i + 14 < n then false else keyCharsValid n (i + 1) (some i) rest
    else if vendor = some (i - 1) && i ≠ 0 && !(c.isLower || c.isDigit) then false
    else keyCharsValid n (i + 1) vendor rest

/-- Whether a key follows the key rule. -/
def validKey (k : String) : Bool :=
  k.length ≤ 256 && keyCharsValid k.length 0 none k.toList

/-- Whether a value follows the value rule: at most 256 bytes, no comma, no equals sign. -/
def validValue (v : String) : Bool :=
  v.utf8ByteSize ≤ 256 && !v.toList.contains ',' && !v.toList.contains '='

/-- The header text: the members as `key=value`, joined by commas. -/
def header (ts : TraceState) : String :=
  ",".intercalate (ts.members.map fun (k, v) => k ++ "=" ++ v)

/-- Cuts a member at its first `=`, dropping the run of `=` that starts the value. -/
def splitMember (m : List Char) : Option (String × String) :=
  (splitOnce '=' m).map fun (k, v) => (String.ofList k, String.ofList (v.dropWhile (· = '=')))

/-- Checks cut members in order, key before value. -/
def checkMembers : List (String × String) → Except TraceStateError (List (String × String))
  | [] => .ok []
  | (k, v) :: rest =>
    if !validKey k then .error (.key k)
    else if !validValue v then .error (.value v)
    else (checkMembers rest).map ((k, v) :: ·)

/-- Reads a trace-state header. -/
def parse (text : String) : Except TraceStateError TraceState := do
  let ms ← (piecesTerminated ',' text.toList).mapM fun m =>
    match splitMember m with
    | some kv => .ok kv
    | none => .error (.member (String.ofList m))
  let checked ← checkMembers ms
  pure ⟨checked⟩

example : (parse "a=1,b=2").toOption.map header = some "a=1,b=2" := by decide
example : (parse "").toOption = some empty := by decide

end TraceState

end TracePropagation
