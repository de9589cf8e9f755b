import TracePropagation.Binary64.Basic
/-!
# JSON values

The values that requests, events and answers are made of. Numbers keep the distinction that
matters to the library: an integer in the range of a 64-bit word (unsigned, or signed when
negative) is exact, any other number is a double. Objects hold each key once,
in increasing key order, so reading a text with a repeated key keeps the last value.

* `Number` and `Value` are the types.
* `Value.get?` looks up a member; `Value.field?` does the same but reads `null` as absent.
* `Fields.insert` is how objects are built: it replaces or inserts at the key's place.
-/

namespace TracePropagation.Json

/-- A JSON number. -/
inductive Number where
  /-- An integer from `-2^63` to `2^64 - 1`. -/
  | int (i : Int)
  /-- Any other number (a fraction, an exponent, negative zero or an integer out of range),
  as a double. -/
  | float (d : Binary64)
  deriving DecidableEq, Repr, Inhabited

/-- A JSON value. -/
inductive Value where
  /-- `null`. -/
  | null
  /-- `true` or `false`. -/
  | bool (b : Bool)
  /-- A number. -/
  | num (n : Number)
  /-- A string. -/
  | str (s : String)
  /-- An array. -/
  | arr (items : List Value)
  /-- An object: each key once, keys in increasing order. -/
  | obj (fields : List (String × Value))
  deriving Repr, Inhabited

namespace Value

/-- An integer value. -/
def ofInt (i : Int) : Value := .num (.int i)

/-- A natural-number value. -/
def ofNat (n : Nat) : Value := .num (.int n)

/-- A string value, or `null` for none. -/
def ofOption : Option String → Value
  | some s => .str s
  | none => .null

/-- The value of a member of an object; `none` for another key or a value that is no object. -/
def get? : Value → String → Option Value
  | .obj fields, key => fields.lookup key
  | _, _ => none

/-- The value of a member that is present and not `null`. -/
def field? (v : Value) (key : String) : Option Value :=
  match v.get? key with
  | some .null => none
  | other => other

/-- The string held by a value, if it is one. -/
def asString? : Value → Option String
  | .str s => some s
  | _ => none

/-- The integer held by a value that is an exact integer. -/
def asInt? : Value → Option Int
  | .num (.int i) => some i
  | _ => none

/-- The integer held by a value, if it lies in the signed 64-bit range. -/
def asInt64? (v : Value) : Option Int :=
  v.asInt?.filter fun i => i < Int.pow 2 63

/-- The integer held by a value, if it is a natural number below `2^64`. -/
def asNat? (v : Value) : Option Nat :=
  match v.asInt? with
  | some (.ofNat n) => some n
  | _ => none

/-- The items of an array value. -/
def asArray? : Value → Option (List Value)
  | .arr items => some items
  | _ => none

/-- The members of an object value. -/
def asObject? : Value → Option (List (String × Value))
  | .obj fields => some fields
  | _ => none

/-- The boolean held by a value. -/
def asBool? : Value → Option Bool
  | .bool b => some b
  | _ => none

end Value

namespace Fields

/-- Puts a member into a key-ordered member list: a member of the same key is replaced in
place, otherwise the member goes before the first greater key. -/
def insert (key : String) (v : Value) : List (String × Value) → List (String × Value)
  | [] => [(key, v)]
  | (k, w) :: rest =>
    if key = k then (key, v) :: rest
    else if key < k then (key, v) :: (k, w) :: rest
    else (k, w) :: insert key v rest

/-- The member list of an object whose members are given in any order, later ones winning. -/
def ofList (members : List (String × Value)) : List (String × Value) :=
  members.foldl (fun acc m => insert m.1 m.2 acc) []

end Fields

/-- An object value from members in any order, later ones winning. -/
def Value.object (members : List (String × Value)) : Value :=
  .obj (Fields.ofList members)

end TracePropagation.Json
