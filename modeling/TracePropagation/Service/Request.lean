import TracePropagation.Json.Value
import TracePropagation.Json.Render
/-!
# Requests and failures

The service answers JSON requests. A request is an object; a member given as `null` counts as
absent. This module reads members of the expected kinds and names each way a request can be
refused, with the wording of its answer.
-/

namespace TracePropagation.Service

open TracePropagation.Json

/-- Why a request has no regular answer. -/
inductive Failure where
  /-- The request is not understood. -/
  | badInput (message : String)
  /-- The request line is no JSON. -/
  | badJson (message : String)
  /-- A message body is no envelope. -/
  | notAnEnvelope (message : String)
  /-- A message body is a malformed envelope. -/
  | malformedEnvelope (message : String)
  /-- A tracing configuration cannot be loaded. -/
  | config
  deriving Repr

/-- The answer object of a failure: its kind and its message. -/
def Failure.toJson : Failure → Value
  | .badInput m => .object [("error", .str "BadInput"), ("message", .str m)]
  | .badJson m => .object [("error", .str "BadJson"), ("message", .str m)]
  | .notAnEnvelope m => .object [("error", .str "NotAnEnvelope"), ("message", .str m)]
  | .malformedEnvelope m => .object [("error", .str "Json"), ("message", .str m)]
  | .config => .object [("error", .str "ConfigError"), ("message", .str "invalid tracing configuration")]

/-- Computations that may refuse a request. -/
abbrev Answer := Except Failure

/-- Refuses a request. -/
def refuse {α : Type} (message : String) : Answer α := .error (.badInput message)

/-- A member that is present and not `null`. -/
def member? (v : Value) (key : String) : Option Value := v.field? key

/-- An optional string member. -/
def optString (v : Value) (key : String) : Answer (Option String) :=
  match member? v key with
  | none => pure none
  | some (.str s) => pure (some s)
  | some _ => refuse ("field " ++ key ++ " must be a string or null")

/-- A string member with a default. -/
def stringOr (v : Value) (key : String) (default : String) : Answer String :=
  return (← optString v key).getD default

/-- A string member that must be present. -/
def needString (v : Value) (key : String) : Answer String := do
  match ← optString v key with
  | some s => pure s
  | none => refuse ("missing field " ++ key)

/-- An optional boolean member. -/
def optBool (v : Value) (key : String) : Answer (Option Bool) :=
  match member? v key with
  | none => pure none
  | some (.bool b) => pure (some b)
  | some _ => refuse ("field " ++ key ++ " must be a boolean or null")

/-- A boolean member with a default. -/
def boolOr (v : Value) (key : String) (default : Bool) : Answer Bool :=
  return (← optBool v key).getD default

/-- A member that must be a natural number below `2^64`. -/
def needNat (v : Value) (key : String) : Answer Nat :=
  match (member? v key).bind Value.asNat? with
  | some n => pure n
  | none => refuse ("field " ++ key ++ " must be a non-negative integer")

/-- An optional list of strings. -/
def optStrings (v : Value) (key : String) : Answer (List String) :=
  match member? v key with
  | none => pure []
  | some (.arr items) =>
    items.mapM fun
      | .str s => pure s
      | _ => refuse ("field " ++ key ++ " must be an array of strings")
  | some _ => refuse ("field " ++ key ++ " must be an array of strings")

/-- A `[string, string]` pair. -/
def pairOf? : Value → Option (String × String)
  | .arr [.str a, .str b] => some (a, b)
  | _ => none

/-- An optional list of `[string, string]` pairs. -/
def optPairs (v : Value) (key : String) : Answer (List (String × String)) :=
  match member? v key with
  | none => pure []
  | some (.arr items) =>
    items.mapM fun item =>
      match pairOf? item with
      | some p => pure p
      | none => refuse ("field " ++ key ++ " must hold [string, string] pairs")
  | some _ => refuse ("field " ++ key ++ " must be an array of pairs")

/-- An optional object member, as its members. -/
def optObject (v : Value) (key : String) : Answer (List (String × Value)) :=
  match member? v key with
  | none => pure []
  | some (.obj ms) => pure ms
  | some _ => refuse ("field " ++ key ++ " must be an object")

/-- An optional array member, as its items. -/
def optArray (v : Value) (key : String) : Answer (List Value) :=
  match member? v key with
  | none => pure []
  | some (.arr items) => pure items
  | some _ => refuse ("field " ++ key ++ " must be an array")

/-- The items of an array member; a member that is absent or no array has none. -/
def arrayOrEmpty (v : Value) (key : String) : List Value :=
  ((member? v key).bind Value.asArray?).getD []

/-- A string or `null`, as an answer value. -/
def optText : Option String → Value
  | some s => .str s
  | none => .null

/-- A list of strings as an answer value. -/
def texts (xs : List String) : Value := .arr (xs.map .str)

/-- Sorts strings increasingly. -/
def sortStrings (xs : List String) : List String := xs.mergeSort fun a b => a ≤ b

/-- Sorts answer values by their JSON text. -/
def sortByText (vs : List Value) : List Value :=
  vs.mergeSort fun a b => a.render ≤ b.render

end TracePropagation.Service
