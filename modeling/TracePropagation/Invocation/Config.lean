import TracePropagation.Config.TomlDocument
import TracePropagation.Config.EnvValue
import TracePropagation.Text.Escaped
import TracePropagation.Text.Ascii
import TracePropagation.Text.Split
/-!
# Tracing configuration

How invocations are traced: whether the cloud trace header may supply a parent, whether the
providers are flushed when an invocation ends and how long a flush may take, and attributes
added to every invocation span.

A configuration is loaded in layers, each a JSON-like object: the defaults, then an optional
TOML file, then the environment variables that start with `OTEL_LAMBDA_` (the rest of the name,
trimmed and in lowercase, is the key, `.` nesting, and a key with an empty part is ignored;
values read by `EnvValue.parse`). A later layer replaces
the values of an earlier one, and objects are merged key by key. The result must then have a
boolean for each switch, a natural number below `2^64` for the flush timeout in milliseconds and
an object of strings for the attributes; keys not known are ignored.
-/

namespace TracePropagation

open TracePropagation.Json

/-- A tracing configuration. -/
structure TracingConfig where
  /-- Whether the cloud trace header is not used as a parent. -/
  disableCloudHeader : Bool := false
  /-- Whether the providers are flushed when an invocation ends. -/
  flushOnEnd : Bool := true
  /-- The longest a flush may take, in milliseconds. -/
  flushTimeoutMs : Nat := 5000
  /-- Attributes for every span, each key once, in key order. -/
  attributes : List (String × String) := []
  deriving DecidableEq, Repr

/-- A configuration that cannot be loaded. -/
structure ConfigError where
  deriving DecidableEq, Repr

namespace TracingConfig

/-- Sets an attribute, replacing one of the same key. -/
def withAttribute (c : TracingConfig) (k v : String) : TracingConfig :=
  { c with attributes := insertKey k v c.attributes }
where
  /-- Puts a key at its place in a key-ordered list. -/
  insertKey (k v : String) : List (String × String) → List (String × String)
    | [] => [(k, v)]
    | (k', v') :: rest =>
      if k = k' then (k, v) :: rest
      else if k < k' then (k, v) :: (k', v') :: rest
      else (k', v') :: insertKey k v rest

/-- The prefix of the environment variables that configure tracing. -/
def envPrefix : String := "OTEL_LAMBDA_"

/-- The defaults as a layer. -/
def defaultLayer : Value :=
  .object [("disable_xray_context_extraction", .bool false), ("flush_on_end", .bool true),
    ("flush_timeout", .ofNat 5000), ("attributes", .obj [])]

mutual

/-- Lays one value over another: objects merge key by key, anything else is replaced. -/
def overlay : Value → Value → Value
  | .obj base, .obj top => .obj (mergeFields base top)
  | _, top => top
termination_by base top => sizeOf base + sizeOf top

/-- Merges the members of two objects, both in key order. -/
def mergeFields : List (String × Value) → List (String × Value) → List (String × Value)
  | [], top => top
  | base, [] => base
  | (k, v) :: bs, (k', v') :: ts =>
    if k = k' then (k, overlay v v') :: mergeFields bs ts
    else if k < k' then (k, v) :: mergeFields bs ((k', v') :: ts)
    else (k', v') :: mergeFields ((k, v) :: bs) ts
termination_by base top => sizeOf base + sizeOf top

end

/-- A value placed under a dotted key: `a.b` and `v` give `{a: {b: v}}`. -/
def nest (key : String) (v : Value) : Value :=
  ((Text.pieces '.' key.toList).map String.ofList).foldr (fun k acc => .obj [(k, acc)]) v

/-- The key an environment variable sets: the rest of its name after the prefix, trimmed and
in lowercase; none when the name lacks the prefix or the key has an empty `.`-separated part
(the empty key included). -/
def envKey (name : String) : Option String :=
  let cs := name.toList
  if envPrefix.toList.isPrefixOf cs then
    let key := Text.trim (cs.drop envPrefix.length)
    if (Text.pieces '.' key).any List.isEmpty then none
    else some (String.ofList (key.map Text.asciiLower))
  else none

example : envKey "OTEL_LAMBDA_Flush_On_End\t" = some "flush_on_end" := by decide
example : envKey "OTEL_LAMBDA_ATTRIBUTES..a" = none ∧ envKey "OTEL_LAMBDA_" = none := by decide

/-- The layer of the environment variables that carry the prefix. -/
def envLayer (env : List (String × String)) : Value :=
  env.foldl (fun acc (name, text) =>
    match envKey name with
    | some key => overlay acc (nest key (EnvValue.parse text))
    | none => acc) (.obj [])

/-- A switch of the merged layers. -/
def readBool (v : Value) (key : String) (default : Bool) : Except ConfigError Bool :=
  match v.get? key with
  | none => .ok default
  | some (.bool b) => .ok b
  | some _ => .error {}

/-- Reads the merged layers. -/
def ofValue (v : Value) : Except ConfigError TracingConfig := do
  let disable ← readBool v "disable_xray_context_extraction" false
  let flush ← readBool v "flush_on_end" true
  let timeout ← match v.get? "flush_timeout" with
    | none => pure 5000
    | some t =>
      match t.asNat? with
      | some n => pure n
      | none => .error {}
  let attributes ← match v.get? "attributes" with
    | none => pure []
    | some (.obj ms) => ms.mapM fun (k, a) =>
      match a with
      | .str s => .ok (k, s)
      | _ => .error {}
    | some _ => .error {}
  pure ⟨disable, flush, timeout, attributes⟩

/-- Loads a configuration from an optional TOML text and the environment. -/
def load (toml : Option String) (env : List (String × String)) : Except ConfigError TracingConfig := do
  let fileLayer ← match toml with
    | none => pure (Value.obj [])
    | some text =>
      match Toml.toJson text with
      | some v => pure v
      | none => .error {}
  ofValue (overlay (overlay defaultLayer fileLayer) (envLayer env))

/-- The text of a duration of milliseconds, in the largest unit below it: seconds with their
fraction (`1.5s`), whole milliseconds (`250ms`), or `0ns`. -/
def durationText (ms : Nat) : String :=
  if ms ≥ 1000 then
    let frac := ms % 1000
    toString (ms / 1000) ++
      (if frac = 0 then ""
       else "." ++ String.ofList ((Nat.toDigits 10 (1000 + frac)).drop 1 |>.reverse.dropWhile (· = '0') |>.reverse)) ++
      "s"
  else if ms > 0 then toString ms ++ "ms"
  else "0ns"

example : durationText 5000 = "5s" ∧ durationText 1500 = "1.5s" ∧ durationText 3723004 = "3723.004s" ∧
    durationText 250 = "250ms" ∧ durationText 0 = "0ns" := by decide

/-- The description of a configuration, its attributes as a map. -/
def describe (c : TracingConfig) : String :=
  "TracingConfig \x7b disable_xray_context_extraction: " ++ toString c.disableCloudHeader ++
    ", flush_on_end: " ++ toString c.flushOnEnd ++
    ", flush_timeout: " ++ durationText c.flushTimeoutMs ++
    ", attributes: " ++
    (if c.attributes.isEmpty then "\x7b\x7d"
     else "\x7b" ++ ", ".intercalate (c.attributes.map fun (k, v) =>
       Text.quoted k ++ ": " ++ Text.quoted v) ++ "\x7d") ++ " \x7d"

end TracingConfig

end TracePropagation
