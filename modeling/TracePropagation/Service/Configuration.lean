import TracePropagation.Service.Invocation
import TracePropagation.Invocation.Tracer
/-!
# Configuration operations of the service

Requests describe a tracing configuration by its four settings, load one from a TOML text and
environment variables, build one step by step, or ask for the description of a source, a
configuration, a tracer or a layer.
-/

namespace TracePropagation.Service

open TracePropagation.Json

/-- A configuration described by `{disable_xray_context_extraction?, flush_on_end?,
flush_timeout_ms?, attributes?: [[k, v]]}`; absent settings keep their defaults and a repeated
attribute key keeps its last value. -/
def configOf (v : Value) : Answer TracingConfig := do
  let disable ← boolOr v "disable_xray_context_extraction" false
  let flush ← boolOr v "flush_on_end" true
  let timeout ← match member? v "flush_timeout_ms" with
    | none => pure 5000
    | some _ => needNat v "flush_timeout_ms"
  let attrs ← optPairs v "attributes"
  pure (attrs.foldl (fun c (k, x) => c.withAttribute k x)
    { disableCloudHeader := disable, flushOnEnd := flush, flushTimeoutMs := timeout })

/-- The optional configuration in a member; the default one when absent. -/
def configIn (v : Value) (key : String) : Answer TracingConfig :=
  match member? v key with
  | none => pure {}
  | some c => configOf c

/-- The answer form of a configuration. -/
def configJson (c : TracingConfig) : Value :=
  .object [
    ("disable_xray_context_extraction", .bool c.disableCloudHeader),
    ("flush_on_end", .bool c.flushOnEnd),
    ("flush_timeout_ms", .ofNat c.flushTimeoutMs),
    ("attributes", .arr (c.attributes.map fun (k, x) => .arr [.str k, .str x]))]

/-- The environment variables of a request: an object of strings, each named with the prefix. -/
def envOf (v : Value) : Answer (List (String × String)) := do
  let members ← optObject v "env"
  members.mapM fun (name, x) => do
    unless TracingConfig.envPrefix.toList.isPrefixOf name.toList do
      refuse ("env keys must start with " ++ TracingConfig.envPrefix)
    match x with
    | .str s => pure (name, s)
    | _ => refuse "env values must be strings"

/-- `config_load`: a configuration from an optional TOML text and the environment. -/
def configLoadOp (req : Value) : Answer Value := do
  let toml ← optString req "toml"
  let env ← envOf req
  let _ ← boolOr req "default_path" false
  match TracingConfig.load toml env with
  | .ok c => pure (configJson c)
  | .error _ => .error .config

/-- One step of a configuration builder: the first member of the step object, in key order,
names the setting and holds its value. -/
def builderStep (c : TracingConfig) (step : Value) : Answer TracingConfig := do
  match step with
  | .obj (("disable_xray_context_extraction", .bool b) :: _) =>
    pure { c with disableCloudHeader := b }
  | .obj (("flush_on_end", .bool b) :: _) => pure { c with flushOnEnd := b }
  | .obj (("flush_timeout_ms", x) :: _) =>
    match x.asNat? with
    | some n => pure { c with flushTimeoutMs := n }
    | none => refuse "field flush_timeout_ms must be a non-negative integer"
  | .obj (("attribute", x) :: _) =>
    match pairOf? x with
    | some (k, a) => pure (c.withAttribute k a)
    | none => refuse "field attribute must be a [string, string] pair"
  | .obj ((other, _) :: _) => refuse ("unknown builder step " ++ other)
  | _ => refuse "a builder step must be an object with one key"

/-- The configurations after each step, from the default one. -/
def builderStates (c : TracingConfig) : List Value → Answer (List TracingConfig)
  | [] => pure []
  | step :: rest => do
    let c ← builderStep c step
    return c :: (← builderStates c rest)

/-- `config_builder`: the configuration after each step. -/
def configBuilderOp (req : Value) : Answer Value := do
  let states ← builderStates {} (← optArray req "steps")
  pure (.object [("states", .arr (states.map configJson))])

/-- `debug`: the description of a source, a configuration, a tracer or a layer. -/
def debugOp (req : Value) : Answer Value := do
  let s ← sourceNamed (← stringOr req "extractor" "generic")
  let config ← configIn req "config"
  if config.attributes.length > 1 then
    refuse "debug output allows at most one attribute (hash order)"
  let withProvider ← boolOr req "with_provider" false
  let withLogger ← boolOr req "with_logger" false
  let tr : Tracer := {
    source := s, config,
    tracerProvider := if withProvider then some .prompt else none,
    loggerProvider := if withLogger then some .prompt else none,
    propagator := .none }
  let text ← match ← needString req "what" with
    | "extractor" => pure s.describe
    | "config" => pure config.describe
    | "tracer" => pure tr.describe
    | "layer" => pure tr.describeLayer
    | other => refuse ("unknown debug target " ++ other)
  pure (.object [("debug", .str text)])

end TracePropagation.Service
