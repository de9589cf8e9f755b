import TracePropagation.Service.Configuration
import TracePropagation.Invocation.Call
/-!
# Traced invocations in the service

Requests that run handlers inside invocation spans, either as whole calls or by driving one
invocation span step by step, and answer with what happened and the spans that were exported.

Exported spans are named by their position in the export order of the whole request, and the
traces begun by the request by the order in which they first appear; spans and traces named by
received contexts keep their hexadecimal ids.
-/

namespace TracePropagation.Service

open TracePropagation.Json

/-- The text of the error of a provider whose flush fails. -/
def failedFlushText : String :=
  "InternalFailure(\"errs: [Err(InternalFailure(\\\"flush failed\\\"))]\")"

/-- How long a slow provider takes to flush, in milliseconds. -/
def slowFlushMs : Nat := 30

/-- The provider a word names: `live` and `shutdown` flush at once, `failing` fails, `slow`
takes its time; anything else is no provider. -/
def providerNamed : String → Option Provider
  | "live" => some .prompt
  | "shutdown" => some .prompt
  | "failing" => some (.failing failedFlushText)
  | "slow" => some (.slow slowFlushMs)
  | _ => none

/-- The span that code around a call enters. -/
def runtimeSpan : Enclosing := ⟨"Lambda runtime invoke", "runtime"⟩

/-- The span that a handler opens around its work. -/
def handlerSpan : Enclosing := ⟨"child", "handler"⟩

/-- The type name of the errors that handlers return. -/
def handlerErrorType : String := "alloc::string::String"

/-- What the tracers of a request are made of. -/
structure Setup where
  /-- The event source. -/
  source : Source
  /-- The event. -/
  event : source.Event
  /-- The configuration. -/
  config : TracingConfig
  /-- The propagator named by the request. -/
  propagator : Propagator
  /-- Whether the propagator is installed globally instead of handed over. -/
  global : Bool
  /-- The tracer provider handed over. -/
  tracerProvider : Option Provider
  /-- The logger provider handed over. -/
  loggerProvider : Option Provider
  /-- The environment. -/
  env : Environment

/-- Reads what the tracers of a request are made of. -/
def setupOf (req : Value) : Answer Setup := do
  let source ← sourceNamed (← stringOr req "extractor" "generic")
  let event ← eventOf source ((member? req "payload").getD .null)
  let config ← configIn req "config"
  let propagator ← propagatorOf req
  let global ← boolOr req "global_propagator" false
  let tracerProvider := providerNamed (← stringOr req "flush_provider" "live")
  let loggerProvider := providerNamed (← stringOr req "logger_provider" "none")
  match ← stringOr req "build" "new" with
  | "new" | "builder" => pure ()
  | other => refuse ("unknown build " ++ other)
  let cloudTraceHeader ← optString req "env_trace_id"
  let region ← optString req "aws_region"
  pure { source, event, config, propagator, global, tracerProvider, loggerProvider,
         env := { cloudTraceHeader, region } }

/-- The tracer built from a setup; a globally installed propagator is the same one. -/
def Setup.tracer (su : Setup) : Tracer :=
  { source := su.source, config := su.config, tracerProvider := su.tracerProvider,
    loggerProvider := su.loggerProvider, propagator := su.propagator }

/-- The tracer of the layer a word names: `builder` is built like the tracer, `new` has the
default configuration, no providers and the global propagator, which is none unless installed. -/
def layerTracer (su : Setup) : String → Answer Tracer
  | "builder" => pure su.tracer
  | "new" => pure { source := su.source, config := {},
                    propagator := if su.global then su.propagator else .none }
  | other => refuse ("unknown layer " ++ other)

/-- A handler: `{"ok": output}`, `{"err": message}`, `{"panic": message}` or
`{"pending": null}`. -/
def handlerOf (v : Value) : Answer Handler := do
  match v with
  | .obj [("ok", o)] => return .returns (← outputOf o)
  | .obj [("err", .str m)] => pure (.fails ⟨handlerErrorType, m⟩)
  | .obj [("panic", _)] => pure .panics
  | .obj [("pending", _)] => pure .stalls
  | .obj [(other, _)] => refuse ("unknown handler " ++ other)
  | _ => refuse "handler must be an object with one key"

/-- One call of a request. -/
def callOf (s : Source) (event : s.Event) (v : Value) : Answer (Call s) := do
  let invocation ← invocationIn v "lambda"
  let parent ← optContext v "parent"
  let handler ← match member? v "handler" with
    | none => pure (.returns .unit)
    | some h => handlerOf h
  let child ← boolOr v "child" false
  pure { invocation, event, parent, handler, inner := if child then some handlerSpan else none }

/-- The wrapping a word names. -/
def wrappingNamed : String → Option Wrapping
  | "sync" => some .direct
  | "async" => some .future
  | "tower" => some .service
  | _ => none

/-- The answer form of how a call ended. -/
def completionJson : Completion → Value
  | .ok code => .object [("ok", .object [("status_code", (code.map Value.ofInt).getD .null)])]
  | .err m => .object [("err", .str m)]
  | .panicked => .object [("panicked", .bool true)]
  | .cancelled => .object [("cancelled", .bool true)]
  | .unsupported => .object [("error", .str "pending needs async")]

/-- The answer form of a status. -/
def statusJson : SpanStatus → Value
  | .unset => .object [("code", .str "Unset")]
  | .ok => .object [("code", .str "Ok")]
  | .error d => .object [("code", .str "Error"), ("description", .str d)]

/-- The name of an exported span, by its position among all exported spans. -/
def spanName (all : List Span) (n : Nat) : Value :=
  .str ("span:" ++ toString ((exportPosition all n).getD all.length))

/-- The answer form of an exported span, named among all exported spans. -/
def spanJson (all : List Span) (s : Span) : Value :=
  let (parent, remote) := match s.parent with
    | .none => (Value.null, false)
    | .begun n => (spanName all n, false)
    | .given id r => (if id.isValid then .str id.hex else .null, r)
  let trace := match s.trace with
    | .given id => id.hex
    | .begun n => "new:" ++ toString (traceOrdinal all n)
  .object [
    ("name", .str s.name),
    ("kind", .str s.kind.name),
    ("span", spanName all s.number),
    ("trace", .str trace),
    ("parent", parent),
    ("parent_remote", .bool remote),
    ("sampled", .bool true),
    ("status", statusJson s.status),
    ("attributes", attributesJson (Attribute.sortByKey s.attributes)),
    ("events", .arr (s.events.map fun e =>
      .object [("name", .str e.name),
               ("attributes", attributesJson (Attribute.sortByKey e.attributes))]))]

/-- Runs the calls in order; each answers with how it ended and how many spans were exported
before and after it. -/
def runCalls (tr : Tracer) (w : Option Wrapping) (mode : String) (outer : Option Enclosing)
    (env : Environment) : List (Call tr.source) → Telemetry → List (Value × Nat × Nat) × Telemetry
  | [], t => ([], t)
  | c :: rest, t =>
    let before := t.recorder.ended.length
    let (result, t) := match w with
      | some w => let (r, t) := tr.serve w outer env c t; (completionJson r, t)
      | none => (.object [("error", .str ("unknown mode " ++ mode))], t)
    let (results, t') := runCalls tr w mode outer env rest t
    ((result, before, t.recorder.ended.length) :: results, t')

/-- `invoke`: runs traced calls and answers with each one's result and exported spans. -/
def invokeOp (req : Value) : Answer Value := do
  let su ← setupOf req
  let layer ← layerTracer su (← stringOr req "layer" "builder")
  let mode ← stringOr req "mode" "sync"
  let w := wrappingNamed mode
  let tr : Tracer := { (if w = some .service then layer else su.tracer) with source := su.source }
  let outer := if (← boolOr req "outer_span" false) then some runtimeSpan else none
  let calls ← (← optArray req "invocations").mapM (callOf tr.source su.event)
  let report ← boolOr req "report_config" false
  let (results, t) := runCalls tr w mode outer su.env calls {}
  let all := t.recorder.ended
  let invocations := results.map fun (result, before, after) =>
    .object [("result", result),
             ("spans", .arr (((all.drop before).take (after - before)).map (spanJson all)))]
  pure (.object ([("invocations", .arr invocations)] ++
    (if report then [("tracer_config", configJson su.tracer.config),
                     ("layer_config", configJson layer.config)] else [])))

/-- A step of a hand-driven invocation: `"finish"`, `"finish_async"`, `"drop"`, or an object
`record_output`, `record_error`, `record_ok` or `record_err`. -/
def stepOf (v : Value) : Answer Step := do
  match v with
  | .str "finish" => pure .finish
  | .str "finish_async" => pure .finishBounded
  | .str "drop" => pure .drop
  | .str other => refuse ("unknown action " ++ other)
  | .obj [("record_output", o)] => return .recordOutput (← outputOf o)
  | .obj [("record_error", .str m)] => pure (.recordError ⟨"str", m⟩)
  | .obj [("record_ok", o)] => return .recordResult (.ok (← outputOf o))
  | .obj [("record_err", .str m)] => pure (.recordResult (.error ⟨handlerErrorType, m⟩))
  | .obj [(other, _)] => refuse ("unknown action " ++ other)
  | _ => refuse "an action must be a string or an object with one key"

/-- `lifecycle`: starts one invocation span, applies the steps and answers with the state after
each and the exported spans. -/
def lifecycleOp (req : Value) : Answer Value := do
  let su ← setupOf req
  let tr := su.tracer
  let inv ← invocationIn req "lambda"
  let parent ← optContext req "parent"
  let steps ← (← optArray req "actions").mapM stepOf
  let (g, t) := tr.start su.event inv parent su.env {}
  let (names, t) := Held.run (some g) steps t
  let all := t.recorder.ended
  pure (.object [("states", texts (g.state.name :: names)),
                 ("spans", .arr (all.map (spanJson all)))])

end TracePropagation.Service
