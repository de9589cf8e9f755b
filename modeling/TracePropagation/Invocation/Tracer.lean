import TracePropagation.Invocation.Span
import TracePropagation.Invocation.Resolver
import TracePropagation.Invocation.Config
/-!
# Invocation tracers

A tracer starts the span of each invocation. It holds the event source, the configuration, the
providers to flush and the propagator that reads contexts from events.

Starting an invocation resolves its parent (with what reading the event logs, and then, at
debug level, where the parent came from and its trace id), then begins the span under that
parent. The span is named for the
function and has the kind server. Its attributes are the trigger, that the start was warm, the
request id if there is one, the log target, then those of the invocation, of the event and of
the configuration, in this order.

Tracers, sources, configurations and layers also have a one-line description, which shows how
each is built.
-/

namespace TracePropagation

/-- The description of an event source. -/
def Source.describe : Source → String
  | .queue => "SqsEventExtractor"
  | .topic => "SnsEventExtractor"
  | .httpV2 => "ApiGatewayV2Extractor"
  | .httpV1 => "ApiGatewayV1Extractor"
  | .generic t => "GenericEventExtractor \x7b trigger: " ++ Text.quoted t ++ " \x7d"

/-- A tracer of invocations. -/
structure Tracer where
  /-- Where events come from. -/
  source : Source
  /-- The configuration. -/
  config : TracingConfig
  /-- The tracer provider to flush, if any. -/
  tracerProvider : Option Provider := none
  /-- The logger provider to flush, if any. -/
  loggerProvider : Option Provider := none
  /-- The propagator that reads contexts from events. -/
  propagator : Propagator

/-- What an invocation's environment says: the cloud trace header and the region. -/
structure Environment where
  /-- The cloud trace header of the environment. -/
  cloudTraceHeader : Option String := none
  /-- The region. -/
  region : Option String := none

namespace Tracer

/-- The flush at the end of each invocation. -/
def flush (tr : Tracer) : Flush :=
  ⟨tr.tracerProvider, tr.loggerProvider, tr.config.flushOnEnd, tr.config.flushTimeoutMs⟩

/-- The description of a tracer. -/
def describe (tr : Tracer) : String :=
  "InvocationTracer \x7b extractor: " ++ tr.source.describe ++
    ", config: " ++ tr.config.describe ++
    ", tracer_provider: " ++ toString tr.tracerProvider.isSome ++
    ", logger_provider: " ++ toString tr.loggerProvider.isSome ++ ", .. \x7d"

/-- The description of a layer that traces with a tracer. -/
def describeLayer (tr : Tracer) : String :=
  "OtelTracingLayer \x7b tracer: " ++ tr.describe ++ " \x7d"

/-- The debug statement that says where a parent came from. -/
def resolvedEvent (src : ParentSource) (cx : Context) : SpanEvent :=
  .logged .debug lifecycleTarget "Resolved invocation parent context"
    [Attribute.text "source" src.name, Attribute.text "trace_id" cx.spanContext.traceId.hex]

/-- The attributes an invocation span begins with. -/
def spanAttributes (tr : Tracer) (event : tr.source.Event) (inv : Invocation)
    (env : Environment) : List Attribute :=
  [Attribute.text "faas.trigger" tr.source.trigger, Attribute.flag "faas.coldstart" false] ++
    (if inv.requestId.isEmpty then [] else [Attribute.text "faas.invocation_id" inv.requestId]) ++
    [Attribute.text "target" lifecycleTarget] ++
    inv.attributes env.region ++ tr.source.attributes event ++
    tr.config.attributes.map fun (k, v) => Attribute.text k v

/-- Starts the span of an invocation, under the parent resolved from an explicit context, the
event and the cloud trace header. -/
def start (tr : Tracer) (event : tr.source.Event) (inv : Invocation) (explicit : Option Context)
    (env : Environment) (t : Telemetry) : InvocationSpan × Telemetry :=
  let (cx, src) := resolveParent tr.config.disableCloudHeader explicit tr.source event inv
    env.cloudTraceHeader tr.propagator
  let t := t.logAll (resolveLog explicit tr.source event tr.propagator)
  let t := t.log (resolvedEvent src cx)
  let (span, r) := t.recorder.beginUnder cx inv.spanName .server (tr.spanAttributes event inv env)
  (⟨span, .started, tr.flush⟩, { t with recorder := r })

@[simp] theorem start_state (tr : Tracer) (event : tr.source.Event) (inv : Invocation)
    (explicit : Option Context) (env : Environment) (t : Telemetry) :
    (tr.start event inv explicit env t).1.state = .started := rfl

end Tracer

end TracePropagation
