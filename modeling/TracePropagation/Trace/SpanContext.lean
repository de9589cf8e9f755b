import TracePropagation.Trace.Ids
import TracePropagation.Trace.State
/-!
# Span contexts

The part of a trace context that identifies one span: trace id, span id, flags, whether it came
from another process, and the trace state. A span context is valid when both ids are.
-/

namespace TracePropagation

/-- The identity of a span as it travels between processes. -/
structure SpanContext where
  /-- The trace the span belongs to. -/
  traceId : TraceId
  /-- The span itself. -/
  spanId : SpanId
  /-- The trace flags. -/
  flags : TraceFlags
  /-- Whether the span context was received from another process. -/
  remote : Bool
  /-- The vendor-specific trace state. -/
  state : TraceState
  deriving DecidableEq

namespace SpanContext

/-- The span context of no span: invalid ids, no flags, local, empty state. -/
def empty : SpanContext :=
  ⟨.invalid, .invalid, .none, false, .empty⟩

/-- Both ids are valid. -/
def isValid (sc : SpanContext) : Bool :=
  sc.traceId.isValid && sc.spanId.isValid

/-- The sampled flag. -/
def isSampled (sc : SpanContext) : Bool :=
  sc.flags.isSampled

end SpanContext

end TracePropagation
