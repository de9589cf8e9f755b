import TracePropagation.Trace.SpanContext
import TracePropagation.Trace.Baggage
/-!
# Propagation contexts

What crosses a process boundary with a message or request: possibly a span context, and a
baggage. A context is empty when it has neither a valid span context nor any baggage entry;
an empty context as a parent means that a new trace begins.
-/

namespace TracePropagation

/-- A trace context as propagated. -/
structure Context where
  /-- The span context, if one was set. -/
  span : Option SpanContext
  /-- The baggage. -/
  baggage : Baggage
  deriving DecidableEq

namespace Context

/-- The context with nothing in it. -/
def empty : Context := ⟨none, .empty⟩

/-- The context of one span context received from elsewhere. -/
def ofSpanContext (sc : SpanContext) : Context := ⟨some sc, .empty⟩

/-- The span context, or the empty one when none was set. -/
def spanContext (cx : Context) : SpanContext :=
  cx.span.getD .empty

/-- No valid span context and no baggage. -/
def isEmpty (cx : Context) : Bool :=
  !cx.spanContext.isValid && cx.baggage.isEmpty

/-- The context with another span context. -/
def withSpan (cx : Context) (sc : SpanContext) : Context := { cx with span := some sc }

/-- The context with another baggage. -/
def withBaggage (cx : Context) (b : Baggage) : Context := { cx with baggage := b }

/-- The context itself if it is not empty. -/
def nonEmpty? (cx : Context) : Option Context :=
  if cx.isEmpty then none else some cx

end Context

end TracePropagation
