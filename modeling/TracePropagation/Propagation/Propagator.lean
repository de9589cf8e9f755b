import TracePropagation.Propagation.TraceContext
import TracePropagation.Propagation.BaggageHeader
/-!
# Propagators

A propagator reads a context out of a carrier's headers and writes one into them. It is a list
of header formats handled in order: reading threads the context through the formats, each
adding what it finds, and writing emits each format's headers one after the other. The empty
list reads and writes nothing.

Carriers are seen through two functions only: reading looks up a header by name, writing
yields the list of `(name, value)` pairs to set, in order, which the carrier then applies.
-/

namespace TracePropagation

/-- A header format. -/
inductive HeaderFormat where
  /-- The `traceparent` and `tracestate` headers. -/
  | traceContext
  /-- The `baggage` header. -/
  | baggage
  deriving DecidableEq, Repr

namespace HeaderFormat

/-- Reads what this format carries into the context. -/
def extract : HeaderFormat → (String → Option String) → Context → Context
  | .traceContext => TraceContext.extract
  | .baggage => BaggageHeader.extract

/-- The headers this format writes for the context. -/
def inject : HeaderFormat → Context → List (String × String)
  | .traceContext => TraceContext.inject
  | .baggage => BaggageHeader.inject

end HeaderFormat

/-- A propagator: the formats it handles, in order. -/
structure Propagator where
  /-- The formats. -/
  formats : List HeaderFormat
  deriving DecidableEq, Repr

namespace Propagator

/-- Reads and writes nothing. -/
def none : Propagator := ⟨[]⟩

/-- The trace-context headers only. -/
def traceContext : Propagator := ⟨[.traceContext]⟩

/-- The baggage header only. -/
def baggage : Propagator := ⟨[.baggage]⟩

/-- Trace context, then baggage. -/
def both : Propagator := ⟨[.traceContext, .baggage]⟩

/-- Reads from the headers, starting from a given context. -/
def extractWith (p : Propagator) (get : String → Option String) (cx : Context) : Context :=
  p.formats.foldl (fun c f => f.extract get c) cx

/-- Reads a fresh context from the headers. -/
def extract (p : Propagator) (get : String → Option String) : Context :=
  p.extractWith get .empty

/-- The headers to write for a context, in order. -/
def inject (p : Propagator) (cx : Context) : List (String × String) :=
  p.formats.flatMap fun f => f.inject cx

end Propagator

end TracePropagation
