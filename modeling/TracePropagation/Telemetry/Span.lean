import TracePropagation.Telemetry.Attribute
import TracePropagation.Trace.Ids
/-!
# Spans

A span is one timed piece of work of a trace. It has a name and a kind, belongs to a trace,
may have a parent, and collects attributes and events until it ends with a status.

A span begun here is known by its number, the count of spans begun before it. Its trace is
either one named by a received context or one begun here, again known by its number; its
parent is nothing, a span begun here, or a span named by a received context. Names of this kind
are stable: they say which spans and traces are the same without depending on random ids.

Log statements become events: an event carries the statement's fields and, in addition, its
level and its target.
-/

namespace TracePropagation

/-- The role of a span in its trace. -/
inductive SpanKind where
  /-- Serves a request from elsewhere. -/
  | server
  /-- Work inside one process. -/
  | internal
  deriving DecidableEq, Repr

/-- The name of a kind, capitalised. -/
def SpanKind.name : SpanKind → String
  | .server => "Server"
  | .internal => "Internal"

/-- How a span ended. -/
inductive SpanStatus where
  /-- Nothing was said. -/
  | unset
  /-- The work succeeded. -/
  | ok
  /-- The work failed, with a description. -/
  | error (description : String)
  deriving DecidableEq, Repr

/-- The severity of a log statement. -/
inductive Level where
  /-- Detail for debugging. -/
  | debug
  /-- Something went wrong but work goes on. -/
  | warn
  /-- Something failed. -/
  | error
  deriving DecidableEq, Repr

/-- The name of a level, in capitals. -/
def Level.name : Level → String
  | .debug => "DEBUG"
  | .warn => "WARN"
  | .error => "ERROR"

/-- Something that happened during a span. -/
structure SpanEvent where
  /-- The name, the message of the log statement. -/
  name : String
  /-- The attributes. -/
  attributes : List Attribute
  deriving DecidableEq, Repr

/-- The event of a log statement: its fields, then its level and its target. -/
def SpanEvent.logged (level : Level) (target name : String) (fields : List Attribute) :
    SpanEvent :=
  ⟨name, fields ++ [Attribute.text "level" level.name, Attribute.text "target" target]⟩

/-- The trace of a span. -/
inductive TraceRef where
  /-- A trace named by a received context. -/
  | given (id : TraceId)
  /-- The trace begun here with this number. -/
  | begun (n : Nat)
  deriving DecidableEq

/-- The parent of a span. -/
inductive ParentRef where
  /-- No parent: the span is the root of its trace. -/
  | none
  /-- The span begun here with this number. -/
  | begun (n : Nat)
  /-- A span named by a context, which came from another process or not. -/
  | given (id : SpanId) (remote : Bool)
  deriving DecidableEq

/-- A span, as it is recorded. -/
structure Span where
  /-- The number of spans begun before this one. -/
  number : Nat
  /-- The name. -/
  name : String
  /-- The kind. -/
  kind : SpanKind
  /-- The trace. -/
  trace : TraceRef
  /-- The parent. -/
  parent : ParentRef
  /-- The attributes, in the order they were set. -/
  attributes : List Attribute
  /-- The events, in the order they happened. -/
  events : List SpanEvent
  /-- The status. -/
  status : SpanStatus
  deriving DecidableEq

namespace Span

/-- Sets attributes after those already set. -/
def withAttributes (s : Span) (as : List Attribute) : Span :=
  { s with attributes := s.attributes ++ as }

/-- Adds an event after those already recorded. -/
def withEvent (s : Span) (e : SpanEvent) : Span :=
  { s with events := s.events ++ [e] }

/-- Sets the status. -/
def withStatus (s : Span) (st : SpanStatus) : Span :=
  { s with status := st }

@[simp] theorem withAttributes_events (s : Span) (as : List Attribute) :
    (s.withAttributes as).events = s.events := rfl

@[simp] theorem withEvent_events (s : Span) (e : SpanEvent) :
    (s.withEvent e).events = s.events ++ [e] := rfl

@[simp] theorem withStatus_status (s : Span) (st : SpanStatus) :
    (s.withStatus st).status = st := rfl

end Span

end TracePropagation
