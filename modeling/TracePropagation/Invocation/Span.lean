import TracePropagation.Invocation.Flush
import TracePropagation.Invocation.Output
import TracePropagation.Telemetry.Recorder
/-!
# The span of an invocation

An invocation span owns the span of one handler call and the flush to perform when it ends. It
goes from `started` to `succeeded` or `failed` when the first outcome is recorded; later
outcomes are ignored. A success sets the output's attributes and the status ok; a failure
records an `exception` event with the error's type name and message and sets the status to
error with the message.

Closing ends the span once. A span closed without an outcome failed: its status says that the
invocation did not complete, and a warning is logged on the current span. The flush is handed
back to be performed, on the calling thread or bounded by its timeout.
-/

namespace TracePropagation

/-- An error returned by a handler: the name of its type and its message. -/
structure HandlerError where
  /-- The name of the error's type. -/
  typeName : String
  /-- The message. -/
  message : String
  deriving DecidableEq, Repr

/-- Where an invocation span stands. -/
inductive InvocationState where
  /-- Open, without an outcome. -/
  | started
  /-- The handler succeeded. -/
  | succeeded
  /-- The handler failed, or the invocation was abandoned. -/
  | failed
  /-- Closed. -/
  | stopped
  deriving DecidableEq, Repr

/-- The name of a state, capitalised. -/
def InvocationState.name : InvocationState → String
  | .started => "Started"
  | .succeeded => "Succeeded"
  | .failed => "Failed"
  | .stopped => "Stopped"

/-- The status description of an invocation that ended without an outcome. -/
def incompleteInvocation : String := "invocation did not complete"

/-- The span of one invocation and the flush that ends it. -/
structure InvocationSpan where
  /-- The span, if it is recorded. -/
  span : Option Span
  /-- Where the invocation stands. -/
  state : InvocationState
  /-- The flush still to perform. -/
  flush : Flush

namespace InvocationSpan

/-- Records a successful output, unless an outcome was recorded. -/
def recordOutput (g : InvocationSpan) (o : Output) : InvocationSpan :=
  if g.state = .started then
    { g with span := g.span.map (fun s => (s.withAttributes o.attributes).withStatus .ok),
             state := .succeeded }
  else g

/-- The event that records a failure. -/
def exceptionEvent (e : HandlerError) : SpanEvent :=
  .logged .error lifecycleTarget "exception"
    [Attribute.text "exception.type" e.typeName, Attribute.text "exception.message" e.message]

/-- Records a failure, unless an outcome was recorded. -/
def recordError (g : InvocationSpan) (e : HandlerError) : InvocationSpan :=
  if g.state = .started then
    { g with span := g.span.map (fun s => (s.withEvent (exceptionEvent e)).withStatus (.error e.message)),
             state := .failed }
  else g

/-- Records either outcome. -/
def recordResult (g : InvocationSpan) : Except HandlerError Output → InvocationSpan
  | .ok o => g.recordOutput o
  | .error e => g.recordError e

/-- The warning logged when an invocation ends without an outcome. -/
def abandoned : SpanEvent :=
  .logged .warn lifecycleTarget "Invocation ended without an outcome" []

/-- Closes the span, once, and hands back the flush to perform. -/
def close (g : InvocationSpan) (t : Telemetry) : Flush × InvocationSpan × Telemetry :=
  match g.state with
  | .stopped => (.idle, g, t)
  | .started =>
    (g.flush, ⟨none, .stopped, .idle⟩,
      (t.log abandoned).finish (g.span.map (·.withStatus (.error incompleteInvocation))))
  | _ => (g.flush, ⟨none, .stopped, .idle⟩, t.finish g.span)

/-- Closes the span and flushes on the calling thread. -/
def finish (g : InvocationSpan) (t : Telemetry) : InvocationSpan × Telemetry :=
  let (f, g, t) := g.close t
  (g, f.perform t)

/-- Closes the span and flushes within the timeout. -/
def finishBounded (g : InvocationSpan) (t : Telemetry) : InvocationSpan × Telemetry :=
  let (f, g, t) := g.close t
  (g, f.performBounded t)

/-- A second outcome changes nothing. -/
theorem recordOutput_of_ne (g : InvocationSpan) (o : Output) (h : g.state ≠ .started) :
    g.recordOutput o = g := by
  simp [recordOutput, h]

/-- A second outcome changes nothing. -/
theorem recordError_of_ne (g : InvocationSpan) (e : HandlerError) (h : g.state ≠ .started) :
    g.recordError e = g := by
  simp [recordError, h]

@[simp] theorem close_state (g : InvocationSpan) (t : Telemetry) :
    (g.close t).2.1.state = .stopped := by
  unfold close; split <;> simp_all

end InvocationSpan

end TracePropagation
