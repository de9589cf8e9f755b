import TracePropagation.Invocation.Tracer
import TracePropagation.Invocation.Future
/-!
# Traced calls

A handler is called inside the span of its invocation, in one of three ways: directly, as a
future that is polled to its end, or through a service that a layer wraps. A service resolves
the parent from the event alone; the other two take an explicit parent as well.

A handler returns an output, fails with an error, panics, or never finishes. The outcome is
recorded on the span, which is then closed and flushed: directly on the calling thread, and
for futures and services within the flush timeout. A panic records no outcome, and neither
does a future that is dropped before it finishes; their spans close as incomplete and flush on
the thread that drops them. A handler that never finishes cannot be called directly.

A handler may open a span of its own around its work; it is a child of the invocation span and
ends first. Code around the call may enter a span of its own for the whole call, and the
library's log statements land there.
-/

namespace TracePropagation

/-- What a handler does when it runs. -/
inductive Handler where
  /-- Returns an output. -/
  | returns (o : Output)
  /-- Fails with an error. -/
  | fails (e : HandlerError)
  /-- Panics. -/
  | panics
  /-- Never finishes. -/
  | stalls
  deriving Repr

/-- How a call ended. -/
inductive Completion where
  /-- The handler returned an output with this HTTP status, if any. -/
  | ok (statusCode : Option Int)
  /-- The handler failed with this message. -/
  | err (message : String)
  /-- The handler panicked. -/
  | panicked
  /-- The call was dropped before it finished. -/
  | cancelled
  /-- The handler cannot be called this way. -/
  | unsupported
  deriving DecidableEq, Repr

/-- How a handler is called. -/
inductive Wrapping where
  /-- Directly. -/
  | direct
  /-- As a future, polled to its end. -/
  | future
  /-- Through a traced service. -/
  | service
  deriving DecidableEq, Repr

/-- A handler that never finishes needs a future or a service. -/
def Wrapping.supports : Wrapping → Handler → Bool
  | .direct, .stalls => false
  | _, _ => true

/-- One call of a handler. -/
structure Call (s : Source) where
  /-- The invocation. -/
  invocation : Invocation
  /-- The event. -/
  event : s.Event
  /-- A parent given explicitly. -/
  parent : Option Context := none
  /-- What the handler does. -/
  handler : Handler
  /-- A span the handler opens around its work. -/
  inner : Option Enclosing := none

/-- The work of a handler that finishes, as a future that is ready at its first poll. -/
def Handler.work? (h : Handler) (inner : Option Enclosing) : Option Work :=
  match h with
  | .returns o => some { ending := .returns o, inner }
  | .fails e => some { ending := .fails e, inner }
  | .panics => some { ending := .panics, inner }
  | .stalls => none

/-- How a finished call ended, by its result. -/
def Completion.ofResult : Except HandlerError Output → Completion
  | .ok o => .ok o.statusCode
  | .error e => .err e.message

namespace Tracer

/-- Runs one call inside its invocation span. Called directly, the handler runs in the span and
its outcome is recorded before the span is closed and flushed on the calling thread. As a future
or a service, the traced future is polled to its end, and dropped if a poll panics; a handler
that never finishes is dropped before its first poll. -/
def invoke (tr : Tracer) (w : Wrapping) (env : Environment) (c : Call tr.source)
    (t : Telemetry) : Completion × Telemetry :=
  let explicit := if w = .service then none else c.parent
  let (g, t) := tr.start c.event c.invocation explicit env t
  match w with
  | .direct =>
    let worked (t : Telemetry) : Telemetry :=
      match c.inner with
      | some enc => t.nested g.span enc
      | none => t
    match c.handler with
    | .returns o => (.ok o.statusCode, ((g.recordOutput o).finish (worked t)).2)
    | .fails e => (.err e.message, ((g.recordError e).finish (worked t)).2)
    | .panics => (.panicked, (g.finish (worked t)).2)
    | .stalls => (.unsupported, t)
  | _ =>
    match c.handler.work? c.inner with
    | none => (.cancelled, (g.finish t).2)
    | some work =>
      match TracedFuture.await (.running g work 0) t with
      | (.ready r, _, t) => (.ofResult r, t)
      | (.panicked, fut, t) => (.panicked, fut.drop t)
      | (.pending, fut, t) => (.cancelled, fut.drop t)

/-- Runs one call, inside a span of the calling code if one is given. A call that cannot be
made this way records nothing. -/
def serve (tr : Tracer) (w : Wrapping) (outer : Option Enclosing) (env : Environment)
    (c : Call tr.source) (t : Telemetry) : Completion × Telemetry :=
  if w.supports c.handler then
    match outer with
    | some enc => t.within enc (tr.invoke w env c)
    | none => tr.invoke w env c t
  else (.unsupported, t)

/-- A call that cannot be made records nothing. -/
theorem serve_unsupported (tr : Tracer) (outer : Option Enclosing) (env : Environment)
    (c : Call tr.source) (t : Telemetry) (h : c.handler = .stalls) :
    tr.serve .direct outer env c t = (.unsupported, t) := by
  simp [serve, Wrapping.supports, h]

end Tracer

/-- A step of an invocation driven by hand. -/
inductive Step where
  /-- Records an output. -/
  | recordOutput (o : Output)
  /-- Records an error. -/
  | recordError (e : HandlerError)
  /-- Records a result. -/
  | recordResult (r : Except HandlerError Output)
  /-- Closes and flushes on the calling thread. -/
  | finish
  /-- Closes and flushes within the timeout. -/
  | finishBounded
  /-- Drops the invocation span: it closes and flushes on the calling thread. -/
  | drop

/-- An invocation span while it is held: `none` once a step has consumed it. -/
abbrev Held := Option InvocationSpan

namespace Held

/-- Applies a step; once the span is consumed, steps do nothing. -/
def apply (h : Held) (s : Step) (t : Telemetry) : Held × Telemetry :=
  match h, s with
  | none, _ => (none, t)
  | some g, .recordOutput o => (some (g.recordOutput o), t)
  | some g, .recordError e => (some (g.recordError e), t)
  | some g, .recordResult r => (some (g.recordResult r), t)
  | some g, .finish => (none, (g.finish t).2)
  | some g, .finishBounded => (none, (g.finishBounded t).2)
  | some g, .drop => (none, (g.finish t).2)

/-- Where a held span stands, by name; `consumed` once it is gone. -/
def stateName : Held → String
  | some g => g.state.name
  | none => "consumed"

/-- Applies steps in order, with the state after each; a span still held at the end is
dropped. -/
def run (h : Held) (steps : List Step) (t : Telemetry) : List String × Telemetry :=
  match steps with
  | [] =>
    match h with
    | some g => ([], (g.finish t).2)
    | none => ([], t)
  | s :: rest =>
    let (h, t) := h.apply s t
    let (names, t) := run h rest t
    (h.stateName :: names, t)

end Held

end TracePropagation
