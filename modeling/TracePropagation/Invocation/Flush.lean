import TracePropagation.Telemetry.Recorder
/-!
# Flushing providers

When an invocation ends, the tracer and logger providers handed to the tracer are flushed, so
that nothing buffered is lost when the environment is frozen. A flush is active when flushing
is switched on and there is a provider to flush.

A flush runs either on the calling thread, one provider after the other, or bounded by a
timeout on a worker thread. On the calling thread a provider that fails is logged there, the
tracer provider's warning first. On a worker thread no span is current, so failures are lost;
the only warning that reaches the caller is that the flush did not finish within its timeout,
which happens when the slow providers together need longer than the timeout allows. Either
way an active flush counts as one flush of the providers.
-/

namespace TracePropagation

/-- How a provider answers a flush. -/
inductive Provider where
  /-- It flushes at once. -/
  | prompt
  /-- It fails, with the text of its error. -/
  | failing (error : String)
  /-- It flushes after a delay, in milliseconds. -/
  | slow (delayMs : Nat)
  deriving DecidableEq, Repr

namespace Provider

/-- The error of a flush, if it fails. -/
def error? : Provider → Option String
  | .failing e => some e
  | _ => none

/-- How long a flush takes, in milliseconds. -/
def delay : Provider → Nat
  | .slow d => d
  | _ => 0

end Provider

/-- The log target of the invocation lifecycle. -/
def lifecycleTarget : String := "otel_lifecycle"

/-- The flush to perform at the end of an invocation. -/
structure Flush where
  /-- The tracer provider, if one was handed over. -/
  tracer : Option Provider := none
  /-- The logger provider, if one was handed over. -/
  logger : Option Provider := none
  /-- Whether flushing is switched on. -/
  enabled : Bool := false
  /-- The longest a bounded flush may take, in milliseconds. -/
  timeoutMs : Nat := 0
  deriving DecidableEq, Repr

namespace Flush

/-- The flush that does nothing. -/
def idle : Flush := {}

/-- There is something to flush. -/
def isActive (f : Flush) : Bool :=
  f.enabled && (f.tracer.isSome || f.logger.isSome)

/-- The warning about a provider whose flush failed. -/
def failure (which error : String) : SpanEvent :=
  .logged .warn lifecycleTarget ("Failed to flush " ++ which ++ " provider")
    [Attribute.text "error" error]

/-- The warnings of a flush on the calling thread. -/
def warnings (f : Flush) : List SpanEvent :=
  if f.isActive then
    ((f.tracer.bind Provider.error?).map (failure "tracer")).toList ++
      ((f.logger.bind Provider.error?).map (failure "logger")).toList
  else []

/-- How long the flush takes, in milliseconds. -/
def delay (f : Flush) : Nat :=
  (f.tracer.map Provider.delay).getD 0 + (f.logger.map Provider.delay).getD 0

/-- The warnings of a flush bounded by the timeout: only the one that it timed out. -/
def boundedWarnings (f : Flush) : List SpanEvent :=
  if f.isActive && decide (f.timeoutMs < f.delay) then
    [.logged .warn lifecycleTarget "Provider flush timed out"
      [Attribute.text "timeout_ms" (toString f.timeoutMs)]]
  else []

/-- Flushes on the calling thread: an active flush flushes the providers one after the other
and logs their failures; an inactive one does nothing. -/
def perform (f : Flush) (t : Telemetry) : Telemetry :=
  if f.isActive then (t.logAll f.warnings).flushed else t

/-- Flushes on a worker thread, bounded by the timeout: an active flush flushes the providers
and logs only that it timed out; an inactive one does nothing. -/
def performBounded (f : Flush) (t : Telemetry) : Telemetry :=
  if f.isActive then (t.logAll f.boundedWarnings).flushed else t

@[simp] theorem warnings_idle : idle.warnings = [] := rfl

@[simp] theorem boundedWarnings_idle : idle.boundedWarnings = [] := rfl

end Flush

end TracePropagation
