import TracePropagation.Invocation.Span
/-!
# The future around a handler

An asynchronous handler is a future: each poll finds it pending or finished. The traced future
wraps it together with the invocation span. While the handler is pending, a poll answers
pending and records nothing. On the poll where the handler finishes, its result is recorded,
the span is closed, and the flush starts; a poll answers ready with the handler's result as soon
as the flush is done, on that same poll when there is nothing to flush. The flush is bounded by
the timeout, so its only warning is that it timed out, logged when it is done.

A handler that panics makes the poll panic: nothing is recorded, and whoever drops the future
closes the span. Dropping the future before the handler finished closes the span without an
outcome and flushes on the dropping thread; dropping it later changes nothing.

An executor does not poll a future again once it gave its result. If one does, the traced
future holds neither the span nor a flush any more, so the poll reaches the finished work again,
outside any span, and answers as the work does; nothing is recorded and nothing is flushed. An
asynchronous handler panics when it is resumed after it completed.
-/

namespace TracePropagation

/-- How a handler's work ends. -/
inductive Ending where
  /-- It returns an output. -/
  | returns (o : Output)
  /-- It fails with an error. -/
  | fails (e : HandlerError)
  /-- It panics. -/
  | panics
  deriving Repr

/-- The work's result, once it ends without panicking. -/
def Ending.result? : Ending → Option (Except HandlerError Output)
  | .returns o => some (.ok o)
  | .fails e => some (.error e)
  | .panics => none

/-- What a poll of a future gives. -/
inductive Poll (α : Type) where
  /-- Not finished. -/
  | pending
  /-- Finished with a value. -/
  | ready (a : α)
  /-- The poll panicked. -/
  | panicked
  deriving DecidableEq, Repr

/-- A handler's work as a future: polls find it pending a number of times, then it ends. The
work may open a span of its own, which ends on the poll where the work ends. -/
structure Work where
  /-- How many polls find the work pending. -/
  pendingPolls : Nat := 0
  /-- How it ends. -/
  ending : Ending
  /-- A span the work opens. -/
  inner : Option Enclosing := none
  /-- What a poll answers once the work has ended; an asynchronous handler panics. -/
  resumed : Poll (Except HandlerError Output) := .panicked

/-- The future that wraps a handler's work. -/
inductive TracedFuture where
  /-- The work is not finished; the flush, once started, will be pending this many polls. -/
  | running (g : InvocationSpan) (w : Work) (flushPolls : Nat)
  /-- The work is finished and the flush is pending this many more polls, after which these
  warnings are logged and the result is given; the work is not polled meanwhile, and once
  polled again it answers `resumed`. -/
  | flushing (pollsLeft : Nat) (warnings : List SpanEvent) (result : Except HandlerError Output)
      (resumed : Poll (Except HandlerError Output))
  /-- The result was given: a poll reaches the finished work, which answers `resumed`. -/
  | done (resumed : Poll (Except HandlerError Output))

namespace TracedFuture

/-- Starts the flush once the work has finished: ready at once when there is nothing to flush,
otherwise as the flush's first poll says. -/
def startFlush (f : Flush) (flushPolls : Nat) (r : Except HandlerError Output)
    (resumed : Poll (Except HandlerError Output)) (t : Telemetry) :
    Poll (Except HandlerError Output) × TracedFuture × Telemetry :=
  if f.isActive then
    match flushPolls with
    | 0 => (.ready r, .done resumed, (t.logAll f.boundedWarnings).flushed)
    | n + 1 => (.pending, .flushing n f.boundedWarnings r resumed, t.flushed)
  else (.ready r, .done resumed, t)

/-- Polls the future once. -/
def poll : TracedFuture → Telemetry → Poll (Except HandlerError Output) × TracedFuture × Telemetry
  | .running g w k, t =>
    match w.pendingPolls with
    | n + 1 => (.pending, .running g { w with pendingPolls := n } k, t)
    | 0 =>
      let t := match w.inner with
        | some enc => t.nested g.span enc
        | none => t
      match w.ending.result? with
      | none => (.panicked, .running g w k, t)
      | some r =>
        let (f, _, t) := (g.recordResult r).close t
        startFlush f k r w.resumed t
  | .flushing 0 ws r a, t => (.ready r, .done a, t.logAll ws)
  | .flushing (n + 1) ws r a, t => (.pending, .flushing n ws r a, t)
  -- no span to enter and no outcome to record: the default flush is inactive
  | .done a, t => (a, .done a, t)

/-- Drops the future: before the work finished, the span closes without an outcome and the
flush runs on this thread. -/
def drop : TracedFuture → Telemetry → Telemetry
  | .running g _ _, t => (g.finish t).2
  | _, t => t

/-- How many polls may still make progress. -/
def remaining : TracedFuture → Nat
  | .running _ w k => w.pendingPolls + k + 2
  | .flushing n _ _ _ => n + 1
  | .done _ => 0

/-- Polls until the future is no longer pending, as long as each poll makes progress. -/
def await (fut : TracedFuture) (t : Telemetry) :
    Poll (Except HandlerError Output) × TracedFuture × Telemetry :=
  match fut.poll t with
  | (.pending, fut', t') =>
    if fut'.remaining < fut.remaining then await fut' t' else (.pending, fut', t')
  | other => other
termination_by fut.remaining

/-- A pending work is polled without recording anything. -/
theorem poll_running_pending (g : InvocationSpan) (w : Work) (k n : Nat) (t : Telemetry)
    (h : w.pendingPolls = n + 1) :
    poll (.running g w k) t = (.pending, .running g { w with pendingPolls := n } k, t) := by
  simp [poll, h]

end TracedFuture

end TracePropagation
