import TracePropagation.Invocation.Call

/-!
# The lifecycle of an invocation span

An invocation span is open from its start until it is closed, and records at most one outcome
in between. Whatever the calls made on it and whichever way it ends, its span ends exactly once,
with the status its first outcome gives, and the providers are flushed exactly once when flushing
is on and there is a provider to flush.

* `InvocationState.Moves` — the moves a state may make: the first outcome leaves `started`,
  closing leads to `stopped`, and nothing leaves `stopped` (`Moves.eq_stopped`);
* `InvocationSpan.moves_recordResult`, `InvocationSpan.moves_close` — every call moves the state
  so; `InvocationSpan.recordResult_of_ne` — a second outcome changes nothing;
  `InvocationSpan.close_of_stopped` — closing a closed span does nothing;
* `Span.closedWith` — the span as an invocation ends, by its first outcome;
* `Held.run_recorded`, `Held.run_started` — **run**: a hand-driven lifecycle ends the span once,
  as the first step says, and flushes once when the flush is active;
* `Tracer.invoke_eq_run` — every way the library runs a handler itself is such a lifecycle:
  the outcome (if any) is recorded, then the span is closed, on the calling thread, within the
  flush timeout, or by the drop after a panic or a cancellation;
* `Tracer.invocation_lifecycle` — all of it together.
-/

namespace TracePropagation

/-! ## States -/

/-- The moves an invocation span's state may make in one call. -/
inductive InvocationState.Moves : InvocationState → InvocationState → Prop where
  /-- The state stays as it is. -/
  | stay (s : InvocationState) : Moves s s
  /-- The first outcome is a success. -/
  | succeed : Moves .started .succeeded
  /-- The first outcome is a failure. -/
  | fail : Moves .started .failed
  /-- An open span is closed. -/
  | stop {s : InvocationState} (hopen : s ≠ .stopped) : Moves s .stopped

/-- Nothing leaves `stopped`. -/
theorem InvocationState.Moves.eq_stopped {s : InvocationState} (h : Moves .stopped s) :
    s = .stopped := by
  cases h with
  | stay => rfl
  | stop hopen => rfl

namespace InvocationSpan

@[simp] theorem recordResult_ok (g : InvocationSpan) (o : Output) :
    g.recordResult (.ok o) = g.recordOutput o := rfl

@[simp] theorem recordResult_error (g : InvocationSpan) (e : HandlerError) :
    g.recordResult (.error e) = g.recordError e := rfl

theorem moves_recordOutput (g : InvocationSpan) (o : Output) :
    InvocationState.Moves g.state (g.recordOutput o).state := by
  unfold recordOutput
  by_cases h : g.state = .started
  · rw [if_pos h, h]
    exact .succeed
  · rw [if_neg h]
    exact .stay _

theorem moves_recordError (g : InvocationSpan) (e : HandlerError) :
    InvocationState.Moves g.state (g.recordError e).state := by
  unfold recordError
  by_cases h : g.state = .started
  · rw [if_pos h, h]
    exact .fail
  · rw [if_neg h]
    exact .stay _

theorem moves_recordResult (g : InvocationSpan) (r : Except HandlerError Output) :
    InvocationState.Moves g.state (g.recordResult r).state := by
  cases r with
  | ok o => exact g.moves_recordOutput o
  | error e => exact g.moves_recordError e

theorem moves_close (g : InvocationSpan) (t : Telemetry) :
    InvocationState.Moves g.state (g.close t).2.1.state := by
  rw [close_state]
  by_cases h : g.state = .stopped
  · rw [h]
    exact .stay _
  · exact .stop h

/-- Once an outcome is recorded, a later one changes nothing. -/
theorem recordResult_of_ne (g : InvocationSpan) (r : Except HandlerError Output)
    (h : g.state ≠ .started) : g.recordResult r = g := by
  cases r with
  | ok o => exact g.recordOutput_of_ne o h
  | error e => exact g.recordError_of_ne e h

/-- Closing a closed span hands back nothing to flush and changes nothing. -/
theorem close_of_stopped (g : InvocationSpan) (t : Telemetry) (h : g.state = .stopped) :
    g.close t = (.idle, g, t) := by
  simp [close, h]

end InvocationSpan

/-! ## How an invocation span ends -/

/-- The span as its invocation ends, from the span as it began and the first outcome recorded:
a success adds the output's attributes and the status ok; a failure adds one `exception` event
and the status error with the failure's message; with no outcome the status says that the
invocation did not complete. -/
def Span.closedWith (s : Span) : Option (Except HandlerError Output) → Span
  | some (.ok o) => (s.withAttributes o.attributes).withStatus .ok
  | some (.error e) => (s.withEvent (InvocationSpan.exceptionEvent e)).withStatus (.error e.message)
  | none => s.withStatus (.error incompleteInvocation)

/-- The outcome a step records, if it is a record. -/
def Step.outcome? : Step → Option (Except HandlerError Output)
  | .recordOutput o => some (.ok o)
  | .recordError e => some (.error e)
  | .recordResult r => some r
  | _ => none

/-- The outcome a lifecycle records: that of its first step, since every step records an
outcome or ends the span, and nothing counts after either. -/
def Step.firstOutcome (steps : List Step) : Option (Except HandlerError Output) :=
  steps.head?.bind Step.outcome?

/-! ## Telemetry along the way -/

namespace Telemetry

@[simp] theorem finish_recorder (t : Telemetry) (s : Option Span) :
    (t.finish s).recorder = t.recorder.finish s := rfl

@[simp] theorem finish_flushes (t : Telemetry) (s : Option Span) :
    (t.finish s).flushes = t.flushes := rfl

@[simp] theorem flushed_recorder (t : Telemetry) : t.flushed.recorder = t.recorder := rfl

@[simp] theorem flushed_flushes (t : Telemetry) : t.flushed.flushes = t.flushes + 1 := rfl

theorem nested_flushes (t : Telemetry) (parent : Option Span) (enc : Enclosing) :
    (t.nested parent enc).flushes = t.flushes := by
  cases parent <;> rfl

end Telemetry

theorem Recorder.finish_ended (r : Recorder) (s : Option Span) :
    (r.finish s).ended = r.ended ++ s.toList := by
  cases s <;> simp

namespace Flush

/-- A flush leaves the spans as they are and counts once when it is active. -/
theorem perform_recorder (f : Flush) (t : Telemetry) : (f.perform t).recorder = t.recorder := by
  unfold perform
  split <;> simp

theorem perform_flushes (f : Flush) (t : Telemetry) :
    (f.perform t).flushes = t.flushes + if f.isActive then 1 else 0 := by
  unfold perform
  split <;> simp

theorem performBounded_recorder (f : Flush) (t : Telemetry) :
    (f.performBounded t).recorder = t.recorder := by
  unfold performBounded
  split <;> simp

theorem performBounded_flushes (f : Flush) (t : Telemetry) :
    (f.performBounded t).flushes = t.flushes + if f.isActive then 1 else 0 := by
  unfold performBounded
  split <;> simp

end Flush

/-! ## Closing once -/

namespace InvocationSpan

/-- Closing an open span hands back its flush and ends its span: as it is after an outcome, as
incomplete without one. -/
theorem close_of_open (g : InvocationSpan) (t : Telemetry) (hopen : g.state ≠ .stopped) :
    (g.close t).1 = g.flush ∧ (g.close t).2.2.flushes = t.flushes ∧
      (g.close t).2.2.recorder.ended = t.recorder.ended ++
        (if g.state = .started then g.span.map (·.closedWith none) else g.span).toList := by
  unfold close
  split
  · next h => exact absurd h hopen
  · next h => simp [h, Span.closedWith, Recorder.finish_ended]
  · next h₂ =>
    rw [if_neg h₂]
    simp [Recorder.finish_ended]

/-- Closing an open span and flushing, on the calling thread or bounded, ends its span once
and flushes once when the flush is active. -/
theorem finish_of_open (g : InvocationSpan) (t : Telemetry) (hopen : g.state ≠ .stopped) :
    (∀ t' ∈ [(g.finish t).2, (g.finishBounded t).2],
      t'.recorder.ended = t.recorder.ended ++
        (if g.state = .started then g.span.map (·.closedWith none) else g.span).toList ∧
      t'.flushes = t.flushes + if g.flush.isActive then 1 else 0) := by
  obtain ⟨hflush, hcount, hended⟩ := g.close_of_open t hopen
  simp only [List.mem_cons, List.not_mem_nil, or_false]
  rintro t' (rfl | rfl)
  · simp only [finish, Flush.perform_recorder, Flush.perform_flushes, hflush, hcount, hended,
      and_self]
  · simp only [finishBounded, Flush.performBounded_recorder, Flush.performBounded_flushes,
      hflush, hcount, hended, and_self]

/-- The first outcome closes the span as `closedWith` says, keeping the flush. -/
theorem recordResult_of_started (g : InvocationSpan) (r : Except HandlerError Output)
    (h : g.state = .started) :
    (g.recordResult r).state ≠ .started ∧ (g.recordResult r).state ≠ .stopped ∧
      (g.recordResult r).span = g.span.map (·.closedWith (some r)) ∧
      (g.recordResult r).flush = g.flush := by
  cases r with
  | ok o => simp [recordOutput, h, Span.closedWith]
  | error e => simp [recordError, h, Span.closedWith]

end InvocationSpan

/-! ## Lifecycles driven by hand -/

namespace Held

theorem run_none (steps : List Step) (t : Telemetry) : (run none steps t).2 = t := by
  induction steps generalizing t with
  | nil => rfl
  | cons s rest ih => simp [run, apply, ih]

/-- A step either records an outcome, or consumes the span by closing it. -/
theorem apply_cases (g : InvocationSpan) (s : Step) (t : Telemetry) :
    (∃ r, s.outcome? = some r ∧ apply (some g) s t = (some (g.recordResult r), t)) ∨
    (s.outcome? = none ∧
      (apply (some g) s t = (none, (g.finish t).2) ∨
        apply (some g) s t = (none, (g.finishBounded t).2))) := by
  cases s with
  | recordOutput o => exact .inl ⟨.ok o, rfl, rfl⟩
  | recordError e => exact .inl ⟨.error e, rfl, rfl⟩
  | recordResult r => exact .inl ⟨r, rfl, rfl⟩
  | finish => exact .inr ⟨rfl, .inl rfl⟩
  | finishBounded => exact .inr ⟨rfl, .inr rfl⟩
  | drop => exact .inr ⟨rfl, .inl rfl⟩

/-- **Run, after the outcome.** Once an outcome is recorded, every later record changes nothing,
and the span ends as it is, once, with one flush when the flush is active. -/
theorem run_recorded (steps : List Step) (g : InvocationSpan) (t : Telemetry)
    (hrecorded : g.state ≠ .started) (hopen : g.state ≠ .stopped) :
    (run (some g) steps t).2.recorder.ended = t.recorder.ended ++ g.span.toList ∧
      (run (some g) steps t).2.flushes = t.flushes + if g.flush.isActive then 1 else 0 := by
  have hclosed := g.finish_of_open t hopen
  simp only [hrecorded, if_false] at hclosed
  induction steps generalizing t with
  | nil => exact hclosed _ List.mem_cons_self
  | cons s rest ih =>
    rcases apply_cases g s t with ⟨r, -, happly⟩ | ⟨-, happly | happly⟩
    · -- a later record is ignored
      simp only [run, happly, g.recordResult_of_ne r hrecorded]
      exact ih t hclosed
    · simp only [run, happly, run_none]
      exact hclosed _ List.mem_cons_self
    · simp only [run, happly, run_none]
      exact hclosed _ (List.mem_cons_of_mem _ List.mem_cons_self)

/-- **Run.** A lifecycle from an open span without an outcome ends the span once, as its first
step says: with that step's outcome, or incomplete when the first step ends it or there is
none; the providers are flushed once when the flush is active. -/
theorem run_started (steps : List Step) (g : InvocationSpan) (t : Telemetry)
    (hstarted : g.state = .started) :
    (run (some g) steps t).2.recorder.ended =
        t.recorder.ended ++ (g.span.map (·.closedWith (Step.firstOutcome steps))).toList ∧
      (run (some g) steps t).2.flushes = t.flushes + if g.flush.isActive then 1 else 0 := by
  have hopen : g.state ≠ .stopped := by rw [hstarted]; decide
  have hclosed := g.finish_of_open t hopen
  simp only [hstarted, if_true] at hclosed
  cases steps with
  | nil => exact hclosed _ List.mem_cons_self
  | cons s rest =>
    rcases apply_cases g s t with ⟨r, hr, happly⟩ | ⟨hr, happly | happly⟩
    · -- the first step records the outcome; the rest of the run ends the span as recorded
      obtain ⟨hrecorded, hopen', hspan, hflush⟩ := g.recordResult_of_started r hstarted
      have hrun := run_recorded rest (g.recordResult r) t hrecorded hopen'
      simp only [run, happly]
      rw [hspan, hflush] at hrun
      simpa [Step.firstOutcome, hr] using hrun
    · simp only [run, happly, run_none, Step.firstOutcome, List.head?_cons, Option.bind_some, hr]
      exact hclosed _ List.mem_cons_self
    · simp only [run, happly, run_none, Step.firstOutcome, List.head?_cons, Option.bind_some, hr]
      exact hclosed _ (List.mem_cons_of_mem _ List.mem_cons_self)

end Held

/-! ## Lifecycles the library drives -/

/-- The steps by which the library ends an invocation it runs itself: the outcome of a handler
that finishes is recorded, then the span is closed and flushed, on the calling thread for a
direct call and within the flush timeout otherwise; a handler that panics or never finishes
records nothing, and its span is closed by the drop. -/
def Handler.endSteps (w : Wrapping) : Handler → List Step
  | .returns o => [.recordOutput o, if w = .direct then .finish else .finishBounded]
  | .fails e => [.recordError e, if w = .direct then .finish else .finishBounded]
  | .panics => [.drop]
  | .stalls => [.drop]

/-- The telemetry after a handler's own work: the span it opens under the invocation span, if
any, has ended. A handler that never finishes does no work. -/
def Call.worked {s : Source} (c : Call s) (parent : Option Span) (t : Telemetry) : Telemetry :=
  match c.handler with
  | .stalls => t
  | _ =>
    match c.inner with
    | some enc => t.nested parent enc
    | none => t

theorem Call.worked_flushes {s : Source} (c : Call s) (parent : Option Span) (t : Telemetry) :
    (c.worked parent t).flushes = t.flushes := by
  unfold worked
  split
  · rfl
  · split
    · exact t.nested_flushes parent _
    · rfl

namespace TracedFuture

/-- A flush that is ready at its first poll is the bounded flush. -/
theorem startFlush_zero (f : Flush) (r : Except HandlerError Output)
    (a : Poll (Except HandlerError Output)) (t : Telemetry) :
    startFlush f 0 r a t = (.ready r, .done a, f.performBounded t) := by
  unfold startFlush Flush.performBounded
  split <;> rfl

/-- Work that is ready at the first poll: a result is recorded and the span closed and flushed
within the timeout; a panic leaves the future as it was, for its drop to close. -/
theorem await_ready (g : InvocationSpan) (w : Work) (hw : w.pendingPolls = 0) (t : Telemetry) :
    let t' := match w.inner with
      | some enc => t.nested g.span enc
      | none => t
    await (.running g w 0) t =
      match w.ending.result? with
      | some r => (.ready r, .done w.resumed, ((g.recordResult r).finishBounded t').2)
      | none => (.panicked, .running g w 0, t') := by
  intro t'
  rw [await]
  simp only [poll, hw]
  cases w.ending.result? with
  | none => rfl
  | some r =>
    simp only [startFlush_zero, InvocationSpan.finishBounded]
    rfl

end TracedFuture

/-- **The library's own lifecycles.** Every way the library runs a handler, directly, as a
future or through a service, is the hand-driven lifecycle of the span it starts, after the
handler's own work: the outcome is recorded when the handler finishes, and the span is closed
by `finish`, by the future's bounded flush, or by the drop after a panic or a cancellation. -/
theorem Tracer.invoke_eq_run (tr : Tracer) (w : Wrapping) (env : Environment)
    (c : Call tr.source) (t : Telemetry) (hw : w.supports c.handler = true) :
    (tr.invoke w env c t).2 =
      (Held.run (some (tr.start c.event c.invocation (if w = .service then none else c.parent)
          env t).1) (c.handler.endSteps w)
        (c.worked (tr.start c.event c.invocation (if w = .service then none else c.parent)
          env t).1.span (tr.start c.event c.invocation (if w = .service then none else c.parent)
          env t).2)).2 := by
  cases w with
  | direct =>
    cases hh : c.handler with
    | stalls => simp [hh, Wrapping.supports] at hw
    | _ => cases hi : c.inner <;> simp [invoke, hh, hi, Handler.endSteps, Call.worked, Held.run, Held.apply]
  | future | service =>
    cases hh : c.handler with
    | stalls =>
      simp [invoke, hh, Handler.work?, Handler.endSteps, Call.worked, Held.run, Held.apply]
    | _ =>
      simp only [invoke, hh, Handler.work?, reduceCtorEq, if_false]
      rw [TracedFuture.await_ready _ _ rfl]
      cases hi : c.inner <;>
        simp [Ending.result?, Handler.endSteps, Call.worked, Held.run, Held.apply, hh, hi,
          TracedFuture.drop, Completion.ofResult]

/-- A span begins with no event and no status. -/
theorem Recorder.beginUnder_fresh (r : Recorder) (cx : Context) (name : String) (kind : SpanKind)
    (attrs : List Attribute) :
    ∀ s ∈ (r.beginUnder cx name kind attrs).1, s.events = [] ∧ s.status = .unset := by
  unfold beginUnder
  split
  · split <;> simp
  · simp [beginRoot]

/-- **The lifecycle of an invocation span.** The span a tracer starts is open, with no event and
no status. Whatever steps are then taken by hand, the span ends exactly once: with the output's
attributes and the status ok if the first step records a success, with one `exception` event and
the status error with the message if it records a failure, and as incomplete if the span is
closed or dropped before any outcome; the providers are flushed exactly once if flushing is on
and there is a provider, and never otherwise. The library's own ways of running a handler, direct
calls, futures and services, panics and cancellations included, are such runs. Every call moves
the state from `started` to an outcome and from there, or from `started`, to `stopped`; a second
outcome changes nothing, and a closed span stays as it is. -/
theorem Tracer.invocation_lifecycle (tr : Tracer) (w : Wrapping) (env : Environment)
    (c : Call tr.source) (t : Telemetry) :
    let start := tr.start c.event c.invocation (if w = .service then none else c.parent) env t
    start.1.state = .started ∧ (∀ s ∈ start.1.span, s.events = [] ∧ s.status = .unset) ∧
      (∀ (steps : List Step) (t' : Telemetry),
        (Held.run (some start.1) steps t').2.recorder.ended =
            t'.recorder.ended ++ (start.1.span.map (·.closedWith (Step.firstOutcome steps))).toList ∧
        (Held.run (some start.1) steps t').2.flushes = t'.flushes +
          if tr.config.flushOnEnd && (tr.tracerProvider.isSome || tr.loggerProvider.isSome) then 1
          else 0) ∧
      (w.supports c.handler = true → (tr.invoke w env c t).2 =
        (Held.run (some start.1) (c.handler.endSteps w) (c.worked start.1.span start.2)).2) ∧
      (∀ (g : InvocationSpan) (r : Except HandlerError Output) (t' : Telemetry),
        InvocationState.Moves g.state (g.recordResult r).state ∧
          InvocationState.Moves g.state (g.close t').2.1.state) ∧
      (∀ (g : InvocationSpan) (r : Except HandlerError Output),
        g.state ≠ .started → g.recordResult r = g) ∧
      (∀ (g : InvocationSpan) (t' : Telemetry), g.state = .stopped → g.close t' = (.idle, g, t')) := by
  intro start
  have hstarted : start.1.state = .started := tr.start_state _ _ _ _ _
  refine ⟨hstarted, Recorder.beginUnder_fresh _ _ _ _ _, fun steps t' => ?_,
    tr.invoke_eq_run w env c t, fun g r t' => ⟨g.moves_recordResult r, g.moves_close t'⟩,
    fun g r => g.recordResult_of_ne r, fun g t' => g.close_of_stopped t'⟩
  -- the flush the span carries is the tracer's
  exact Held.run_started steps start.1 t' hstarted

end TracePropagation
