import TracePropagation.Telemetry.Span
import TracePropagation.Trace.Context
/-!
# Recording spans

A recorder numbers the spans and traces it begins and keeps the spans that ended, in the order
they ended; that is the order in which they are exported.

A span begun under a context with a span context is that span's child and joins its trace; the
parent decides whether the child is sampled, and a span that is not sampled is not recorded at
all. A span begun under a context without one is the root of a new trace, and is sampled.

Log statements go to the current span, the one entered where they run. With no current span
that is recorded they are lost. Code around a traced call may enter a span of its own for the
call's duration: it is begun as a root, made current, and ends when the call is done.

The telemetry also counts the flushes of the providers, which hand buffered spans and logs to
their exporters.

Exported spans are told apart by their position in the export order, and the traces begun here
by the order in which they first appear there.
-/

namespace TracePropagation

/-- The spans begun and ended so far. -/
structure Recorder where
  /-- How many spans were begun. -/
  spansBegun : Nat := 0
  /-- How many traces were begun. -/
  tracesBegun : Nat := 0
  /-- The spans that ended, in the order they ended. -/
  ended : List Span := []

namespace Recorder

/-- Begins the root span of a new trace. -/
def beginRoot (r : Recorder) (name : String) (kind : SpanKind) (attrs : List Attribute) :
    Span × Recorder :=
  (⟨r.spansBegun, name, kind, .begun r.tracesBegun, .none, attrs, [], .unset⟩,
    { r with spansBegun := r.spansBegun + 1, tracesBegun := r.tracesBegun + 1 })

/-- Begins a child of a span begun here, in its trace. -/
def beginChild (r : Recorder) (parent : Span) (name : String) (kind : SpanKind)
    (attrs : List Attribute) : Span × Recorder :=
  (⟨r.spansBegun, name, kind, parent.trace, .begun parent.number, attrs, [], .unset⟩,
    { r with spansBegun := r.spansBegun + 1 })

/-- Begins a span under a context: the child of its span context, recorded only if that is
sampled, or else a new root. -/
def beginUnder (r : Recorder) (cx : Context) (name : String) (kind : SpanKind)
    (attrs : List Attribute) : Option Span × Recorder :=
  match cx.span with
  | some sc =>
    let s : Span := ⟨r.spansBegun, name, kind, .given sc.traceId, .given sc.spanId sc.remote,
      attrs, [], .unset⟩
    (if sc.isSampled then some s else none, { r with spansBegun := r.spansBegun + 1 })
  | none =>
    let (s, r) := r.beginRoot name kind attrs
    (some s, r)

/-- Ends a span, if it is recorded. -/
def finish (r : Recorder) : Option Span → Recorder
  | some s => { r with ended := r.ended ++ [s] }
  | none => r

@[simp] theorem finish_some (r : Recorder) (s : Span) :
    (r.finish (some s)).ended = r.ended ++ [s] := rfl

@[simp] theorem finish_none (r : Recorder) : r.finish none = r := rfl

end Recorder

/-- The position of the span with a number among exported spans. -/
def exportPosition (spans : List Span) (n : Nat) : Option Nat :=
  spans.findIdx? (·.number = n)

/-- The traces begun here, in the order they first appear among exported spans. -/
def begunTraces (spans : List Span) : List Nat :=
  (spans.filterMap fun s =>
    match s.trace with
    | .begun k => some k
    | .given _ => none).eraseDups

/-- The ordinal of a begun trace among exported spans. -/
def traceOrdinal (spans : List Span) (n : Nat) : Nat :=
  (begunTraces spans).idxOf n

/-- A span opened by code around the library: its name and its log target. -/
structure Enclosing where
  /-- The name. -/
  name : String
  /-- The log target, recorded as the attribute `target`. -/
  target : String
  deriving DecidableEq, Repr

/-- The recorder, the current span, and how often the providers were flushed. -/
structure Telemetry where
  /-- The recorder. -/
  recorder : Recorder := {}
  /-- The span that log statements go to, if one is current and recorded. -/
  current : Option Span := none
  /-- How many times the telemetry providers were flushed. -/
  flushes : Nat := 0

namespace Telemetry

/-- Records a log statement on the current span. -/
def log (t : Telemetry) (e : SpanEvent) : Telemetry :=
  { t with current := t.current.map (·.withEvent e) }

/-- Records log statements in order. -/
def logAll (t : Telemetry) (es : List SpanEvent) : Telemetry :=
  es.foldl log t

theorem logAll_append (t : Telemetry) (es fs : List SpanEvent) :
    t.logAll (es ++ fs) = (t.logAll es).logAll fs :=
  List.foldl_append

@[simp] theorem logAll_recorder (t : Telemetry) (es : List SpanEvent) :
    (t.logAll es).recorder = t.recorder := by
  induction es generalizing t with
  | nil => rfl
  | cons e es ih => exact ih (t.log e)

@[simp] theorem logAll_flushes (t : Telemetry) (es : List SpanEvent) :
    (t.logAll es).flushes = t.flushes := by
  induction es generalizing t with
  | nil => rfl
  | cons e es ih => exact ih (t.log e)

@[simp] theorem log_recorder (t : Telemetry) (e : SpanEvent) : (t.log e).recorder = t.recorder :=
  rfl

@[simp] theorem log_flushes (t : Telemetry) (e : SpanEvent) : (t.log e).flushes = t.flushes := rfl

/-- Ends a span, if it is recorded. -/
def finish (t : Telemetry) (s : Option Span) : Telemetry :=
  { t with recorder := t.recorder.finish s }

/-- Counts one flush of the providers. -/
def flushed (t : Telemetry) : Telemetry :=
  { t with flushes := t.flushes + 1 }

/-- Runs a step inside a span of the calling code: the span is begun as a root, is current
during the step, and ends after it; the span current before is current again. -/
def within {α : Type} (t : Telemetry) (enc : Enclosing) (step : Telemetry → α × Telemetry) :
    α × Telemetry :=
  let (s, r) := t.recorder.beginRoot enc.name .internal [Attribute.text "target" enc.target]
  let (a, t') := step { t with recorder := r, current := some s }
  (a, { t' with recorder := t'.recorder.finish t'.current, current := t.current })

/-- A span that handler code opens under a span and ends before it: recorded only when the
parent is. -/
def nested (t : Telemetry) (parent : Option Span) (enc : Enclosing) : Telemetry :=
  match parent with
  | some p =>
    let (s, r) := t.recorder.beginChild p enc.name .internal [Attribute.text "target" enc.target]
    { t with recorder := r.finish (some s) }
  | none => t

@[simp] theorem log_none (t : Telemetry) (e : SpanEvent) (h : t.current = none) :
    t.log e = t := by
  cases t; simp_all [log]

end Telemetry

end TracePropagation
