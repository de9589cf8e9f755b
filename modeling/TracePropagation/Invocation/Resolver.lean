import TracePropagation.Invocation.Trigger
import TracePropagation.Cloud.TraceHeader
/-!
# Choosing the parent of an invocation

The parent context of an invocation comes from the first of these that gives one:

1. a context given explicitly, if it is not empty;
2. the context read from the event, if it is not empty;
3. unless disabled, the cloud trace header: the invocation's own if not empty, or else the
   environment's, if it names a valid span context;
4. otherwise the empty context, and a new trace begins.

A later candidate is not looked at once an earlier one gave a parent: in particular the event
is not read, and what reading it logs is not logged, when an explicit parent is given.
-/

namespace TracePropagation

/-- Where a parent context came from. -/
inductive ParentSource where
  /-- Given explicitly. -/
  | explicit
  /-- Read from the event. -/
  | event
  /-- Named by the cloud trace header. -/
  | cloudTraceHeader
  /-- None: a new trace. -/
  | none
  deriving DecidableEq, Repr

/-- The name of a source. -/
def ParentSource.name : ParentSource → String
  | .explicit => "explicit"
  | .event => "event"
  | .cloudTraceHeader => "cloud_trace_header"
  | .none => "none"

/-- The parent context of an invocation and its source. -/
def resolveParent (disableCloudHeader : Bool) (explicit : Option Context) (s : Source)
    (event : s.Event) (inv : Invocation) (env : Option String) (p : Propagator) :
    Context × ParentSource :=
  match explicit.bind Context.nonEmpty? with
  | some cx => (cx, .explicit)
  | none =>
    match (s.extract event p).nonEmpty? with
    | some cx => (cx, .event)
    | none =>
      let fromHeader := if disableCloudHeader then none
        else (CloudTrace.header inv.cloudTraceHeader env).bind CloudTrace.context
      match fromHeader with
      | some cx => (cx, .cloudTraceHeader)
      | none => (.empty, .none)

/-- The log statements of choosing the parent: those of reading the event, which is read only
when no explicit parent that is not empty is given. -/
def resolveLog (explicit : Option Context) (s : Source) (event : s.Event) (p : Propagator) :
    List SpanEvent :=
  match explicit.bind Context.nonEmpty? with
  | some _ => []
  | none => s.extractLog event p

end TracePropagation
