import TracePropagation.Trace.Context
import TracePropagation.Text.Blank
import TracePropagation.Text.Split
/-!
# The trace-context header format

A span context travels in two headers. `traceparent` is `version-traceid-spanid-flags` in
hexadecimal; `tracestate` is the trace state's header text.

Reading is lenient where the format leaves room and strict where it must be. The header is
trimmed and cut at `-` (a `-` at the end closes the last part); there must be at least four
parts. The version is a hexadecimal byte below `ff`; version `00` has exactly four parts and
flags of at most `02`. The ids may not contain capital letters and are read as hexadecimal
numbers of their width; only the sampled bit of the flags is kept. A trace state that cannot be
read is dropped. The result must be a valid span context, and it is marked remote.

Writing produces `00-<32 digits>-<16 digits>-<2 digits>` with only the sampled bit, then the
trace state, and only for a valid span context.
-/

namespace TracePropagation.TraceContext

open TracePropagation.Text

/-- The name of the header that carries the span context. -/
def parentHeader : String := "traceparent"

/-- The name of the header that carries the trace state. -/
def stateHeader : String := "tracestate"

/-- The highest version that is read. -/
def maxVersion : Nat := 254

/-- Whether a text holds an ASCII capital letter. -/
def hasUpper (cs : List Char) : Bool := cs.any Char.isUpper

/-- Reads the parts of a `traceparent` header into ids and flags. -/
def readParent (header : String) : Option (TraceId × SpanId × TraceFlags) := do
  let parts := piecesTerminated '-' (trim header.toList)
  match parts with
  | v :: t :: s :: f :: more =>
    let version ← readUnsigned 16 256 v
    if version > maxVersion || (version = 0 && !more.isEmpty) then none else
    if hasUpper t then none else
    let traceId ← TraceId.ofHex? t
    if hasUpper s then none else
    let spanId ← SpanId.ofHex? s
    let opts ← readUnsigned 16 256 f
    if version = 0 && opts > 2 then none else
    pure (traceId, spanId, TraceFlags.onlySampled ⟨opts.toUInt8⟩)
  | _ => none

/-- The trace state of a `tracestate` header; the empty one if it cannot be read. -/
def readState (header : Option String) : TraceState :=
  match header with
  | some h =>
    match TraceState.parse h with
    | .ok ts => ts
    | .error _ => .empty
  | none => .empty

/-- The remote span context of the two headers, if it is valid. -/
def extractSpan (get : String → Option String) : Option SpanContext := do
  let (traceId, spanId, flags) ← readParent ((get parentHeader).getD "")
  let sc : SpanContext := ⟨traceId, spanId, flags, true, readState (get stateHeader)⟩
  if sc.isValid then some sc else none

/-- Sets the span context read from the headers, if there is one; otherwise keeps the context. -/
def extract (get : String → Option String) (cx : Context) : Context :=
  match extractSpan get with
  | some sc => cx.withSpan sc
  | none => cx

/-- The `traceparent` text of a span context. -/
def renderParent (sc : SpanContext) : String :=
  "00-" ++ sc.traceId.hex ++ "-" ++ sc.spanId.hex ++ "-" ++
    String.ofList (hexDigits 2 sc.flags.onlySampled.bits.toNat)

/-- The headers written for a context: both, for a valid span context; none otherwise. -/
def inject (cx : Context) : List (String × String) :=
  let sc := cx.spanContext
  if sc.isValid then [(parentHeader, renderParent sc), (stateHeader, sc.state.header)] else []

end TracePropagation.TraceContext
