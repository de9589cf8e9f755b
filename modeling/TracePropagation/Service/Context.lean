import TracePropagation.Service.Request
import TracePropagation.Propagation.Propagator
import TracePropagation.Cloud.TraceHeader
/-!
# Contexts in requests and answers

A request names a propagator by a word and describes a context either by a cloud trace header
or by its parts; an answer shows a context with every part spelt out.
-/

namespace TracePropagation.Service

open TracePropagation.Json

/-- The propagator a word names: `w3c` (the default), `baggage`, `w3c+baggage` or `none`. -/
def propagatorNamed : String → Answer Propagator
  | "w3c" => pure .traceContext
  | "baggage" => pure .baggage
  | "w3c+baggage" => pure .both
  | "none" => pure .none
  | other => refuse ("unknown propagator " ++ other)

/-- The propagator of a request's `propagator` member. -/
def propagatorOf (v : Value) : Answer Propagator := do
  propagatorNamed (← stringOr v "propagator" "w3c")

/-- Why a hexadecimal id was refused, in the words of integer reading. -/
def hexProblem (cs : List Char) (bound : Nat) : String :=
  let ds := match cs with
    | '+' :: d :: r => d :: r
    | _ => cs
  if ds.isEmpty then "cannot parse integer from empty string"
  else if (Text.digitsValue 16 ds).isNone then "invalid digit found in string"
  else if bound ≤ (Text.digitsValue 16 ds).getD 0 then "number too large to fit in target type"
  else "invalid digit found in string"

/-- Baggage entries inserted without metadata. -/
def baggageOfPairs (pairs : List (String × String)) : Baggage :=
  Baggage.ofEntries (pairs.map fun (k, v) => ⟨k, v, ""⟩)

/-- The context a spec describes: `{"xray": header}`, or the parts `trace_id`, `span_id`
(default zero), `flags` (default 1, also when it is no natural number; above 255 refused),
`remote` (default true), `trace_state` and `baggage`. -/
def contextOfSpec (spec : Value) : Answer Context := do
  match ← optString spec "xray" with
  | some h => pure ((CloudTrace.context h).getD .empty)
  | none =>
    let baggage := baggageOfPairs (← optPairs spec "baggage")
    match ← optString spec "trace_id" with
    | none => pure ⟨none, baggage⟩
    | some t =>
      let traceId ← match TraceId.ofHex? t.toList with
        | some id => pure id
        | none => refuse ("bad trace_id: " ++ hexProblem t.toList (Nat.pow 2 128))
      let s ← stringOr spec "span_id" "0"
      let spanId ← match SpanId.ofHex? s.toList with
        | some id => pure id
        | none => refuse ("bad span_id: " ++ hexProblem s.toList (Nat.pow 2 64))
      let flags ← match (member? spec "flags").bind Value.asNat? with
        | none => pure 1
        | some n => if n ≤ 255 then pure n else refuse "flags out of range"
      let remote ← boolOr spec "remote" true
      let state ← match TraceState.parse (← stringOr spec "trace_state" "") with
        | .ok ts => pure ts
        | .error e => refuse ("bad trace_state: " ++ e.message)
      pure ⟨some ⟨traceId, spanId, ⟨flags.toUInt8⟩, remote, state⟩, baggage⟩

/-- The optional context spec in a member. -/
def optContext (v : Value) (key : String) : Answer (Option Context) := do
  match member? v key with
  | none => pure none
  | some spec => some <$> contextOfSpec spec

/-- A baggage entry as an answer: name, value, metadata. -/
def baggageEntryJson (e : BaggageEntry) : Value :=
  .arr [.str e.name, .str e.value, .str e.metadata]

/-- The answer form of a context. -/
def contextJson (cx : Context) : Value :=
  let sc := cx.spanContext
  .object [
    ("empty", .bool cx.isEmpty),
    ("valid", .bool sc.isValid),
    ("trace_id", .str sc.traceId.hex),
    ("span_id", .str sc.spanId.hex),
    ("flags", .ofNat sc.flags.bits.toNat),
    ("sampled", .bool sc.isSampled),
    ("remote", .bool sc.remote),
    ("trace_state", .str sc.state.header),
    ("baggage", .arr (sortByText (cx.baggage.entries.map baggageEntryJson)))]

end TracePropagation.Service
