import TracePropagation.Service.Messaging
import TracePropagation.Http.Host
/-!
# Extraction operations of the service

Requests that read a parent context: from queue and topic events, envelopes, HTTP requests
(added by the invocation layer) and the cloud trace header, and the host and port of a `Host`
header.
-/

namespace TracePropagation.Service

open TracePropagation.Json

/-- `parse_trace_header`: the span context a cloud trace header names. -/
def parseTraceHeaderOp (req : Value) : Answer Value := do
  let h ← needString req "header"
  pure (.object [("valid", .bool (CloudTrace.parse h).isSome),
    ("context", match CloudTrace.context h with
      | some cx => contextJson cx
      | none => .null)])

/-- `cloud_trace_header`: the header of an invocation, or else of the environment. -/
def cloudTraceHeaderOp (req : Value) : Answer Value := do
  let own ← optString req "xray_trace_id"
  let env ← optString req "env"
  pure (.object [("header", optText (CloudTrace.header own env))])

/-- `host_and_port`: host and port of a `Host` header. -/
def hostAndPortOp (req : Value) : Answer Value := do
  let scheme ← optString req "scheme"
  let h ← needString req "host_header"
  let (host, port) := Http.hostAndPort scheme h
  pure (.object [("host", .str host), ("port", match port with
    | some p => .ofNat p
    | none => .null)])

end TracePropagation.Service
