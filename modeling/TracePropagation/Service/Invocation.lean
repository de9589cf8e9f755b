import TracePropagation.Service.Extraction
import TracePropagation.Invocation.Resolver
import TracePropagation.Invocation.Output
import TracePropagation.Text.Escaped
/-!
# Invocation operations of the service

Requests about traced invocations short of running them: reading HTTP requests and invocation
descriptions, the attributes of events, invocations and outputs, extraction from every kind of
event, and the choice of a parent context.
-/

namespace TracePropagation.Service

open TracePropagation.Json

/-- Headers from `[name, value]` pairs. -/
def headersOf (v : Value) (key : String) : Answer Http.Headers := do
  match Http.Headers.ofList (← optPairs v key) with
  | .ok h => pure h
  | .error (.name n) => refuse ("invalid header name " ++ Text.quoted n)
  | .error (.value x) => refuse ("invalid header value " ++ Text.quoted x)

/-- A request method, `GET` by default. -/
def methodOf (v : Value) (key : String) : Answer String := do
  let m ← stringOr v key "GET"
  if Http.isMethod m then pure m else refuse ("invalid method " ++ Text.quoted m)

/-- A version 2 gateway request. -/
def requestV2Of (v : Value) : Answer Http.RequestV2 := do
  return ⟨← headersOf v "headers", ← methodOf v "method", ← optString v "path",
    ← optString v "raw_path", ← optString v "route_key", ← optString v "raw_query_string",
    ← optString v "source_ip", ← optString v "protocol"⟩

/-- A version 1 gateway request. -/
def requestV1Of (v : Value) : Answer Http.RequestV1 := do
  return ⟨← headersOf v "headers", ← headersOf v "multi_value_headers",
    ← methodOf v "http_method", ← optString v "path", ← optString v "resource",
    ← optString v "source_ip", ← optString v "protocol"⟩

/-- An invocation description: `{function_name?, version?, memory?, request_id?,
invoked_function_arn?, xray_trace_id?}`. -/
def invocationOf (v : Value) : Answer Invocation := do
  let memory ← match member? v "memory" with
    | none => pure 0
    | some m =>
      match m.asInt? with
      | some i => if -(Int.pow 2 31) ≤ i && i < Int.pow 2 31 then pure i else refuse "memory must be a 32-bit integer"
      | none => refuse "memory must be a 32-bit integer"
  let functionName ← stringOr v "function_name" ""
  let version ← stringOr v "version" ""
  let requestId ← stringOr v "request_id" ""
  let invokedArn ← stringOr v "invoked_function_arn" ""
  let cloudTraceHeader ← optString v "xray_trace_id"
  pure { functionName, version, memory, requestId, invokedArn, cloudTraceHeader }

/-- The optional invocation description in a member; the empty one when absent. -/
def invocationIn (v : Value) (key : String) : Answer Invocation :=
  match member? v key with
  | none => pure {}
  | some i => invocationOf i

/-- The source a word names, for extraction and invocations. -/
def sourceNamed : String → Answer Source
  | "sqs" => pure .queue
  | "sns" => pure .topic
  | "http_v2" => pure .httpV2
  | "http_v1" => pure .httpV1
  | "generic" => pure (.generic "other")
  | "timer" => pure (.generic "timer")
  | other => refuse ("unknown extractor " ++ other)

/-- The event of a source, read from a payload. -/
def eventOf : (s : Source) → Value → Answer s.Event
  | .queue, v => queueEventOf v
  | .topic, v => topicEventOf v
  | .httpV2, v => requestV2Of v
  | .httpV1, v => requestV1Of v
  | .generic _, _ => pure ()

/-- Attributes as answer triples: key, type, value. -/
def attributesJson (as : List Attribute) : Value :=
  .arr (as.map fun a => match a.value with
    | .str s => .arr [.str a.key, .str "string", .str s]
    | .int i => .arr [.str a.key, .str "i64", .ofInt i]
    | .bool b => .arr [.str a.key, .str "bool", .bool b])

/-- `extract`: the context of an event of some kind. -/
def extractOp (req : Value) : Answer Value := do
  let kind ← needString req "kind"
  let event := (member? req "event").getD .null
  let p ← propagatorOf req
  let cx ← match kind with
    | "sqs" | "sqs_direct" | "sqs_global" => pure ((← queueEventOf event).extract p)
    | "sqs_message" => pure ((← queueMessageOf event).extract p)
    | "sns" | "sns_direct" | "sns_global" => pure ((← topicEventOf event).extract p)
    | "sns_record" => pure ((← topicRecordOf event).extract p)
    | "embedded" => pure ((← envelopeOf event).received.extract p)
    | "http_v2" => pure ((← requestV2Of event).extract p)
    | "http_v1" => pure ((← requestV1Of event).extract p)
    | "generic" => pure Context.empty
    | other => refuse ("unknown kind " ++ other)
  pure (contextJson cx)

/-- `event_attributes`: the attributes and trigger of an event. -/
def eventAttributesOp (req : Value) : Answer Value := do
  let s ← match ← needString req "kind" with
    | "sqs" => pure Source.queue
    | "sns" => pure Source.topic
    | "http_v2" => pure Source.httpV2
    | "http_v1" => pure Source.httpV1
    | other => refuse ("unknown kind " ++ other)
  let e ← eventOf s ((member? req "event").getD .null)
  pure (.object [("attributes", attributesJson (s.attributes e)), ("trigger", .str s.trigger)])

/-- `lambda_attributes`: the span name and attributes of an invocation. -/
def lambdaAttributesOp (req : Value) : Answer Value := do
  let inv ← invocationIn req "lambda"
  let region ← optString req "aws_region"
  pure (.object [("span_name", .str inv.spanName),
    ("attributes", attributesJson (inv.attributes region))])

/-- A signed 64-bit integer member. -/
def int64Of (v : Value) (what : String) : Answer Int :=
  match v.asInt64? with
  | some i => pure i
  | none => refuse (what ++ " must be a 64-bit integer")

/-- A handler output: an object with one key naming its kind. -/
def outputOf (v : Value) : Answer Output := do
  match v with
  | .obj [(kind, x)] =>
    match kind with
    | "json" => pure (.json x)
    | "unit" => pure .unit
    | "string" => pure (.text (match x with
        | .str s => s
        | _ => ""))
    | "sqs_batch" => pure .batch
    | "apigw_v1" => pure (.gatewayV1 (← int64Of x "apigw_v1"))
    | "apigw_v2" => pure (.gatewayV2 (← int64Of x "apigw_v2"))
    | other => refuse ("unknown output kind " ++ other)
  | _ => refuse "output must be an object with one key"

/-- `output_attributes`: the status and attributes of an output. -/
def outputAttributesOp (req : Value) : Answer Value := do
  let o ← outputOf ((member? req "output").getD .null)
  pure (.object [("status_code", match o.statusCode with
      | some c => .ofInt c
      | none => .null),
    ("attributes", attributesJson o.attributes)])

/-- `resolve`: the parent context of an invocation and its source. -/
def resolveOp (req : Value) : Answer Value := do
  let s ← sourceNamed (← stringOr req "extractor" "generic")
  let e ← eventOf s ((member? req "payload").getD .null)
  let explicit ← optContext req "explicit"
  let inv ← invocationIn req "lambda"
  let env ← optString req "env_trace_id"
  let disable ← boolOr req "disable" false
  let p ← propagatorOf req
  let (cx, src) := resolveParent disable explicit s e inv env p
  pure (.object [("source", .str src.name), ("display", .str src.name),
    ("context", contextJson cx)])

end TracePropagation.Service
