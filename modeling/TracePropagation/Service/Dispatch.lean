import TracePropagation.Service.Tracing
import TracePropagation.Json.Reader
/-!
# Answering request lines

One request line in, one answer line out: the line is read as JSON, its `op` member picks the
operation, and the answer or the failure is written as compact JSON.
-/

namespace TracePropagation.Service

open TracePropagation.Json

/-- The answer to a request value. -/
def answer (req : Value) : Answer Value := do
  match ← needString req "op" with
  | "codec_encode" => codecEncode req
  | "attribute_index" => attributeIndexOp req
  | "decode_sqs" => decodeQueueOp req
  | "decode_sns" => decodeTopicOp req
  | "carrier" => carrierOp req
  | "carrier_from_context" => carrierFromContextOp req
  | "params" => paramsOp req
  | "inject" => injectOp req
  | "unwrap" => unwrapOp req
  | "getter" => getterOp req
  | "get_ignore_case" => getIgnoreCaseOp req
  | "parse_trace_header" => parseTraceHeaderOp req
  | "cloud_trace_header" => cloudTraceHeaderOp req
  | "host_and_port" => hostAndPortOp req
  | "extract" => extractOp req
  | "event_attributes" => eventAttributesOp req
  | "lambda_attributes" => lambdaAttributesOp req
  | "output_attributes" => outputAttributesOp req
  | "resolve" => resolveOp req
  | "config_load" => configLoadOp req
  | "config_builder" => configBuilderOp req
  | "debug" => debugOp req
  | "invoke" => invokeOp req
  | "lifecycle" => lifecycleOp req
  | other => refuse ("unknown op " ++ other)

/-- The answer line to a request line. -/
def respond (line : String) : String :=
  match Value.read line with
  | .error e => (Failure.badJson (e.message line.toList)).toJson.render
  | .ok req =>
    match answer req with
    | .ok v => v.render
    | .error f => f.toJson.render

end TracePropagation.Service
