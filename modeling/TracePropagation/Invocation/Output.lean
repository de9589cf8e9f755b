import TracePropagation.Telemetry.Attribute
import TracePropagation.Json.Value
/-!
# Handler outputs

What a handler returns, as far as its span is concerned: a JSON value, which names an HTTP status
in an integer `statusCode` member within the signed 64-bit range; a gateway response, which always
has a status; or a unit, a string or a batch response, which have none. A status becomes the
attribute `http.response.status_code`.
-/

namespace TracePropagation

/-- A handler output. -/
inductive Output where
  /-- A JSON value. -/
  | json (v : Json.Value)
  /-- Nothing. -/
  | unit
  /-- A string. -/
  | text (s : String)
  /-- A queue batch response. -/
  | batch
  /-- A gateway response, version 1, with its status. -/
  | gatewayV1 (status : Int)
  /-- A gateway response, version 2, with its status. -/
  | gatewayV2 (status : Int)
  deriving Repr

namespace Output

/-- The HTTP status of an output, if it names one. -/
def statusCode : Output → Option Int
  | .json v => (v.get? "statusCode").bind Json.Value.asInt64?
  | .gatewayV1 s => some s
  | .gatewayV2 s => some s
  | _ => none

/-- The span attributes of an output. -/
def attributes (o : Output) : List Attribute :=
  match o.statusCode with
  | some c => [Attribute.int "http.response.status_code" c]
  | none => []

end Output

end TracePropagation
