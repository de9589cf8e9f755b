import TracePropagation.Telemetry.Attribute
import TracePropagation.Text.Split
/-!
# The invocation and its function

What the runtime tells about one invocation: the function's name, version and memory, the
request id, the resource name it was invoked by, and possibly a cloud trace header. The span of
an invocation is named after the function, and carries the cloud provider, the region (from the
environment), the function's name, version, memory in bytes, the invoked resource name and the
account id taken from it, each only when known.
-/

namespace TracePropagation

/-- The runtime's description of one invocation. -/
structure Invocation where
  /-- The function name. -/
  functionName : String := ""
  /-- The function version. -/
  version : String := ""
  /-- The configured memory in MiB, a signed 32-bit number. -/
  memory : Int := 0
  /-- The request id. -/
  requestId : String := ""
  /-- The resource name the function was invoked by. -/
  invokedArn : String := ""
  /-- The cloud trace header of the invocation. -/
  cloudTraceHeader : Option String := none
  deriving DecidableEq, Repr

namespace Invocation

/-- The span name when the function has no name. -/
def fallbackSpanName : String := "AWS Lambda Invoke"

/-- The span name: the function's name, or the fallback. -/
def spanName (i : Invocation) : String :=
  if i.functionName.isEmpty then fallbackSpanName else i.functionName

/-- The account id in a resource name: its fifth `:`-separated part, if not empty. -/
def accountId (arn : String) : Option String :=
  match (Text.pieces ':' arn.toList)[4]? with
  | some cs => if cs.isEmpty then none else some (String.ofList cs)
  | none => none

/-- The span attributes of an invocation, given the region of the environment. -/
def attributes (i : Invocation) (region : Option String) : List Attribute :=
  [Attribute.text "cloud.provider" "aws"] ++
    (match region.filter (!·.isEmpty) with
      | some r => [Attribute.text "cloud.region" r]
      | none => []) ++
    (if i.functionName.isEmpty then [] else [Attribute.text "faas.name" i.functionName]) ++
    (if i.version.isEmpty then [] else [Attribute.text "faas.version" i.version]) ++
    (if i.memory > 0 then [Attribute.int "faas.max_memory" (i.memory * 1024 * 1024)] else []) ++
    (if i.invokedArn.isEmpty then []
     else Attribute.text "aws.lambda.invoked_arn" i.invokedArn ::
       (match accountId i.invokedArn with
        | some a => [Attribute.text "cloud.account.id" a]
        | none => []))

end Invocation

end TracePropagation
