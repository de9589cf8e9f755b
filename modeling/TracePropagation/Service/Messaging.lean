import TracePropagation.Service.Context
import TracePropagation.Service.Events
import TracePropagation.Messaging.Injection
/-!
# Messaging operations of the service

Requests about message attributes: their keys and values on the wire, carriers, request
parameters, injection into outgoing requests, envelopes and attribute look-up.
-/

namespace TracePropagation.Service

open TracePropagation.Json

/-- The protocol a word names: `sns` for topics, `sqs` for queues. -/
def protocolNamed : String → Answer Protocol
  | "sns" => pure .topic
  | "sqs" => pure .queue
  | other => refuse ("unknown protocol " ++ other)

/-- Pairs as an answer. -/
def pairsJson (ps : List (String × String)) : Value :=
  .arr (ps.map fun (k, v) => .arr [.str k, .str v])

/-- `codec_encode`: the three keys and parameters of an attribute at an index. -/
def codecEncode (req : Value) : Answer Value := do
  let p ← protocolNamed (← needString req "protocol")
  let n ← needNat req "index"
  let name ← stringOr req "name" ""
  let value ← stringOr req "value" ""
  pure (.object [("name_key", .str (p.nameKey n)), ("data_type_key", .str (p.dataTypeKey n)),
    ("string_value_key", .str (p.stringValueKey n)), ("params", pairsJson (p.encode n name value)),
    ("kind", .str dataTypeString)])

/-- `attribute_index`: the index of a name key. -/
def attributeIndexOp (req : Value) : Answer Value := do
  let p ← protocolNamed (← needString req "protocol")
  let key ← needString req "key"
  pure (.object [("index", match p.attributeIndex key with
    | some n => .ofNat n
    | none => .null)])

/-- `decode_sqs`: the values of a queue attribute. -/
def decodeQueueOp (req : Value) : Answer Value := do
  let sv ← optString req "string_value"
  let list ← optStrings req "string_list_values"
  pure (.object [("values", texts (decodeQueueValues sv list))])

/-- `decode_sns`: the values of a topic attribute. -/
def decodeTopicOp (req : Value) : Answer Value := do
  let dt ← needString req "data_type"
  let v ← optString req "value"
  pure (.object [("values", match decodeTopicValues dt v with
    | some vs => texts vs
    | none => .null)])

/-- A carrier's pairs as string attributes: name, value, data type. -/
def carrierAttributesJson (c : Carrier) : Value :=
  .arr (c.entries.map fun (k, v) => .arr [.str k, .str v, .str dataTypeString])

/-- `carrier`: a carrier after each of a series of settings. -/
def carrierOp (req : Value) : Answer Value := do
  let steps ← optPairs req "steps"
  let gets ← optStrings req "get"
  let states := (steps.foldl (fun (acc : List Carrier × Carrier) kv =>
      let c := acc.2.set kv.1 kv.2
      (c :: acc.1, c)) ([], Carrier.empty))
  let final := states.2
  pure (.object [
    ("states", .arr (states.1.reverse.map fun c => .object [("entries", pairsJson c.entries),
      ("len", .ofNat c.size), ("is_empty", .bool c.isEmpty)])),
    ("get", .arr (gets.map fun k => optText (final.get? k))),
    ("keys", texts final.keys),
    ("attributes", carrierAttributesJson final)])

/-- `carrier_from_context`: what a propagator writes for a context. -/
def carrierFromContextOp (req : Value) : Answer Value := do
  let cx ← contextOfSpec ((member? req "ctx").getD .null)
  let p ← propagatorOf req
  pure (.object [("entries", pairsJson (Carrier.ofContext p cx).entries)])

/-- `params`: a parameter collection and its indexed attributes. -/
def paramsOp (req : Value) : Answer Value := do
  let ps : Parameters := ⟨← optPairs req "params"⟩
  let p ← protocolNamed (← needString req "protocol")
  let gets ← optStrings req "get"
  pure (.object [
    ("len", .ofNat ps.size), ("is_empty", .bool (ps.size == 0)),
    ("message_attributes", .arr ((ps.messageAttributes p).map fun (n, name, v) =>
      .arr [.ofNat n, .str name, .str v])),
    ("get", .arr (gets.map fun k => optText (ps.get? k))),
    ("contains", .arr (gets.map fun k => .bool (ps.contains k)))])

/-- An injection outcome as an answer. -/
def outcomeJson (o : Outcome) : Value :=
  let body : List (String × Value) := match o with
    | .injected first count =>
      [("kind", .str "Injected"), ("first_index", .ofNat first), ("count", .ofNat count)]
    | .empty => [("kind", .str "Empty")]
    | .alreadyInstrumented => [("kind", .str "AlreadyInstrumented")]
    | .budgetExceeded e r =>
      [("kind", .str "BudgetExceeded"), ("existing", .ofNat e), ("requested", .ofNat r)]
    | .encodingFailed => [("kind", .str "EncodingFailed")]
  .object (("is_injected", .bool o.isInjected) :: body)

/-- A typed attribute map as an answer: name, data type, string value. -/
def attributeMapJson (m : AttributeMap) : Value :=
  .arr (m.entries.map fun (n, a) => .arr [.str n, .str a.dataType, optText a.stringValue])

/-- One typed attribute of a request: `[name, value]` or `[name, value, data_type]`, all
strings. -/
def typedAttributeOf (custom : Bool) : Value → Answer (String × TypedAttribute)
  | .arr [.str n, .str v] => pure (n, ⟨dataTypeString, some v⟩)
  | .arr [.str n, .str v, .str t] => pure (n, ⟨if custom then dataTypeString else t, some v⟩)
  | _ => refuse "attributes must hold [name, value] or [name, value, data_type]"

/-- The carrier of an injection step. Injecting attributes takes the carrier written from the
step's `ctx` whenever the step has that member, even as `null`, and otherwise the pairs of its
`carrier`; injecting a context takes the one of `ctx`, an empty one when it is absent. -/
def stepCarrier (step : Value) : Answer Carrier := do
  let api ← stringOr step "api" "attributes"
  let fromContext : Answer Carrier := do
    let cx ← contextOfSpec ((step.get? "ctx").getD .null)
    let p ← propagatorOf step
    pure (Carrier.ofContext p cx)
  match api with
  | "attributes" =>
    match step.get? "ctx" with
    | some _ => fromContext
    | none => return Carrier.ofList (← optPairs step "carrier")
  | "context" | "global" => fromContext
  | other => refuse ("unknown inject api " ++ other)

/-- `inject`: a series of injections into one outgoing request. -/
def injectOp (req : Value) : Answer Value := do
  let (protocol, custom) ← match ← needString req "target" with
    | "sqs" => pure (Protocol.queue, false)
    | "sns" => pure (Protocol.topic, false)
    | "custom" => pure (Protocol.queue, true)
    | other => refuse ("unknown target " ++ other)
  let reject ← optString req "reject"
  let attributes ← match member? req "attributes" with
    | none => pure AttributeMap.empty
    | some (.arr items) => AttributeMap.ofList <$> items.mapM (typedAttributeOf custom)
    | some _ => refuse "attributes must be an array"
  let params : Parameters := ⟨← optPairs req "params"⟩
  let refuses : String → Bool := fun n => custom && reject == some n
  let carriers ← (arrayOrEmpty req "steps").mapM stepCarrier
  let start : Target := ⟨protocol, refuses, params, attributes⟩
  let states := start.injectAll carriers
  pure (.object [("steps", .arr (states.map fun (o, t) => .object [
    ("outcome", outcomeJson o), ("params", pairsJson t.params.pairs),
    ("attributes", attributeMapJson t.attributes)]))])

/-- The look-up answer for attributes: names, keys, and per requested name the decoded values,
the joined text and all values. -/
def getterJson (a : ReceivedAttributes) (names : List String) : Value :=
  let values := fun (o : Option (List String)) => match o with
    | some vs => texts vs
    | none => Value.null
  .object [
    ("names", texts (sortStrings a.names)),
    ("keys", texts (sortStrings a.names)),
    ("lookup", .arr (names.map fun n => values (a.lookup n))),
    ("get", .arr (names.map fun n => optText (a.get? n))),
    ("get_all", .arr (names.map fun n => values (a.lookup n)))]

/-- `getter`: attribute look-up over queue, topic or envelope attributes. -/
def getterOp (req : Value) : Answer Value := do
  let kind ← needString req "kind"
  let names ← optStrings req "names"
  let received ← match kind with
    | "sqs" => do
      let attrs ← attributesOf req "attributes" queueAttributeOf
      pure (⟨attrs.map fun (n, a) => (n, a.values)⟩ : ReceivedAttributes)
    | "sns" => do
      let attrs ← attributesOf req "attributes" topicAttributeOf
      pure ⟨attrs.map fun (n, a) => (n, decodeTopicValues a.dataType (some a.value))⟩
    | "embedded" => do
      let attrs ← attributesOf req "attributes" envelopeAttributeOf
      pure (Envelope.ofParts none none none (some attrs)).received
    | other => refuse ("unknown getter kind " ++ other)
  pure (getterJson received names)

/-- `get_ignore_case`: a member of an object by name, ignoring ASCII case. -/
def getIgnoreCaseOp (req : Value) : Answer Value := do
  let ms ← optObject req "map"
  let name ← needString req "name"
  pure (.object [("value", (findIgnoreCase ms name).getD .null)])

/-- `unwrap`: a message body read as an envelope. -/
def unwrapOp (req : Value) : Answer Value := do
  let body ← needString req "body"
  let lookups ← optStrings req "lookups"
  match Envelope.ofBody body with
  | .error e@(.notAnEnvelope) => .error (.notAnEnvelope e.message)
  | .error e@(.malformed) => .error (.malformedEnvelope e.message)
  | .ok env =>
    pure (.object [
      ("notification", .object [
        ("type", optText env.type), ("message_id", optText env.messageId),
        ("topic_arn", optText env.topicArn),
        ("message_attributes", match env.attributes with
          | some attrs => .arr (attrs.map fun (n, a) =>
              .arr [.str n, optText a.dataType, optText a.value])
          | none => .null)]),
      ("try_unwrap", .bool (Envelope.tryUnwrap body).isSome),
      ("getter", getterJson env.received lookups)])

end TracePropagation.Service
