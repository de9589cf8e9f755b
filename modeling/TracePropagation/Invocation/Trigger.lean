import TracePropagation.Invocation.Lambda
import TracePropagation.Messaging.Events
import TracePropagation.Http.Gateway
/-!
# Event sources

An invocation is traced from its event. Each kind of event source decides three things: the
trigger word of the span (`pubsub` for queues and topics, `http` for gateway requests, a given
word for others), how a parent context is read from the event, and which attributes describe it.
Events of other sources carry no context and no attributes.

Queue and topic batches are described by the messaging system, the operation `process`, the
number of messages, the destination (the last `:`-separated part of the first record's resource
name, if not empty) and, for a batch of one, the message id: for a queue whenever the message
has one, for a topic only when it is not empty.
-/

namespace TracePropagation

/-- A kind of event source. -/
inductive Source where
  /-- A queue. -/
  | queue
  /-- A topic. -/
  | topic
  /-- An API gateway, payload version 2. -/
  | httpV2
  /-- An API gateway, payload version 1. -/
  | httpV1
  /-- Any other source, with its trigger word. -/
  | generic (trigger : String)
  deriving DecidableEq, Repr

namespace Source

/-- The event type of each source. -/
def Event : Source → Type
  | .queue => QueueEvent
  | .topic => TopicEvent
  | .httpV2 => Http.RequestV2
  | .httpV1 => Http.RequestV1
  | .generic _ => Unit

/-- The trigger word of the span. -/
def trigger : Source → String
  | .queue => "pubsub"
  | .topic => "pubsub"
  | .httpV2 => "http"
  | .httpV1 => "http"
  | .generic t => t

/-- The last `:`-separated part of a resource name, if not empty. -/
def resourceName (arn : String) : Option String :=
  match (Text.pieces ':' arn.toList).getLast? with
  | some cs => if cs.isEmpty then none else some (String.ofList cs)
  | none => none

/-- The attributes of a queue batch. -/
def queueAttributes (e : QueueEvent) : List Attribute :=
  [Attribute.text "messaging.system" "aws_sqs", Attribute.text "messaging.operation.type" "process",
    Attribute.int "messaging.batch.message_count" e.records.length] ++
  (match e.records.head?.bind (·.eventSourceArn) |>.bind resourceName with
    | some q => [Attribute.text "messaging.destination.name" q]
    | none => []) ++
  (match e.records with
    | [m] => match m.messageId with
      | some id => [Attribute.text "messaging.message.id" id]
      | none => []
    | _ => [])

/-- The attributes of a topic batch. -/
def topicAttributes (e : TopicEvent) : List Attribute :=
  [Attribute.text "messaging.system" "aws_sns", Attribute.text "messaging.operation.type" "process",
    Attribute.int "messaging.batch.message_count" e.records.length] ++
  (match e.records.head? with
    | some r =>
      (match resourceName r.topicArn with
        | some t => [Attribute.text "messaging.destination.name" t]
        | none => []) ++
      (if e.records.length = 1 && !r.messageId.isEmpty then
        [Attribute.text "messaging.message.id" r.messageId] else [])
    | none => [])

/-- The parent context of an event. -/
def extract : (s : Source) → s.Event → Propagator → Context
  | .queue, e, p => QueueEvent.extract e p
  | .topic, e, p => TopicEvent.extract e p
  | .httpV2, r, p => Http.RequestV2.extract r p
  | .httpV1, r, p => Http.RequestV1.extract r p
  | .generic _, _, _ => .empty

/-- The log statements of reading an event's context: only a queue batch's reading logs. -/
def extractLog : (s : Source) → s.Event → Propagator → List SpanEvent
  | .queue, e, p => QueueEvent.extractLog e p
  | .topic, _, _ => []
  | .httpV2, _, _ => []
  | .httpV1, _, _ => []
  | .generic _, _, _ => []

/-- The attributes that describe an event. -/
def attributes : (s : Source) → s.Event → List Attribute
  | .queue, e => queueAttributes e
  | .topic, e => topicAttributes e
  | .httpV2, r => Http.RequestV2.attributes r
  | .httpV1, r => Http.RequestV1.attributes r
  | .generic _, _ => []

end Source

end TracePropagation
