import TracePropagation.Messaging.Envelope
/-!
# Queue and topic events

The events a function receives from a queue or a topic, as far as propagation and span
attributes need them, and how a parent context is read from them.

Only the last record of a batch is read. For a queue message the native attributes come
first; if they give an empty context, the body is tried as a notification envelope and its
attributes are read instead.
-/

namespace TracePropagation

/-- A queue message attribute. -/
structure QueueAttribute where
  /-- The string value, if present. -/
  stringValue : Option String
  /-- The list of strings. -/
  stringListValues : List String
  /-- The declared data type. -/
  dataType : Option String
  deriving DecidableEq, Repr

/-- The values of a queue attribute; nothing for an empty list. -/
def QueueAttribute.values (a : QueueAttribute) : Option (List String) :=
  let vs := decodeQueueValues a.stringValue a.stringListValues
  if vs.isEmpty then none else some vs

/-- A message received from a queue. -/
structure QueueMessage where
  /-- The message id. -/
  messageId : Option String
  /-- The body. -/
  body : Option String
  /-- The resource name of the queue. -/
  eventSourceArn : Option String
  /-- The attributes by name, each once, in name order. -/
  attributes : List (String × QueueAttribute)
  deriving DecidableEq, Repr

/-- A batch of queue messages. -/
structure QueueEvent where
  /-- The messages. -/
  records : List QueueMessage
  deriving DecidableEq, Repr

/-- A topic message attribute. -/
structure TopicAttribute where
  /-- The declared type. -/
  dataType : String
  /-- The value. -/
  value : String
  deriving DecidableEq, Repr

/-- A notification received from a topic. -/
structure TopicRecord where
  /-- The message id. -/
  messageId : String
  /-- The resource name of the topic. -/
  topicArn : String
  /-- The attributes by name, each once, in name order. -/
  attributes : List (String × TopicAttribute)
  deriving DecidableEq, Repr

/-- A batch of topic notifications. -/
structure TopicEvent where
  /-- The notifications. -/
  records : List TopicRecord
  deriving DecidableEq, Repr

namespace QueueMessage

/-- The native attributes as a propagator reads them. -/
def received (m : QueueMessage) : ReceivedAttributes :=
  ⟨m.attributes.map fun (n, a) => (n, a.values)⟩

/-- The context of a message: from its attributes, or else from an envelope in its body. -/
def extract (m : QueueMessage) (p : Propagator) : Context :=
  let native := m.received.extract p
  if !native.isEmpty then native
  else
    match m.body.bind Envelope.tryUnwrap with
    | some e => e.received.extract p
    | none => .empty

/-- The log statements of reading a message's context: the body is looked at, and logged about,
only when the attributes give no context. -/
def extractLog (m : QueueMessage) (p : Propagator) : List SpanEvent :=
  if !(m.received.extract p).isEmpty then []
  else
    match m.body with
    | some body => Envelope.unwrapLog body
    | none => []

end QueueMessage

/-- The context of a queue batch: that of its last message. -/
def QueueEvent.extract (e : QueueEvent) (p : Propagator) : Context :=
  match e.records.getLast? with
  | some m => m.extract p
  | none => .empty

/-- The log statements of reading a queue batch's context: those of its last message. -/
def QueueEvent.extractLog (e : QueueEvent) (p : Propagator) : List SpanEvent :=
  match e.records.getLast? with
  | some m => m.extractLog p
  | none => []

/-- The attributes of a notification as a propagator reads them. -/
def TopicRecord.received (r : TopicRecord) : ReceivedAttributes :=
  ⟨r.attributes.map fun (n, a) => (n, decodeTopicValues a.dataType (some a.value))⟩

/-- The context of a notification. -/
def TopicRecord.extract (r : TopicRecord) (p : Propagator) : Context :=
  r.received.extract p

/-- The context of a topic batch: that of its last notification. -/
def TopicEvent.extract (e : TopicEvent) (p : Propagator) : Context :=
  match e.records.getLast? with
  | some r => r.extract p
  | none => .empty

end TracePropagation
