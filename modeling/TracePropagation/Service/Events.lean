import TracePropagation.Service.Request
import TracePropagation.Messaging.Events
/-!
# Queue and topic events in requests

How the events of a request are read: a queue event is `{records: [message]}` with messages
`{message_id?, body?, event_source_arn?, message_attributes?}`, a topic event is
`{records: [record]}` with records `{message_id?, topic_arn?, message_attributes?}`. Records
that are no array are no records.
-/

namespace TracePropagation.Service

open TracePropagation.Json

/-- Attributes given as an object, read in name order. -/
def attributesOf {α : Type} (v : Value) (key : String) (read : Value → Answer α) :
    Answer (List (String × α)) := do
  let ms ← optObject v key
  ms.mapM fun (n, a) => return (n, ← read a)

/-- A queue attribute: `{string_value?, string_list_values?, data_type?}`. -/
def queueAttributeOf (v : Value) : Answer QueueAttribute := do
  return ⟨← optString v "string_value", ← optStrings v "string_list_values",
    ← optString v "data_type"⟩

/-- A queue message. -/
def queueMessageOf (v : Value) : Answer QueueMessage := do
  return ⟨← optString v "message_id", ← optString v "body", ← optString v "event_source_arn",
    ← attributesOf v "message_attributes" queueAttributeOf⟩

/-- A queue event. -/
def queueEventOf (v : Value) : Answer QueueEvent := do
  return ⟨← (arrayOrEmpty v "records").mapM queueMessageOf⟩

/-- A topic attribute: `{type?, value?}`, both empty by default. -/
def topicAttributeOf (v : Value) : Answer TopicAttribute := do
  return ⟨← stringOr v "type" "", ← stringOr v "value" ""⟩

/-- A topic record. -/
def topicRecordOf (v : Value) : Answer TopicRecord := do
  return ⟨← stringOr v "message_id" "", ← stringOr v "topic_arn" "",
    ← attributesOf v "message_attributes" topicAttributeOf⟩

/-- A topic event. -/
def topicEventOf (v : Value) : Answer TopicEvent := do
  return ⟨← (arrayOrEmpty v "records").mapM topicRecordOf⟩

/-- An envelope attribute: `{type?, value?}`. -/
def envelopeAttributeOf (v : Value) : Answer EnvelopeAttribute := do
  return ⟨← optString v "type", ← optString v "value"⟩

/-- An envelope given by its parts: `{type?, message_id?, topic_arn?, message_attributes?}`;
absent or `null` attributes mean no attribute map. -/
def envelopeOf (v : Value) : Answer Envelope := do
  let attributes ← match member? v "message_attributes" with
    | none => pure none
    | some _ => some <$> attributesOf v "message_attributes" envelopeAttributeOf
  return Envelope.ofParts (← optString v "type") (← optString v "message_id")
    (← optString v "topic_arn") attributes

end TracePropagation.Service
