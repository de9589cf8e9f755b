import TracePropagation.Text.Split
import TracePropagation.Text.Radix
/-!
# Message attributes on the wire

Outbound, every attribute becomes three indexed query parameters: its name, its data type and
its string value. A publish request to a topic writes them under
`MessageAttributes.entry.<n>.`, a send request to a queue under `MessageAttribute.<n>.`, with
indices counted from one. `Protocol.attributeIndex` recognises exactly the name keys.

Inbound, a queue attribute carries a string value or a list of strings, and a topic attribute a
declared type and one value, where the type `String.Array` means a comma-separated list.
-/

namespace TracePropagation

/-- The target of the log statements about message attributes. -/
def messagingTarget : String := "otel_messaging"

/-- The data type of a string attribute. -/
def dataTypeString : String := "String"

/-- The data type of a comma-separated list of strings. -/
def dataTypeStringArray : String := "String.Array"

/-- Which kind of request the indexed parameters belong to. -/
inductive Protocol where
  /-- A publish request to a topic. -/
  | topic
  /-- A send request to a queue. -/
  | queue
  deriving DecidableEq, Repr

namespace Protocol

/-- The text before the index. -/
def keyStart : Protocol → String
  | .topic => "MessageAttributes.entry."
  | .queue => "MessageAttribute."

/-- The key of the attribute name at an index. -/
def nameKey (p : Protocol) (n : Nat) : String :=
  p.keyStart ++ toString n ++ ".Name"

/-- The key of the attribute data type at an index. -/
def dataTypeKey (p : Protocol) (n : Nat) : String :=
  p.keyStart ++ toString n ++ ".Value.DataType"

/-- The key of the attribute string value at an index. -/
def stringValueKey (p : Protocol) (n : Nat) : String :=
  p.keyStart ++ toString n ++ ".Value.StringValue"

/-- The three parameters written for a string attribute at an index. -/
def encode (p : Protocol) (n : Nat) (name value : String) : List (String × String) :=
  [(p.nameKey n, name), (p.dataTypeKey n, dataTypeString), (p.stringValueKey n, value)]

/-- The largest index plus one: indices are machine words. -/
def indexBound : Nat := Nat.pow 2 64

/-- The index of a name key: the key start, a non-empty run of ASCII digits of value below
`2^64` (leading zeros allowed), then `.Name`; `none` for every other key. -/
def attributeIndex (p : Protocol) (key : String) : Option Nat :=
  let start := p.keyStart.toList
  let cs := key.toList
  if start.isPrefixOf cs then
    let rest := cs.drop start.length
    if ".Name".toList.isSuffixOf rest then
      let digits := rest.take (rest.length - 5)
      if digits.isEmpty || !digits.all Char.isDigit then none
      else (Text.digitsValue 10 digits).filter (· < indexBound)
    else none
  else none

example : queue.attributeIndex "MessageAttribute.007.Name" = some 7 := by decide
example : topic.attributeIndex "MessageAttribute.1.Name" = none := by decide

end Protocol

/-- The values of a queue attribute: its string value if present, even an empty one, otherwise
its list of strings. -/
def decodeQueueValues (stringValue : Option String) (list : List String) : List String :=
  match stringValue with
  | some v => [v]
  | none => list

/-- The values of a topic attribute by its declared type: one value for `String`, the pieces
between commas for `String.Array`, nothing for other types or a missing value. -/
def decodeTopicValues (dataType : String) (value : Option String) : Option (List String) :=
  match value with
  | none => none
  | some v =>
    if dataType = dataTypeString then some [v]
    else if dataType = dataTypeStringArray then
      some ((Text.pieces ',' v.toList).map String.ofList)
    else none

end TracePropagation
