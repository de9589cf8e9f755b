import TracePropagation.Messaging.Carrier
import TracePropagation.Messaging.Parameters
import TracePropagation.Telemetry.Span
/-!
# Injecting a carrier into an outgoing request

An outgoing request is seen through two views that must stay in step: its query parameters and
its typed attribute map. Injection writes a carrier's pairs to both or to neither, deciding in
this order:

1. an empty carrier gives `empty`;
2. a carrier key already in the typed map (exactly, with case) gives `alreadyInstrumented`;
3. more than ten attributes in all gives `budgetExceeded`, counting the typed map only;
4. a pair whose typed value cannot be built gives `encodingFailed`;
5. otherwise every pair is appended, at the indices after the typed map's size, and the
   outcome is `injected`.

Each of steps 2 to 4 also logs why nothing was written: the key found, the counts against the
budget, or the pair refused.
-/

namespace TracePropagation

/-- A typed message attribute of a request. -/
structure TypedAttribute where
  /-- The declared data type. -/
  dataType : String
  /-- The string value, if any. -/
  stringValue : Option String
  deriving DecidableEq, Repr

/-- A request's typed attributes: each name once, in increasing name order. -/
structure AttributeMap where
  /-- The attributes by name. -/
  entries : List (String × TypedAttribute)
  deriving DecidableEq, Repr

namespace AttributeMap

/-- No attributes. -/
def empty : AttributeMap := ⟨[]⟩

/-- Puts an attribute at its name's place, replacing one of the same name. -/
def insertEntry (k : String) (v : TypedAttribute) :
    List (String × TypedAttribute) → List (String × TypedAttribute)
  | [] => [(k, v)]
  | (k', v') :: rest =>
    if k = k' then (k, v) :: rest
    else if k < k' then (k, v) :: (k', v') :: rest
    else (k', v') :: insertEntry k v rest

/-- Sets an attribute. -/
def insert (m : AttributeMap) (k : String) (v : TypedAttribute) : AttributeMap :=
  ⟨insertEntry k v m.entries⟩

/-- The map of attributes set one after the other. -/
def ofList (pairs : List (String × TypedAttribute)) : AttributeMap :=
  pairs.foldl (fun m kv => m.insert kv.1 kv.2) empty

/-- Whether a name is present. -/
def contains (m : AttributeMap) (k : String) : Bool := m.entries.any (·.1 = k)

/-- The number of attributes. -/
def size (m : AttributeMap) : Nat := m.entries.length

end AttributeMap

/-- The most message attributes a message may carry. -/
def maxMessageAttributes : Nat := 10

/-- An outgoing request, as injection sees it. -/
structure Target where
  /-- The protocol of its indexed parameters. -/
  protocol : Protocol
  /-- The attribute names whose typed value cannot be built. -/
  refuses : String → Bool
  /-- The query parameters. -/
  params : Parameters
  /-- The typed attribute map. -/
  attributes : AttributeMap

/-- The result of an injection. -/
inductive Outcome where
  /-- The pairs were written at indices `firstIndex` to `firstIndex + count - 1`. -/
  | injected (firstIndex count : Nat)
  /-- The carrier was empty. -/
  | empty
  /-- A carrier key was already a typed attribute. -/
  | alreadyInstrumented
  /-- The request would carry more than ten attributes. -/
  | budgetExceeded (existing requested : Nat)
  /-- A typed value could not be built. -/
  | encodingFailed
  deriving DecidableEq, Repr

/-- Whether the request was changed. -/
def Outcome.isInjected : Outcome → Bool
  | .injected _ _ => true
  | _ => false

namespace Target

/-- Writes one string attribute at an index into both views. -/
def append (t : Target) (index : Nat) (name value : String) : Target :=
  { t with
    params := (t.protocol.encode index name value).foldl (fun ps kv => ps.add kv.1 kv.2) t.params
    attributes := t.attributes.insert name ⟨dataTypeString, some value⟩ }

/-- Writes pairs at consecutive indices from `index` on. -/
def appendFrom (t : Target) : Nat → List (String × String) → Target
  | _, [] => t
  | index, (name, value) :: rest => (t.append index name value).appendFrom (index + 1) rest

/-- Injects a carrier: all of it, or nothing. -/
def inject (t : Target) (c : Carrier) : Outcome × Target :=
  if c.isEmpty then (.empty, t)
  else if c.keys.any t.attributes.contains then (.alreadyInstrumented, t)
  else
    let existing := t.attributes.size
    let requested := c.size
    if existing + requested > maxMessageAttributes then (.budgetExceeded existing requested, t)
    else if c.keys.any t.refuses then (.encodingFailed, t)
    else (.injected (existing + 1) requested, t.appendFrom (existing + 1) c.entries)

/-- The debug statement for a carrier key already among the typed attributes. -/
def presentEvent (key : String) : SpanEvent :=
  .logged .debug messagingTarget "Trace context already present on message; skipping injection"
    [Attribute.text "attribute" key]

/-- The debug statement for a request that would exceed the budget. -/
def overBudgetEvent (existing requested : Nat) : SpanEvent :=
  .logged .debug messagingTarget "Message attribute limit reached; skipping trace context injection"
    [Attribute.int "existing" existing, Attribute.int "requested" requested,
      Attribute.int "limit" maxMessageAttributes]

/-- The warning for a pair whose typed value cannot be built. -/
def refusedEvent (name : String) : SpanEvent :=
  .logged .warn messagingTarget "Failed to encode trace context attribute; skipping injection"
    [Attribute.text "attribute" name]

/-- The log statements of an injection, decided in the order of `inject`: the first carrier key
already present, the counts against the budget, or the first pair refused. -/
def injectLog (t : Target) (c : Carrier) : List SpanEvent :=
  if c.isEmpty then []
  else
    match c.keys.find? t.attributes.contains with
    | some key => [presentEvent key]
    | none =>
      if t.attributes.size + c.size > maxMessageAttributes then
        [overBudgetEvent t.attributes.size c.size]
      else
        match c.keys.find? t.refuses with
        | some name => [refusedEvent name]
        | none => []

/-- Injects what a propagator writes for a context. -/
def injectContext (t : Target) (cx : Context) (p : Propagator) : Outcome × Target :=
  t.inject (Carrier.ofContext p cx)

/-- Injects carriers one after the other: each outcome with the request it leaves. -/
def injectAll (t : Target) : List Carrier → List (Outcome × Target)
  | [] => []
  | c :: cs => t.inject c :: (t.inject c).2.injectAll cs

end Target

end TracePropagation
