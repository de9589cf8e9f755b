import TracePropagation.Messaging.Attributes
import TracePropagation.Json.Reader
import TracePropagation.Text.Blank
import TracePropagation.Telemetry.Span
/-!
# Notification envelopes in message bodies

When a queue receives a topic's notification without raw delivery, the message body is the
notification as JSON, attributes included. `Envelope.ofBody` reads such a body.

A cheap test comes first: the body, less leading blanks, must start with `{`, and its text must
contain `"MessageAttributes"` with the quotes, spelt exactly so. Failing it, the body is no
envelope. Then the body must be one JSON object, read by the skimming dialect, whose members
`Type`, `MessageId`, `TopicArn` are strings or `null` and whose `MessageAttributes` is `null` or
an object of attributes; each attribute is an object with optional string members `Type` and
`Value` (or an array of at most those two, in that order). Any other member is skipped
unchecked. A member named twice in one object is an error, except between attributes, where the
last one counts; so is a name or a read string whose escapes denote no character.

The attributes form a map: an envelope holds each name once, in increasing name order, and
carries that as a proof. The reader puts each attribute at its name's place, and
`Envelope.ofParts` builds an envelope from attributes given in any order.

A body that passes the cheap test and is still no envelope is ignored, with a debug statement
that gives the error; a body that fails the test is ignored silently.
-/

namespace TracePropagation

open TracePropagation.Json

/-- An attribute as written in an envelope. -/
structure EnvelopeAttribute where
  /-- The declared data type. -/
  dataType : Option String
  /-- The value. -/
  value : Option String
  deriving DecidableEq, Repr

/-- The parts of a notification envelope that matter for propagation. -/
structure Envelope where
  /-- The notification type. -/
  type : Option String
  /-- The message id. -/
  messageId : Option String
  /-- The topic the notification came from. -/
  topicArn : Option String
  /-- The attributes by name; `none` when absent or `null`. -/
  attributes : Option (List (String × EnvelopeAttribute))
  /-- Each name once, in increasing name order, as a map holds them. -/
  names_sorted : ((attributes.getD []).map (·.1)).Pairwise (· < ·)
  deriving DecidableEq, Repr

/-- Why a body was not read as an envelope. -/
inductive UnwrapError where
  /-- The body fails the cheap test. -/
  | notAnEnvelope
  /-- The body passes the test but is no well-formed envelope. -/
  | malformed
  deriving DecidableEq, Repr

/-- The wording of each error. -/
def UnwrapError.message : UnwrapError → String
  | .notAnEnvelope => "message body is not an SNS notification envelope"
  | .malformed => "malformed SNS notification envelope"

namespace Envelope

/-- Whether a text occurs in another. -/
def containsText (needle : List Char) : List Char → Bool
  | [] => needle.isEmpty
  | c :: rest => needle.isPrefixOf (c :: rest) || containsText needle rest

/-- The name of the attributes member, with its quotes. -/
def attributesMarker : String := "\"MessageAttributes\""

/-- The cheap test: an object start after the blanks, and the attributes member somewhere. -/
def looksLikeEnvelope (body : String) : Bool :=
  (Text.trimStart body.toList).head? = some '\x7b' &&
    containsText attributesMarker.toList body.toList

/-- A string or `null`. -/
def optString : Doc → Except UnwrapError (Option String)
  | .null => .ok none
  | .str raw =>
    match decodeString raw with
    | some s => .ok (some s)
    | none => .error .malformed
  | _ => .error .malformed

/-- Sets a member that may be given once. -/
def setOnce (slot : Option (Option α)) (v : Option α) : Except UnwrapError (Option (Option α)) :=
  match slot with
  | some _ => .error .malformed
  | none => .ok (some v)

/-- Reads the members of an attribute object into its type and value. -/
def attributeMembers : List (List Char × Doc) → Option (Option String) → Option (Option String) →
    Except UnwrapError EnvelopeAttribute
  | [], ty, val => .ok ⟨ty.join, val.join⟩
  | (k, d) :: rest, ty, val =>
    match decodeString k with
    | none => .error .malformed
    | some name =>
      if name = "Type" then
        match optString d with
        | .error e => .error e
        | .ok v =>
          match setOnce ty v with
          | .error e => .error e
          | .ok ty' => attributeMembers rest ty' val
      else if name = "Value" then
        match optString d with
        | .error e => .error e
        | .ok v =>
          match setOnce val v with
          | .error e => .error e
          | .ok val' => attributeMembers rest ty val'
      else attributeMembers rest ty val

/-- Reads an attribute: an object, or an array of at most the type and the value. -/
def readAttribute : Doc → Except UnwrapError EnvelopeAttribute
  | .obj members => attributeMembers members none none
  | .arr [] => .ok ⟨none, none⟩
  | .arr [t] => (optString t).map fun ty => ⟨ty, none⟩
  | .arr [t, v] => do
    let ty ← optString t
    let val ← optString v
    pure ⟨ty, val⟩
  | _ => .error .malformed

/-- Reads the attributes object; a repeated name keeps its last attribute. -/
def attributeMap : List (List Char × Doc) → List (String × EnvelopeAttribute) →
    Except UnwrapError (List (String × EnvelopeAttribute))
  | [], acc => .ok acc
  | (k, d) :: rest, acc =>
    match decodeString k with
    | none => .error .malformed
    | some name =>
      match readAttribute d with
      | .error e => .error e
      | .ok a => attributeMap rest (insertAttribute name a acc)
where
  /-- Puts an attribute at its name's place, replacing one of the same name. -/
  insertAttribute (k : String) (v : EnvelopeAttribute) :
      List (String × EnvelopeAttribute) → List (String × EnvelopeAttribute)
    | [] => [(k, v)]
    | (k', v') :: rest =>
      if k = k' then (k, v) :: rest
      else if k < k' then (k, v) :: (k', v') :: rest
      else (k', v') :: insertAttribute k v rest

theorem mem_insertAttribute {k : String} {v : EnvelopeAttribute}
    {acc : List (String × EnvelopeAttribute)} {m : String × EnvelopeAttribute}
    (h : m ∈ attributeMap.insertAttribute k v acc) : m = (k, v) ∨ m ∈ acc := by
  induction acc with
  | nil => simpa [attributeMap.insertAttribute] using h
  | cons a rest ih =>
    obtain ⟨k', v'⟩ := a
    rw [attributeMap.insertAttribute] at h
    by_cases heq : k = k'
    · rw [if_pos heq] at h
      simp only [List.mem_cons] at h ⊢
      grind
    · rw [if_neg heq] at h
      by_cases hlt : k < k'
      · rw [if_pos hlt] at h
        simpa only [List.mem_cons] using h
      · rw [if_neg hlt] at h
        simp only [List.mem_cons] at h ⊢
        grind

/-- Putting an attribute into name-ordered attributes keeps them in name order. -/
theorem sorted_insertAttribute (k : String) (v : EnvelopeAttribute)
    {acc : List (String × EnvelopeAttribute)} (h : (acc.map (·.1)).Pairwise (· < ·)) :
    ((attributeMap.insertAttribute k v acc).map (·.1)).Pairwise (· < ·) := by
  induction acc with
  | nil => simp [attributeMap.insertAttribute]
  | cons a rest ih =>
    obtain ⟨k', v'⟩ := a
    have hhead : ∀ m ∈ rest, k' < m.1 := fun m hm =>
      List.rel_of_pairwise_cons h (List.mem_map_of_mem hm)
    have hrest : (rest.map (·.1)).Pairwise (· < ·) := (List.pairwise_cons.mp h).2
    rw [attributeMap.insertAttribute]
    by_cases heq : k = k'
    · rw [if_pos heq]
      subst heq
      exact h
    rw [if_neg heq]
    by_cases hlt : k < k'
    · -- the new name goes before a greater one, which is below all the rest
      rw [if_pos hlt]
      simp only [List.map_cons, List.pairwise_cons, List.mem_cons, List.mem_map]
      refine ⟨?_, ?_, hrest⟩
      · rintro _ (rfl | ⟨m, hm, rfl⟩)
        · exact hlt
        · exact String.lt_trans hlt (hhead m hm)
      · rintro _ ⟨m, hm, rfl⟩
        exact hhead m hm
    · -- a greater name goes into the rest, all of whose names are above the first
      rw [if_neg hlt]
      have hgt : k' < k :=
        String.not_le.mp fun hle => heq (String.le_antisymm hle (String.not_lt.mp hlt))
      simp only [List.map_cons, List.pairwise_cons, List.mem_map]
      refine ⟨?_, ih hrest⟩
      rintro _ ⟨m, hm, rfl⟩
      rcases mem_insertAttribute hm with rfl | hm'
      · exact hgt
      · exact hhead _ hm'

/-- The attributes object is read in name order, whatever order its members stand in. -/
theorem sorted_attributeMap {ds : List (List Char × Doc)}
    {acc L : List (String × EnvelopeAttribute)} (h : attributeMap ds acc = .ok L)
    (hacc : (acc.map (·.1)).Pairwise (· < ·)) : (L.map (·.1)).Pairwise (· < ·) := by
  induction ds generalizing acc with
  | nil =>
    obtain rfl : acc = L := by simpa [attributeMap] using h
    exact hacc
  | cons d rest ih =>
    obtain ⟨k, doc⟩ := d
    rw [attributeMap] at h
    cases hk : decodeString k with
    | none => simp [hk] at h
    | some name =>
      cases ha : readAttribute doc with
      | error err => simp [hk, ha] at h
      | ok a =>
        simp only [hk, ha] at h
        exact ih h (sorted_insertAttribute name a hacc)

/-- Attributes put in name order, as a map holds them: a name given twice keeps its last
attribute. -/
def orderAttributes (pairs : List (String × EnvelopeAttribute)) :
    List (String × EnvelopeAttribute) :=
  pairs.foldl (fun acc kv => attributeMap.insertAttribute kv.1 kv.2 acc) []

theorem sorted_orderAttributes (pairs : List (String × EnvelopeAttribute)) :
    ((orderAttributes pairs).map (·.1)).Pairwise (· < ·) := by
  suffices ∀ acc : List (String × EnvelopeAttribute), (acc.map (·.1)).Pairwise (· < ·) →
      ((pairs.foldl (fun acc kv => attributeMap.insertAttribute kv.1 kv.2 acc) acc).map
        (·.1)).Pairwise (· < ·) from this [] List.Pairwise.nil
  induction pairs with
  | nil => exact fun _ h => h
  | cons kv rest ih => exact fun acc h => ih _ (sorted_insertAttribute kv.1 kv.2 h)

theorem sorted_map_orderAttributes (attributes : Option (List (String × EnvelopeAttribute))) :
    (((attributes.map orderAttributes).getD []).map (·.1)).Pairwise (· < ·) := by
  cases attributes with
  | none => exact List.Pairwise.nil
  | some pairs => exact sorted_orderAttributes pairs

/-- The envelope of these parts, its attributes put in name order. -/
def ofParts (type messageId topicArn : Option String)
    (attributes : Option (List (String × EnvelopeAttribute))) : Envelope :=
  ⟨type, messageId, topicArn, attributes.map orderAttributes,
    sorted_map_orderAttributes attributes⟩

/-- The envelope members read so far; `none` for a member not yet seen. -/
structure Slots where
  /-- `Type`. -/
  type : Option (Option String) := none
  /-- `MessageId`. -/
  messageId : Option (Option String) := none
  /-- `TopicArn`. -/
  topicArn : Option (Option String) := none
  /-- `MessageAttributes`. -/
  attributes : Option (Option (List (String × EnvelopeAttribute))) := none

/-- Reads the members of the envelope object in order. -/
def members : List (List Char × Doc) → Slots → Except UnwrapError Slots
  | [], s => .ok s
  | (k, d) :: rest, s =>
    match decodeString k with
    | none => .error .malformed
    | some name =>
      if name = "Type" then
        match optString d >>= setOnce s.type with
        | .ok v => members rest { s with type := v }
        | .error e => .error e
      else if name = "MessageId" then
        match optString d >>= setOnce s.messageId with
        | .ok v => members rest { s with messageId := v }
        | .error e => .error e
      else if name = "TopicArn" then
        match optString d >>= setOnce s.topicArn with
        | .ok v => members rest { s with topicArn := v }
        | .error e => .error e
      else if name = "MessageAttributes" then
        let read : Except UnwrapError (Option (List (String × EnvelopeAttribute))) :=
          match d with
          | .null => .ok none
          | .obj ms => (attributeMap ms []).map some
          | _ => .error .malformed
        match read >>= setOnce s.attributes with
        | .ok v => members rest { s with attributes := v }
        | .error e => .error e
      else members rest s

/-- A member read and then set once gives the value read. -/
theorem bind_setOnce_ok {α : Type} {x : Except UnwrapError (Option α)}
    {slot : Option (Option α)} {r : Option (Option α)} (h : (x >>= setOnce slot) = .ok r) :
    ∃ a, x = .ok a ∧ r = some a := by
  cases hx : x with
  | error e => rw [hx] at h; cases h
  | ok a =>
    rw [hx] at h
    refine ⟨a, rfl, ?_⟩
    unfold setOnce at h
    split at h
    · cases h
    · exact (Except.ok.inj h).symm

/-- The attributes the members are read into stay in name order. -/
theorem members_sorted {ms : List (List Char × Doc)} {s s' : Slots} (h : members ms s = .ok s')
    (hs : ((s.attributes.join.getD []).map (·.1)).Pairwise (· < ·)) :
    ((s'.attributes.join.getD []).map (·.1)).Pairwise (· < ·) := by
  fun_induction members ms s with
  | case1 => rw [← Except.ok.inj h]; exact hs
  | case2 | case4 | case6 | case8 | case10 => cases h
  | case3 | case5 | case7 | case11 => exact ‹_ → _ → _› h hs
  | case9 k d rest s read v hset _ _ _ _ ih =>
    refine ih h ?_
    -- the attributes object is `null`, or read in name order
    obtain ⟨a, hread, rfl⟩ := bind_setOnce_ok hset
    simp only [read] at hread
    split at hread
    · cases hread
      exact List.Pairwise.nil
    · next ms =>
      cases hmap : attributeMap ms [] with
      | error e => rw [hmap] at hread; cases hread
      | ok L =>
        rw [hmap] at hread
        cases hread
        exact sorted_attributeMap hmap List.Pairwise.nil
    · cases hread

/-- Reads a message body as an envelope. -/
def ofBody (body : String) : Except UnwrapError Envelope :=
  if !looksLikeEnvelope body then .error .notAnEnvelope
  else
    match Doc.read .skim body.toList with
    | .ok (.obj ms) =>
      match h : members ms {} with
      | .ok s => .ok ⟨s.type.join, s.messageId.join, s.topicArn.join, s.attributes.join,
          members_sorted h List.Pairwise.nil⟩
      | .error e => .error e
    | _ => .error .malformed

/-- The envelope read from a body that passes the cheap test and holds an object whose members
read as `s`. -/
theorem ofBody_of_members {body : String} {ms : List (List Char × Doc)} {s : Slots}
    (hlooks : looksLikeEnvelope body = true) (hread : Doc.read .skim body.toList = .ok (.obj ms))
    (hs : members ms {} = .ok s) :
    ofBody body = .ok ⟨s.type.join, s.messageId.join, s.topicArn.join, s.attributes.join,
      members_sorted hs List.Pairwise.nil⟩ := by
  unfold ofBody
  rw [if_neg (by simp [hlooks])]
  split
  · next ms' hread' =>
    rw [hread] at hread'
    cases hread'
    split
    · next s' hs' =>
      rw [hs] at hs'
      cases hs'
      rfl
    · next e hs' =>
      rw [hs] at hs'
      cases hs'
  · next hother => exact absurd hread (hother ms)

/-- The envelope in a body, if it holds a well-formed one. -/
def tryUnwrap (body : String) : Option Envelope :=
  (ofBody body).toOption

/-- The debug statement for a body that is ignored although it looked like an envelope. -/
def ignoredEvent (e : UnwrapError) : SpanEvent :=
  .logged .debug messagingTarget "Ignoring SQS body that looked like an SNS notification"
    [Attribute.text "error" e.message]

/-- The log statements of looking for an envelope in a body. -/
def unwrapLog (body : String) : List SpanEvent :=
  match ofBody body with
  | .error .notAnEnvelope => []
  | .error e => [ignoredEvent e]
  | .ok _ => []

/-- The attributes as a propagator reads them: topic attributes, a missing type counting as
the empty one. -/
def received (e : Envelope) : ReceivedAttributes :=
  ⟨(e.attributes.getD []).map fun (n, a) => (n, decodeTopicValues (a.dataType.getD "") a.value)⟩

end Envelope

end TracePropagation
