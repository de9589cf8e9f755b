import TracePropagation.Proofs.NotificationBody

/-!
# Envelopes read back whole

An envelope is written as one JSON object with four members in a fixed order: its type,
message id and topic, each a string or `null`, and its attributes, `null` when there are none
and otherwise an object with one member per attribute, in whatever order the map yields them,
each an object of its type and its value, strings or `null`. Whatever blanks the writer puts
between the tokens and before the object, reading the text back gives the envelope itself.

* `EnvelopeAttribute.writtenDoc`, `Envelope.writtenDoc` — the documents a writer lays out;
* `Envelope.attributeMap_writtenDoc` — the attributes object is read in name order
  (`Envelope.sorted_attributeMap`), so a written map, in any order, is read as the list it came
  from, which an envelope holds in name order;
* `Envelope.ofBody_writtenDoc` — every layout of a written envelope reads back as the envelope.
-/

namespace TracePropagation

open Json

/-- A string or `null`, as a writer spells it. -/
def Json.optionDoc (o : Option String) : Doc :=
  o.elim .null fun s => .str (escaped s)

namespace EnvelopeAttribute

/-- An attribute as written: its type, then its value, each a string or `null`. -/
def writtenDoc (a : EnvelopeAttribute) : Doc :=
  .obj [(escaped "Type", optionDoc a.dataType), (escaped "Value", optionDoc a.value)]

end EnvelopeAttribute

namespace Envelope

/-- The members of a written envelope, by name: the type, the message id, the topic, and the
attributes in the order `order` yields them, or `null` when there are none. -/
def writtenFields (e : Envelope) (order : List (String × EnvelopeAttribute)) :
    List (String × Doc) :=
  [("Type", optionDoc e.type), ("MessageId", optionDoc e.messageId),
    ("TopicArn", optionDoc e.topicArn),
    ("MessageAttributes",
      e.attributes.elim .null fun _ => .obj (order.map fun a => (escaped a.1, a.2.writtenDoc)))]

/-- The document a writer lays out for an envelope whose attributes it yields in `order`. -/
def writtenDoc (e : Envelope) (order : List (String × EnvelopeAttribute)) : Doc :=
  .obj ((e.writtenFields order).map fun f => (escaped f.1, f.2))

/-! ## Reading the written members -/

theorem readAttribute_writtenDoc (a : EnvelopeAttribute) :
    readAttribute a.writtenDoc = .ok a := by
  have hne : ("Value" : String) ≠ "Type" := by decide
  simp [EnvelopeAttribute.writtenDoc, readAttribute, attributeMembers, optionDoc, optString_elim,
    setOnce, hne]

theorem forall₂_writtenDoc (order : List (String × EnvelopeAttribute)) :
    List.Forall₂ (fun a d => d.1 = escaped a.1 ∧ readAttribute d.2 = .ok a.2) order
      (order.map fun a => (escaped a.1, a.2.writtenDoc)) := by
  induction order with
  | nil => exact .nil
  | cons a rest ih => exact .cons ⟨rfl, readAttribute_writtenDoc a.2⟩ ih

/-- **A written map read back.** The members written for attributes in name order, in any
order, are read as those attributes. -/
theorem attributeMap_writtenDoc {attrs order : List (String × EnvelopeAttribute)}
    (hsorted : (attrs.map (·.1)).Pairwise (· < ·)) (horder : order.Perm attrs) :
    attributeMap (order.map fun a => (escaped a.1, a.2.writtenDoc)) [] = .ok attrs := by
  have hnodup : (([] : List (String × EnvelopeAttribute)).map (·.1) ++ order.map (·.1)).Nodup := by
    have hattrs : (attrs.map (·.1)).Nodup := hsorted.imp String.ne_of_lt
    simpa using (horder.map (·.1)).nodup_iff.mpr hattrs
  obtain ⟨L, hL, hperm⟩ := attributeMap_of_reads (forall₂_writtenDoc order) [] hnodup
  -- the list read and the list written are both in name order, with the same members
  have hLsorted : L.Pairwise fun a b => a.1 < b.1 :=
    List.pairwise_map.mp (sorted_attributeMap hL List.Pairwise.nil)
  have hsame : L = attrs :=
    List.Perm.eq_of_pairwise (fun a b _ _ hab hba => absurd hba (String.lt_asymm hab)) hLsorted
      (List.pairwise_map.mp hsorted) (hperm.trans (by simpa using horder))
  rw [hL, hsame]

theorem optString_optionDoc (o : Option String) : optString (optionDoc o) = .ok o :=
  optString_elim o

/-- The four members of a written envelope are read, each once, as the envelope's type, id,
topic and attributes. -/
theorem members_writtenFields {e : Envelope}
    {order : List (String × EnvelopeAttribute)} (horder : order.Perm (e.attributes.getD [])) :
    members ((e.writtenFields order).map fun f => (escaped f.1, f.2)) {} =
      .ok ⟨some e.type, some e.messageId, some e.topicArn, some e.attributes⟩ := by
  have h₁ : ("MessageId" : String) ≠ "Type" := by decide
  have h₂ : ("TopicArn" : String) ≠ "Type" := by decide
  have h₃ : ("TopicArn" : String) ≠ "MessageId" := by decide
  have h₄ : ("MessageAttributes" : String) ≠ "Type" := by decide
  have h₅ : ("MessageAttributes" : String) ≠ "MessageId" := by decide
  have h₆ : ("MessageAttributes" : String) ≠ "TopicArn" := by decide
  obtain ⟨type, messageId, topicArn, attributes, hsorted⟩ := e
  -- the attributes member is `null`, or the written map read back in name order
  cases attributes with
  | none =>
    simp only [writtenFields, List.map_cons, List.map_nil, members, decodeString_escaped,
      optString_optionDoc, h₁, h₂, h₃, h₄, h₅, h₆, if_true, if_false, Option.elim_none, setOnce,
      bind, Except.bind]
  | some attrs =>
    have hattrs : attributeMap (order.map fun a => (escaped a.1, a.2.writtenDoc)) [] = .ok attrs :=
      attributeMap_writtenDoc hsorted horder
    simp only [writtenFields, List.map_cons, List.map_nil, members, decodeString_escaped,
      optString_optionDoc, h₁, h₂, h₃, h₄, h₅, h₆, if_true, if_false, Option.elim_some, hattrs,
      Except.map, setOnce, bind, Except.bind]

/-- **The envelope read back.** Every layout of a written envelope, whatever order the writer
yields its attributes in and whatever blanks stand before, between and after its tokens, passes
the cheap test and is read as the envelope itself. -/
theorem ofBody_writtenDoc {e : Envelope}
    {order : List (String × EnvelopeAttribute)} (horder : order.Perm (e.attributes.getD []))
    {text trailing : List Char} (hlaid : Laid (e.writtenDoc order) text)
    (htrailing : Blank trailing) :
    ofBody (String.ofList (text ++ trailing)) = .ok e ∧
      tryUnwrap (String.ofList (text ++ trailing)) = some e := by
  have hread : Doc.read .skim (String.ofList (text ++ trailing)).toList =
      .ok (e.writtenDoc order) := by
    rw [String.toList_ofList]
    exact Doc.read_laid hlaid htrailing
  have hlooks : looksLikeEnvelope (String.ofList (text ++ trailing)) = true :=
    looksLikeEnvelope_laid hlaid (by simp [writtenFields]) trailing
  have hbody : ofBody (String.ofList (text ++ trailing)) = .ok e :=
    ofBody_of_members hlooks hread (members_writtenFields horder)
  exact ⟨hbody, by rw [tryUnwrap, hbody]; rfl⟩

/-- A notification with one attribute, printed with no blanks, reads back as itself. -/
theorem ofBody_compact_notification :
    let e : Envelope := ⟨some "Notification", some "id", some "arn",
      some [("k", ⟨some "String", some "v"⟩)], List.pairwise_singleton _ _⟩
    let text := ("\x7b\"Type\":\"Notification\",\"MessageId\":\"id\",\"TopicArn\":\"arn\"," ++
      "\"MessageAttributes\":\x7b\"k\":\x7b\"Type\":\"String\",\"Value\":\"v\"\x7d\x7d\x7d").toList
    Laid (e.writtenDoc (e.attributes.getD [])) text ∧
      ofBody (String.ofList text) = .ok e ∧ tryUnwrap (String.ofList text) = some e := by
  intro e text
  have hnone : Blank [] := fun _ h => by cases h
  -- a member whose value is a string, with no blanks anywhere
  let str : String → String → LaidMember := fun k v =>
    ⟨[], escaped k, [], .str (escaped v), [] ++ '"' :: (escaped v ++ ['"']), []⟩
  have hstr : ∀ k v, (str k v).Spaced ∧ Laid (str k v).doc (str k v).text := fun k v =>
    ⟨⟨hnone, stringBody_escaped k, hnone, hnone⟩, Laid.str hnone (stringBody_escaped v)⟩
  have hall : ∀ ms : List LaidMember, (∀ m ∈ ms, m.Spaced ∧ Laid m.doc m.text) →
      (∀ m ∈ ms, m.Spaced) ∧ ∀ m ∈ ms, Laid m.doc m.text := fun _ h =>
    ⟨fun m hm => (h m hm).1, fun m hm => (h m hm).2⟩
  -- the attribute, the attributes object and the envelope, innermost first
  let member : LaidMember := ⟨[], escaped "k", [],
    .obj ([str "Type" "String", str "Value" "v"].map fun m => (m.key, m.doc)),
    [] ++ '\x7b' :: ((str "Type" "String").layout ++ LaidMember.following [str "Value" "v"] ++
      ['\x7d']), []⟩
  have hmember : member.Spaced ∧ Laid member.doc member.text := by
    refine ⟨⟨hnone, stringBody_escaped _, hnone, hnone⟩, ?_⟩
    obtain ⟨hs, hv⟩ := hall [str "Type" "String", str "Value" "v"] (by simp [hstr])
    exact Laid.obj _ _ hnone hs hv
  let attributes : LaidMember := ⟨[], escaped "MessageAttributes", [],
    .obj ([member].map fun m => (m.key, m.doc)),
    [] ++ '\x7b' :: (member.layout ++ LaidMember.following [] ++ ['\x7d']), []⟩
  have hattributes : attributes.Spaced ∧ Laid attributes.doc attributes.text := by
    refine ⟨⟨hnone, stringBody_escaped _, hnone, hnone⟩, ?_⟩
    obtain ⟨hs, hv⟩ := hall [member] (by simp [hmember])
    exact Laid.obj _ _ hnone hs hv
  have hlaid : Laid (e.writtenDoc (e.attributes.getD [])) text := by
    obtain ⟨hs, hv⟩ := hall
      [str "Type" "Notification", str "MessageId" "id", str "TopicArn" "arn", attributes]
      (by simp [hstr, hattributes])
    -- the writer's document is the one laid out; the text is its layout spelled out
    convert Laid.obj _ _ hnone hs hv using 1
    · rfl
    · decide +kernel
  have hread := ofBody_writtenDoc (List.Perm.refl _) hlaid hnone
  rw [List.append_nil] at hread
  exact ⟨hlaid, hread⟩

end Envelope

end TracePropagation
