import TracePropagation.Messaging.Envelope
import TracePropagation.Proofs.Injection
import TracePropagation.Proofs.JsonText
import Mathlib.Tactic.Set

/-!
# Notification envelopes read back

A topic that delivers to a queue without raw delivery puts the notification, attributes
included, into the message body as JSON (`AttributeMap.envelopeJson`). Reading that body with
`Envelope.ofBody` gives the notification's type, id and topic back, and the attributes in the
object's key order, each with the type and value written for it.

* `Json.Fields.lookup_ofList`, `Json.Fields.sorted_ofList` — an object built from members in
  any order holds a name given once with its value, and holds its names in increasing order;
* `Envelope.attributeMap_written` — the attributes object of a written envelope is read member
  by member, each name after the ones before it;
* `Envelope.ofBody_envelopeJson` — the body of a delivered notification reads back as its
  envelope.
-/

namespace TracePropagation

open Json

/-! ## Objects built from members -/

namespace Json.Fields

theorem mem_insert {k : String} {v : Value} {fs : List (String × Value)} {m : String × Value}
    (h : m ∈ insert k v fs) : m = (k, v) ∨ m ∈ fs := by
  induction fs with
  | nil => simpa [insert] using h
  | cons f rest ih =>
    obtain ⟨k', w⟩ := f
    unfold insert at h
    split_ifs at h
    · simp only [List.mem_cons] at h
      rcases h with h | h
      · exact .inl h
      · exact .inr (List.mem_cons_of_mem _ h)
    · simp only [List.mem_cons] at h
      rcases h with h | h | h
      · exact .inl h
      · exact .inr (h ▸ List.mem_cons_self)
      · exact .inr (List.mem_cons_of_mem _ h)
    · simp only [List.mem_cons] at h
      rcases h with h | h
      · exact .inr (h ▸ List.mem_cons_self)
      · rcases ih h with h | h
        · exact .inl h
        · exact .inr (List.mem_cons_of_mem _ h)

theorem lookup_insert (k k' : String) (v : Value) (fs : List (String × Value)) :
    (insert k v fs).lookup k' = if k' = k then some v else fs.lookup k' := by
  induction fs with
  | nil => simp [insert, lookup_cons_ite]
  | cons f rest ih =>
    obtain ⟨k'', w⟩ := f
    unfold insert
    split_ifs with h1 h2 h3 h4 h5 <;> simp_all [lookup_cons_ite]

/-- Inserting keeps the names in increasing order. -/
theorem sorted_insert (k : String) (v : Value) {fs : List (String × Value)}
    (h : (fs.map (·.1)).Pairwise (· < ·)) : ((insert k v fs).map (·.1)).Pairwise (· < ·) := by
  induction fs with
  | nil => simp [insert]
  | cons f rest ih =>
    obtain ⟨k', w⟩ := f
    have hhead : ∀ m ∈ rest, k' < m.1 := fun m hm =>
      List.rel_of_pairwise_cons h (List.mem_map_of_mem hm)
    have hrest : (rest.map (·.1)).Pairwise (· < ·) := (List.pairwise_cons.mp h).2
    unfold insert
    split_ifs with heq hlt
    · subst heq
      exact h
    · -- the new name goes before a greater one, which is below all the rest
      simp only [List.map_cons, List.pairwise_cons, List.mem_cons, List.mem_map]
      refine ⟨?_, fun _ ⟨m, hm, he⟩ => he ▸ hhead m hm, hrest⟩
      rintro _ (rfl | ⟨m, hm, rfl⟩)
      · exact hlt
      · exact String.lt_trans hlt (hhead m hm)
    · -- a greater name goes into the rest, all of whose names are above the first
      have hgt : k' < k :=
        String.not_le.mp fun hle => heq (String.le_antisymm hle (String.not_lt.mp hlt))
      simp only [List.map_cons, List.pairwise_cons, List.mem_map]
      refine ⟨?_, ih hrest⟩
      rintro _ ⟨m, hm, rfl⟩
      rcases mem_insert hm with rfl | hm
      · exact hgt
      · exact hhead m hm

theorem mem_ofList {ms : List (String × Value)} {m : String × Value} (h : m ∈ ofList ms) :
    m ∈ ms := by
  -- every member of the accumulated object is a member given so far
  have hfold : ∀ (acc : List (String × Value)), (∀ a ∈ acc, a ∈ ms) → ∀ rest, rest ⊆ ms →
      ∀ a ∈ rest.foldl (fun acc m => insert m.1 m.2 acc) acc, a ∈ ms := by
    intro acc hacc rest
    induction rest generalizing acc with
    | nil => exact fun _ => hacc
    | cons r rest ih =>
      intro hsub
      refine ih _ (fun a ha => ?_) (List.subset_of_cons_subset hsub)
      rcases mem_insert ha with rfl | ha
      · exact hsub List.mem_cons_self
      · exact hacc a ha
  exact hfold [] (by simp) ms (List.Subset.refl _) m h

theorem sorted_ofList (ms : List (String × Value)) :
    ((ofList ms).map (·.1)).Pairwise (· < ·) := by
  have hfold : ∀ (acc : List (String × Value)), (acc.map (·.1)).Pairwise (· < ·) →
      ∀ rest : List (String × Value),
        ((rest.foldl (fun acc m => insert m.1 m.2 acc) acc).map (·.1)).Pairwise (· < ·) := by
    intro acc hacc rest
    induction rest generalizing acc with
    | nil => exact hacc
    | cons r rest ih => exact ih _ (sorted_insert _ _ hacc)
  exact hfold [] List.Pairwise.nil ms

theorem lookup_foldl_insert_of_not_mem {k : String} {ms : List (String × Value)}
    (h : k ∉ ms.map (·.1)) (acc : List (String × Value)) :
    (ms.foldl (fun acc m => insert m.1 m.2 acc) acc).lookup k = acc.lookup k := by
  induction ms generalizing acc with
  | nil => rfl
  | cons m rest ih =>
    simp only [List.map_cons, List.mem_cons, not_or] at h
    rw [List.foldl_cons, ih h.2, lookup_insert, if_neg h.1]

/-- **A name given once.** An object built from members in which a name occurs once holds that
name with its value. -/
theorem lookup_ofList {ms : List (String × Value)} {m : String × Value} (hm : m ∈ ms)
    (hcount : (ms.map (·.1)).count m.1 = 1) : (ofList ms).lookup m.1 = some m.2 := by
  suffices h : ∀ acc : List (String × Value),
      (ms.foldl (fun acc m => insert m.1 m.2 acc) acc).lookup m.1 = some m.2 from h []
  induction ms with
  | nil => simp at hm
  | cons m' rest ih =>
    intro acc
    rw [List.foldl_cons]
    by_cases hk : m'.1 = m.1
    · -- the name is given here, so nowhere after
      have hnot : m.1 ∉ rest.map (·.1) := by
        intro hmem
        have hpos := List.count_pos_iff.mpr hmem
        simp only [List.map_cons, List.count_cons, hk, beq_self_eq_true, if_true] at hcount
        omega
      have hsame : m' = m := by
        rcases List.mem_cons.mp hm with h | h
        · exact h.symm
        · exact absurd (List.mem_map_of_mem h) hnot
      rw [lookup_foldl_insert_of_not_mem hnot, lookup_insert, if_pos hk.symm, hsame]
    · have hb : (m'.1 == m.1) = false := beq_eq_false_iff_ne.mpr hk
      have hm' : m ∈ rest := by
        rcases List.mem_cons.mp hm with h | h
        · exact absurd (congrArg Prod.fst h).symm hk
        · exact h
      exact ih hm' (by simpa [List.count_cons, hb] using hcount) _

end Json.Fields

theorem Json.Value.textual_object {ms : List (String × Value)} (h : ∀ m ∈ ms, m.2.Textual) :
    (Value.object ms).Textual :=
  .obj fun m hm => h m (Fields.mem_ofList hm)

/-! ## The envelope as written -/

/-- An attribute as an envelope writes it: its data type, and its string value or `null`. -/
def TypedAttribute.json (a : TypedAttribute) : Value :=
  .object [("Type", .str a.dataType), ("Value", .ofOption a.stringValue)]

/-- The notification envelope in which a topic delivers a message with these attributes to a
queue, as JSON: the notification's type, id, topic and message, and the attributes by name. -/
def AttributeMap.envelopeJson (m : AttributeMap) (type messageId topicArn message : String) :
    Value :=
  .object [("Type", .str type), ("MessageId", .str messageId), ("TopicArn", .str topicArn),
    ("Message", .str message),
    ("MessageAttributes", .object (m.entries.map fun e => (e.1, e.2.json)))]

/-- The attribute an object of an envelope's attributes stands for: its `Type` and `Value`
strings. -/
def EnvelopeAttribute.ofJson (v : Value) : EnvelopeAttribute :=
  ⟨(v.get? "Type").bind Value.asString?, (v.get? "Value").bind Value.asString?⟩

theorem TypedAttribute.json_eq (a : TypedAttribute) :
    a.json = .obj [("Type", .str a.dataType), ("Value", .ofOption a.stringValue)] := by
  have hne : ("Value" : String) ≠ "Type" := by decide
  have hafter : ¬ ("Value" : String) < "Type" := by decide
  simp only [json, Value.object, Fields.ofList, List.foldl, Fields.insert, hne, hafter,
    ↓reduceIte]

@[simp]
theorem EnvelopeAttribute.ofJson_json (a : TypedAttribute) :
    EnvelopeAttribute.ofJson a.json = ⟨some a.dataType, a.stringValue⟩ := by
  cases h : a.stringValue <;>
    simp [ofJson, TypedAttribute.json_eq, Value.get?, lookup_cons_ite, Value.asString?,
      Value.ofOption, h]

theorem TypedAttribute.textual_json (a : TypedAttribute) : a.json.Textual := by
  rw [json_eq]
  refine .obj fun m hm => ?_
  simp only [List.mem_cons, List.not_mem_nil, or_false] at hm
  rcases hm with rfl | rfl
  · exact .str _
  · cases a.stringValue
    · exact .null
    · exact .str _

theorem AttributeMap.textual_envelopeJson (m : AttributeMap) (type messageId topicArn message : String) :
    (m.envelopeJson type messageId topicArn message).Textual := by
  refine Value.textual_object fun f hf => ?_
  simp only [List.mem_cons, List.not_mem_nil, or_false] at hf
  rcases hf with rfl | rfl | rfl | rfl | rfl
  · exact .str _
  · exact .str _
  · exact .str _
  · exact .str _
  · refine Value.textual_object fun e he => ?_
    obtain ⟨e', -, rfl⟩ := List.mem_map.mp he
    exact e'.2.textual_json

/-- The envelope's members in name order, as the writer puts them. -/
theorem AttributeMap.envelopeJson_eq (m : AttributeMap) (type messageId topicArn message : String) :
    m.envelopeJson type messageId topicArn message =
      .obj [("Message", .str message),
        ("MessageAttributes", .obj (Fields.ofList (m.entries.map fun e => (e.1, e.2.json)))),
        ("MessageId", .str messageId), ("TopicArn", .str topicArn), ("Type", .str type)] := by
  set fs := Fields.ofList (m.entries.map fun e => (e.1, e.2.json)) with hfs
  -- the writer inserts the names one at a time; each comparison of two names is settled here
  have h₁ : ("MessageId" : String) < "Type" := by decide
  have h₂ : ¬ ("TopicArn" : String) < "MessageId" := by decide
  have h₃ : ("TopicArn" : String) < "Type" := by decide
  have h₄ : ("Message" : String) < "MessageId" := by decide
  have h₅ : ¬ ("MessageAttributes" : String) < "Message" := by decide
  have h₆ : ("MessageAttributes" : String) < "MessageId" := by decide
  rw [AttributeMap.envelopeJson, Value.object, Value.object, ← hfs]
  simp only [Fields.ofList, List.foldl, Fields.insert, h₁, h₂, h₃, h₄, h₅, h₆, String.reduceEq,
    ↓reduceIte]

/-- The envelope a delivered notification reads as: the given type, id and topic, and the
members of the attributes object in name order, each as the attribute it stands for. -/
def AttributeMap.deliveredEnvelope (m : AttributeMap) (type messageId topicArn : Option String) :
    Envelope :=
  ⟨type, messageId, topicArn,
    some ((Fields.ofList (m.entries.map fun e => (e.1, e.2.json))).map
      fun f => (f.1, EnvelopeAttribute.ofJson f.2)),
    by simpa [Function.comp_def] using Fields.sorted_ofList (m.entries.map fun e => (e.1, e.2.json))⟩

/-! ## Reading the envelope -/

namespace Envelope

theorem optString_escaped (s : String) : optString (.str (escaped s)) = .ok (some s) := by
  simp [optString]

theorem optString_written_ofOption (o : Option String) :
    optString (Value.ofOption o).written = .ok o := by
  cases o <;> simp [optString, Value.written, Value.ofOption]

/-- An attribute object of a written envelope is read as the attribute it stands for. -/
theorem readAttribute_json (a : TypedAttribute) :
    readAttribute a.json.written = .ok (EnvelopeAttribute.ofJson a.json) := by
  rw [EnvelopeAttribute.ofJson_json, TypedAttribute.json_eq]
  simp only [Value.written, Value.writtenMembers, readAttribute, attributeMembers,
    decodeString_escaped, optString_escaped, optString_written_ofOption]
  simp [setOnce]

theorem insertAttribute_of_lt {k : String} {v : EnvelopeAttribute}
    {acc : List (String × EnvelopeAttribute)} (h : ∀ a ∈ acc, a.1 < k) :
    attributeMap.insertAttribute k v acc = acc ++ [(k, v)] := by
  induction acc with
  | nil => rfl
  | cons a rest ih =>
    obtain ⟨k', v'⟩ := a
    have hlt : k' < k := h _ List.mem_cons_self
    rw [attributeMap.insertAttribute, if_neg (String.ne_of_lt hlt).symm,
      if_neg (String.lt_asymm hlt), ih fun a ha => h a (List.mem_cons_of_mem _ ha)]
    rfl

/-- **The attributes object read back.** Members in increasing name order, each an attribute
object, are read one after the other, every name going after the ones read before it. -/
theorem attributeMap_written (fs : List (String × Value)) (acc : List (String × EnvelopeAttribute))
    (hsorted : (fs.map (·.1)).Pairwise (· < ·)) (hacc : ∀ a ∈ acc, ∀ m ∈ fs, a.1 < m.1)
    (hread : ∀ m ∈ fs, readAttribute m.2.written = .ok (EnvelopeAttribute.ofJson m.2)) :
    attributeMap (Value.writtenMembers fs) acc =
      .ok (acc ++ fs.map fun m => (m.1, EnvelopeAttribute.ofJson m.2)) := by
  induction fs generalizing acc with
  | nil => simp [Value.writtenMembers, attributeMap]
  | cons m rest ih =>
    obtain ⟨k, v⟩ := m
    have hfirst : ∀ m ∈ rest, k < m.1 := fun m hm =>
      List.rel_of_pairwise_cons hsorted (List.mem_map_of_mem hm)
    rw [Value.writtenMembers, attributeMap, decodeString_escaped]
    simp only [hread (k, v) List.mem_cons_self]
    rw [insertAttribute_of_lt fun a ha => hacc a ha _ List.mem_cons_self,
      ih _ (List.pairwise_cons.mp hsorted).2 ?_ fun m hm => hread m (List.mem_cons_of_mem _ hm)]
    · simp
    · -- the names read so far, the new one included, stay below the rest
      intro a ha m hm
      rcases List.mem_append.mp ha with ha | ha
      · exact hacc a ha m (List.mem_cons_of_mem _ hm)
      · rw [List.mem_singleton.mp ha]
        exact hfirst m hm

theorem containsText_append (needle t : List Char) : containsText needle (needle ++ t) = true := by
  cases needle with
  | nil => cases t <;> simp [containsText]
  | cons c r => simp [containsText, List.isPrefixOf_iff_prefix]

theorem containsText_of_infix {needle cs : List Char} (h : needle <:+: cs) :
    containsText needle cs = true := by
  obtain ⟨s, t, rfl⟩ := h
  induction s with
  | nil => exact containsText_append needle t
  | cons c s ih =>
    simp only [List.cons_append, containsText, Bool.or_eq_true]
    exact .inr (by simpa [List.append_assoc] using ih)

/-- The text of an object holds the quoted name of each of its members. -/
theorem quote_infix_render {fs : List (String × Value)} {k : String} {v : Value}
    (hm : (k, v) ∈ fs) : (quote k).toList <:+: (Value.obj fs).render.toList := by
  rw [toList_render_obj]
  refine List.IsInfix.trans ?_ (List.infix_cons (List.prefix_append _ _).isInfix)
  induction fs with
  | nil => simp at hm
  | cons f rest ih =>
    obtain ⟨k', v'⟩ := f
    rw [toList_renderMembers_cons]
    rcases List.mem_cons.mp hm with he | hm
    · obtain ⟨rfl, rfl⟩ := Prod.mk.inj he
      rw [toList_quote]
      refine ⟨[], ':' :: (v.render.toList ++
        if rest.isEmpty then [] else ',' :: (renderMembers rest).toList), ?_⟩
      simp
    · -- a later member's text follows a comma
      cases rest with
      | nil => simp at hm
      | cons g more =>
        refine (ih hm).trans ⟨'"' :: escaped k' ++ '"' :: ':' :: v'.render.toList ++ [','], [], ?_⟩
        simp

/-- The cheap test passes on the text of an object that has a `MessageAttributes` member. -/
theorem looksLikeEnvelope_render {fs : List (String × Value)} {v : Value}
    (hm : ("MessageAttributes", v) ∈ fs) : looksLikeEnvelope (Value.obj fs).render = true := by
  have hstart : Text.trimStart (Value.obj fs).render.toList = (Value.obj fs).render.toList := by
    rw [toList_render_obj]
    exact List.dropWhile_cons_of_neg (by decide)
  have hmarker : attributesMarker.toList = (quote "MessageAttributes").toList := by decide
  simp only [looksLikeEnvelope, hstart, Bool.and_eq_true]
  refine ⟨by simp [toList_render_obj], ?_⟩
  rw [hmarker]
  exact containsText_of_infix (quote_infix_render hm)

/-- **The envelope read back.** The body of a notification that a topic delivers to a queue
reads back as its envelope: the type, id and topic it was written with, and the members of the
attributes object in name order, each as the attribute it stands for. -/
theorem ofBody_envelopeJson (m : AttributeMap) (type messageId topicArn message : String) :
    ofBody (m.envelopeJson type messageId topicArn message).render =
      .ok (m.deliveredEnvelope (some type) (some messageId) (some topicArn)) := by
  have hmembers := AttributeMap.envelopeJson_eq m type messageId topicArn message
  set fs := Fields.ofList (m.entries.map fun e => (e.1, e.2.json)) with hfs
  have hlooks : looksLikeEnvelope (m.envelopeJson type messageId topicArn message).render := by
    rw [hmembers]
    exact looksLikeEnvelope_render (v := .obj fs) (by simp)
  have hdoc := Doc.read_render (m.textual_envelopeJson type messageId topicArn message)
  have hattributes : attributeMap (Value.writtenMembers fs) [] =
      .ok (fs.map fun f => (f.1, EnvelopeAttribute.ofJson f.2)) := by
    refine attributeMap_written fs [] (Fields.sorted_ofList _) (by simp) fun f hf => ?_
    obtain ⟨e, -, rfl⟩ := List.mem_map.mp (Fields.mem_ofList hf)
    exact readAttribute_json e.2
  rw [hmembers] at hlooks hdoc ⊢
  rw [Value.written] at hdoc
  -- the five members fill the four slots, the message's text being skipped
  refine @ofBody_of_members _ _ ⟨some (some type), some (some messageId), some (some topicArn),
    some (some (fs.map fun f => (f.1, EnvelopeAttribute.ofJson f.2)))⟩ hlooks hdoc ?_
  simp [Value.written, Value.writtenMembers, members, optString_escaped, setOnce, hattributes,
    bind, Except.bind, Except.map]

end Envelope

end TracePropagation
