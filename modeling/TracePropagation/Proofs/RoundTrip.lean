import TracePropagation.Messaging.Events
import TracePropagation.Proofs.Consistency
import TracePropagation.Proofs.EnvelopeText
import TracePropagation.Proofs.TraceHeaders

/-!
# From the producer's request to the consumer's context

The trace-context propagator writes a span context into an outgoing request; the message then
reaches a consumer by one of three ways, and the consumer reads a context from what it got:

* a queue delivers the request's typed map as the message's attributes
  (`AttributeMap.queueAttributes`);
* a topic delivers it as the notification's attributes (`AttributeMap.topicAttributes`);
* a topic subscribed by a queue delivers a queue message without attributes whose body is the
  notification envelope (`AttributeMap.envelopeJson`).

Each way keeps every string attribute given once, with its value, and adds no name
(`ReceivedAttributes.Carries`). The consumer then reads the span context back as received,
remote and with only its sampled flag (`Target.extract_after_inject`), unless the trace state is
empty: the propagator then writes no `tracestate`, and an attribute the request already had
under that name, in any case of its letters, is read as the trace state instead
(`Target.extract_reads_request_tracestate`).
-/

namespace TracePropagation

open Text

/-! ## Association lists -/

theorem lookup_map_snd {β γ : Type} (f : β → γ) (k : String) (l : List (String × β)) :
    (l.map fun e => (e.1, f e.2)).lookup k = (l.lookup k).map f := by
  induction l with
  | nil => rfl
  | cons e rest ih =>
    obtain ⟨k', b⟩ := e
    simp only [List.map_cons, lookup_cons_ite, ih]
    split_ifs <;> rfl

theorem mem_keys_of_lookup {β : Type} {l : List (String × β)} {k : String} {b : β}
    (h : l.lookup k = some b) : k ∈ l.map (·.1) := by
  by_contra hk
  rw [lookup_eq_none_of_not_mem hk] at h
  cases h

theorem Text.eqIgnoreAsciiCase_self (k : String) : eqIgnoreAsciiCase k k = true := by
  simp [eqIgnoreAsciiCase]

/-! ## What a consumer reads -/

namespace ReceivedAttributes

/-- The joined texts, with the names of the entries they come from. -/
theorem joined_eq (a : ReceivedAttributes) :
    a.joined = a.entries.filterMap fun e =>
      (a.lookup e.1).bind fun vs => if vs.isEmpty then none else some (e.1, ",".intercalate vs) := by
  unfold joined
  congr 1
  funext e
  obtain ⟨name, v⟩ := e
  rcases hname : a.lookup name with _ | vs <;> simp [hname]

theorem names_of_mem_joined {a : ReceivedAttributes} {x : String × String} (h : x ∈ a.joined) :
    x.1 ∈ a.names := by
  rw [joined_eq] at h
  obtain ⟨e, he, hx⟩ := List.mem_filterMap.mp h
  obtain ⟨vs, -, hvs⟩ := Option.bind_eq_some_iff.mp hx
  split at hvs
  · cases hvs
  · cases hvs
    exact List.mem_map_of_mem he

theorem lookup_of_entries {a : ReceivedAttributes} {k : String} {vs : List String}
    (h : a.entries.lookup k = some (some vs)) : a.lookup k = some vs := by
  simp [lookup, findIgnoreCase, h]

/-- Joining keeps a name whose values are not empty, with their joined text, wherever the
name stands among the entries. -/
theorem lookup_join_of_mem {a : ReceivedAttributes} {k : String} {vs : List String}
    (hlookup : a.lookup k = some vs) (hne : vs ≠ []) {l : List (String × Option (List String))}
    (hl : k ∈ l.map (·.1)) :
    (l.filterMap fun e => (a.lookup e.1).bind fun vs =>
      if vs.isEmpty then none else some (e.1, ",".intercalate vs)).lookup k =
      some (",".intercalate vs) := by
  induction l with
  | nil => simp at hl
  | cons e rest ih =>
    obtain ⟨name, v⟩ := e
    by_cases hk : name = k
    · subst hk
      simp [hlookup, hne]
    · -- another name: joined or dropped, it is not the one looked up
      have hrest : k ∈ rest.map (·.1) := by
        simpa [Ne.symm hk] using hl
      rw [List.filterMap_cons]
      rcases hname : a.lookup name with _ | ws
      · simpa [hname] using ih hrest
      · by_cases hws : ws = []
        · simpa [hname, hws] using ih hrest
        · have hws' : ws.isEmpty = false := by simpa using hws
          simp only [Option.bind_some, hws', Bool.false_eq_true, if_false]
          rw [lookup_cons_ite, if_neg (Ne.symm hk), ih hrest]

/-- **Reading a header.** A name whose exact entry has values is read as the values joined by
commas. -/
theorem get?_of_lookup {a : ReceivedAttributes} {k : String} {vs : List String}
    (h : a.entries.lookup k = some (some vs)) (hne : vs ≠ []) :
    a.get? k = some (",".intercalate vs) := by
  simp only [get?, findIgnoreCase, joined_eq,
    lookup_join_of_mem (lookup_of_entries h) hne (mem_keys_of_lookup h)]

/-- A name that no attribute has, in any case of its letters, is not read at all. -/
theorem get?_eq_none {a : ReceivedAttributes} {k : String}
    (h : ∀ n ∈ a.names, eqIgnoreAsciiCase n k = false) : a.get? k = none := by
  have hnot : k ∉ a.joined.map (·.1) := by
    intro hk
    obtain ⟨x, hx, rfl⟩ := List.mem_map.mp hk
    have := h _ (names_of_mem_joined hx)
    rw [eqIgnoreAsciiCase_self] at this
    cases this
  have hfind : a.joined.find? (fun e => eqIgnoreAsciiCase e.1 k) = none := by
    rw [List.find?_eq_none]
    intro x hx
    simp [h _ (names_of_mem_joined hx)]
  simp [get?, findIgnoreCase, lookup_eq_none_of_not_mem hnot, hfind]

/-- What a consumer's view of a message's attributes keeps of the request's typed map: every
string attribute whose name is given once, with its value as the one value, and no name that
the map lacks. -/
structure Carries (a : ReceivedAttributes) (m : AttributeMap) : Prop where
  /-- A string attribute given once is read with its value. -/
  string : ∀ k v, m.entries.lookup k = some ⟨dataTypeString, some v⟩ → m.names.count k = 1 →
    a.entries.lookup k = some (some [v])
  /-- Every name comes from the map. -/
  names : ∀ n ∈ a.names, n ∈ m.names

/-- A view made of the map's entries, each attribute read by a function that reads a string
attribute as its one value, carries the map. -/
theorem Carries.of_map {a : ReceivedAttributes} {m : AttributeMap}
    (values : TypedAttribute → Option (List String))
    (hentries : a.entries = m.entries.map fun e => (e.1, values e.2))
    (hstring : ∀ v, values ⟨dataTypeString, some v⟩ = some [v]) : a.Carries m := by
  constructor
  · intro k v hk _
    rw [hentries, lookup_map_snd values, hk, Option.map_some, hstring]
  · intro n hn
    simpa [ReceivedAttributes.names, hentries, AttributeMap.names] using hn

end ReceivedAttributes

/-! ## The request after an injection -/

namespace Target

/-- After an injection that writes, the request's map is the carrier's pairs as string
attributes together with the attributes it had, whose names the carrier's keys avoid. -/
theorem attributes_of_injected {t : Target} {c : Carrier}
    (h : (t.inject c).1.isInjected = true) :
    (t.inject c).2.attributes.entries.Perm
        (c.entries.map (fun kv => (kv.1, (⟨dataTypeString, some kv.2⟩ : TypedAttribute))) ++
          t.attributes.entries) ∧
      ∀ k ∈ c.keys, k ∉ t.attributes.names := by
  rcases inject_cases t c with ⟨-, hno⟩ | ⟨-, hfresh, -, -, hinj⟩
  · rw [hno] at h
    cases h
  · rw [hinj]
    exact ⟨appendFrom_entries_perm _ _ c.nodup_keys fun kv hkv => hfresh _ (List.mem_map_of_mem hkv),
      hfresh⟩

/-- After an injection that writes, each pair of the carrier is a string attribute of the
request, under a name the request holds once. -/
theorem lookup_of_injected {t : Target} {c : Carrier}
    (h : (t.inject c).1.isInjected = true) {k v : String} (hkv : (k, v) ∈ c.entries) :
    (t.inject c).2.attributes.entries.lookup k = some ⟨dataTypeString, some v⟩ ∧
      (t.inject c).2.attributes.names.count k = 1 := by
  obtain ⟨hperm, hfresh⟩ := attributes_of_injected h
  have hk : k ∈ c.keys := List.mem_map_of_mem (f := (·.1)) hkv
  -- the key occurs once among the carrier's keys and not among the old names
  have hcount : (t.inject c).2.attributes.names.count k = 1 := by
    have hnames : (t.inject c).2.attributes.names.Perm (c.keys ++ t.attributes.names) := by
      simpa [AttributeMap.names, Carrier.keys, Function.comp_def] using hperm.map (·.1)
    rw [hnames.count_eq, List.count_append, c.nodup_keys.count, if_pos hk,
      List.count_eq_zero_of_not_mem (hfresh k hk)]
  have hmem : (k, (⟨dataTypeString, some v⟩ : TypedAttribute)) ∈
      (t.inject c).2.attributes.entries :=
    hperm.mem_iff.mpr (List.mem_append_left _ (List.mem_map_of_mem (f := fun kv =>
      (kv.1, (⟨dataTypeString, some kv.2⟩ : TypedAttribute))) hkv))
  exact ⟨lookup_of_count_eq_one hmem hcount, hcount⟩

/-- After an injection, every name of the request is a carrier key or an old name. -/
theorem names_of_injected {t : Target} {c : Carrier}
    (h : (t.inject c).1.isInjected = true) {n : String}
    (hn : n ∈ (t.inject c).2.attributes.names) : n ∈ c.keys ∨ n ∈ t.attributes.names := by
  obtain ⟨hperm, -⟩ := attributes_of_injected h
  obtain ⟨e, he, rfl⟩ := List.mem_map.mp hn
  rcases List.mem_append.mp (hperm.mem_iff.mp he) with he | he
  · obtain ⟨kv, hkv, rfl⟩ := List.mem_map.mp he
    exact .inl (List.mem_map_of_mem hkv)
  · exact .inr (List.mem_map_of_mem he)

end Target

/-- **What the trace-context propagator leaves in the request.** After an injection that writes
a valid span context, the request holds the `traceparent` text once; it holds the trace state's
header once if the state is not empty, and otherwise no new name but `traceparent`. -/
theorem Target.traceContext_injected {t : Target} {cx : Context} (hvalid : cx.spanContext.isValid)
    (hinj : (t.injectContext cx .traceContext).1.isInjected = true) :
    let m := (t.injectContext cx .traceContext).2.attributes
    m.entries.lookup TraceContext.parentHeader =
        some ⟨dataTypeString, some (TraceContext.renderParent cx.spanContext)⟩ ∧
      m.names.count TraceContext.parentHeader = 1 ∧
      (cx.spanContext.state ≠ .empty →
        m.entries.lookup TraceContext.stateHeader =
            some ⟨dataTypeString, some cx.spanContext.state.header⟩ ∧
          m.names.count TraceContext.stateHeader = 1) ∧
      (cx.spanContext.state = .empty →
        ∀ n ∈ m.names, n = TraceContext.parentHeader ∨ n ∈ t.attributes.names) := by
  intro m
  have hentries := Carrier.ofContext_traceContext hvalid
  have hparent := lookup_of_injected hinj (k := TraceContext.parentHeader)
    (v := TraceContext.renderParent cx.spanContext) (by rw [hentries]; exact List.mem_cons_self)
  refine ⟨hparent.1, hparent.2, fun hne => ?_, fun hempty n hn => ?_⟩
  · -- a state that is not empty has a header that is not empty, and the carrier holds it
    have hheader : cx.spanContext.state.header.isEmpty = false :=
      Bool.eq_false_iff.mpr fun h => hne ((TraceState.header_isEmpty_iff _).mp h)
    exact lookup_of_injected hinj (by rw [hentries, hheader]; simp)
  · -- an empty state leaves `traceparent` as the carrier's only key
    have hheader : cx.spanContext.state.header.isEmpty = true :=
      (TraceState.header_isEmpty_iff _).mpr hempty
    rcases names_of_injected hinj hn with hkey | hold
    · left
      simpa [Carrier.keys, hentries, hheader] using hkey
    · exact .inr hold

/-! ## Delivery -/

/-- The typed map as a queue delivers it: each attribute with its string value and data type. -/
def AttributeMap.queueAttributes (m : AttributeMap) : List (String × QueueAttribute) :=
  m.entries.map fun e => (e.1, ⟨e.2.stringValue, [], some e.2.dataType⟩)

/-- The typed map as a topic delivers it: each attribute with its data type, and its string
value or the empty text. -/
def AttributeMap.topicAttributes (m : AttributeMap) : List (String × TopicAttribute) :=
  m.entries.map fun e => (e.1, ⟨e.2.dataType, e.2.stringValue.getD ""⟩)

theorem mem_of_lookup {β : Type} {l : List (String × β)} {k : String} {b : β}
    (h : l.lookup k = some b) : (k, b) ∈ l := by
  obtain ⟨l₁, l₂, rfl, -⟩ := List.lookup_eq_some_iff.mp h
  exact List.mem_append_right _ List.mem_cons_self

theorem QueueMessage.received_carries (m : AttributeMap) (messageId body eventSourceArn : Option String) :
    (QueueMessage.mk messageId body eventSourceArn m.queueAttributes).received.Carries m := by
  refine .of_map (fun a => QueueAttribute.values ⟨a.stringValue, [], some a.dataType⟩) ?_
    fun _ => rfl
  simp [received, AttributeMap.queueAttributes, Function.comp_def]

theorem TopicRecord.received_carries (m : AttributeMap) (messageId topicArn : String) :
    (TopicRecord.mk messageId topicArn m.topicAttributes).received.Carries m := by
  refine .of_map (fun a => decodeTopicValues a.dataType (some (a.stringValue.getD ""))) ?_
    fun _ => rfl
  simp [received, AttributeMap.topicAttributes, Function.comp_def]

/-- The envelope read from a delivered body carries the request's map: an object built from the
map holds each name given once with its attribute, and only the map's names. -/
theorem Envelope.received_carries (m : AttributeMap)
    (type messageId topicArn : Option String) :
    (m.deliveredEnvelope type messageId topicArn).received.Carries m := by
  set fs := Json.Fields.ofList (m.entries.map fun e => (e.1, e.2.json)) with hfs
  let values : Json.Value → Option (List String) := fun j =>
    decodeTopicValues ((EnvelopeAttribute.ofJson j).dataType.getD "") (EnvelopeAttribute.ofJson j).value
  have hentries : (m.deliveredEnvelope type messageId topicArn).received.entries =
      fs.map fun f => (f.1, values f.2) := by
    simp [values, received, AttributeMap.deliveredEnvelope, hfs, Function.comp_def]
  constructor
  · intro k v hk hcount
    -- the name is given once in the object's members, with the attribute's JSON
    have hmem : (k, (⟨dataTypeString, some v⟩ : TypedAttribute).json) ∈
        m.entries.map fun e => (e.1, e.2.json) :=
      List.mem_map_of_mem (f := fun e => (e.1, e.2.json)) (mem_of_lookup hk)
    have hcount' : ((m.entries.map fun e => (e.1, e.2.json)).map (·.1)).count k = 1 := by
      simpa [AttributeMap.names, Function.comp_def] using hcount
    rw [hentries, lookup_map_snd values, Json.Fields.lookup_ofList hmem hcount']
    simp [values, dataTypeString, decodeTopicValues]
  · intro n hn
    simp only [ReceivedAttributes.names, hentries, List.map_map, Function.comp_def] at hn
    obtain ⟨f, hf, rfl⟩ := List.mem_map.mp hn
    obtain ⟨e, he, rfl⟩ := List.mem_map.mp (Json.Fields.mem_ofList hf)
    exact List.mem_map_of_mem he

/-! ## The consumer's context -/

namespace ReceivedAttributes

/-- **The consumer's read.** A view that carries the map of a request reads a valid span context
back, as received, when the map holds its `traceparent` text once, holds the trace state's header
once if the state is not empty, and otherwise has no name that is `tracestate` in some case of
its letters. -/
theorem Carries.extract_traceContext {a : ReceivedAttributes} {m : AttributeMap}
    {sc : SpanContext} (hcarries : a.Carries m) (hvalid : sc.isValid) (hstate : sc.state.isValid)
    (hparent : m.entries.lookup TraceContext.parentHeader =
      some ⟨dataTypeString, some (TraceContext.renderParent sc)⟩)
    (hparentOnce : m.names.count TraceContext.parentHeader = 1)
    (hstateText : sc.state ≠ .empty →
      m.entries.lookup TraceContext.stateHeader = some ⟨dataTypeString, some sc.state.header⟩ ∧
        m.names.count TraceContext.stateHeader = 1)
    (hclear : sc.state = .empty →
      ∀ n ∈ m.names, eqIgnoreAsciiCase n TraceContext.stateHeader = false) :
    a.extract .traceContext = .ofSpanContext sc.asReceived := by
  have hget : a.get? TraceContext.parentHeader = some (TraceContext.renderParent sc) := by
    rw [get?_of_lookup (hcarries.string _ _ hparent hparentOnce) (List.cons_ne_nil _ _),
      String.intercalate_singleton]
  -- the trace state is read from its header, or from nothing when it is empty
  have hread : TraceContext.readState (a.get? TraceContext.stateHeader) = sc.state := by
    by_cases hempty : sc.state = .empty
    · rw [get?_eq_none fun n hn => hclear hempty n (hcarries.names n hn), hempty]
      rfl
    · obtain ⟨hlookup, honce⟩ := hstateText hempty
      rw [get?_of_lookup (hcarries.string _ _ hlookup honce) (List.cons_ne_nil _ _),
        String.intercalate_singleton, TraceState.readState_header hstate]
  exact TraceContext.extract_traceContext hvalid hget hread

end ReceivedAttributes

theorem Context.isEmpty_ofSpanContext {sc : SpanContext} (h : sc.isValid) :
    (Context.ofSpanContext sc).isEmpty = false := by
  simp [Context.isEmpty, Context.ofSpanContext, Context.spanContext, h]

theorem SpanContext.isValid_asReceived (sc : SpanContext) : sc.asReceived.isValid = sc.isValid :=
  rfl

theorem QueueEvent.extract_of_getLast? {e : QueueEvent} {r : QueueMessage}
    (h : e.records.getLast? = some r) (p : Propagator) : e.extract p = r.extract p := by
  simp [QueueEvent.extract, h]

theorem TopicEvent.extract_of_getLast? {e : TopicEvent} {r : TopicRecord}
    (h : e.records.getLast? = some r) (p : Propagator) : e.extract p = r.received.extract p := by
  simp [TopicEvent.extract, TopicRecord.extract, h]

/-- A queue message read through its attributes, when they give a context. -/
theorem QueueMessage.extract_of_received {r : QueueMessage} {p : Propagator}
    (h : (r.received.extract p).isEmpty = false) : r.extract p = r.received.extract p := by
  simp [QueueMessage.extract, h]

/-- A queue message without attributes is read through the envelope in its body. -/
theorem QueueMessage.extract_of_envelope {r : QueueMessage} {e : Envelope}
    (hattrs : r.attributes = []) (hbody : r.body.bind Envelope.tryUnwrap = some e) :
    r.extract .traceContext = e.received.extract .traceContext := by
  have hnone : r.received.extract .traceContext = .empty := by
    simp only [QueueMessage.received, hattrs, List.map_nil]
    decide
  simp [QueueMessage.extract, hnone, hbody, Context.isEmpty, Context.empty, Context.spanContext,
    SpanContext.empty, SpanContext.isValid, TraceId.invalid, TraceId.isValid, Baggage.isEmpty,
    Baggage.empty]

/-! ## The round trip -/

/-- **Inject, deliver, extract.** For every valid span context whose trace state follows the key
and value rules, and every request into which the trace-context propagator writes it, the
consumer reads the span context back as received: from a queue message carrying the request's
map as its attributes, from a topic notification carrying it as its attributes, and from a queue
message without attributes whose body is the notification envelope. When the trace state is
empty the propagator writes no `tracestate`, so the request must not carry an attribute of that
name in any case of its letters. -/
theorem Target.extract_after_inject (t : Target) (cx : Context)
    (hvalid : cx.spanContext.isValid) (hstate : cx.spanContext.state.isValid)
    (hclear : cx.spanContext.state = .empty →
      ∀ n ∈ t.attributes.names, eqIgnoreAsciiCase n TraceContext.stateHeader = false)
    (hinj : (t.injectContext cx .traceContext).1.isInjected = true) :
    let m := (t.injectContext cx .traceContext).2.attributes
    let expected := Context.ofSpanContext cx.spanContext.asReceived
    (∀ e : QueueEvent, ∀ r ∈ e.records.getLast?, r.attributes = m.queueAttributes →
      e.extract .traceContext = expected) ∧
    (∀ e : TopicEvent, ∀ r ∈ e.records.getLast?, r.attributes = m.topicAttributes →
      e.extract .traceContext = expected) ∧
    (∀ e : QueueEvent, ∀ r ∈ e.records.getLast?, ∀ type messageId topicArn message : String,
      r.attributes = [] → r.body = some (m.envelopeJson type messageId topicArn message).render →
      e.extract .traceContext = expected) := by
  intro m expected
  -- every view that carries the request's map reads the span context back
  have hread : ∀ a : ReceivedAttributes, a.Carries m → a.extract .traceContext = expected := by
    intro a ha
    obtain ⟨hparent, honce, hstateText, hnames⟩ := traceContext_injected hvalid hinj
    refine ha.extract_traceContext hvalid hstate hparent honce hstateText fun hempty n hn => ?_
    rcases hnames hempty n hn with rfl | hold
    · decide
    · exact hclear hempty n hold
  have hfull : expected.isEmpty = false := by
    rw [Context.isEmpty_ofSpanContext]
    rwa [SpanContext.isValid_asReceived]
  refine ⟨fun e r hr hattrs => ?_, fun e r hr hattrs => ?_,
    fun e r hr type messageId topicArn message hattrs hbody => ?_⟩
  · -- the queue's message attributes
    obtain ⟨messageId, body, arn, attrs⟩ := r
    subst hattrs
    have hnative := hread _ (QueueMessage.received_carries m messageId body arn)
    rw [QueueEvent.extract_of_getLast? hr, QueueMessage.extract_of_received
      (by rw [hnative]; exact hfull), hnative]
  · -- the topic's notification attributes
    obtain ⟨messageId, arn, attrs⟩ := r
    subst hattrs
    rw [TopicEvent.extract_of_getLast? hr, hread _ (TopicRecord.received_carries m messageId arn)]
  · -- the envelope in the body of a queue message
    have hunwrap : r.body.bind Envelope.tryUnwrap =
        some (m.deliveredEnvelope (some type) (some messageId) (some topicArn)) := by
      rw [hbody, Option.bind_some, Envelope.tryUnwrap, Envelope.ofBody_envelopeJson]
      rfl
    rw [QueueEvent.extract_of_getLast? hr, QueueMessage.extract_of_envelope hattrs hunwrap,
      hread _ (Envelope.received_carries m _ _ _)]

/-- The round trip for a queue request that carries an attribute of its own, with a span
context whose trace state has one member. -/
theorem Target.extract_after_inject_with_trace_state :
    let sc : SpanContext := ⟨⟨0x5759e988bd862e3fe1be46a994272793, by decide⟩,
      ⟨0x53995c3f42cd8ad8, by decide⟩, ⟨1⟩, false, ⟨[("k", "v")]⟩⟩
    let t : Target := ⟨.queue, fun _ => false, ⟨[]⟩, ⟨[("tenant", ⟨"String", some "acme"⟩)]⟩⟩
    let cx := Context.ofSpanContext sc
    cx.spanContext.isValid = true ∧ cx.spanContext.state.isValid = true ∧
    (cx.spanContext.state = .empty →
      ∀ n ∈ t.attributes.names, eqIgnoreAsciiCase n TraceContext.stateHeader = false) ∧
    (t.injectContext cx .traceContext).1.isInjected = true ∧
    let m := (t.injectContext cx .traceContext).2.attributes
    let expected := Context.ofSpanContext cx.spanContext.asReceived
    (∀ e : QueueEvent, ∀ r ∈ e.records.getLast?, r.attributes = m.queueAttributes →
      e.extract .traceContext = expected) ∧
    (∀ e : TopicEvent, ∀ r ∈ e.records.getLast?, r.attributes = m.topicAttributes →
      e.extract .traceContext = expected) ∧
    (∀ e : QueueEvent, ∀ r ∈ e.records.getLast?, ∀ type messageId topicArn message : String,
      r.attributes = [] → r.body = some (m.envelopeJson type messageId topicArn message).render →
      e.extract .traceContext = expected) :=
  ⟨by decide, by decide, by decide, by decide,
    Target.extract_after_inject _ _ (by decide) (by decide) (by decide) (by decide)⟩

/-- **A request's own `tracestate`.** A queue request that already carries an attribute named
`tracestate` is sent with a span context whose trace state is empty: injection writes only
`traceparent`, and the consumer reads the request's own attribute as the trace state. -/
theorem Target.extract_reads_request_tracestate :
    let sc : SpanContext := ⟨⟨0x5759e988bd862e3fe1be46a994272793, by decide⟩,
      ⟨0x53995c3f42cd8ad8, by decide⟩, ⟨1⟩, false, .empty⟩
    let t : Target := ⟨.queue, fun _ => false, ⟨[]⟩, ⟨[("tracestate", ⟨"String", some "k=v"⟩)]⟩⟩
    let r := t.injectContext (.ofSpanContext sc) .traceContext
    r.1 = .injected 2 1 ∧
      (QueueEvent.mk [⟨none, none, none, r.2.attributes.queueAttributes⟩]).extract .traceContext =
        .ofSpanContext { sc.asReceived with state := ⟨[("k", "v")]⟩ } := by
  decide

end TracePropagation
