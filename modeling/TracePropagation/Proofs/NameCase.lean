import TracePropagation.Proofs.NotificationBody

/-!
# Attribute names, whatever their case

A consumer looks attribute names up ignoring the case of ASCII letters. A propagator reads the
joined text of a header through `get?`, and the adapter offers the decoded values of a name
through `lookup` as well. When no two names of a message differ in case only, nothing depends
on how the names are cased:

* `ReceivedAttributes.get?_eq_some_iff_lookup` — the two look-ups agree: a header is read
  exactly when its values are not empty, as those values joined by commas;
* `ReceivedAttributes.get?_reads_other_case` — without that condition they part: a name whose
  own attribute has no values is read through another attribute whose name differs from it in
  case only, while `lookup` finds nothing;
* `ReceivedAttributes.get?_rename` — renaming the attributes in case only changes nothing a
  propagator reads;
* `ReceivedAttributes.extract_ignores_name_case` — hence the context read from queue, topic
  and envelope attributes stays the same under every propagator.
-/

namespace TracePropagation

open Text

/-! ## Comparing names ignoring case -/

theorem Text.eqIgnoreAsciiCase_iff {a b : String} :
    eqIgnoreAsciiCase a b = true ↔ a.toList.map asciiLower = b.toList.map asciiLower := by
  simp [eqIgnoreAsciiCase]

/-- A name compares with others as every name it matches ignoring case does. -/
theorem Text.eqIgnoreAsciiCase_congr_left {a a' : String} (h : eqIgnoreAsciiCase a a' = true)
    (b : String) : eqIgnoreAsciiCase a b = eqIgnoreAsciiCase a' b := by
  rw [eqIgnoreAsciiCase_iff] at h
  rw [Bool.eq_iff_iff, eqIgnoreAsciiCase_iff, eqIgnoreAsciiCase_iff, h]

instance : DecidablePred DistinctIgnoringCase := fun names =>
  inferInstanceAs (Decidable (names.Pairwise fun a b => eqIgnoreAsciiCase a b = false))

/-- A renaming of names that changes each only in the case of its ASCII letters. -/
def Text.ChangesCaseOnly (f : String → String) (names : List String) : Prop :=
  ∀ n ∈ names, eqIgnoreAsciiCase (f n) n = true

instance (f : String → String) : DecidablePred (ChangesCaseOnly f) := fun names =>
  inferInstanceAs (Decidable (∀ n ∈ names, eqIgnoreAsciiCase (f n) n = true))

/-- Names that differ ignoring case still do after a renaming in case only. -/
theorem Text.DistinctIgnoringCase.rename {names : List String} (hd : DistinctIgnoringCase names)
    {f : String → String} (hf : ChangesCaseOnly f names) :
    DistinctIgnoringCase (names.map f) := by
  refine List.pairwise_map.mpr (hd.imp_of_mem fun ha hb hab => ?_)
  rw [eqIgnoreAsciiCase_congr_left (hf _ ha), eqIgnoreAsciiCase_comm,
    eqIgnoreAsciiCase_congr_left (hf _ hb), eqIgnoreAsciiCase_comm]
  exact hab

/-- Attributes with every name renamed by `f`, their values and order kept. -/
def renameAttributes {α : Type} (f : String → String) (attrs : List (String × α)) :
    List (String × α) :=
  attrs.map fun e => (f e.1, e.2)

namespace ReceivedAttributes

/-! ## The two look-ups -/

/-- Among names that differ ignoring case, a name is looked up as the values of the one
attribute whose name matches it. -/
theorem lookup_eq_some_iff (a : ReceivedAttributes) (hd : DistinctIgnoringCase a.names)
    (k : String) (vs : List String) :
    a.lookup k = some vs ↔ ∃ n, (n, some vs) ∈ a.entries ∧ eqIgnoreAsciiCase n k = true := by
  rw [lookup, Option.join_eq_some_iff, findIgnoreCase_eq_some_iff hd]

/-- Among names that differ ignoring case, the joined texts are those of the attributes with
values, under their own names. -/
theorem mem_joined_iff (a : ReceivedAttributes) (hd : DistinctIgnoringCase a.names)
    (n s : String) :
    (n, s) ∈ a.joined ↔ ∃ vs, (n, some vs) ∈ a.entries ∧ vs ≠ [] ∧ s = ",".intercalate vs := by
  rw [joined_of_distinct a hd, List.mem_filterMap]
  constructor
  · rintro ⟨⟨n', v⟩, he, hx⟩
    obtain ⟨vs, rfl, hx⟩ := Option.bind_eq_some_iff.mp hx
    by_cases hvs : vs = []
    · simp [hvs] at hx
    · simp only [List.isEmpty_iff, hvs, if_false, Option.some.injEq, Prod.mk.injEq] at hx
      obtain ⟨rfl, rfl⟩ := hx
      exact ⟨vs, he, hvs, rfl⟩
  · rintro ⟨vs, he, hvs, rfl⟩
    exact ⟨(n, some vs), he, by simp [hvs]⟩

/-- **The two look-ups agree.** Among names that differ ignoring case, a header is read exactly
when the values looked up for its name are not empty, and it is read as those values joined by
commas. -/
theorem get?_eq_some_iff_lookup (a : ReceivedAttributes) (hd : DistinctIgnoringCase a.names)
    (k s : String) :
    a.get? k = some s ↔ ∃ vs, a.lookup k = some vs ∧ vs ≠ [] ∧ s = ",".intercalate vs := by
  rw [get?, findIgnoreCase_eq_some_iff (distinct_joined hd)]
  simp only [mem_joined_iff a hd, lookup_eq_some_iff a hd]
  constructor
  · rintro ⟨n, ⟨vs, hmem, hne, rfl⟩, hmatch⟩
    exact ⟨vs, ⟨n, hmem, hmatch⟩, hne, rfl⟩
  · rintro ⟨vs, ⟨n, hmem, hmatch⟩, hne, rfl⟩
    exact ⟨n, ⟨vs, hmem, hne, rfl⟩, hmatch⟩

theorem get?_eq_some_iff_lookup_of_distinct :
    let a := (QueueMessage.mk none none none [("Traceparent",
        ⟨some "00-5759e988bd862e3fe1be46a994272793-53995c3f42cd8ad8-01", [], some "String"⟩),
      ("tracestate", ⟨none, ["a=1", "b=2"], some "String"⟩)]).received
    DistinctIgnoringCase a.names ∧
      (a.get? "TraceState" = some "a=1,b=2" ↔
        ∃ vs, a.lookup "TraceState" = some vs ∧ vs ≠ [] ∧ "a=1,b=2" = ",".intercalate vs) :=
  ⟨by decide, get?_eq_some_iff_lookup _ (by decide) _ _⟩

/-- **Where the two look-ups part.** A queue message with an attribute `TraceParent` and an
attribute `traceparent` without values: the header `traceparent` is read as the value of
`TraceParent`, since the joined texts leave out attributes without values, while its own
look-up finds nothing. -/
theorem get?_reads_other_case :
    (QueueMessage.mk none none none
        [("TraceParent", ⟨some "00-5759e988bd862e3fe1be46a994272793-53995c3f42cd8ad8-01", [],
          none⟩), ("traceparent", ⟨none, [], none⟩)]).received.get? "traceparent" =
        some "00-5759e988bd862e3fe1be46a994272793-53995c3f42cd8ad8-01" ∧
      (QueueMessage.mk none none none
        [("TraceParent", ⟨some "00-5759e988bd862e3fe1be46a994272793-53995c3f42cd8ad8-01", [],
          none⟩), ("traceparent", ⟨none, [], none⟩)]).received.lookup "traceparent" = none := by
  decide

/-! ## Renaming in case only -/

/-- The attributes renamed by `f`. -/
def rename (a : ReceivedAttributes) (f : String → String) : ReceivedAttributes :=
  ⟨renameAttributes f a.entries⟩

theorem names_rename (a : ReceivedAttributes) (f : String → String) :
    (a.rename f).names = a.names.map f := by
  simp [rename, names, renameAttributes]

theorem distinct_rename {a : ReceivedAttributes} (hd : DistinctIgnoringCase a.names)
    {f : String → String} (hf : ChangesCaseOnly f a.names) :
    DistinctIgnoringCase (a.rename f).names :=
  names_rename a f ▸ hd.rename hf

/-- Among names that differ ignoring case, renaming the attributes renames their joined texts. -/
theorem joined_rename (a : ReceivedAttributes) (hd : DistinctIgnoringCase a.names)
    {f : String → String} (hf : ChangesCaseOnly f a.names) :
    (a.rename f).joined = renameAttributes f a.joined := by
  have hd' := distinct_rename hd hf
  rw [joined_of_distinct _ hd', joined_of_distinct a hd]
  simp only [rename, renameAttributes, List.filterMap_map, List.map_filterMap]
  refine List.filterMap_congr fun e _ => ?_
  -- joining keeps the name it is given
  rcases e with ⟨n, _ | vs⟩
  · rfl
  · by_cases hvs : vs = [] <;> simp [hvs]

/-- **Renaming in case only changes nothing a propagator reads.** Among names that differ
ignoring case, every header is read alike before and after a renaming of the names in the case
of their ASCII letters. -/
theorem get?_rename (a : ReceivedAttributes) (hd : DistinctIgnoringCase a.names)
    {f : String → String} (hf : ChangesCaseOnly f a.names) : (a.rename f).get? = a.get? := by
  have hd' := distinct_rename hd hf
  funext k
  refine Option.ext fun s => ?_
  rw [get?, get?, findIgnoreCase_eq_some_iff (distinct_joined hd'),
    findIgnoreCase_eq_some_iff (distinct_joined hd), joined_rename a hd hf]
  constructor
  · rintro ⟨n', hmem, hmatch⟩
    obtain ⟨⟨n, s'⟩, hjoined, heq⟩ := List.mem_map.mp hmem
    simp only [Prod.mk.injEq] at heq
    obtain ⟨rfl, rfl⟩ := heq
    -- the renamed name matches the header as the name itself does
    have hcase := hf n (names_of_mem_joined hjoined)
    exact ⟨n, hjoined, by rwa [← eqIgnoreAsciiCase_congr_left hcase]⟩
  · rintro ⟨n, hjoined, hmatch⟩
    have hcase := hf n (names_of_mem_joined hjoined)
    exact ⟨f n, List.mem_map.mpr ⟨(n, s), hjoined, rfl⟩,
      by rwa [eqIgnoreAsciiCase_congr_left hcase]⟩

theorem extract_rename (a : ReceivedAttributes) (hd : DistinctIgnoringCase a.names)
    {f : String → String} (hf : ChangesCaseOnly f a.names) (p : Propagator) :
    (a.rename f).extract p = a.extract p := by
  rw [extract, extract, get?_rename a hd hf]

theorem extract_perm {a b : ReceivedAttributes} (hp : a.entries.Perm b.entries)
    (hd : DistinctIgnoringCase a.names) (p : Propagator) : a.extract p = b.extract p := by
  rw [extract, extract, get?_perm hp hd]

end ReceivedAttributes

/-! ## Queue, topic and envelope attributes -/

theorem QueueMessage.received_rename (m : QueueMessage) (f : String → String) :
    { m with attributes := renameAttributes f m.attributes }.received = m.received.rename f := by
  simp [received, ReceivedAttributes.rename, renameAttributes]

theorem QueueMessage.names_received (m : QueueMessage) :
    m.received.names = m.attributes.map (·.1) := by
  simp [received, ReceivedAttributes.names]

theorem TopicRecord.received_rename (r : TopicRecord) (f : String → String) :
    { r with attributes := renameAttributes f r.attributes }.received = r.received.rename f := by
  simp [received, ReceivedAttributes.rename, renameAttributes]

theorem TopicRecord.names_received (r : TopicRecord) :
    r.received.names = r.attributes.map (·.1) := by
  simp [received, ReceivedAttributes.names]

/-- Putting attributes whose names are given once into name order keeps every attribute. -/
theorem Envelope.orderAttributes_perm {pairs : List (String × EnvelopeAttribute)}
    (h : (pairs.map (·.1)).Nodup) : (orderAttributes pairs).Perm pairs := by
  -- the attributes put in so far and those still to come hold every name once
  suffices ∀ acc : List (String × EnvelopeAttribute), ((acc ++ pairs).map (·.1)).Nodup →
      (pairs.foldl (fun acc kv => attributeMap.insertAttribute kv.1 kv.2 acc) acc).Perm
        (acc ++ pairs) from this [] h
  clear h
  induction pairs with
  | nil => exact fun acc _ => by simp
  | cons kv rest ih =>
    intro acc hnodup
    have hnew : kv.1 ∉ acc.map (·.1) := by
      rw [List.map_append, List.map_cons] at hnodup
      exact fun hmem => (List.nodup_append.mp hnodup).2.2 _ hmem _ List.mem_cons_self rfl
    have hinsert := insertAttribute_append_perm (v := kv.2) hnew rest
    exact (ih _ ((hinsert.map (·.1)).nodup_iff.mpr hnodup)).trans hinsert

/-- An envelope built from renamed attributes holds, up to order, the renamed attributes,
while the renamed names stay apart. -/
theorem Envelope.received_ofParts_rename (e : Envelope) {f : String → String}
    (hd : (e.received.rename f).names.Nodup) :
    (ofParts e.type e.messageId e.topicArn
      (e.attributes.map (renameAttributes f))).received.entries.Perm
      (e.received.rename f).entries := by
  obtain ⟨type, messageId, topicArn, attributes, _⟩ := e
  cases attributes with
  | none => simp [ofParts, received, ReceivedAttributes.rename, renameAttributes]
  | some pairs =>
    have hnodup : ((renameAttributes f pairs).map (·.1)).Nodup := by
      simpa [received, ReceivedAttributes.rename, ReceivedAttributes.names, renameAttributes,
        Function.comp_def] using hd
    simp only [ofParts, received, Option.map_some, Option.getD_some, ReceivedAttributes.rename]
    refine ((orderAttributes_perm hnodup).map _).trans (.of_eq ?_)
    simp [renameAttributes, Function.comp_def]

theorem Envelope.names_received (e : Envelope) :
    e.received.names = (e.attributes.getD []).map (·.1) := by
  simp [received, ReceivedAttributes.names]

/-- **Extraction ignores the case of attribute names.** For queue, topic and envelope
attributes whose names differ even ignoring the case of ASCII letters, and every renaming of
the names in that case only, every propagator reads the same context, span context and
baggage, before and after the renaming. -/
theorem ReceivedAttributes.extract_ignores_name_case (f : String → String) (p : Propagator) :
    (∀ m : QueueMessage, DistinctIgnoringCase (m.attributes.map (·.1)) →
        ChangesCaseOnly f (m.attributes.map (·.1)) →
        { m with attributes := renameAttributes f m.attributes }.received.extract p =
          m.received.extract p) ∧
      (∀ r : TopicRecord, DistinctIgnoringCase (r.attributes.map (·.1)) →
        ChangesCaseOnly f (r.attributes.map (·.1)) →
        { r with attributes := renameAttributes f r.attributes }.extract p = r.extract p) ∧
      (∀ e : Envelope, DistinctIgnoringCase ((e.attributes.getD []).map (·.1)) →
        ChangesCaseOnly f ((e.attributes.getD []).map (·.1)) →
        (Envelope.ofParts e.type e.messageId e.topicArn
          (e.attributes.map (renameAttributes f))).received.extract p =
          e.received.extract p) := by
  refine ⟨fun m hd hf => ?_, fun r hd hf => ?_, fun e hd hf => ?_⟩
  · rw [← QueueMessage.names_received] at hd hf
    rw [QueueMessage.received_rename, extract_rename _ hd hf]
  · rw [← TopicRecord.names_received] at hd hf
    rw [TopicRecord.extract, TopicRecord.extract, TopicRecord.received_rename,
      extract_rename _ hd hf]
  · -- the renamed attributes go back into name order, which no propagator sees
    rw [← Envelope.names_received] at hd hf
    have hd' := distinct_rename hd hf
    have hp := Envelope.received_ofParts_rename e hd'.nodup
    rw [extract_perm hp (hd'.perm (hp.map _).symm), extract_rename _ hd hf]

/-- Extraction from queue, topic and envelope attributes named `Traceparent` and `Baggage`
reads the same context once the names are lowercased. -/
theorem ReceivedAttributes.extract_ignores_lowercasing :
    let m : QueueMessage := ⟨none, none, none,
      [("Baggage", ⟨some "k=v", [], some "String"⟩),
        ("Traceparent", ⟨some "00-5759e988bd862e3fe1be46a994272793-53995c3f42cd8ad8-01", [],
          some "String"⟩)]⟩
    let r : TopicRecord := ⟨"", "",
      [("Baggage", ⟨"String", "k=v"⟩),
        ("Traceparent", ⟨"String", "00-5759e988bd862e3fe1be46a994272793-53995c3f42cd8ad8-01"⟩)]⟩
    let e : Envelope := ⟨none, none, none, some
      [("Baggage", ⟨some "String", some "k=v"⟩),
        ("Traceparent", ⟨some "String",
          some "00-5759e988bd862e3fe1be46a994272793-53995c3f42cd8ad8-01"⟩)], by decide⟩
    (DistinctIgnoringCase (m.attributes.map (·.1)) ∧
        ChangesCaseOnly lowerAscii (m.attributes.map (·.1)) ∧
        { m with attributes := renameAttributes lowerAscii m.attributes }.received.extract
          .both = m.received.extract .both) ∧
      (DistinctIgnoringCase (r.attributes.map (·.1)) ∧
        ChangesCaseOnly lowerAscii (r.attributes.map (·.1)) ∧
        { r with attributes := renameAttributes lowerAscii r.attributes }.extract .both =
          r.extract .both) ∧
      (DistinctIgnoringCase ((e.attributes.getD []).map (·.1)) ∧
        ChangesCaseOnly lowerAscii ((e.attributes.getD []).map (·.1)) ∧
        (Envelope.ofParts e.type e.messageId e.topicArn
          (e.attributes.map (renameAttributes lowerAscii))).received.extract .both =
          e.received.extract .both) := by
  intro m r e
  have hnames : DistinctIgnoringCase ["Baggage", "Traceparent"] ∧
      ChangesCaseOnly lowerAscii ["Baggage", "Traceparent"] := ⟨by decide, by decide⟩
  obtain ⟨hq, ht, he⟩ := extract_ignores_name_case lowerAscii .both
  exact ⟨⟨hnames.1, hnames.2, hq m hnames.1 hnames.2⟩, ⟨hnames.1, hnames.2, ht r hnames.1 hnames.2⟩,
    ⟨hnames.1, hnames.2, he e hnames.1 hnames.2⟩⟩

end TracePropagation
