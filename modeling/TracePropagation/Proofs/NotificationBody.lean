import TracePropagation.Proofs.JsonLayout
import TracePropagation.Proofs.RoundTrip

/-!
# A notification delivered in a message body

When a topic delivers to a queue without raw delivery, the queue message carries no attributes
of its own and its body is the notification envelope as JSON; a consumer whose message
attributes give no context reads the envelope's attributes instead. Nothing is lost or changed
on the way. For attributes whose names differ even ignoring the case of ASCII letters, a
message whose body lays out such an envelope (compact or pretty, with any other members, in any
member order) gives the same context as the notification itself, under every propagator, and
so does a batch that ends with it.

* `Text.DistinctIgnoringCase` — names that differ even ignoring ASCII case;
* `findIgnoreCase_eq_some_iff`, `findIgnoreCase_perm` — among such names, a name looked up
  ignoring case finds the entry whose name matches it, wherever that entry stands;
* `ReceivedAttributes.get?_perm` — so what a propagator reads does not depend on the order of
  the attributes;
* `TopicAttribute.Written`, `EnvelopeField`, `NotificationText` — the envelope of a
  notification as a writer lays it out;
* `Envelope.attributeMap_written_perm`, `Envelope.members_fields` — the attributes object is read as
  the attributes written, up to order, and the members around it change nothing;
* `Envelope.looksLikeEnvelope_laid`, `Envelope.ofBody_notificationText` — the body passes the
  cheap test and is read as an envelope with those attributes;
* `QueueMessage.extract_notification_body` — the message, and a batch ending with it, give the
  context of the notification.
-/

namespace TracePropagation

open Json Text

/-! ## Names that differ ignoring case -/

/-- Names that differ from each other even when the case of ASCII letters is ignored. -/
def Text.DistinctIgnoringCase (names : List String) : Prop :=
  names.Pairwise fun a b => eqIgnoreAsciiCase a b = false

theorem Text.eqIgnoreAsciiCase_comm (a b : String) :
    eqIgnoreAsciiCase a b = eqIgnoreAsciiCase b a := by
  rw [Bool.eq_iff_iff, eqIgnoreAsciiCase, eqIgnoreAsciiCase, beq_iff_eq, beq_iff_eq]
  exact eq_comm

theorem Text.eqIgnoreAsciiCase_trans {a b c : String} (h₁ : eqIgnoreAsciiCase a b = true)
    (h₂ : eqIgnoreAsciiCase b c = true) : eqIgnoreAsciiCase a c = true := by
  simp only [eqIgnoreAsciiCase, beq_iff_eq] at *
  exact h₁.trans h₂

namespace Text.DistinctIgnoringCase

theorem nodup {names : List String} (h : DistinctIgnoringCase names) : names.Nodup :=
  h.imp fun hne heq => by
    rw [heq, eqIgnoreAsciiCase_self] at hne
    cases hne

theorem perm {names names' : List String} (h : DistinctIgnoringCase names)
    (hp : names.Perm names') : DistinctIgnoringCase names' :=
  (hp.pairwise_iff fun hne => by rwa [eqIgnoreAsciiCase_comm]).mp h

end Text.DistinctIgnoringCase

/-- Among names that differ ignoring case, two entries whose names both match a third name
ignoring case are one entry. -/
theorem eq_of_eqIgnoreAsciiCase {α : Type} {l : List (String × α)}
    (hd : DistinctIgnoringCase (l.map (·.1))) {e e' : String × α} (he : e ∈ l) (he' : e' ∈ l)
    {name : String} (h : eqIgnoreAsciiCase e.1 name = true)
    (h' : eqIgnoreAsciiCase e'.1 name = true) : e = e' := by
  -- two different entries would have names that match each other ignoring case
  have hmatch : eqIgnoreAsciiCase e.1 e'.1 = true :=
    eqIgnoreAsciiCase_trans h (by rwa [eqIgnoreAsciiCase_comm])
  induction l with
  | nil => cases he
  | cons x l ih =>
    simp only [DistinctIgnoringCase, List.map_cons, List.pairwise_cons, List.mem_map] at hd
    obtain ⟨hx, hl⟩ := hd
    rcases List.mem_cons.mp he with rfl | hel
    · rcases List.mem_cons.mp he' with rfl | hel'
      · rfl
      · rw [hx _ ⟨e', hel', rfl⟩] at hmatch
        cases hmatch
    · rcases List.mem_cons.mp he' with rfl | hel'
      · rw [eqIgnoreAsciiCase_comm, hx _ ⟨e, hel, rfl⟩] at hmatch
        cases hmatch
      · exact ih hl hel hel'

/-- **Looking up a name ignoring case.** Among names that differ ignoring case, a name is found
with the value of the one entry whose name matches it ignoring case. -/
theorem findIgnoreCase_eq_some_iff {α : Type} {l : List (String × α)}
    (hd : DistinctIgnoringCase (l.map (·.1))) (name : String) (v : α) :
    findIgnoreCase l name = some v ↔ ∃ k, (k, v) ∈ l ∧ eqIgnoreAsciiCase k name = true := by
  unfold findIgnoreCase
  cases hlookup : l.lookup name with
  | some w =>
    -- the exact entry is the one entry that matches
    have hw := mem_of_lookup hlookup
    refine ⟨fun h => ⟨name, Option.some.inj h ▸ hw, eqIgnoreAsciiCase_self name⟩, ?_⟩
    rintro ⟨k, hk, hmatch⟩
    have := eq_of_eqIgnoreAsciiCase hd hw hk (eqIgnoreAsciiCase_self name) hmatch
    simp only [Prod.mk.injEq] at this
    rw [this.2]
  | none =>
    constructor
    · intro h
      obtain ⟨e, he, rfl⟩ := Option.map_eq_some_iff.mp h
      have hmatch := List.find?_some he
      exact ⟨e.1, List.mem_of_find?_eq_some he, hmatch⟩
    · rintro ⟨k, hk, hmatch⟩
      -- the first entry that matches is that entry
      cases hfind : l.find? fun e => eqIgnoreAsciiCase e.1 name with
      | none =>
        have := List.find?_eq_none.mp hfind _ hk
        simp [hmatch] at this
      | some e =>
        have he := List.find?_some hfind
        have := eq_of_eqIgnoreAsciiCase hd (List.mem_of_find?_eq_some hfind) hk he hmatch
        simp [this]

/-- Among names that differ ignoring case, the order of the entries does not change what a
name is looked up as. -/
theorem findIgnoreCase_perm {α : Type} {l₁ l₂ : List (String × α)} (hp : l₁.Perm l₂)
    (hd : DistinctIgnoringCase (l₁.map (·.1))) (name : String) :
    findIgnoreCase l₁ name = findIgnoreCase l₂ name :=
  Option.ext fun v => by
    rw [findIgnoreCase_eq_some_iff hd, findIgnoreCase_eq_some_iff (hd.perm (hp.map _))]
    simp only [hp.mem_iff]

namespace ReceivedAttributes

/-- Among names that differ ignoring case, each entry with values is joined by itself. -/
theorem joined_of_distinct (a : ReceivedAttributes) (hd : DistinctIgnoringCase a.names) :
    a.joined = a.entries.filterMap fun e =>
      e.2.bind fun vs => if vs.isEmpty then none else some (e.1, ",".intercalate vs) := by
  rw [joined_eq]
  refine List.filterMap_congr fun e he => ?_
  have hfind : findIgnoreCase a.entries e.1 = some e.2 :=
    (findIgnoreCase_eq_some_iff hd e.1 e.2).mpr ⟨e.1, he, eqIgnoreAsciiCase_self e.1⟩
  simp only [lookup, hfind, Option.join_some]

theorem distinct_joined {a : ReceivedAttributes} (hd : DistinctIgnoringCase a.names) :
    DistinctIgnoringCase (a.joined.map (·.1)) := by
  rw [joined_of_distinct a hd]
  refine List.pairwise_map.mpr (List.Pairwise.filterMap _ ?_ (List.pairwise_map.mp hd))
  -- joining keeps an entry's name
  intro e e' hne x hx x' hx'
  obtain ⟨vs, -, hvs⟩ := Option.bind_eq_some_iff.mp hx
  obtain ⟨vs', -, hvs'⟩ := Option.bind_eq_some_iff.mp hx'
  split at hvs <;> split at hvs' <;> cases hvs <;> cases hvs'
  exact hne

/-- **The order of the attributes does not matter.** Among names that differ ignoring case,
attributes in any order are read alike by a propagator. -/
theorem get?_perm {a b : ReceivedAttributes} (hp : a.entries.Perm b.entries)
    (hd : DistinctIgnoringCase a.names) : a.get? = b.get? := by
  have hdb : DistinctIgnoringCase b.names := hd.perm (hp.map _)
  have hjoined : a.joined.Perm b.joined := by
    rw [joined_of_distinct a hd, joined_of_distinct b hdb]
    exact hp.filterMap _
  funext key
  exact findIgnoreCase_perm hjoined (distinct_joined hd) key

end ReceivedAttributes

/-! ## The envelope as written -/

/-- The attribute an envelope holds for a topic attribute: its type and its value. -/
def TopicAttribute.toEnvelope (a : TopicAttribute) : EnvelopeAttribute :=
  ⟨some a.dataType, some a.value⟩

/-- The object an envelope writes for an attribute: its type and its value as strings under
`Type` and `Value`, in either order. -/
inductive TopicAttribute.Written (a : TopicAttribute) : Doc → Prop
  | typeFirst : a.Written (.obj [(escaped "Type", .str (escaped a.dataType)),
      (escaped "Value", .str (escaped a.value))])
  | valueFirst : a.Written (.obj [(escaped "Value", .str (escaped a.value)),
      (escaped "Type", .str (escaped a.dataType))])

/-- The members of an attributes object that holds the attributes `M`: each attribute once, in
any order, under its name as the writer spells it. -/
def AttributesWritten (M : List (String × TopicAttribute)) (ds : List (List Char × Doc)) :
    Prop :=
  ∃ as : List (String × TopicAttribute), as.Perm M ∧
    List.Forall₂ (fun a d => d.1 = escaped a.1 ∧ a.2.Written d.2) as ds

/-- A member of a notification envelope that carries the attributes `M`, by name: the
attributes object; the type, the message id or the topic as a string or `null`; or any other
member with any value. -/
inductive EnvelopeField (M : List (String × TopicAttribute)) : String × Doc → Prop
  | attributes {ds : List (List Char × Doc)} (hds : AttributesWritten M ds) :
      EnvelopeField M ("MessageAttributes", .obj ds)
  | header {name : String} (hname : name = "Type" ∨ name = "MessageId" ∨ name = "TopicArn")
      (value : Option String) :
      EnvelopeField M (name, value.elim .null fun s => .str (escaped s))
  | other {name : String} (htype : name ≠ "Type") (hid : name ≠ "MessageId")
      (htopic : name ≠ "TopicArn") (hattributes : name ≠ "MessageAttributes") (d : Doc) :
      EnvelopeField M (name, d)

/-- The text of a notification envelope that carries the attributes `M`, as a writer lays it
out: one object whose members are named once each, spelled as the writer spells names, the
attributes object among them, with blanks between any two tokens and after the object. -/
inductive NotificationText (M : List (String × TopicAttribute)) (text : List Char) : Prop
  | mk (fields : List (String × Doc)) (object trailing : List Char)
      (hlaid : Laid (.obj (fields.map fun f => (escaped f.1, f.2))) object)
      (htrailing : Blank trailing) (htext : text = object ++ trailing)
      (hnodup : (fields.map (·.1)).Nodup) (hattributes : "MessageAttributes" ∈ fields.map (·.1))
      (hfield : ∀ f ∈ fields, EnvelopeField M f)

/-! ## Reading the envelope -/

theorem Text.isBlank_of_isJsonBlank {c : Char} (h : isJsonBlank c = true) : isBlank c = true := by
  simp only [isJsonBlank, Bool.or_eq_true, decide_eq_true_eq] at h
  rcases h with ((rfl | rfl) | rfl) | rfl <;> decide

theorem Text.trimStart_blank_append {ws : List Char} (hws : Blank ws) {c : Char}
    (hc : isBlank c = false) (r : List Char) : trimStart (ws ++ c :: r) = c :: r := by
  induction ws with
  | nil => exact List.dropWhile_cons_of_neg (by simp [hc])
  | cons w ws ih =>
    show List.dropWhile _ _ = _
    rw [List.cons_append, List.dropWhile_cons_of_pos
      (isBlank_of_isJsonBlank (hws w List.mem_cons_self))]
    exact ih hws.cons

namespace Envelope

theorem readAttribute_written {a : TopicAttribute} {d : Doc} (h : a.Written d) :
    readAttribute d = .ok a.toEnvelope := by
  have hne : ("Value" : String) ≠ "Type" := by decide
  cases h <;>
    simp [readAttribute, attributeMembers, optString_escaped, setOnce, hne,
      TopicAttribute.toEnvelope]

/-- Putting an attribute of a new name into the attributes read adds it, wherever it goes. -/
theorem insertAttribute_perm {k : String} {v : EnvelopeAttribute}
    {acc : List (String × EnvelopeAttribute)} (h : k ∉ acc.map (·.1)) :
    (attributeMap.insertAttribute k v acc).Perm ((k, v) :: acc) := by
  induction acc with
  | nil => exact .refl _
  | cons e rest ih =>
    obtain ⟨k', v'⟩ := e
    simp only [List.map_cons, List.mem_cons, not_or] at h
    rw [attributeMap.insertAttribute, if_neg h.1]
    by_cases hlt : k < k'
    · rw [if_pos hlt]
    · rw [if_neg hlt]
      exact ((ih h.2).cons _).trans (.swap _ _ _)

/-- An attribute of a new name put among those read so far stands, up to order, just before the
attributes still to come. -/
theorem insertAttribute_append_perm {k : String} {v : EnvelopeAttribute}
    {acc : List (String × EnvelopeAttribute)} (h : k ∉ acc.map (·.1))
    (rest : List (String × EnvelopeAttribute)) :
    (attributeMap.insertAttribute k v acc ++ rest).Perm (acc ++ (k, v) :: rest) :=
  ((insertAttribute_perm h).append_right rest).trans List.perm_middle.symm

/-- **The attributes object read back.** Members under names new to those read so far, each
read as an attribute, are read, in any order, as those attributes. -/
theorem attributeMap_of_reads {as : List (String × EnvelopeAttribute)}
    {ds : List (List Char × Doc)}
    (hw : List.Forall₂ (fun a d => d.1 = escaped a.1 ∧ readAttribute d.2 = .ok a.2) as ds)
    (acc : List (String × EnvelopeAttribute)) (hnodup : (acc.map (·.1) ++ as.map (·.1)).Nodup) :
    ∃ L, attributeMap ds acc = .ok L ∧ L.Perm (acc ++ as) := by
  induction hw generalizing acc with
  | nil => exact ⟨acc, rfl, by simp⟩
  | @cons a d as ds hd _ ih =>
    obtain ⟨hkey, hread⟩ := hd
    rw [List.map_cons] at hnodup
    have hnew : a.1 ∉ acc.map (·.1) := fun hmem =>
      (List.nodup_append.mp hnodup).2.2 _ hmem _ List.mem_cons_self rfl
    -- the names read so far, the new one included, stay apart from those still to come
    have hinsert := insertAttribute_append_perm (v := a.2) hnew as
    have hnodup' : ((attributeMap.insertAttribute a.1 a.2 acc).map (·.1) ++
        as.map (·.1)).Nodup := by
      simpa using (hinsert.map (·.1)).nodup_iff.mpr (by simpa using hnodup)
    obtain ⟨L, hL, hperm⟩ := ih _ hnodup'
    refine ⟨L, ?_, ?_⟩
    · obtain ⟨k, doc⟩ := d
      simp only at hkey hread
      rw [attributeMap, hkey, decodeString_escaped]
      simp only [hread]
      exact hL
    · exact hperm.trans (by simpa using hinsert)

/-- Attribute objects as a notification writes them are read, in any order, as the attributes
written. -/
theorem attributeMap_written_perm {as : List (String × TopicAttribute)}
    {ds : List (List Char × Doc)}
    (hw : List.Forall₂ (fun a d => d.1 = escaped a.1 ∧ a.2.Written d.2) as ds)
    (acc : List (String × EnvelopeAttribute)) (hnodup : (acc.map (·.1) ++ as.map (·.1)).Nodup) :
    ∃ L, attributeMap ds acc = .ok L ∧
      L.Perm (acc ++ as.map fun a => (a.1, a.2.toEnvelope)) := by
  have hreads : List.Forall₂ (fun a d => d.1 = escaped a.1 ∧ readAttribute d.2 = .ok a.2)
      (as.map fun a => (a.1, a.2.toEnvelope)) ds := by
    clear hnodup
    induction hw with
    | nil => exact .nil
    | cons h _ ih => exact .cons ⟨h.1, readAttribute_written h.2⟩ ih
  exact attributeMap_of_reads hreads acc (by simpa [Function.comp_def] using hnodup)

/-- The members the reader keeps that it has not met yet: each whose name is among `names` is
still unset. -/
def Slots.Vacant (s : Slots) (names : List String) : Prop :=
  ("Type" ∈ names → s.type = none) ∧ ("MessageId" ∈ names → s.messageId = none) ∧
    ("TopicArn" ∈ names → s.topicArn = none) ∧
    ("MessageAttributes" ∈ names → s.attributes = none)

theorem Slots.vacant_empty (names : List String) : ({} : Slots).Vacant names :=
  ⟨fun _ => rfl, fun _ => rfl, fun _ => rfl, fun _ => rfl⟩

theorem Slots.Vacant.mono {s : Slots} {names names' : List String} (h : s.Vacant names)
    (hsub : names' ⊆ names) : s.Vacant names' :=
  ⟨fun hn => h.1 (hsub hn), fun hn => h.2.1 (hsub hn), fun hn => h.2.2.1 (hsub hn),
    fun hn => h.2.2.2 (hsub hn)⟩

theorem optString_elim (value : Option String) :
    optString (value.elim .null fun v => .str (escaped v)) = .ok value := by
  cases value <;> simp [optString]

/-- A member the reader does not keep is skipped. -/
theorem members_other {name : String} (htype : name ≠ "Type") (hid : name ≠ "MessageId")
    (htopic : name ≠ "TopicArn") (hattributes : name ≠ "MessageAttributes") (d : Doc)
    (rest : List (List Char × Doc)) (s : Slots) :
    members ((escaped name, d) :: rest) s = members rest s := by
  rw [members.eq_def]
  simp only [decodeString_escaped, if_neg htype, if_neg hid, if_neg htopic, if_neg hattributes]

/-- The type, the id or the topic, met for the first time, is kept; the attributes read so far
and the members not met yet stay as they were. -/
theorem members_header {name : String}
    (hname : name = "Type" ∨ name = "MessageId" ∨ name = "TopicArn") (value : Option String)
    (rest : List (List Char × Doc)) {s : Slots} (hs : s.Vacant [name]) :
    ∃ s', members ((escaped name, value.elim .null fun v => .str (escaped v)) :: rest) s =
        members rest s' ∧ s'.attributes = s.attributes ∧
      ∀ names, name ∉ names → s.Vacant names → s'.Vacant names := by
  rcases hname with rfl | rfl | rfl
  · refine ⟨{ s with type := some value }, ?_, rfl,
      fun names hn hv => ⟨fun h => absurd h hn, hv.2.1, hv.2.2.1, hv.2.2.2⟩⟩
    rw [members.eq_def]
    simp [optString_elim, setOnce, hs.1 List.mem_cons_self, bind, Except.bind]
  · refine ⟨{ s with messageId := some value }, ?_, rfl,
      fun names hn hv => ⟨hv.1, fun h => absurd h hn, hv.2.2.1, hv.2.2.2⟩⟩
    rw [members.eq_def]
    simp [optString_elim, setOnce, hs.2.1 List.mem_cons_self, bind, Except.bind]
  · refine ⟨{ s with topicArn := some value }, ?_, rfl,
      fun names hn hv => ⟨hv.1, hv.2.1, fun h => absurd h hn, hv.2.2.2⟩⟩
    rw [members.eq_def]
    simp [optString_elim, setOnce, hs.2.2.1 List.mem_cons_self, bind, Except.bind]

/-- The attributes object, met for the first time, is read as the attributes written, up to
order. -/
theorem members_attributes {M : List (String × TopicAttribute)} (hM : (M.map (·.1)).Nodup)
    {ds : List (List Char × Doc)} (hds : AttributesWritten M ds) (rest : List (List Char × Doc))
    {s : Slots} (hs : s.attributes = none) :
    ∃ L, L.Perm (M.map fun a => (a.1, a.2.toEnvelope)) ∧
      members ((escaped "MessageAttributes", .obj ds) :: rest) s =
        members rest { s with attributes := some (some L) } := by
  obtain ⟨as, hperm, hw⟩ := hds
  have hnodup : (([] : List (String × EnvelopeAttribute)).map (·.1) ++ as.map (·.1)).Nodup := by
    simpa using (hperm.map (·.1)).nodup_iff.mpr hM
  obtain ⟨L, hL, hLperm⟩ := attributeMap_written_perm hw [] hnodup
  refine ⟨L, hLperm.trans (by simpa using hperm.map _), ?_⟩
  rw [members.eq_def]
  simp [hL, hs, setOnce, Except.map, bind, Except.bind]

/-- **The envelope's members read.** Members named once each, as a notification envelope has
them, are read without error; the attributes object, if among them, as the attributes written,
up to order, and otherwise the attributes stay as they were. -/
theorem members_fields {M : List (String × TopicAttribute)} (hM : (M.map (·.1)).Nodup) :
    ∀ (fields : List (String × Doc)) (s : Slots), (∀ f ∈ fields, EnvelopeField M f) →
      (fields.map (·.1)).Nodup → s.Vacant (fields.map (·.1)) →
      ∃ s', members (fields.map fun f => (escaped f.1, f.2)) s = .ok s' ∧
        ("MessageAttributes" ∈ fields.map (·.1) →
          ∃ L, s'.attributes = some (some L) ∧ L.Perm (M.map fun a => (a.1, a.2.toEnvelope))) ∧
        ("MessageAttributes" ∉ fields.map (·.1) → s'.attributes = s.attributes) := by
  intro fields
  induction fields with
  | nil => exact fun s _ _ _ => ⟨s, rfl, fun h => absurd h List.not_mem_nil, fun _ => rfl⟩
  | cons f rest ih =>
    intro s hfield hnodup hvacant
    have hrest : ∀ f ∈ rest, EnvelopeField M f := fun f hf => hfield f (List.mem_cons_of_mem _ hf)
    rw [List.map_cons, List.nodup_cons] at hnodup
    obtain ⟨hnot, hnodup⟩ := hnodup
    cases hfield f List.mem_cons_self with
    | attributes hds =>
      -- the attributes are set here, and no later member touches them
      obtain ⟨L, hL, hstep⟩ := members_attributes hM hds (rest.map fun f => (escaped f.1, f.2))
        (hvacant.2.2.2 List.mem_cons_self)
      have hvacant' : Slots.Vacant { s with attributes := some (some L) } (rest.map (·.1)) :=
        have htail := hvacant.mono (List.subset_cons_self _ _)
        ⟨htail.1, htail.2.1, htail.2.2.1, fun h => absurd h hnot⟩
      obtain ⟨s', hs', -, hout⟩ := ih _ hrest hnodup hvacant'
      refine ⟨s', by rw [List.map_cons, hstep, hs'], fun _ => ⟨L, hout hnot, hL⟩,
        fun h => absurd List.mem_cons_self h⟩
    | @header name hname value =>
      obtain ⟨s₁, hstep, hattr, hkeep⟩ := members_header hname value
        (rest.map fun f => (escaped f.1, f.2))
        (hvacant.mono fun x hx => List.mem_singleton.mp hx ▸ List.mem_cons_self)
      obtain ⟨s', hs', hin, hout⟩ := ih s₁ hrest hnodup
        (hkeep _ hnot (hvacant.mono (List.subset_cons_self _ _)))
      -- a header is not the attributes object
      have hname' : name ≠ "MessageAttributes" := by
        rcases hname with rfl | rfl | rfl <;> decide
      refine ⟨s', by rw [List.map_cons, hstep, hs'], fun h => hin ?_, fun h => ?_⟩
      · exact (List.mem_cons.mp h).resolve_left (Ne.symm hname')
      · rw [hout fun h' => h (List.mem_cons_of_mem _ h'), hattr]
    | @other name htype hid htopic hattributes d =>
      obtain ⟨s', hs', hin, hout⟩ := ih s hrest hnodup (hvacant.mono (List.subset_cons_self _ _))
      refine ⟨s', by rw [List.map_cons, members_other htype hid htopic hattributes, hs'],
        fun h => hin ?_, fun h => hout fun h' => h (List.mem_cons_of_mem _ h')⟩
      exact (List.mem_cons.mp h).resolve_left (Ne.symm hattributes)

/-- The text of an object with an attributes member passes the cheap test: a brace after the
blanks, and the quoted name of that member somewhere. -/
theorem looksLikeEnvelope_laid {fields : List (String × Doc)} {object : List Char}
    (hlaid : Laid (.obj (fields.map fun f => (escaped f.1, f.2))) object)
    (hattributes : "MessageAttributes" ∈ fields.map (·.1)) (trailing : List Char) :
    looksLikeEnvelope (String.ofList (object ++ trailing)) = true := by
  have hkey : escaped "MessageAttributes" ∈
      (fields.map fun f => (escaped f.1, f.2)).map Prod.fst := by
    obtain ⟨f, hf, hname⟩ := List.mem_map.mp hattributes
    exact List.mem_map.mpr ⟨(escaped f.1, f.2), List.mem_map_of_mem hf, by rw [hname]⟩
  have hquoted := hlaid.infix_quotedKey hkey
  have hmarker : attributesMarker.toList = '"' :: escaped "MessageAttributes" ++ ['"'] := by
    decide
  obtain ⟨ws, t, hws, rfl⟩ := hlaid.obj_head
  simp only [looksLikeEnvelope, String.toList_ofList, Bool.and_eq_true]
  refine ⟨?_, ?_⟩
  · rw [List.append_assoc, List.cons_append, trimStart_blank_append hws (by decide)]
    rfl
  · rw [hmarker]
    exact containsText_of_infix (hquoted.trans (List.prefix_append _ _).isInfix)

/-- **The body read as an envelope.** The text of a notification envelope passes the cheap
test and is read as an envelope whose attributes are those written, up to order. -/
theorem ofBody_notificationText {M : List (String × TopicAttribute)} (hM : (M.map (·.1)).Nodup)
    {text : List Char} (h : NotificationText M text) :
    ∃ e : Envelope, ofBody (String.ofList text) = .ok e ∧
      ∃ L, e.attributes = some L ∧ L.Perm (M.map fun a => (a.1, a.2.toEnvelope)) := by
  obtain ⟨fields, object, trailing, hlaid, htrailing, rfl, hnodup, hattributes, hfield⟩ := h
  have hread : Doc.read .skim (String.ofList (object ++ trailing)).toList =
      .ok (.obj (fields.map fun f => (escaped f.1, f.2))) := by
    rw [String.toList_ofList]
    exact Doc.read_laid hlaid htrailing
  obtain ⟨s, hs, hin, -⟩ := members_fields hM fields {} hfield hnodup (Slots.vacant_empty _)
  obtain ⟨L, hL, hperm⟩ := hin hattributes
  exact ⟨_, ofBody_of_members (looksLikeEnvelope_laid hlaid hattributes trailing) hread hs, L,
    by simp [hL], hperm⟩

end Envelope

/-! ## The context of the message -/

/-- **A notification delivered in a message body.** For attributes whose names differ even
ignoring the case of ASCII letters, a queue message whose own attributes give an empty context
and whose body is the text of a notification envelope carrying them, laid out in any way, gives
under every propagator the same context as a notification carrying those attributes; so does a
batch of messages ending with it, against a batch of notifications ending with that one. -/
theorem QueueMessage.extract_notification_body {M : List (String × TopicAttribute)}
    (hM : DistinctIgnoringCase (M.map (·.1))) {text : List Char} (htext : NotificationText M text)
    (p : Propagator) {m : QueueMessage} (hbody : m.body = some (String.ofList text))
    (hnative : (m.received.extract p).isEmpty = true) {r : TopicRecord} (hr : r.attributes = M) :
    m.extract p = r.extract p ∧
      ∀ (qe : QueueEvent) (te : TopicEvent), qe.records.getLast? = some m →
        te.records.getLast? = some r → qe.extract p = te.extract p := by
  obtain ⟨e, he, L, hL, hperm⟩ := Envelope.ofBody_notificationText hM.nodup htext
  -- the envelope holds the notification's attributes, in name order
  have hentries : r.received.entries.Perm e.received.entries := by
    simp only [Envelope.received, hL, Option.getD_some]
    refine List.Perm.trans ?_ (hperm.map _).symm
    simp [TopicRecord.received, hr, TopicAttribute.toEnvelope, Function.comp_def]
  have hnames : r.received.names = M.map (·.1) := by
    simp [ReceivedAttributes.names, TopicRecord.received, hr, Function.comp_def]
  have hget : r.received.get? = e.received.get? :=
    ReceivedAttributes.get?_perm hentries (hnames ▸ hM)
  have hmessage : m.extract p = r.extract p := by
    have hunwrap : m.body.bind Envelope.tryUnwrap = some e := by
      simp [hbody, Envelope.tryUnwrap, he, Except.toOption]
    simp only [QueueMessage.extract, hnative, Bool.not_true, Bool.false_eq_true, if_false, hunwrap]
    rw [TopicRecord.extract, ReceivedAttributes.extract, ReceivedAttributes.extract, hget]
  refine ⟨hmessage, fun qe te hq ht => ?_⟩
  rw [QueueEvent.extract_of_getLast? hq, TopicEvent.extract_of_getLast? ht, hmessage]
  rfl

/-- A notification with one attribute, delivered in a body with blanks around its tokens and its
attribute's members in the other order. -/
theorem QueueMessage.extract_spaced_notification_body :
    let M : List (String × TopicAttribute) := [("k", ⟨"String", "v"⟩)]
    let text := ("\x7b \"MessageAttributes\": \x7b\"k\": \x7b\"Value\": \"v\", " ++
      "\"Type\": \"String\"\x7d\x7d \x7d").toList
    let m : QueueMessage := ⟨none, some (String.ofList text), none, []⟩
    let r : TopicRecord := ⟨"", "", M⟩
    NotificationText M text ∧ m.extract .traceContext = r.extract .traceContext := by
  intro M text m r
  have hnone : Blank [] := fun _ h => by cases h
  have hspace : Blank [' '] := fun c hc => by
    rw [List.mem_singleton.mp hc]
    rfl
  -- the members of the three objects, innermost first
  let value : LaidMember :=
    ⟨[], escaped "Value", [], .str (escaped "v"), [' '] ++ '"' :: (escaped "v" ++ ['"']), []⟩
  let type : LaidMember := ⟨[' '], escaped "Type", [], .str (escaped "String"),
    [' '] ++ '"' :: (escaped "String" ++ ['"']), []⟩
  let key : LaidMember := ⟨[], escaped "k", [], .obj ([value, type].map fun m => (m.key, m.doc)),
    [' '] ++ '{' :: (value.layout ++ LaidMember.following [type] ++ ['}']), []⟩
  let attributes : LaidMember := ⟨[' '], escaped "MessageAttributes", [],
    .obj ([key].map fun m => (m.key, m.doc)),
    [' '] ++ '{' :: (key.layout ++ LaidMember.following [] ++ ['}']), [' ']⟩
  have hkey : Laid key.doc key.text := by
    refine Laid.obj value [type] hspace ?_ ?_ <;> intro x hx <;>
      rcases List.mem_cons.mp hx with rfl | hx
    · exact ⟨hnone, stringBody_escaped _, hnone, hnone⟩
    · obtain rfl := List.mem_singleton.mp hx
      exact ⟨hspace, stringBody_escaped _, hnone, hnone⟩
    · exact Laid.str hspace (stringBody_escaped _)
    · obtain rfl := List.mem_singleton.mp hx
      exact Laid.str hspace (stringBody_escaped _)
  have hattributes : Laid attributes.doc attributes.text := by
    refine Laid.obj key [] hspace ?_ ?_ <;> intro x hx <;> obtain rfl := List.mem_singleton.mp hx
    · exact ⟨hnone, stringBody_escaped _, hnone, hnone⟩
    · exact hkey
  have hobject : Laid (.obj ([attributes].map fun m => (m.key, m.doc)))
      ([] ++ '{' :: (attributes.layout ++ LaidMember.following [] ++ ['}'])) := by
    refine Laid.obj attributes [] hnone ?_ ?_ <;> intro x hx <;>
      obtain rfl := List.mem_singleton.mp hx
    · exact ⟨hspace, stringBody_escaped _, hnone, hspace⟩
    · exact hattributes
  have htext : NotificationText M text := by
    refine .mk [("MessageAttributes", attributes.doc)] _ [] hobject hnone (by decide) (by decide)
      (by decide) fun f hf => ?_
    obtain rfl := List.mem_singleton.mp hf
    exact .attributes ⟨M, .refl _, .cons ⟨rfl, .valueFirst⟩ .nil⟩
  have hM : DistinctIgnoringCase (M.map (·.1)) := List.pairwise_singleton _ _
  exact ⟨htext, (extract_notification_body hM htext .traceContext rfl (by decide) rfl).1⟩

end TracePropagation
