import TracePropagation.Messaging.Injection
import Mathlib.Tactic.SplitIfs

/-!
# What one injection does

`Target.inject` decides an outcome by four checks in a fixed order and writes to the request
only when all of them pass. This module states that contract as a relation and proves that
injection meets it:

* `InjectionEffect` — the five outcomes with the conditions that select each and the request
  each leaves; the conditions of an outcome deny those of every earlier one;
* `Target.inject_effect` — injection meets `InjectionEffect` for every request and every
  carrier, whose keys are distinct by construction (`Carrier.nodup_keys`);
* `Target.inject_cases` — the same contract cut down to what most invariants need: nothing
  changes, or every check passed and the pairs were written from the index after the map's
  size.

Writing is followed pair by pair: `appendFrom_params` gives the parameters in closed form and
`appendFrom_entries_perm` the map, which grows by exactly one entry per pair because the names
are new to it and distinct.
-/

namespace TracePropagation

/-! ## Association lists -/

theorem lookup_cons_ite {β : Type} (a k : String) (b : β) (as : List (String × β)) :
    ((k, b) :: as).lookup a = if a = k then some b else as.lookup a := by
  by_cases h : a = k
  · simp [h]
  · have hb : (a == k) = false := beq_eq_false_iff_ne.mpr h
    simp [List.lookup_cons, hb, h]

theorem lookup_eq_none_of_not_mem {β : Type} {k : String} {es : List (String × β)}
    (h : k ∉ es.map (·.1)) : es.lookup k = none := by
  simp only [List.lookup_eq_none_iff, bne_iff_ne, ne_eq]
  rintro ⟨k', v⟩ hp rfl
  exact h (List.mem_map.mpr ⟨_, hp, rfl⟩)

/-! ## Carriers -/

namespace Carrier

theorem isEmpty_iff (c : Carrier) : c.isEmpty = true ↔ c.entries = [] := by
  simp [isEmpty]

end Carrier

/-! ## The typed attribute map -/

namespace AttributeMap

/-- The names of the attributes. -/
def names (m : AttributeMap) : List String := m.entries.map (·.1)

theorem contains_iff (m : AttributeMap) (k : String) : m.contains k = true ↔ k ∈ m.names := by
  simp [contains, names]

theorem size_eq_length_names (m : AttributeMap) : m.size = m.names.length := by
  simp [size, names]

/-- A new name goes in as one more entry, wherever its order puts it. -/
theorem insertEntry_perm {k : String} {v : TypedAttribute} {es : List (String × TypedAttribute)}
    (h : k ∉ es.map (·.1)) : (insertEntry k v es).Perm ((k, v) :: es) := by
  induction es with
  | nil => rfl
  | cons e rest ih =>
    obtain ⟨k', v'⟩ := e
    simp only [List.map_cons, List.mem_cons, not_or] at h
    unfold insertEntry
    rw [if_neg h.1]
    split_ifs
    · rfl
    · exact ((ih h.2).cons _).trans (List.Perm.swap _ _ _)

/-- After an insertion the name has the new attribute and every other name its old one. -/
theorem lookup_insertEntry (k k' : String) (v : TypedAttribute)
    (es : List (String × TypedAttribute)) :
    (insertEntry k v es).lookup k' = if k' = k then some v else es.lookup k' := by
  induction es with
  | nil => simp [insertEntry, lookup_cons_ite]
  | cons e rest ih =>
    obtain ⟨k'', v''⟩ := e
    unfold insertEntry
    split_ifs with h1 h2 h3 h4 h5 <;> simp_all [lookup_cons_ite]

end AttributeMap

/-! ## Writing pairs -/

theorem Parameters.foldl_add (ps : Parameters) (kvs : List (String × String)) :
    kvs.foldl (fun ps kv => ps.add kv.1 kv.2) ps = ⟨ps.pairs ++ kvs⟩ := by
  induction kvs generalizing ps with
  | nil => simp
  | cons kv rest ih =>
    rw [List.foldl_cons, ih]
    simp [Parameters.add]

namespace Target

section

variable (t : Target) (n : Nat) (name value : String)

@[simp]
theorem append_protocol : (t.append n name value).protocol = t.protocol := rfl

@[simp]
theorem append_refuses : (t.append n name value).refuses = t.refuses := rfl

@[simp]
theorem append_params :
    (t.append n name value).params = ⟨t.params.pairs ++ t.protocol.encode n name value⟩ := by
  simp [append, Parameters.foldl_add]

@[simp]
theorem append_attributes :
    (t.append n name value).attributes = t.attributes.insert name ⟨dataTypeString, some value⟩ :=
  rfl

variable {t} {name}

theorem names_append_perm (hfresh : name ∉ t.attributes.names) :
    (t.append n name value).attributes.names.Perm (name :: t.attributes.names) :=
  (AttributeMap.insertEntry_perm hfresh).map Prod.fst

theorem size_append (hfresh : name ∉ t.attributes.names) :
    (t.append n name value).attributes.size = t.attributes.size + 1 := by
  rw [AttributeMap.size_eq_length_names, (names_append_perm n value hfresh).length_eq,
    List.length_cons, AttributeMap.size_eq_length_names]

/-- Names that are distinct and new to the map stay new after the first of them is written. -/
theorem fresh_append {rest : List (String × String)}
    (hps : ((name, value) :: rest).map (·.1) |>.Nodup)
    (hfresh : ∀ kv ∈ (name, value) :: rest, kv.1 ∉ t.attributes.names) :
    ∀ kv ∈ rest, kv.1 ∉ (t.append n name value).attributes.names := by
  intro kv hkv hmem
  simp only [List.map_cons, List.nodup_cons] at hps
  rcases List.mem_cons.mp ((names_append_perm n value (hfresh _ List.mem_cons_self)).subset hmem)
    with h | h
  · have hkv₀ : kv.1 = name := h
    exact hps.1 (hkv₀ ▸ List.mem_map_of_mem hkv)
  · exact hfresh kv (List.mem_cons_of_mem _ hkv) h

end

section

variable {t : Target} (n : Nat) (ps : List (String × String))

@[simp]
theorem appendFrom_protocol : (t.appendFrom n ps).protocol = t.protocol := by
  induction ps generalizing t n with
  | nil => rfl
  | cons kv rest ih => simp [appendFrom, ih]

@[simp]
theorem appendFrom_refuses : (t.appendFrom n ps).refuses = t.refuses := by
  induction ps generalizing t n with
  | nil => rfl
  | cons kv rest ih => simp [appendFrom, ih]

/-- The parameters after writing pairs from an index on: each pair's three parameters, at
consecutive indices, after the old ones. -/
theorem appendFrom_params : (t.appendFrom n ps).params.pairs =
    t.params.pairs ++ (ps.zipIdx n).flatMap fun (kv, i) => t.protocol.encode i kv.1 kv.2 := by
  induction ps generalizing t n with
  | nil => simp [appendFrom]
  | cons kv rest ih => simp [appendFrom, ih]

/-- Writing pairs with distinct names that the map does not hold adds exactly one entry per
pair. -/
theorem appendFrom_entries_perm (hps : (ps.map (·.1)).Nodup)
    (hfresh : ∀ kv ∈ ps, kv.1 ∉ t.attributes.names) :
    (t.appendFrom n ps).attributes.entries.Perm
      (ps.map (fun kv => (kv.1, (⟨dataTypeString, some kv.2⟩ : TypedAttribute))) ++
        t.attributes.entries) := by
  induction ps generalizing t n with
  | nil => simp [appendFrom]
  | cons kv rest ih =>
    obtain ⟨k₀, v₀⟩ := kv
    have hk₀ : k₀ ∉ t.attributes.names := hfresh _ List.mem_cons_self
    have hins := AttributeMap.insertEntry_perm (v := ⟨dataTypeString, some v₀⟩) hk₀
    have hfresh' := fresh_append n v₀ hps hfresh
    simp only [List.map_cons, List.nodup_cons] at hps
    refine (ih _ hps.2 hfresh').trans ?_
    simp only [append_attributes, AttributeMap.insert, List.map_cons, List.cons_append]
    exact (hins.append_left _).trans List.perm_middle

end

/-! ## The outcome of an injection -/

theorem any_contains_iff (t : Target) (c : Carrier) :
    c.keys.any t.attributes.contains = true ↔ ∃ k ∈ c.keys, k ∈ t.attributes.names := by
  simp [AttributeMap.contains_iff]

/-- **Inversion.** Injection either leaves the request as it was and reports no write, or finds
every check passed and writes the pairs from the index after the map's size on. -/
theorem inject_cases (t : Target) (c : Carrier) :
    ((t.inject c).2 = t ∧ (t.inject c).1.isInjected = false) ∨
    (c.entries ≠ [] ∧ (∀ k ∈ c.keys, k ∉ t.attributes.names) ∧
      t.attributes.size + c.size ≤ maxMessageAttributes ∧ (∀ k ∈ c.keys, t.refuses k = false) ∧
      t.inject c = (.injected (t.attributes.size + 1) c.size,
        t.appendFrom (t.attributes.size + 1) c.entries)) := by
  dsimp only [inject]
  split_ifs with hempty hclash hover hrefused
  · exact .inl ⟨rfl, rfl⟩
  · exact .inl ⟨rfl, rfl⟩
  · exact .inl ⟨rfl, rfl⟩
  · exact .inl ⟨rfl, rfl⟩
  · right
    simp only [Carrier.isEmpty, List.isEmpty_iff] at hempty
    simp only [List.any_eq_true, AttributeMap.contains_iff, not_exists, not_and] at hclash
    simp only [List.any_eq_true, not_exists, not_and, Bool.not_eq_true] at hrefused
    exact ⟨hempty, hclash, by omega, hrefused, rfl⟩

end Target

/-- What injecting a carrier does to a request, by the order of the checks. Each outcome's
conditions deny those of the outcomes before it, so a carrier and a request determine the
outcome. The request is changed on `injected` only: its parameters gain the three parameters of
each pair at consecutive indices after the map's size, and its map gains one string attribute
per pair. -/
inductive InjectionEffect (t : Target) (c : Carrier) : Outcome → Target → Prop where
  /-- An empty carrier. -/
  | empty (hempty : c.entries = []) : InjectionEffect t c .empty t
  /-- A carrier key is already an attribute name, spelt exactly so. -/
  | alreadyInstrumented (hne : c.entries ≠ [])
      (hclash : ∃ k ∈ c.keys, k ∈ t.attributes.names) :
      InjectionEffect t c .alreadyInstrumented t
  /-- The map and the carrier together exceed the budget. -/
  | budgetExceeded (hne : c.entries ≠ []) (hfresh : ∀ k ∈ c.keys, k ∉ t.attributes.names)
      (hover : maxMessageAttributes < t.attributes.size + c.size) :
      InjectionEffect t c (.budgetExceeded t.attributes.size c.size) t
  /-- Some pair's typed value cannot be built. -/
  | encodingFailed (hne : c.entries ≠ []) (hfresh : ∀ k ∈ c.keys, k ∉ t.attributes.names)
      (hfits : t.attributes.size + c.size ≤ maxMessageAttributes)
      (hrefused : ∃ k ∈ c.keys, t.refuses k = true) :
      InjectionEffect t c .encodingFailed t
  /-- Every check passed and the pairs were written. -/
  | injected (hne : c.entries ≠ []) (hfresh : ∀ k ∈ c.keys, k ∉ t.attributes.names)
      (hfits : t.attributes.size + c.size ≤ maxMessageAttributes)
      (hencoded : ∀ k ∈ c.keys, t.refuses k = false) (t' : Target)
      (hprotocol : t'.protocol = t.protocol) (hrefuses : t'.refuses = t.refuses)
      (hparams : t'.params.pairs = t.params.pairs ++
        (c.entries.zipIdx (t.attributes.size + 1)).flatMap fun (kv, i) =>
          t.protocol.encode i kv.1 kv.2)
      (hattributes : t'.attributes.entries.Perm
        (c.entries.map (fun kv => (kv.1, (⟨dataTypeString, some kv.2⟩ : TypedAttribute))) ++
          t.attributes.entries)) :
      InjectionEffect t c (.injected (t.attributes.size + 1) c.size) t'

/-- **The injection contract.** For every request and every carrier, injection meets
`InjectionEffect`: the checks run in their order, and nothing is written unless all of them
pass. -/
theorem Target.inject_effect (t : Target) (c : Carrier) :
    InjectionEffect t c (t.inject c).1 (t.inject c).2 := by
  dsimp only [Target.inject]
  by_cases hempty : c.isEmpty = true
  · rw [if_pos hempty]
    exact .empty ((Carrier.isEmpty_iff c).mp hempty)
  rw [if_neg hempty]
  have hne : c.entries ≠ [] := mt (Carrier.isEmpty_iff c).mpr hempty
  by_cases hclash : c.keys.any t.attributes.contains = true
  · rw [if_pos hclash]
    exact .alreadyInstrumented hne ((t.any_contains_iff c).mp hclash)
  rw [if_neg hclash]
  have hfresh : ∀ k ∈ c.keys, k ∉ t.attributes.names := fun k hk hn =>
    hclash ((t.any_contains_iff c).mpr ⟨k, hk, hn⟩)
  split_ifs with hover hrefused
  · exact .budgetExceeded hne hfresh hover
  · exact .encodingFailed hne hfresh (Nat.le_of_not_gt hover) (List.any_eq_true.mp hrefused)
  · -- every check passed: the pairs are written, each name new to the map
    have hencoded : ∀ k ∈ c.keys, t.refuses k = false := fun k hk =>
      Bool.eq_false_iff.mpr fun hr => hrefused (List.any_eq_true.mpr ⟨k, hk, hr⟩)
    have hfresh' : ∀ kv ∈ c.entries, kv.1 ∉ t.attributes.names := fun kv hkv =>
      hfresh kv.1 (List.mem_map_of_mem hkv)
    exact .injected hne hfresh (Nat.le_of_not_gt hover) hencoded _
      (Target.appendFrom_protocol _ _) (Target.appendFrom_refuses _ _)
      (Target.appendFrom_params _ _) (Target.appendFrom_entries_perm _ _ c.nodup_keys hfresh')

/-- The contract at a request that already has one attribute, for a trace-context carrier. -/
theorem Target.inject_effect_after_custom_attribute :
    let t : Target := ⟨.queue, fun _ => false,
      ⟨[("MessageAttribute.1.Name", "custom"), ("MessageAttribute.1.Value.DataType", "String"),
        ("MessageAttribute.1.Value.StringValue", "x")]⟩,
      ⟨[("custom", ⟨"String", some "x"⟩)]⟩⟩
    let c : Carrier := ⟨[("traceparent", "00-5759e988bd862e3fe1be46a994272793-53995c3f42cd8ad8-01"),
      ("tracestate", "k=v")], by decide⟩
    InjectionEffect t c (t.inject c).1 (t.inject c).2 :=
  Target.inject_effect _ _

end TracePropagation
