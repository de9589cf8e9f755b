import TracePropagation.Proofs.Budget

/-!
# Injecting twice

Names are never taken out of a request's typed map, and a request that was written to holds
every name of the carrier it was written with. The collision check therefore refuses every
later carrier that shares a name with one already injected: a second interceptor that runs the
same propagator never writes twice.

* `AttributeMap.mem_names_insert` — setting an attribute adds its name and keeps the others;
* `Target.names_subset_inject` — **step**: an injection keeps every name of the map;
* `Target.names_subset_injectAll` — **run**: so does every request of a run;
* `Target.inject_of_shared_name` — a carrier that shares a name with the map is refused as
  already instrumented and changes nothing;
* `Target.refused_after_injected` — after a carrier was injected, every later carrier that
  shares a key with it is refused, at every point of any later run;
* `Target.inject_idempotent` — injecting a carrier twice is injecting it once, and the
  refusal above.
-/

namespace TracePropagation

namespace AttributeMap

theorem mem_map_fst_insertEntry (k k' : String) (v : TypedAttribute)
    (es : List (String × TypedAttribute)) :
    k' ∈ (insertEntry k v es).map (·.1) ↔ k' = k ∨ k' ∈ es.map (·.1) := by
  induction es with
  | nil => simp [insertEntry]
  | cons e rest ih =>
    obtain ⟨k'', v''⟩ := e
    unfold insertEntry
    split_ifs with heq hlt
    · -- the attribute of the same name is replaced: the names are those of before
      subst heq
      simp only [List.map_cons, List.mem_cons]
      rw [or_self_left]
    · simp
    · simp only [List.map_cons, List.mem_cons, ih]
      exact or_left_comm

/-- Setting an attribute adds its name and keeps every other. -/
theorem mem_names_insert (m : AttributeMap) (k k' : String) (v : TypedAttribute) :
    k' ∈ (m.insert k v).names ↔ k' = k ∨ k' ∈ m.names :=
  mem_map_fst_insertEntry k k' v m.entries

end AttributeMap

namespace Target

theorem mem_names_append (t : Target) (n : Nat) (name value k : String) :
    k ∈ (t.append n name value).attributes.names ↔ k = name ∨ k ∈ t.attributes.names := by
  rw [append_attributes, AttributeMap.mem_names_insert]

/-- Writing pairs adds their names to the map and keeps the names it had. -/
theorem mem_names_appendFrom (t : Target) (n : Nat) (ps : List (String × String)) (k : String) :
    k ∈ (t.appendFrom n ps).attributes.names ↔ k ∈ ps.map (·.1) ∨ k ∈ t.attributes.names := by
  induction ps generalizing t n with
  | nil => simp [appendFrom]
  | cons kv rest ih =>
    simp only [appendFrom, ih, mem_names_append, List.map_cons, List.mem_cons]
    rw [or_assoc]
    exact or_left_comm

/-- **Step.** An injection keeps every name of the map, whatever its outcome. -/
theorem names_subset_inject (t : Target) (c : Carrier) :
    t.attributes.names ⊆ (t.inject c).2.attributes.names := by
  intro k hk
  rcases inject_cases t c with ⟨hsame, -⟩ | ⟨-, -, -, -, hinj⟩
  · rwa [hsame]
  · rw [hinj, mem_names_appendFrom]
    exact .inr hk

/-- A request that a carrier was injected into holds every key of the carrier as a name. -/
theorem keys_subset_inject (t : Target) (c : Carrier) (h : (t.inject c).1.isInjected = true) :
    ∀ k ∈ c.keys, k ∈ (t.inject c).2.attributes.names := by
  rcases inject_cases t c with ⟨-, hnot⟩ | ⟨-, -, -, -, hinj⟩
  · rw [hnot] at h
    contradiction
  · intro k hk
    rw [hinj, mem_names_appendFrom]
    exact .inl hk

/-- **Run.** Every request of a run holds every name the first one held. -/
theorem names_subset_injectAll (t : Target) (cs : List Carrier) :
    ∀ r ∈ t.injectAll cs, t.attributes.names ⊆ r.2.attributes.names := by
  induction cs generalizing t with
  | nil => simp [injectAll]
  | cons c rest ih =>
    intro r hr
    rcases mem_injectAll.mp hr with rfl | hr
    · exact names_subset_inject t c
    · exact fun k hk => ih _ r hr (names_subset_inject t c hk)

/-- A carrier that shares a name with the map is refused as already instrumented, and the
request is left as it was. -/
theorem inject_of_shared_name (u : Target) (d : Carrier)
    (h : ∃ k ∈ d.keys, k ∈ u.attributes.names) : u.inject d = (.alreadyInstrumented, u) := by
  obtain ⟨k, hk, hn⟩ := h
  -- a carrier with a key is not empty
  have hne : d.isEmpty = false := by
    obtain ⟨kv, hkv, -⟩ := List.mem_map.mp hk
    cases hd : d.entries with
    | nil => simp [hd] at hkv
    | cons e es => simp [Carrier.isEmpty, hd]
  have hclash : d.keys.any u.attributes.contains = true :=
    (any_contains_iff u d).mpr ⟨k, hk, hn⟩
  simp only [inject, hne, hclash, Bool.false_eq_true, if_false, if_true]

/-- After a carrier was injected, a carrier that shares a key with it is refused and changes
nothing, right after the injection and after every later step of any run. -/
theorem refused_after_injected (t : Target) (c : Carrier)
    (hinj : (t.inject c).1.isInjected = true) (cs : List Carrier) (d : Carrier)
    (hshare : ∃ k ∈ c.keys, k ∈ d.keys) :
    ∀ u ∈ (t.inject c).2 :: ((t.inject c).2.injectAll cs).map Prod.snd,
      u.inject d = (.alreadyInstrumented, u) := by
  obtain ⟨k, hkc, hkd⟩ := hshare
  have hk := keys_subset_inject t c hinj k hkc
  intro u hu
  apply inject_of_shared_name
  refine ⟨k, hkd, ?_⟩
  rcases List.mem_cons.mp hu with rfl | hu
  · exact hk
  · obtain ⟨r, hr, rfl⟩ := List.mem_map.mp hu
    exact names_subset_injectAll _ cs r hr hk

/-- **Injection is idempotent.** Injecting a carrier a second time leaves the request as the
first injection left it; the second outcome is `alreadyInstrumented` after a write and the
first outcome again otherwise. After a carrier was injected, a carrier that shares a key with
it is refused and changes nothing at every later point of any run of injections. -/
theorem inject_idempotent (t : Target) (c : Carrier) :
    (t.inject c).2.inject c =
        (if (t.inject c).1.isInjected then .alreadyInstrumented else (t.inject c).1,
          (t.inject c).2) ∧
      ((t.inject c).1.isInjected = true → ∀ (cs : List Carrier) (d : Carrier),
        (∃ k ∈ c.keys, k ∈ d.keys) →
        ∀ u ∈ (t.inject c).2 :: ((t.inject c).2.injectAll cs).map Prod.snd,
          u.inject d = (.alreadyInstrumented, u)) := by
  refine ⟨?_, refused_after_injected t c⟩
  rcases inject_cases t c with ⟨hsame, hnot⟩ | ⟨hne, -, -, -, hinj⟩
  · -- nothing was written: the second injection repeats the first
    rw [hnot, if_neg Bool.false_ne_true, hsame]
    exact Prod.ext rfl hsame
  · -- the pairs were written: the carrier's first key is now a name of the map
    have hwritten : (t.inject c).1.isInjected = true := by rw [hinj]; rfl
    obtain ⟨kv, hkv⟩ := List.exists_mem_of_ne_nil _ hne
    rw [if_pos hwritten]
    exact refused_after_injected t c hwritten [] c
      ⟨kv.1, List.mem_map_of_mem hkv, List.mem_map_of_mem hkv⟩ _ List.mem_cons_self

end Target

end TracePropagation
