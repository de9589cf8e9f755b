import TracePropagation.Propagation.Propagator
/-!
# Message carriers

The headers a propagator writes for one outgoing message, before they become message
attributes. A carrier is an insertion-ordered map: setting a key that is present replaces its
value in place, a new key goes last, and an empty value is ignored, since message attributes
may not be empty. A trace-context propagator therefore always yields `traceparent` before
`tracestate`, and drops an empty trace state.
-/

namespace TracePropagation

/-- Headers for one message, each key once, in order of first setting. -/
structure Carrier where
  /-- The pairs. -/
  entries : List (String × String)
  /-- No key is there twice. -/
  keys_nodup : (entries.map (·.1)).Nodup
  deriving DecidableEq, Repr

namespace Carrier

/-- The empty carrier. -/
def empty : Carrier := ⟨[], List.nodup_nil⟩

/-- Replaces the value of a key in place. -/
def replaceValue (k v : String) : List (String × String) → List (String × String)
  | [] => []
  | (k', v') :: rest => if k' = k then (k', v) :: rest else (k', v') :: replaceValue k v rest

theorem map_fst_replaceValue (k v : String) (es : List (String × String)) :
    (replaceValue k v es).map (·.1) = es.map (·.1) := by
  induction es with
  | nil => rfl
  | cons e rest ih =>
    obtain ⟨k', v'⟩ := e
    by_cases h : k' = k <;> simp [replaceValue, h, ih]

/-- Appending a key that is not there keeps the keys distinct. -/
theorem nodup_append_absent {es : List (String × String)} (h : (es.map (·.1)).Nodup) {k : String}
    (hk : ¬es.any (·.1 = k) = true) (v : String) : ((es ++ [(k, v)]).map (·.1)).Nodup := by
  rw [List.map_append, List.nodup_append]
  refine ⟨h, List.pairwise_singleton _ k, fun a ha b hb hab => hk ?_⟩
  obtain ⟨e, he, rfl⟩ := List.mem_map.mp ha
  have hbk : b = k := by simpa using hb
  exact List.any_eq_true.mpr ⟨e, he, by simpa [hbk] using hab⟩

/-- Sets a key: ignored for an empty value, in place for a present key, last otherwise. -/
def set (c : Carrier) (k v : String) : Carrier :=
  if v.isEmpty then c
  else if hk : c.entries.any (·.1 = k) then
    ⟨replaceValue k v c.entries, (map_fst_replaceValue k v c.entries).symm ▸ c.keys_nodup⟩
  else ⟨c.entries ++ [(k, v)], nodup_append_absent c.keys_nodup hk v⟩

/-- The carrier of pairs set one after the other. -/
def ofList (pairs : List (String × String)) : Carrier :=
  pairs.foldl (fun c kv => c.set kv.1 kv.2) empty

/-- What a propagator writes for a context. -/
def ofContext (p : Propagator) (cx : Context) : Carrier :=
  ofList (p.inject cx)

/-- The value of a key. -/
def get? (c : Carrier) (k : String) : Option String :=
  c.entries.lookup k

/-- The keys in order. -/
def keys (c : Carrier) : List String :=
  c.entries.map (·.1)

theorem nodup_keys (c : Carrier) : c.keys.Nodup :=
  c.keys_nodup

/-- A write with an empty value changes nothing. -/
theorem set_empty (c : Carrier) (k : String) : c.set k "" = c := by
  simp [set]

theorem entries_set_of_mem {c : Carrier} {k v : String} (hv : v ≠ "") (hk : k ∈ c.keys) :
    (c.set k v).entries = replaceValue k v c.entries := by
  have hv' : v.isEmpty = false := by simpa [String.isEmpty_iff] using hv
  have hany : c.entries.any (·.1 = k) = true := by
    obtain ⟨e, he, rfl⟩ := List.mem_map.mp hk
    exact List.any_eq_true.mpr ⟨e, he, by simp⟩
  rw [set, if_neg (by simp [hv']), dif_pos hany]

theorem entries_set_of_not_mem {c : Carrier} {k v : String} (hv : v ≠ "") (hk : k ∉ c.keys) :
    (c.set k v).entries = c.entries ++ [(k, v)] := by
  have hv' : v.isEmpty = false := by simpa [String.isEmpty_iff] using hv
  have hany : c.entries.any (·.1 = k) = false := by
    rw [List.any_eq_false]
    intro e he hek
    exact hk (List.mem_map.mpr ⟨e, he, by simpa using hek⟩)
  rw [set, if_neg (by simp [hv']), dif_neg (by simp [hany])]

/-- The number of pairs. -/
def size (c : Carrier) : Nat := c.entries.length

/-- Whether nothing was set. -/
def isEmpty (c : Carrier) : Bool := c.entries.isEmpty

end Carrier

end TracePropagation
