import TracePropagation.Proofs.Consistency

/-!
# What a carrier holds after its writes

A propagator fills a carrier one header at a time, starting from the empty carrier; a list of
pairs is collected the same way. Whatever the writes, the carrier holds each key written with a
non-empty value once, in the order of its first such write, with the last non-empty value
written for it, and a write with an empty value changes nothing. Its size, look-ups and key
order follow, and so do the attributes it becomes, which are its pairs in order.

* `Carrier.writtenKeys`, `Carrier.lastWritten?` — the keys and values a sequence of writes calls
  for, said over the writes alone;
* `Carrier.Holds` — a carrier holds what the writes call for;
* `Carrier.Holds.set` — **step**: one more write keeps it;
* `Carrier.holds_ofList` — **run**: every carrier built by writes holds them, the one a
  propagator writes for a context included (`Carrier.ofContext` collects its writes);
* `Carrier.Holds.lastWritten?_of_mem`, `Carrier.Holds.mem_keys_iff` — what a holding carrier's
  entries and keys are;
* `Carrier.written_carrier` — all of it together.
-/

namespace TracePropagation

namespace Carrier

/-! ## What the writes call for -/

/-- The keys written with a non-empty value, each once, in the order of the first such write. -/
def writtenKeys (pairs : List (String × String)) : List String :=
  ((pairs.filter fun kv => !kv.2.isEmpty).map (·.1)).eraseDups

/-- The last non-empty value written for a key. -/
def lastWritten? (pairs : List (String × String)) (k : String) : Option String :=
  ((pairs.filter fun kv => kv.1 == k && !kv.2.isEmpty).getLast?).map (·.2)

theorem mem_writtenKeys {pairs : List (String × String)} {k : String} :
    k ∈ writtenKeys pairs ↔ ∃ v, (k, v) ∈ pairs ∧ v ≠ "" := by
  simp [writtenKeys]

theorem writtenKeys_append_empty (pairs : List (String × String)) (k : String) :
    writtenKeys (pairs ++ [(k, "")]) = writtenKeys pairs := by
  simp [writtenKeys]

/-- A key written with a non-empty value for the first time goes last. -/
theorem writtenKeys_append_of_ne_empty (pairs : List (String × String)) (k : String) {v : String}
    (hv : v ≠ "") :
    writtenKeys (pairs ++ [(k, v)]) =
      if k ∈ writtenKeys pairs then writtenKeys pairs else writtenKeys pairs ++ [k] := by
  have hv' : v.isEmpty = false := by simpa [String.isEmpty_iff] using hv
  simp only [writtenKeys, List.filter_append, List.filter_cons, List.filter_nil, hv',
    Bool.not_false, if_true, List.map_append, List.map_cons, List.map_nil,
    List.eraseDups_append, List.removeAll, List.mem_eraseDups]
  by_cases hk : k ∈ (pairs.filter fun kv => !kv.2.isEmpty).map (·.1)
  · simp [hk]
  · simp [hk, List.eraseDups_cons]

theorem lastWritten?_append_empty (pairs : List (String × String)) (k k' : String) :
    lastWritten? (pairs ++ [(k, "")]) k' = lastWritten? pairs k' := by
  simp [lastWritten?]

/-- A write of a non-empty value is the last one for its key, and leaves the other keys' last
values as they were. -/
theorem lastWritten?_append_of_ne_empty (pairs : List (String × String)) (k : String)
    {v : String} (hv : v ≠ "") (k' : String) :
    lastWritten? (pairs ++ [(k, v)]) k' = if k = k' then some v else lastWritten? pairs k' := by
  have hv' : v.isEmpty = false := by simpa [String.isEmpty_iff] using hv
  by_cases h : k = k'
  · subst h
    simp [lastWritten?, hv', List.getLast?_append]
  · simp [lastWritten?, List.filter_append, h]

/-! ## One write -/

/-- Replacing the value of a present key changes what that key is looked up as, and nothing
else. -/
theorem lookup_replaceValue {k : String} (v : String) {es : List (String × String)}
    (hk : k ∈ es.map (·.1)) (k' : String) :
    (replaceValue k v es).lookup k' = if k = k' then some v else es.lookup k' := by
  induction es with
  | nil => simp at hk
  | cons e rest ih =>
    obtain ⟨k₀, v₀⟩ := e
    by_cases h₀ : k₀ = k
    · subst h₀
      by_cases h : k₀ = k'
      · subst h
        simp [replaceValue]
      · simp [replaceValue, lookup_cons_ite, h, Ne.symm h]
    · have hrest : k ∈ rest.map (·.1) := by simpa [Ne.symm h₀] using hk
      simp only [replaceValue, h₀, if_false, lookup_cons_ite, ih hrest]
      by_cases h : k = k'
      · subst h
        simp [Ne.symm h₀]
      · simp [h]

/-- A key set with a value keeps its place, or goes last if it is new. -/
theorem keys_set (c : Carrier) (k : String) {v : String} (hv : v ≠ "") :
    (c.set k v).keys = if k ∈ c.keys then c.keys else c.keys ++ [k] := by
  by_cases hk : k ∈ c.keys
  · rw [if_pos hk, keys, entries_set_of_mem hv hk, map_fst_replaceValue]
    rfl
  · rw [if_neg hk, keys, entries_set_of_not_mem hv hk]
    simp [keys]

/-- A key set with a value is looked up as that value, and every other key as before. -/
theorem get?_set (c : Carrier) (k : String) {v : String} (hv : v ≠ "") (k' : String) :
    (c.set k v).get? k' = if k = k' then some v else c.get? k' := by
  by_cases hk : k ∈ c.keys
  · rw [get?, entries_set_of_mem hv hk, lookup_replaceValue v hk]
    rfl
  · rw [get?, entries_set_of_not_mem hv hk, List.lookup_append]
    by_cases h : k = k'
    · subst h
      simp [lookup_eq_none_of_not_mem hk]
    · simp [get?, Ne.symm h, h]

/-! ## Holding what the writes call for -/

/-- A carrier holds what a sequence of writes calls for: its keys in the order of their first
non-empty write, and for each key its last non-empty value. -/
structure Holds (c : Carrier) (pairs : List (String × String)) : Prop where
  keys_eq : c.keys = writtenKeys pairs
  get?_eq : ∀ k, c.get? k = lastWritten? pairs k

theorem holds_empty : Holds empty [] :=
  ⟨rfl, fun _ => rfl⟩

/-- **Step.** One more write keeps a carrier holding what the writes call for: an empty value
is dropped, a key already held keeps its place and takes the new value, and a new key goes
last. -/
theorem Holds.set {c : Carrier} {pairs : List (String × String)} (h : Holds c pairs)
    (k v : String) : Holds (c.set k v) (pairs ++ [(k, v)]) := by
  by_cases hv : v = ""
  · subst hv
    rw [set_empty]
    exact ⟨by rw [writtenKeys_append_empty, h.keys_eq],
      fun k' => by rw [lastWritten?_append_empty, h.get?_eq]⟩
  · refine ⟨?_, fun k' => ?_⟩
    · rw [keys_set c k hv, writtenKeys_append_of_ne_empty pairs k hv, h.keys_eq]
    · rw [get?_set c k hv, lastWritten?_append_of_ne_empty pairs k hv, h.get?_eq]

/-- Writes from a carrier that holds earlier writes hold them all. -/
theorem Holds.foldl {c : Carrier} {pairs : List (String × String)} (h : Holds c pairs)
    (rest : List (String × String)) :
    Holds (rest.foldl (fun c kv => c.set kv.1 kv.2) c) (pairs ++ rest) := by
  induction rest generalizing c pairs with
  | nil => simpa using h
  | cons kv rest ih =>
    have := ih (h.set kv.1 kv.2)
    rwa [List.append_assoc, List.singleton_append] at this

/-- **Run.** A carrier built by writes from the empty one holds what they call for. -/
theorem holds_ofList (pairs : List (String × String)) : Holds (ofList pairs) pairs :=
  holds_empty.foldl pairs

/-! ## What a holding carrier is -/

theorem Holds.mem_keys_iff {c : Carrier} {pairs : List (String × String)} (h : Holds c pairs)
    (k : String) : k ∈ c.keys ↔ ∃ v, (k, v) ∈ pairs ∧ v ≠ "" := by
  rw [h.keys_eq, mem_writtenKeys]

theorem lastWritten?_ne_empty {pairs : List (String × String)} {k v : String}
    (h : lastWritten? pairs k = some v) : v ≠ "" := by
  obtain ⟨kv, hkv, rfl⟩ := Option.map_eq_some_iff.mp h
  have hmem := List.mem_of_getLast? hkv
  simp only [List.mem_filter, Bool.and_eq_true, Bool.not_eq_true'] at hmem
  simpa [String.isEmpty_iff] using hmem.2.2

/-- In a carrier that holds the writes, each entry has its key's last non-empty value: the
entry's key is there once. -/
theorem Holds.lastWritten?_of_mem {c : Carrier} {pairs : List (String × String)}
    (h : Holds c pairs) {e : String × String} (he : e ∈ c.entries) :
    lastWritten? pairs e.1 = some e.2 := by
  rw [← h.get?_eq]
  have hcount : (c.entries.map (·.1)).count e.1 = 1 := by
    rw [List.Nodup.count c.keys_nodup, if_pos (List.mem_map_of_mem he)]
  exact lookup_of_count_eq_one he hcount

/-- **What a carrier holds after its writes.** A write with an empty value changes nothing. A
carrier built by writes from the empty one (the one `ofList` collects, and the one a propagator
writes for a context) holds each key written with a non-empty value exactly once, in the order
of its first such write; each entry has its key's last non-empty value, so no value is empty;
looking a key up gives its last non-empty value; and its size is the number of keys ever written
with a non-empty value. Its entries are the attributes it becomes, in that order. -/
theorem written_carrier (pairs : List (String × String)) :
    (∀ (c : Carrier) (k : String), c.set k "" = c) ∧
      (ofList pairs).keys = writtenKeys pairs ∧ (ofList pairs).keys.Nodup ∧
      (∀ e ∈ (ofList pairs).entries, lastWritten? pairs e.1 = some e.2 ∧ e.2 ≠ "") ∧
      (∀ k, (ofList pairs).get? k = lastWritten? pairs k) ∧
      (∀ k, k ∈ (ofList pairs).keys ↔ ∃ v, (k, v) ∈ pairs ∧ v ≠ "") ∧
      (ofList pairs).size = (writtenKeys pairs).length := by
  have h := holds_ofList pairs
  refine ⟨set_empty, h.keys_eq, (ofList pairs).nodup_keys, fun e he => ?_, h.get?_eq,
    h.mem_keys_iff, ?_⟩
  · have hlast := h.lastWritten?_of_mem he
    exact ⟨hlast, lastWritten?_ne_empty hlast⟩
  · rw [size, ← h.keys_eq, keys, List.length_map]

example : (ofList [("a", "1"), ("b", "2"), ("a", "3"), ("c", "")]).entries =
    [("a", "3"), ("b", "2")] := by decide

end Carrier

end TracePropagation
