import TracePropagation.Proofs.Budget
import TracePropagation.Proofs.IndexedKeys
import Mathlib.Data.List.Basic

/-!
# The two views of a request stay in step

An outgoing request is seen as indexed query parameters and as a typed attribute map. They are
**consistent** when the indexed parameters are the three keys of each index from one to the
map's size, each once, the names at those indices are the map's names, and each string value is
that of the attribute named at its index.

* `Target.Consistent.append` — **step**: writing a new name at the index after the map's size
  keeps the views consistent;
* `Target.Consistent.inject` — so does every injection, whatever its outcome: a refused one
  writes nothing, an accepted one writes new, distinct names from the index after the size on;
* `Target.Consistent.injectAll` — **run**: so does every run of injections;
* `Target.Consistent.messageAttributes_eq` — a consistent request whose size is a machine word
  reads its parameters back as the attributes at indices one to the size, in order.
-/

namespace TracePropagation

/-! ## Association lists -/

theorem lookup_append_of_mem {β : Type} {ps qs : List (String × β)} {k : String}
    (h : k ∈ ps.map (·.1)) : (ps ++ qs).lookup k = ps.lookup k := by
  rw [List.lookup_append]
  obtain ⟨kv, hkv, rfl⟩ := List.mem_map.mp h
  obtain ⟨b, hb⟩ : ∃ b, ps.lookup kv.1 = some b :=
    Option.isSome_iff_exists.mp (List.lookup_isSome_iff.mpr ⟨kv, hkv, beq_self_eq_true _⟩)
  simp [hb]

theorem lookup_append_of_not_mem {β : Type} {ps qs : List (String × β)} {k : String}
    (h : k ∉ ps.map (·.1)) : (ps ++ qs).lookup k = qs.lookup k := by
  rw [List.lookup_append, lookup_eq_none_of_not_mem h, Option.none_or]

/-- A key that occurs once has the value of its one pair. -/
theorem lookup_of_count_eq_one {β : Type} {ps : List (String × β)} {kv : String × β}
    (hkv : kv ∈ ps) (h : (ps.map (·.1)).count kv.1 = 1) : ps.lookup kv.1 = some kv.2 := by
  induction ps with
  | nil => simp at hkv
  | cons e rest ih =>
    obtain ⟨k', v'⟩ := e
    rw [lookup_cons_ite]
    by_cases hk : kv.1 = k'
    · rw [if_pos hk]
      rcases List.mem_cons.mp hkv with rfl | hkv
      · rfl
      · -- a second pair of the key further on would make it occur twice
        have hpos : 0 < (rest.map (·.1)).count kv.1 :=
          List.count_pos_iff.mpr (List.mem_map_of_mem hkv)
        simp only [List.map_cons, List.count_cons, hk, beq_self_eq_true, if_true] at h hpos
        omega
    · rw [if_neg hk]
      rcases List.mem_cons.mp hkv with rfl | hkv
      · exact absurd rfl hk
      · have hb : (k' == kv.1) = false := beq_eq_false_iff_ne.mpr (Ne.symm hk)
        exact ih hkv (by simpa [List.count_cons, hb] using h)

/-- Sorting by index the images of a permutation of a range, under a map that keeps the index
in front, gives the images in range order. -/
theorem mergeSort_map_of_perm_range' {β : Type} {G : Nat → Nat × β} (hG : ∀ i, (G i).1 = i)
    {l : List Nat} {s n : Nat} (hl : l.Perm (List.range' s n)) :
    (l.map G).mergeSort (fun a b => decide (a.1 ≤ b.1)) = (List.range' s n).map G := by
  have hperm := (List.mergeSort_perm (l.map G) fun a b => decide (a.1 ≤ b.1)).trans (hl.map G)
  have hsorted : ((l.map G).mergeSort fun a b => decide (a.1 ≤ b.1)).Pairwise
      fun a b => decide (a.1 ≤ b.1) :=
    List.pairwise_mergeSort (fun _ _ _ h₁ h₂ => by simp only [decide_eq_true_eq] at *; omega)
      (fun _ _ => by simp only [Bool.or_eq_true, decide_eq_true_eq]; omega) _
  have hrange : ((List.range' s n).map G).Pairwise fun a b => decide (a.1 ≤ b.1) := by
    rw [List.pairwise_map]
    exact (List.pairwise_le_range' (s := s) (n := n)).imp fun {i j} hij => by simp [hG, hij]
  -- two sorted permutations of one list agree, since no two images share an index
  refine List.Perm.eq_of_pairwise (fun a b ha hb hab hba => ?_) hsorted hrange hperm
  obtain ⟨i, -, rfl⟩ := List.mem_map.mp (hperm.subset ha)
  obtain ⟨j, -, rfl⟩ := List.mem_map.mp hb
  simp only [hG, decide_eq_true_eq] at hab hba
  rw [Nat.le_antisymm hab hba]

/-! ## Parameters of one attribute -/

namespace Protocol

theorem map_fst_encode (p : Protocol) (n : Nat) (name value : String) :
    (p.encode n name value).map (·.1) =
      [p.partKey .name n, p.partKey .dataType n, p.partKey .stringValue n] := rfl

/-- The three parameters of an attribute hold each key of its index once, and no other key. -/
theorem count_encode (p : Protocol) (n : Nat) (name value : String) (part : KeyPart) (i : Nat) :
    ((p.encode n name value).map (·.1)).count (p.partKey part i) = if i = n then 1 else 0 := by
  rw [map_fst_encode]
  by_cases hi : i = n
  · subst hi
    cases part <;> simp [partKey_inj]
  · have hi' : n ≠ i := Ne.symm hi
    simp [partKey_inj, hi, hi']

theorem lookup_encode_name (p : Protocol) (n : Nat) (name value : String) :
    (p.encode n name value).lookup (p.nameKey n) = some name := by
  simp [encode]

theorem lookup_encode_stringValue (p : Protocol) (n : Nat) (name value : String) :
    (p.encode n name value).lookup (p.stringValueKey n) = some value := by
  have h₁ : p.stringValueKey n ≠ p.nameKey n := by
    simp [stringValueKey_eq_partKey, nameKey_eq_partKey, partKey_inj]
  have h₂ : p.stringValueKey n ≠ p.dataTypeKey n := by
    simp [stringValueKey_eq_partKey, dataTypeKey_eq_partKey, partKey_inj]
  simp [encode, lookup_cons_ite, h₁, h₂]

end Protocol

namespace Target

/-! ## Consistency -/

/-- The two views of a request agree. Its indexed parameters are the three keys of each index
from one to the map's size, each once; the names at those indices are the map's names; and the
string value at each index is that of the attribute named there. -/
structure Consistent (t : Target) : Prop where
  /-- Every indexed parameter is a key of an index from one to the map's size. -/
  indexed : ∀ kv ∈ t.params.pairs, t.protocol.IsIndexedKey kv.1 →
    ∃ part i, 1 ≤ i ∧ i ≤ t.attributes.size ∧ kv.1 = t.protocol.partKey part i
  /-- Each key of those indices occurs once. -/
  once : ∀ part i, 1 ≤ i → i ≤ t.attributes.size →
    (t.params.pairs.map (·.1)).count (t.protocol.partKey part i) = 1
  /-- The names at the indices are the map's names. -/
  names : ((List.range' 1 t.attributes.size).filterMap fun i =>
    t.params.get? (t.protocol.nameKey i)).Perm t.attributes.names
  /-- The string value at an index is that of the attribute named there. -/
  values : ∀ i name, 1 ≤ i → i ≤ t.attributes.size →
    t.params.get? (t.protocol.nameKey i) = some name →
    t.params.get? (t.protocol.stringValueKey i) =
      (t.attributes.entries.lookup name).bind (·.stringValue)

namespace Consistent

variable {t : Target} (h : t.Consistent)
include h

theorem mem_keys (part : KeyPart) {i : Nat} (h1 : 1 ≤ i) (h2 : i ≤ t.attributes.size) :
    t.protocol.partKey part i ∈ t.params.pairs.map (·.1) :=
  List.count_pos_iff.mp (by rw [h.once part i h1 h2]; exact Nat.one_pos)

/-- No key of the index after the map's size is a parameter yet. -/
theorem not_mem_keys (part : KeyPart) :
    t.protocol.partKey part (t.attributes.size + 1) ∉ t.params.pairs.map (·.1) := by
  intro hmem
  obtain ⟨kv, hkv, hk⟩ := List.mem_map.mp hmem
  obtain ⟨part', j, -, hj, hk'⟩ := h.indexed kv hkv (hk ▸ Protocol.isIndexedKey_partKey _ _ _)
  have := (Protocol.partKey_inj.mp (hk.symm.trans hk')).2
  omega

/-- A key of an index of the map has a value. -/
theorem get?_partKey (part : KeyPart) {i : Nat} (h1 : 1 ≤ i) (h2 : i ≤ t.attributes.size) :
    ∃ v, t.params.get? (t.protocol.partKey part i) = some v := by
  obtain ⟨kv, hkv, hk⟩ := List.mem_map.mp (h.mem_keys part h1 h2)
  refine ⟨kv.2, ?_⟩
  rw [Parameters.get?, ← hk]
  exact lookup_of_count_eq_one hkv (hk ▸ h.once part i h1 h2)

/-! ### One more attribute -/

/-- **Step.** Writing a new name at the index after the map's size keeps the views in step. -/
theorem append {name : String} (value : String) (hfresh : name ∉ t.attributes.names) :
    (t.append (t.attributes.size + 1) name value).Consistent := by
  set n := t.attributes.size with hn
  have hsize : (t.append (n + 1) name value).attributes.size = n + 1 := size_append _ _ hfresh
  -- a key of an old index keeps its first value; the new index is read from the new triple
  have hold : ∀ part i, 1 ≤ i → i ≤ n →
      (t.append (n + 1) name value).params.get? (t.protocol.partKey part i) =
        t.params.get? (t.protocol.partKey part i) := fun part i h1 h2 => by
    simp only [append_params, Parameters.get?]
    exact lookup_append_of_mem (h.mem_keys part h1 h2)
  have hnew : ∀ part,
      (t.append (n + 1) name value).params.get? (t.protocol.partKey part (n + 1)) =
        (t.protocol.encode (n + 1) name value).lookup (t.protocol.partKey part (n + 1)) :=
    fun part => by
      simp only [append_params, Parameters.get?]
      exact lookup_append_of_not_mem (h.not_mem_keys part)
  constructor
  · -- indexed: the old parameters have old indices, the new ones the new index
    intro kv hkv hidx
    simp only [append_protocol] at hidx ⊢
    rw [hsize]
    simp only [append_params, List.mem_append] at hkv
    rcases hkv with hkv | hkv
    · obtain ⟨part, i, h1, h2, hk⟩ := h.indexed kv hkv hidx
      exact ⟨part, i, h1, by omega, hk⟩
    · simp only [Protocol.encode, List.mem_cons, List.not_mem_nil, or_false] at hkv
      rcases hkv with rfl | rfl | rfl
      · exact ⟨.name, n + 1, by omega, Nat.le_refl _, rfl⟩
      · exact ⟨.dataType, n + 1, by omega, Nat.le_refl _, rfl⟩
      · exact ⟨.stringValue, n + 1, by omega, Nat.le_refl _, rfl⟩
  · -- once: old keys are counted in the old parameters, new keys in the new triple
    intro part i h1 h2
    rw [hsize] at h2
    simp only [append_protocol, append_params, List.map_append, List.count_append,
      Protocol.count_encode]
    by_cases hi : i = n + 1
    · subst hi
      rw [List.count_eq_zero.mpr (h.not_mem_keys part), if_pos rfl]
    · rw [h.once part i h1 (by omega), if_neg hi]
  · -- names: the new index names the new attribute
    have hnames : (t.append (n + 1) name value).attributes.names.Perm
        (name :: t.attributes.names) := names_append_perm _ _ hfresh
    refine List.Perm.trans ?_ hnames.symm
    rw [hsize, List.range'_concat, List.filterMap_append]
    have hfirst : (List.range' 1 n).filterMap (fun i =>
        (t.append (n + 1) name value).params.get?
          ((t.append (n + 1) name value).protocol.nameKey i)) =
        (List.range' 1 n).filterMap fun i => t.params.get? (t.protocol.nameKey i) :=
      List.filterMap_congr fun i hi => by
        obtain ⟨h1, h2⟩ := List.mem_range'_1.mp hi
        exact hold .name i h1 (by omega)
    have hlast : (t.append (n + 1) name value).params.get?
        ((t.append (n + 1) name value).protocol.nameKey (1 + 1 * n)) = some name := by
      rw [append_protocol, show 1 + 1 * n = n + 1 by omega, Protocol.nameKey_eq_partKey, hnew,
        ← Protocol.nameKey_eq_partKey, Protocol.lookup_encode_name]
    rw [hfirst, List.filterMap_cons, hlast, List.filterMap_nil]
    exact (h.names.append_right [name]).trans (List.perm_append_singleton _ _)
  · -- values: an old name keeps its attribute, since the new name differs from it
    intro i nm h1 h2 hget
    rw [hsize] at h2
    simp only [append_protocol] at hget ⊢
    by_cases hi : i = n + 1
    · subst hi
      rw [Protocol.nameKey_eq_partKey, hnew, ← Protocol.nameKey_eq_partKey,
        Protocol.lookup_encode_name] at hget
      cases hget
      rw [Protocol.stringValueKey_eq_partKey, hnew, ← Protocol.stringValueKey_eq_partKey,
        Protocol.lookup_encode_stringValue]
      simp [AttributeMap.lookup_insertEntry, AttributeMap.insert]
    · have hi' : i ≤ n := by omega
      rw [Protocol.nameKey_eq_partKey, hold .name i h1 hi', ← Protocol.nameKey_eq_partKey] at hget
      rw [Protocol.stringValueKey_eq_partKey, hold .stringValue i h1 hi',
        ← Protocol.stringValueKey_eq_partKey, h.values i nm h1 hi' hget]
      have hnm : nm ∈ t.attributes.names := h.names.subset
        (List.mem_filterMap.mpr ⟨i, List.mem_range'_1.mpr ⟨h1, by omega⟩, hget⟩)
      have hne : nm ≠ name := fun heq => hfresh (heq ▸ hnm)
      simp [AttributeMap.insert, AttributeMap.lookup_insertEntry, hne]

/-- Writing pairs with distinct new names from the index after the map's size keeps the views
in step: each pair lands at the index after the size the previous one left. -/
theorem appendFrom {ps : List (String × String)} (hps : (ps.map (·.1)).Nodup)
    (hfresh : ∀ kv ∈ ps, kv.1 ∉ t.attributes.names) :
    (t.appendFrom (t.attributes.size + 1) ps).Consistent := by
  induction ps generalizing t with
  | nil => exact h
  | cons kv rest ih =>
    obtain ⟨k, v⟩ := kv
    have hk : k ∉ t.attributes.names := hfresh _ List.mem_cons_self
    have hnext := fresh_append (t.attributes.size + 1) v hps hfresh
    rw [Target.appendFrom, show t.attributes.size + 1 + 1 =
      (t.append (t.attributes.size + 1) k v).attributes.size + 1 by rw [size_append _ _ hk]]
    exact ih (h.append v hk) (List.nodup_cons.mp hps).2 hnext

/-- Injecting a carrier keeps the views in step, whatever the outcome. -/
theorem inject (c : Carrier) : (t.inject c).2.Consistent := by
  rcases inject_cases t c with ⟨hsame, -⟩ | ⟨-, hfresh, -, -, hinj⟩
  · rw [hsame]
    exact h
  · rw [hinj]
    exact h.appendFrom c.nodup_keys fun kv hkv => hfresh kv.1 (List.mem_map_of_mem hkv)

/-! ### Reading the attributes back -/

/-- When the map's size is a machine word, a parameter is read as the name of the attribute at
index `j` exactly when its key is the name key of `j`, an index of the map. -/
theorem attributeIndex_eq_some (hword : t.attributes.size < Protocol.indexBound)
    {kv : String × String} (hkv : kv ∈ t.params.pairs) (j : Nat) :
    t.protocol.attributeIndex kv.1 = some j ↔
      1 ≤ j ∧ j ≤ t.attributes.size ∧ kv.1 = t.protocol.nameKey j := by
  constructor
  · intro hj
    obtain ⟨part, i, h1, h2, hk⟩ :=
      h.indexed kv hkv (Protocol.isIndexedKey_of_attributeIndex hj)
    rw [hk] at hj ⊢
    cases part with
    | name =>
      rw [← Protocol.nameKey_eq_partKey, Protocol.attributeIndex_nameKey (by omega)] at hj
      cases hj
      exact ⟨h1, h2, rfl⟩
    | dataType | stringValue =>
      rw [Protocol.attributeIndex_partKey_of_ne (by decide)] at hj
      cases hj
  · rintro ⟨h1, h2, hk⟩
    rw [hk, Protocol.attributeIndex_nameKey (by omega)]

/-- The indices that a consistent request's parameters name are those of the map, each once. -/
theorem indices_perm (hword : t.attributes.size < Protocol.indexBound) :
    (t.params.pairs.filterMap fun kv => t.protocol.attributeIndex kv.1).Perm
      (List.range' 1 t.attributes.size) := by
  rw [List.perm_iff_count]
  intro j
  rw [List.count_filterMap, (List.nodup_range' (s := 1) (n := t.attributes.size)).count,
    List.countP_congr (q := fun kv => decide (1 ≤ j ∧ j ≤ t.attributes.size ∧
      kv.1 = t.protocol.nameKey j)) fun kv hkv => by simp [h.attributeIndex_eq_some hword hkv j]]
  by_cases hj : 1 ≤ j ∧ j ≤ t.attributes.size
  · have hcount := h.once .name j hj.1 hj.2
    rw [← Protocol.nameKey_eq_partKey, List.count_eq_countP, List.countP_map] at hcount
    rw [if_pos (List.mem_range'_1.mpr ⟨hj.1, by omega⟩)]
    refine (List.countP_congr fun kv _ => ?_).trans hcount
    simp [hj]
  · rw [if_neg fun hmem => hj ⟨(List.mem_range'_1.mp hmem).1, by
      have := (List.mem_range'_1.mp hmem).2; omega⟩]
    simp only [List.countP_eq_zero, decide_eq_true_eq]
    exact fun _ _ hk => hj ⟨hk.1, hk.2.1⟩

/-- A consistent request whose map's size is a machine word lists its attributes at the indices
from one to that size, in order, each with the name and string value held at its index. -/
theorem messageAttributes_eq (hword : t.attributes.size < Protocol.indexBound) :
    t.params.messageAttributes t.protocol = (List.range' 1 t.attributes.size).map fun i =>
      (i, (t.params.get? (t.protocol.nameKey i)).getD "",
        (t.params.get? (t.protocol.stringValueKey i)).getD "") := by
  set G : Nat → Nat × String × String := fun i =>
    (i, (t.params.get? (t.protocol.nameKey i)).getD "",
      (t.params.get? (t.protocol.stringValueKey i)).getD "") with hG
  -- each name parameter is read at its own index, with its own value as the name
  have hfound : (t.params.pairs.filterMap fun kv => (t.protocol.attributeIndex kv.1).map
      fun n => (n, kv.2, (t.params.get? (t.protocol.stringValueKey n)).getD "")) =
      (t.params.pairs.filterMap fun kv => t.protocol.attributeIndex kv.1).map G := by
    rw [List.map_filterMap]
    refine List.filterMap_congr fun kv hkv => ?_
    cases hj : t.protocol.attributeIndex kv.1 with
    | none => simp
    | some j =>
      obtain ⟨h1, h2, hk⟩ := (h.attributeIndex_eq_some hword hkv j).mp hj
      have hname : t.params.get? (t.protocol.nameKey j) = some kv.2 := by
        rw [Parameters.get?, ← hk]
        exact lookup_of_count_eq_one hkv (by rw [hk]; exact h.once .name j h1 h2)
      simp [hG, hname]
  calc t.params.messageAttributes t.protocol
      = ((t.params.pairs.filterMap fun kv => t.protocol.attributeIndex kv.1).map G).mergeSort
          fun a b => decide (a.1 ≤ b.1) := by
        rw [← hfound]
        rfl
    _ = _ := mergeSort_map_of_perm_range' (fun _ => rfl) (h.indices_perm hword)

/-- **Reading back.** The indices listed are one to the map's size in order, the names listed
are the map's names, and each listed value is the string value of the attribute listed with
it. -/
theorem messageAttributes_spec (hword : t.attributes.size < Protocol.indexBound) :
    (t.params.messageAttributes t.protocol).map (·.1) = List.range' 1 t.attributes.size ∧
    ((t.params.messageAttributes t.protocol).map (·.2.1)).Perm t.attributes.names ∧
    ∀ a ∈ t.params.messageAttributes t.protocol,
      (t.attributes.entries.lookup a.2.1).bind (·.stringValue) = some a.2.2 := by
  rw [h.messageAttributes_eq hword]
  -- every index of the map has a name and a string value
  have hname : ∀ i ∈ List.range' 1 t.attributes.size,
      t.params.get? (t.protocol.nameKey i) = some ((t.params.get? (t.protocol.nameKey i)).getD "") :=
    fun i hi => by
      obtain ⟨h1, h2⟩ := List.mem_range'_1.mp hi
      obtain ⟨v, hv⟩ := h.get?_partKey .name h1 (by omega)
      rw [Protocol.nameKey_eq_partKey, hv, Option.getD_some]
  refine ⟨by simp [List.map_map, Function.comp_def], ?_, ?_⟩
  · have hfm := List.filterMap_congr hname
    rw [List.filterMap_eq_map'] at hfm
    rw [List.map_map]
    exact hfm ▸ h.names
  · intro a ha
    obtain ⟨i, hi, rfl⟩ := List.mem_map.mp ha
    obtain ⟨h1, h2⟩ := List.mem_range'_1.mp hi
    obtain ⟨v, hv⟩ := h.get?_partKey .stringValue h1 (by omega)
    rw [← Protocol.stringValueKey_eq_partKey] at hv
    rw [← h.values i _ h1 (by omega) (hname i hi), hv, Option.getD_some]

end Consistent

/-- **Run.** Every request a run of injections leaves has its views in step, if the first one
has. -/
theorem Consistent.injectAll {t : Target} (h : t.Consistent) (cs : List Carrier) :
    ∀ r ∈ t.injectAll cs, r.2.Consistent := by
  induction cs generalizing t with
  | nil => simp [Target.injectAll]
  | cons c rest ih =>
    have hstep := h.inject c
    intro r hr
    rcases mem_injectAll.mp hr with rfl | hr
    · exact hstep
    · exact ih hstep r hr

/-- **The views stay in step.** From a consistent request whose size is a machine word, every
run of injections leaves consistent requests after every step, whatever the outcomes; each of them reads its parameters back as its map's attributes at the
indices one to its size, with no gap and no index twice. -/
theorem views_stay_in_step (t : Target) (cs : List Carrier) (h : t.Consistent) (hword : t.attributes.size < Protocol.indexBound) :
    ∀ r ∈ t.injectAll cs, r.2.Consistent ∧
      (r.2.params.messageAttributes r.2.protocol).map (·.1) = List.range' 1 r.2.attributes.size ∧
      ((r.2.params.messageAttributes r.2.protocol).map (·.2.1)).Perm r.2.attributes.names ∧
      ∀ a ∈ r.2.params.messageAttributes r.2.protocol,
        (r.2.attributes.entries.lookup a.2.1).bind (·.stringValue) = some a.2.2 := by
  intro r hr
  have hr' := h.injectAll cs r hr
  -- every size of the run stays a machine word: it is the first one or within the budget
  have hsize : r.2.attributes.size < Protocol.indexBound := by
    have := injectAll_size_le t cs r hr
    have : maxMessageAttributes < Protocol.indexBound := by decide
    omega
  exact ⟨hr', hr'.messageAttributes_spec hsize⟩

/-- A queue request with an unrelated parameter and one custom attribute stays in step over a
trace-context injection and then a baggage injection. -/
theorem views_stay_in_step_after_custom_attribute :
    let t : Target := ⟨.queue, fun _ => false,
      ⟨[("Action", "SendMessage"), ("MessageAttribute.1.Name", "custom"),
        ("MessageAttribute.1.Value.DataType", "String"),
        ("MessageAttribute.1.Value.StringValue", "x")]⟩,
      ⟨[("custom", ⟨"String", some "x"⟩)]⟩⟩
    let cs : List Carrier :=
      [⟨[("traceparent", "00-5759e988bd862e3fe1be46a994272793-53995c3f42cd8ad8-01"),
        ("tracestate", "k=v")], by decide⟩, ⟨[("baggage", "user=alice")], by decide⟩]
    t.Consistent ∧ t.attributes.size < Protocol.indexBound ∧
      ∀ r ∈ t.injectAll cs, r.2.Consistent ∧
        (r.2.params.messageAttributes r.2.protocol).map (·.1) =
          List.range' 1 r.2.attributes.size ∧
        ((r.2.params.messageAttributes r.2.protocol).map (·.2.1)).Perm r.2.attributes.names ∧
        ∀ a ∈ r.2.params.messageAttributes r.2.protocol,
          (r.2.attributes.entries.lookup a.2.1).bind (·.stringValue) = some a.2.2 := by
  intro t cs
  have hc : t.Consistent := by
    constructor
    · intro kv hkv hidx
      simp only [t, List.mem_cons, List.not_mem_nil, or_false] at hkv
      rcases hkv with rfl | rfl | rfl | rfl
      · -- `Action` does not start with the key start
        obtain ⟨ds, part, -, -, h⟩ := hidx
        have := congrArg List.head? h
        simp [t, Protocol.keyStart] at this
      · exact ⟨.name, 1, Nat.le_refl _, Nat.le_refl _, rfl⟩
      · exact ⟨.dataType, 1, Nat.le_refl _, Nat.le_refl _, rfl⟩
      · exact ⟨.stringValue, 1, Nat.le_refl _, Nat.le_refl _, rfl⟩
    · intro part i h1 h2
      obtain rfl : i = 1 := by simp [t, AttributeMap.size] at h2; omega
      cases part <;> decide
    · decide
    · intro i name h1 h2 hget
      obtain rfl : i = 1 := by simp [t, AttributeMap.size] at h2; omega
      obtain rfl : name = "custom" := by
        have : (some "custom" : Option String) = some name := by rw [← hget]; decide
        exact (Option.some.inj this).symm
      decide
  exact ⟨hc, by decide, views_stay_in_step t cs hc (by decide)⟩

end Target

end TracePropagation
