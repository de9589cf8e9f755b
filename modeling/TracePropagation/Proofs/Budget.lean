import TracePropagation.Proofs.Injection

/-!
# The attribute budget over runs

A message carries at most `maxMessageAttributes` attributes, and injection counts the typed map
against that budget. Over a run of injections (`Target.injectAll`, each carrier written by
hand or by a propagator for a context):

* `Target.size_inject` — **step**: one injection keeps the map's size, or raises it by exactly
  the carrier's size to at most the budget; exactness needs the carrier's keys distinct and new
  to the map, which the collision check guarantees;
* `Target.injectAll_size_le` — **run**: no request of the run has more attributes than the first
  one had or the budget allows, whichever is more;
* `Target.injectAll_of_over_budget` — a request over the budget is never written to.
-/

namespace TracePropagation

namespace Target

theorem size_appendFrom (t : Target) (c : Carrier)
    (hfresh : ∀ k ∈ c.keys, k ∉ t.attributes.names) (n : Nat) :
    (t.appendFrom n c.entries).attributes.size = t.attributes.size + c.size := by
  have hfresh' : ∀ kv ∈ c.entries, kv.1 ∉ t.attributes.names := fun kv hkv =>
    hfresh kv.1 (List.mem_map_of_mem hkv)
  have hperm := appendFrom_entries_perm n c.entries c.nodup_keys hfresh'
  simp only [AttributeMap.size, hperm.length_eq, List.length_append, List.length_map,
    Carrier.size]
  omega

/-- **Step.** One injection keeps the map's size, or raises it by the carrier's size to at most
the budget. -/
theorem size_inject (t : Target) (c : Carrier) :
    (t.inject c).2.attributes.size = t.attributes.size ∨
    ((t.inject c).2.attributes.size = t.attributes.size + c.size ∧
      (t.inject c).2.attributes.size ≤ maxMessageAttributes) := by
  rcases inject_cases t c with ⟨hsame, -⟩ | ⟨-, hfresh, hfits, -, hinj⟩
  · exact .inl (by rw [hsame])
  · have hsize := size_appendFrom t c hfresh (t.attributes.size + 1)
    rw [hinj]
    exact .inr ⟨hsize, hsize ▸ hfits⟩

/-- A request over the budget is never written to. -/
theorem inject_of_over_budget (t : Target) (c : Carrier)
    (hover : maxMessageAttributes < t.attributes.size) : (t.inject c).2 = t := by
  rcases inject_cases t c with ⟨hsame, -⟩ | ⟨-, -, hfits, -, -⟩
  · exact hsame
  · omega

theorem mem_injectAll {t : Target} {c : Carrier} {cs : List Carrier} {r : Outcome × Target} :
    r ∈ t.injectAll (c :: cs) ↔ r = t.inject c ∨ r ∈ (t.inject c).2.injectAll cs := by
  simp [injectAll]

/-- **Run.** Every request of a run has at most as many attributes as the first one had or the
budget allows, whichever is more. -/
theorem injectAll_size_le (t : Target) (cs : List Carrier) :
    ∀ r ∈ t.injectAll cs,
      r.2.attributes.size ≤ max t.attributes.size maxMessageAttributes := by
  induction cs generalizing t with
  | nil => simp [injectAll]
  | cons c rest ih =>
    -- the bound of the rest of the run, taken from the request after the first step
    have hstep : max (t.inject c).2.attributes.size maxMessageAttributes ≤
        max t.attributes.size maxMessageAttributes := by
      rcases size_inject t c with hs | ⟨-, hs⟩ <;> omega
    intro r hr
    rcases mem_injectAll.mp hr with rfl | hr
    · exact Nat.le_trans (Nat.le_max_left _ _) hstep
    · exact Nat.le_trans (ih _ r hr) hstep

/-- **Run.** A run leaves a request over the budget as it was, at every step. -/
theorem injectAll_of_over_budget (t : Target) (cs : List Carrier)
    (hover : maxMessageAttributes < t.attributes.size) : ∀ r ∈ t.injectAll cs, r.2 = t := by
  induction cs with
  | nil => simp [injectAll]
  | cons c rest ih =>
    have hsame := inject_of_over_budget t c hover
    intro r hr
    rcases mem_injectAll.mp hr with rfl | hr
    · exact hsame
    · exact ih r (hsame ▸ hr)

/-- **The attribute budget.** In a run of injections, each step keeps the map's size or raises
it from `e` to exactly `e` plus the carrier's size, at most the budget; so a map within the
budget stays within it, and a request over it is never modified. -/
theorem attribute_budget (t : Target) (cs : List Carrier) :
    (∀ u : Target, ∀ c ∈ cs, (u.inject c).2.attributes.size = u.attributes.size ∨
      ((u.inject c).2.attributes.size = u.attributes.size + c.size ∧
        (u.inject c).2.attributes.size ≤ maxMessageAttributes)) ∧
    (t.attributes.size ≤ maxMessageAttributes →
      ∀ r ∈ t.injectAll cs, r.2.attributes.size ≤ maxMessageAttributes) ∧
    (maxMessageAttributes < t.attributes.size → ∀ r ∈ t.injectAll cs, r.2 = t) := by
  refine ⟨fun u c _ => size_inject u c, fun hle r hr => ?_, injectAll_of_over_budget t cs⟩
  have := injectAll_size_le t cs r hr
  omega

/-- The budget over two steps at an empty queue request: the propagators' trace-context
carrier, then a baggage carrier. -/
theorem attribute_budget_two_steps :
    let cs : List Carrier :=
      [⟨[("traceparent", "00-5759e988bd862e3fe1be46a994272793-53995c3f42cd8ad8-01"),
        ("tracestate", "k=v")], by decide⟩, ⟨[("baggage", "user=alice")], by decide⟩]
    let t : Target := ⟨.queue, fun _ => false, ⟨[]⟩, ⟨[]⟩⟩
    (∀ u : Target, ∀ c ∈ cs, (u.inject c).2.attributes.size = u.attributes.size ∨
      ((u.inject c).2.attributes.size = u.attributes.size + c.size ∧
        (u.inject c).2.attributes.size ≤ maxMessageAttributes)) ∧
    (t.attributes.size ≤ maxMessageAttributes →
      ∀ r ∈ t.injectAll cs, r.2.attributes.size ≤ maxMessageAttributes) ∧
    (maxMessageAttributes < t.attributes.size → ∀ r ∈ t.injectAll cs, r.2 = t) :=
  attribute_budget _ _

end Target

end TracePropagation
