import TracePropagation.Proofs.ParentResolution
import TracePropagation.Proofs.Injection

/-!
# What reading and writing message attributes logs

The messaging code logs when it ignores something it was given. Reading a queue message's
context, a body that passes the envelope test and is still no envelope is ignored with a debug
statement; a body that fails the test is ignored silently. Injecting a carrier that is not
written logs why: a key already present, the budget, or a pair refused.

* `Envelope.ofBody_error` — the reader's errors past the cheap test are all `malformed`, so
  `Envelope.unwrapLog_eq` logs exactly the bodies that look like envelopes and are none;
* `QueueEvent.extractLog_cases` — reading a queue batch logs at most that one statement, and
  when it does, the batch gives no context;
* `resolveLog_of_explicit`, `Tracer.start_logs` — choosing the parent reads the event, and
  logs what reading it logs, only when no explicit parent is given; starting an invocation
  records those statements and then where the parent came from;
* `Target.inject_logs` — an injection logs nothing when it writes or has nothing to write, and
  otherwise one statement naming the reason.
-/

namespace TracePropagation

open TracePropagation.Json

namespace Envelope

/-! ## Errors past the cheap test -/

/-- A failed bind failed in its first step, or in its second on the value of the first. -/
theorem bind_eq_error {ε α β : Type} {x : Except ε α} {f : α → Except ε β} {e : ε}
    (h : (x >>= f) = .error e) : x = .error e ∨ ∃ a, x = .ok a ∧ f a = .error e := by
  cases x with
  | error e' => exact .inl (congrArg Except.error (Except.error.inj h))
  | ok a => exact .inr ⟨a, rfl, h⟩

theorem map_eq_error {ε α β : Type} {x : Except ε α} {f : α → β} {e : ε}
    (h : x.map f = .error e) : x = .error e := by
  cases x with
  | error e' => exact congrArg Except.error (Except.error.inj h)
  | ok a => cases h

theorem optString_error {d : Doc} {e : UnwrapError} (h : optString d = .error e) :
    e = .malformed := by
  unfold optString at h
  split at h
  · cases h
  · split at h
    · cases h
    · exact (Except.error.inj h).symm
  · exact (Except.error.inj h).symm

theorem setOnce_error {α : Type} {slot : Option (Option α)} {v : Option α} {e : UnwrapError}
    (h : setOnce slot v = .error e) : e = .malformed := by
  unfold setOnce at h
  split at h
  · exact (Except.error.inj h).symm
  · cases h

theorem attributeMembers_error {ms : List (List Char × Doc)} {ty val : Option (Option String)}
    {e : UnwrapError} (h : attributeMembers ms ty val = .error e) : e = .malformed := by
  fun_induction attributeMembers ms ty val with
  | case1 => cases h
  | case2 => exact (Except.error.inj h).symm
  | case3 | case6 => rw [← Except.error.inj h]; exact optString_error ‹_›
  | case4 | case7 => rw [← Except.error.inj h]; exact setOnce_error ‹_›
  | case5 | case8 | case9 => exact ‹_ = Except.error e → e = .malformed› h

theorem readAttribute_error {d : Doc} {e : UnwrapError} (h : readAttribute d = .error e) :
    e = .malformed := by
  unfold readAttribute at h
  split at h
  · exact attributeMembers_error h
  · cases h
  · exact optString_error (map_eq_error h)
  · -- the type is read, then the value
    rcases bind_eq_error h with ht | ⟨ty, -, hval⟩
    · exact optString_error ht
    rcases bind_eq_error hval with hv | ⟨val, -, hpure⟩
    · exact optString_error hv
    · cases hpure
  · exact (Except.error.inj h).symm

theorem attributeMap_error {ms : List (List Char × Doc)} {acc : List (String × EnvelopeAttribute)}
    {e : UnwrapError} (h : attributeMap ms acc = .error e) : e = .malformed := by
  fun_induction attributeMap ms acc with
  | case1 => cases h
  | case2 => exact (Except.error.inj h).symm
  | case3 => rw [← Except.error.inj h]; exact readAttribute_error ‹_›
  | case4 => exact ‹_ = Except.error e → e = .malformed› h

/-- A member read and then set once fails as the read does, or as `malformed`. -/
theorem bind_setOnce_error {α : Type} {x : Except UnwrapError (Option α)} {slot : Option (Option α)}
    {e : UnwrapError} (h : (x >>= setOnce slot) = .error e) : x = .error e ∨ e = .malformed :=
  (bind_eq_error h).imp_right fun ⟨_, _, hset⟩ => setOnce_error hset

theorem members_error {ms : List (List Char × Doc)} {s : Slots} {e : UnwrapError}
    (h : members ms s = .error e) : e = .malformed := by
  fun_induction members ms s with
  | case1 => cases h
  | case2 => exact (Except.error.inj h).symm
  | case4 | case6 | case8 =>
    rw [← Except.error.inj h]
    rcases bind_setOnce_error ‹_ >>= _ = _› with hread | hmalformed
    · exact optString_error hread
    · exact hmalformed
  | case10 k d rest s read e' hset =>
    rw [← Except.error.inj h]
    rcases bind_setOnce_error hset with hread | hmalformed
    · -- the attributes member is `null`, an object of attributes, or malformed
      simp only [read] at hread
      split at hread
      · cases hread
      · exact attributeMap_error (map_eq_error hread)
      · exact (Except.error.inj hread).symm
    · exact hmalformed
  | case3 | case5 | case7 | case9 | case11 => exact ‹_ = Except.error e → e = .malformed› h

/-- The reader fails with `notAnEnvelope` exactly when the body fails the cheap test. -/
theorem ofBody_error {body : String} {e : UnwrapError} (h : ofBody body = .error e) :
    (e = .notAnEnvelope ↔ looksLikeEnvelope body = false) := by
  unfold ofBody at h
  by_cases hlooks : looksLikeEnvelope body = true
  · rw [if_neg (by simp [hlooks])] at h
    have hmalformed : e = .malformed := by
      split at h
      · split at h
        · cases h
        · next e' hm =>
          rw [← Except.error.inj h]
          exact members_error hm
      · exact (Except.error.inj h).symm
    simp [hmalformed, hlooks]
  · rw [if_pos (by simpa using hlooks)] at h
    simp [← Except.error.inj h, Bool.eq_false_iff.mpr hlooks]

/-- **Ignored bodies.** Looking for an envelope logs exactly the bodies that pass the cheap test
and still hold no envelope, each with the one debug statement of a malformed envelope. -/
theorem unwrapLog_eq (body : String) :
    unwrapLog body =
      if looksLikeEnvelope body = true ∧ tryUnwrap body = none then [ignoredEvent .malformed]
      else [] := by
  unfold unwrapLog tryUnwrap
  cases hb : ofBody body with
  | ok env => simp [Except.toOption]
  | error e =>
    have hkind := ofBody_error hb
    cases e with
    | notAnEnvelope => simp [hkind.mp rfl]
    | malformed =>
      have hlooks : looksLikeEnvelope body = true := by simpa using mt hkind.mpr (by simp)
      simp [hlooks, Except.toOption]

end Envelope

/-! ## Reading a queue batch -/

namespace QueueMessage

/-- The body of a message that the reader ignores after the attributes gave no context: it
looks like an envelope and is none. -/
def IgnoredBody (m : QueueMessage) (p : Propagator) : Prop :=
  (m.received.extract p).isEmpty = true ∧
    ∃ body, m.body = some body ∧ Envelope.looksLikeEnvelope body = true ∧
      Envelope.tryUnwrap body = none

/-- **Reading a message.** A message whose body is ignored logs the debug statement of an
ignored body. -/
theorem extractLog_of_ignoredBody {m : QueueMessage} {p : Propagator} (h : m.IgnoredBody p) :
    m.extractLog p = [Envelope.ignoredEvent .malformed] := by
  obtain ⟨hnative, body, hbody, hlooks, hnone⟩ := h
  simp [extractLog, hnative, hbody, Envelope.unwrapLog_eq, hlooks, hnone]

/-- Any other message logs nothing. -/
theorem extractLog_of_not_ignoredBody {m : QueueMessage} {p : Propagator}
    (h : ¬m.IgnoredBody p) : m.extractLog p = [] := by
  unfold extractLog
  by_cases hnative : (m.received.extract p).isEmpty = true
  · rw [if_neg (by simp [hnative])]
    cases hbody : m.body with
    | none => rfl
    | some body =>
      show Envelope.unwrapLog body = []
      rw [Envelope.unwrapLog_eq, if_neg]
      exact fun ⟨hlooks, hnone⟩ => h ⟨hnative, body, hbody, hlooks, hnone⟩
  · rw [if_pos (by simpa using hnative)]

/-- A message whose body is ignored gives no context. -/
theorem extract_of_ignoredBody {m : QueueMessage} {p : Propagator} (h : m.IgnoredBody p) :
    m.extract p = .empty := by
  obtain ⟨hnative, body, hbody, -, hnone⟩ := h
  simp [extract, hnative, hbody, hnone]

end QueueMessage

/-- **Reading a queue batch.** It logs nothing, or the one debug statement of an ignored body of
its last message; then the batch gives no context. -/
theorem QueueEvent.extractLog_cases (e : QueueEvent) (p : Propagator) :
    e.extractLog p = [] ∨
      e.extractLog p = [Envelope.ignoredEvent .malformed] ∧ e.extract p = .empty := by
  unfold extractLog QueueEvent.extract
  cases e.records.getLast? with
  | none => exact .inl rfl
  | some m =>
    by_cases h : m.IgnoredBody p
    · exact .inr ⟨QueueMessage.extractLog_of_ignoredBody h, QueueMessage.extract_of_ignoredBody h⟩
    · exact .inl (QueueMessage.extractLog_of_not_ignoredBody h)

/-- Only a queue batch's reading logs, and what it logs is as `QueueEvent.extractLog_cases`
says. -/
theorem Source.extractLog_cases (s : Source) (event : s.Event) (p : Propagator) :
    s.extractLog event p = [] ∨
      s.extractLog event p = [Envelope.ignoredEvent .malformed] ∧ s.extract event p = .empty := by
  cases s with
  | queue => exact QueueEvent.extractLog_cases event p
  | _ => exact .inl rfl

/-! ## Choosing the parent and starting an invocation -/

/-- With an explicit parent that is not empty, the event is not read, so nothing of reading it
is logged. -/
theorem resolveLog_of_explicit {explicit : Option Context} {cx : Context}
    (hgiven : explicit = some cx) (hne : cx.isEmpty = false) (s : Source) (event : s.Event)
    (p : Propagator) : resolveLog explicit s event p = [] := by
  have hbind : explicit.bind Context.nonEmpty? = some cx := by
    rw [hgiven, Option.bind_some, (Context.nonEmpty?_eq_some_iff cx cx).mpr ⟨hne, rfl⟩]
  simp [resolveLog, hbind]

/-- **What starting an invocation logs.** On the span current where the invocation starts, the
statements of choosing its parent are recorded, then where the parent came from. Choosing the
parent logs nothing when an explicit parent that is not empty is given, since the event is then
not read; otherwise it logs what reading the event logs: nothing, or the debug statement of an
ignored body, and then the event gave no parent. -/
theorem Tracer.start_logs (tr : Tracer) (event : tr.source.Event) (inv : Invocation)
    (explicit : Option Context) (env : Environment) (t : Telemetry) :
    (tr.start event inv explicit env t).2.current =
        (t.logAll (resolveLog explicit tr.source event tr.propagator ++
          [resolvedEvent (tr.parentOf event inv explicit env).2
            (tr.parentOf event inv explicit env).1])).current ∧
      (∀ cx, explicit = some cx → cx.isEmpty = false →
        resolveLog explicit tr.source event tr.propagator = []) ∧
      (resolveLog explicit tr.source event tr.propagator = [] ∨
        resolveLog explicit tr.source event tr.propagator = [Envelope.ignoredEvent .malformed] ∧
          tr.source.extract event tr.propagator = .empty) := by
  refine ⟨?_, fun cx hgiven hne => resolveLog_of_explicit hgiven hne _ _ _, ?_⟩
  · rw [Tracer.start_eq, Telemetry.logAll_append]
    rfl
  · unfold resolveLog
    split
    · exact .inl rfl
    · exact tr.source.extractLog_cases event tr.propagator

/-! ## Injecting a carrier -/

/-- What an injection logs, by its outcome: nothing when it writes the carrier or the carrier is
empty, and otherwise one statement that names why nothing was written. -/
inductive InjectionLog (t : Target) (c : Carrier) : Outcome → List SpanEvent → Prop where
  /-- An empty carrier. -/
  | empty : InjectionLog t c .empty []
  /-- The pairs were written. -/
  | injected (firstIndex count : Nat) : InjectionLog t c (.injected firstIndex count) []
  /-- A carrier key is already a typed attribute, and the statement names it. -/
  | alreadyInstrumented (k : String) (hk : k ∈ c.keys) (hpresent : k ∈ t.attributes.names) :
      InjectionLog t c .alreadyInstrumented [Target.presentEvent k]
  /-- The budget, with both counts. -/
  | budgetExceeded (existing requested : Nat) :
      InjectionLog t c (.budgetExceeded existing requested)
        [Target.overBudgetEvent existing requested]
  /-- A pair is refused, and the warning names it. -/
  | encodingFailed (k : String) (hk : k ∈ c.keys) (hrefused : t.refuses k = true) :
      InjectionLog t c .encodingFailed [Target.refusedEvent k]

/-- **What an injection logs.** For every request and carrier, the log statements of the
injection are those `InjectionLog` gives its outcome. -/
theorem Target.inject_logs (t : Target) (c : Carrier) :
    InjectionLog t c (t.inject c).1 (t.injectLog c) := by
  unfold inject injectLog
  by_cases hempty : c.isEmpty = true
  · rw [if_pos hempty, if_pos hempty]
    exact .empty
  rw [if_neg hempty, if_neg hempty]
  cases hfound : c.keys.find? t.attributes.contains with
  | some k =>
    -- the first carrier key already present
    have hk := List.mem_of_find?_eq_some hfound
    have hpresent := List.find?_some hfound
    rw [if_pos (List.any_eq_true.mpr ⟨k, hk, hpresent⟩)]
    exact .alreadyInstrumented k hk ((AttributeMap.contains_iff _ _).mp hpresent)
  | none =>
    have hfresh := List.find?_eq_none.mp hfound
    rw [if_neg (by simpa [List.any_eq_true] using hfresh)]
    dsimp only
    by_cases hover : t.attributes.size + c.size > maxMessageAttributes
    · rw [if_pos hover, if_pos hover]
      exact .budgetExceeded _ _
    rw [if_neg hover, if_neg hover]
    cases hrefused : c.keys.find? t.refuses with
    | some k =>
      -- the first pair refused
      have hk := List.mem_of_find?_eq_some hrefused
      have hrefuses := List.find?_some hrefused
      rw [if_pos (List.any_eq_true.mpr ⟨k, hk, hrefuses⟩)]
      exact .encodingFailed k hk hrefuses
    | none =>
      rw [if_neg (by simpa [List.any_eq_true] using List.find?_eq_none.mp hrefused)]
      exact .injected _ _

end TracePropagation
