import TracePropagation.Invocation.Tracer

/-!
# Choosing an invocation's parent

`resolveParent` tries the candidates for an invocation's parent in a fixed order and takes the
first that gives a context: an explicit context that is not empty, the context read from the
event if it is not empty, and, unless switched off, the context named by the cloud trace
header. This module states that order as a relation and proves what follows from it:

* `CloudTrace.HeaderChosen` — the header that counts: the invocation's own if it is not empty,
  else the environment's if that is not empty (`CloudTrace.header_eq_some_iff`);
* `ParentResolution` — the four outcomes, each with the conditions that select it;
* `resolveParent_resolution` — resolution meets `ParentResolution`;
* `ParentResolution.source_eq_none_iff` — the source is `none` exactly when the context is
  empty, since a header names a parent only with a valid span context;
* `resolveParent_of_explicit`, `resolveParent_of_disabled` — a later candidate is never
  consulted: the event and the propagator play no part once an explicit parent is given, the
  headers none when the header is switched off;
* `Tracer.start_span_of_span_none`, `Tracer.start_span_of_span_some` — the invocation span is
  begun under the resolved context, whatever span of the calling code is current: a root of a
  new trace when the context has no span context, otherwise that span context's child;
* `Tracer.parent_precedence` — all of it together.

A parent that carries baggage but no span context is not empty, so it is taken as a parent,
yet the span begun under it is a root (`Tracer.start_root_under_baggage_parent`).
-/

namespace TracePropagation

/-! ## The cloud trace header -/

namespace CloudTrace

/-- The header that counts, `h`: the invocation's own if it is not empty, else the
environment's if that is not empty. -/
def HeaderChosen (invocation env : Option String) (h : String) : Prop :=
  h ≠ "" ∧ (invocation = some h ∨ ((invocation = none ∨ invocation = some "") ∧ env = some h))

theorem filter_nonEmpty_eq_some (o : Option String) (h : String) :
    o.filter (!·.isEmpty) = some h ↔ o = some h ∧ h ≠ "" := by
  cases o with
  | none => simp
  | some x =>
    by_cases hx : x = ""
    · simp [hx]
    · have hne : (!x.isEmpty) = true := by
        rw [Bool.not_eq_true', Bool.eq_false_iff, ne_eq, String.isEmpty_iff]
        exact hx
      rw [Option.filter_some, if_pos hne, Option.some.injEq]
      constructor
      · rintro rfl
        exact ⟨rfl, hx⟩
      · rintro ⟨rfl, -⟩
        rfl

theorem filter_nonEmpty_eq_none (o : Option String) :
    o.filter (!·.isEmpty) = none ↔ o = none ∨ o = some "" := by
  cases o with
  | none => simp
  | some x => by_cases hx : x = "" <;> simp [Option.filter_some, hx]

/-- The header is the invocation's own when it is not empty, else the environment's when that
is not empty. -/
theorem header_eq_some_iff (invocation env : Option String) (h : String) :
    header invocation env = some h ↔ HeaderChosen invocation env h := by
  unfold header HeaderChosen
  cases hi : invocation.filter (!·.isEmpty) with
  | some x =>
    obtain ⟨rfl, hx⟩ := (filter_nonEmpty_eq_some _ _).mp hi
    constructor
    · rintro ⟨⟩
      exact ⟨hx, .inl rfl⟩
    · rintro ⟨-, hxh | ⟨hnone | hblank, -⟩⟩
      · rw [hxh]
      · cases hnone
      · cases hblank
        exact absurd rfl hx
  | none =>
    -- the invocation's header is absent or empty: the environment's counts
    have hinv := (filter_nonEmpty_eq_none _).mp hi
    simp only []
    rw [filter_nonEmpty_eq_some]
    constructor
    · rintro ⟨henv, hh⟩
      exact ⟨hh, .inr ⟨hinv, henv⟩⟩
    · rintro ⟨hh, hgiven | ⟨-, henv⟩⟩
      · rcases hinv with hnone | hblank
        · rw [hnone] at hgiven
          cases hgiven
        · rw [hblank] at hgiven
          cases hgiven
          exact absurd rfl hh
      · exact ⟨henv, hh⟩

/-- A header names only valid span contexts. -/
theorem parse_isValid {h : String} {sc : SpanContext} (hp : parse h = some sc) :
    sc.isValid = true := by
  unfold parse at hp
  simp only [Option.bind_eq_bind, Option.bind_eq_some_iff, Option.ite_none_right_eq_some] at hp
  obtain ⟨fs, -, t, -, s, -, hv, hsc⟩ := hp
  rw [← Option.some.inj hsc]
  exact hv

/-- The context of a header holds the valid span context it names. -/
theorem context_span {h : String} {cx : Context} (hc : context h = some cx) :
    ∃ sc, cx.span = some sc ∧ sc.isValid = true := by
  obtain ⟨sc, hp, rfl⟩ := Option.map_eq_some_iff.mp hc
  exact ⟨sc, rfl, parse_isValid hp⟩

end CloudTrace

/-! ## Empty contexts -/

namespace Context

theorem isEmpty_of_span_valid {cx : Context} {sc : SpanContext} (hspan : cx.span = some sc)
    (hvalid : sc.isValid = true) : cx.isEmpty = false := by
  simp [isEmpty, spanContext, hspan, hvalid]

@[simp] theorem isEmpty_empty : Context.empty.isEmpty = true := rfl

theorem nonEmpty?_eq_some_iff (cx cx' : Context) :
    cx.nonEmpty? = some cx' ↔ cx.isEmpty = false ∧ cx = cx' := by
  unfold nonEmpty?
  cases cx.isEmpty <;> simp

theorem nonEmpty?_eq_none_iff (cx : Context) : cx.nonEmpty? = none ↔ cx.isEmpty = true := by
  unfold nonEmpty?
  cases cx.isEmpty <;> simp

theorem bind_nonEmpty?_eq_none_iff (explicit : Option Context) :
    explicit.bind nonEmpty? = none ↔ ∀ cx, explicit = some cx → cx.isEmpty = true := by
  cases explicit with
  | none => simp
  | some cx => simp [nonEmpty?_eq_none_iff]

end Context

/-! ## The order of the candidates -/

/-- The parent of an invocation and where it came from, by the order of the candidates. Each
outcome's conditions deny those of the outcomes before it. `extracted` is the context read from
the event; the cloud trace header counts unless `disabled`, and gives a parent only when it
parses. -/
inductive ParentResolution (disabled : Bool) (explicit : Option Context) (extracted : Context)
    (invocationHeader envHeader : Option String) : Context × ParentSource → Prop where
  /-- An explicit context that is not empty. -/
  | explicit {cx : Context} (hgiven : explicit = some cx) (hne : cx.isEmpty = false) :
      ParentResolution disabled explicit extracted invocationHeader envHeader (cx, .explicit)
  /-- Else the context read from the event, if it is not empty. -/
  | event (hexplicit : ∀ cx, explicit = some cx → cx.isEmpty = true)
      (hne : extracted.isEmpty = false) :
      ParentResolution disabled explicit extracted invocationHeader envHeader (extracted, .event)
  /-- Else, unless disabled, the context of the header that counts, if it parses. -/
  | cloudTraceHeader {h : String} {cx : Context}
      (hexplicit : ∀ cx, explicit = some cx → cx.isEmpty = true)
      (hextracted : extracted.isEmpty = true) (henabled : disabled = false)
      (hchosen : CloudTrace.HeaderChosen invocationHeader envHeader h)
      (hparsed : CloudTrace.context h = some cx) :
      ParentResolution disabled explicit extracted invocationHeader envHeader
        (cx, .cloudTraceHeader)
  /-- Else no parent: a new trace begins. -/
  | newTrace (hexplicit : ∀ cx, explicit = some cx → cx.isEmpty = true)
      (hextracted : extracted.isEmpty = true)
      (hheader : disabled = true ∨ ∀ h, CloudTrace.HeaderChosen invocationHeader envHeader h →
        CloudTrace.context h = none) :
      ParentResolution disabled explicit extracted invocationHeader envHeader (.empty, .none)

/-- **Resolution meets its order.** -/
theorem resolveParent_resolution (disabled : Bool) (explicit : Option Context) (s : Source)
    (event : s.Event) (inv : Invocation) (env : Option String) (p : Propagator) :
    ParentResolution disabled explicit (s.extract event p) inv.cloudTraceHeader env
      (resolveParent disabled explicit s event inv env p) := by
  unfold resolveParent
  split
  · next cx hexp =>
    obtain ⟨cx₀, hgiven, hsome⟩ := Option.bind_eq_some_iff.mp hexp
    obtain ⟨hne, rfl⟩ := (Context.nonEmpty?_eq_some_iff _ _).mp hsome
    exact .explicit hgiven hne
  · next hexp =>
    have hexplicit := (Context.bind_nonEmpty?_eq_none_iff _).mp hexp
    split
    · next cx hev =>
      obtain ⟨hne, rfl⟩ := (Context.nonEmpty?_eq_some_iff _ _).mp hev
      exact .event hexplicit hne
    · next hev =>
      have hextracted := (Context.nonEmpty?_eq_none_iff _).mp hev
      cases disabled with
      | true => exact .newTrace hexplicit hextracted (.inl rfl)
      | false =>
        simp only [Bool.false_eq_true, if_false]
        -- the header that counts, if any, and whether it parses
        cases hh : CloudTrace.header inv.cloudTraceHeader env with
        | none =>
          refine .newTrace hexplicit hextracted (.inr fun h hchosen => ?_)
          rw [← CloudTrace.header_eq_some_iff, hh] at hchosen
          cases hchosen
        | some h =>
          have hchosen := (CloudTrace.header_eq_some_iff _ _ _).mp hh
          cases hc : CloudTrace.context h with
          | none =>
            rw [Option.bind_some, hc]
            refine .newTrace hexplicit hextracted (.inr fun h' hchosen' => ?_)
            rw [← CloudTrace.header_eq_some_iff, hh] at hchosen'
            cases hchosen'
            exact hc
          | some cx =>
            rw [Option.bind_some, hc]
            exact .cloudTraceHeader hexplicit hextracted rfl hchosen hc

namespace ParentResolution

variable {disabled : Bool} {explicit : Option Context} {extracted : Context}
  {invocationHeader envHeader : Option String} {r : Context × ParentSource}

/-- The source is `none` exactly when the context is empty. -/
theorem source_eq_none_iff
    (hr : ParentResolution disabled explicit extracted invocationHeader envHeader r) :
    r.2 = .none ↔ r.1.isEmpty = true := by
  cases hr with
  | explicit _ hne => simp [hne]
  | event _ hne => simp [hne]
  | cloudTraceHeader _ _ _ _ hparsed =>
    obtain ⟨sc, hspan, hvalid⟩ := CloudTrace.context_span hparsed
    simp [Context.isEmpty_of_span_valid hspan hvalid]
  | newTrace => simp

/-- Without a parent the context has no span context. -/
theorem span_of_source_none
    (hr : ParentResolution disabled explicit extracted invocationHeader envHeader r)
    (hnone : r.2 = .none) : r.1.span = none := by
  cases hr with
  | newTrace => rfl
  | _ => cases hnone

/-- A parent from the cloud trace header has a valid span context. -/
theorem span_of_source_cloudTraceHeader
    (hr : ParentResolution disabled explicit extracted invocationHeader envHeader r)
    (hcloud : r.2 = .cloudTraceHeader) : ∃ sc, r.1.span = some sc ∧ sc.isValid = true := by
  cases hr with
  | cloudTraceHeader _ _ _ _ hparsed => exact CloudTrace.context_span hparsed
  | _ => cases hcloud

end ParentResolution

/-! ## Later candidates are not consulted -/

/-- An explicit parent that is not empty is taken whatever the event, the propagator, the
headers and the setting. -/
theorem resolveParent_of_explicit {explicit : Option Context} {cx : Context}
    (hgiven : explicit = some cx) (hne : cx.isEmpty = false) (disabled : Bool) (s : Source)
    (event : s.Event) (inv : Invocation) (env : Option String) (p : Propagator) :
    resolveParent disabled explicit s event inv env p = (cx, .explicit) := by
  have hsome : explicit.bind Context.nonEmpty? = some cx := by
    rw [hgiven, Option.bind_some, Context.nonEmpty?_eq_some_iff]
    exact ⟨hne, rfl⟩
  simp only [resolveParent, hsome]

/-- With the cloud trace header switched off, neither header plays a part. -/
theorem resolveParent_of_disabled (explicit : Option Context) (s : Source) (event : s.Event)
    (inv inv' : Invocation) (env env' : Option String) (p : Propagator) :
    resolveParent true explicit s event inv env p =
      resolveParent true explicit s event inv' env' p := by
  simp only [resolveParent, if_true]

/-! ## The span begun under the parent -/

namespace Recorder

theorem beginUnder_of_span_none (r : Recorder) {cx : Context} (hspan : cx.span = none)
    (name : String) (kind : SpanKind) (attrs : List Attribute) :
    r.beginUnder cx name kind attrs =
      (some ⟨r.spansBegun, name, kind, .begun r.tracesBegun, .none, attrs, [], .unset⟩,
        { r with spansBegun := r.spansBegun + 1, tracesBegun := r.tracesBegun + 1 }) := by
  simp [beginUnder, hspan, beginRoot]

theorem beginUnder_of_span_some (r : Recorder) {cx : Context} {sc : SpanContext}
    (hspan : cx.span = some sc) (name : String) (kind : SpanKind) (attrs : List Attribute) :
    (r.beginUnder cx name kind attrs).1 =
      if sc.isSampled then
        some ⟨r.spansBegun, name, kind, .given sc.traceId, .given sc.spanId sc.remote, attrs, [],
          .unset⟩
      else none := by
  simp [beginUnder, hspan]

end Recorder

namespace Tracer

variable (tr : Tracer) (event : tr.source.Event) (inv : Invocation) (explicit : Option Context)
  (env : Environment) (t : Telemetry)

/-- The parent an invocation is started under. -/
abbrev parentOf : Context × ParentSource :=
  resolveParent tr.config.disableCloudHeader explicit tr.source event inv env.cloudTraceHeader
    tr.propagator

/-- Starting an invocation logs what choosing its parent logs, then begins its span on the
recorder as it was: log statements begin no span. -/
theorem start_eq :
    tr.start event inv explicit env t =
      (⟨(t.recorder.beginUnder (tr.parentOf event inv explicit env).1 inv.spanName .server
          (tr.spanAttributes event inv env)).1, .started, tr.flush⟩,
        { (t.logAll (resolveLog explicit tr.source event tr.propagator)).log
            (resolvedEvent (tr.parentOf event inv explicit env).2
              (tr.parentOf event inv explicit env).1) with
          recorder := (t.recorder.beginUnder (tr.parentOf event inv explicit env).1 inv.spanName
            .server (tr.spanAttributes event inv env)).2 }) := by
  simp only [start, Telemetry.log_recorder, Telemetry.logAll_recorder]

/-- Under a context without a span context the invocation span is the root of a new trace,
whatever span of the calling code is current. -/
theorem start_span_of_span_none (hspan : (tr.parentOf event inv explicit env).1.span = none) :
    ∃ s, (tr.start event inv explicit env t).1.span = some s ∧ s.parent = .none ∧
      s.trace = .begun t.recorder.tracesBegun ∧
      (tr.start event inv explicit env t).2.recorder.tracesBegun = t.recorder.tracesBegun + 1 := by
  rw [start_eq, Recorder.beginUnder_of_span_none _ hspan]
  exact ⟨_, rfl, rfl, rfl, rfl⟩

/-- Under a span context the invocation span is its child, in its trace, and is recorded only
when the span context is sampled. -/
theorem start_span_of_span_some {sc : SpanContext}
    (hspan : (tr.parentOf event inv explicit env).1.span = some sc) :
    (tr.start event inv explicit env t).1.span.map (fun s => (s.trace, s.parent)) =
      if sc.isSampled then some (.given sc.traceId, .given sc.spanId sc.remote) else none := by
  rw [start_eq]
  simp only [Recorder.beginUnder_of_span_some _ hspan]
  split <;> rfl

end Tracer

/-- **Parent precedence.** The parent of an invocation is the first candidate that gives one:
an explicit context that is not empty, the event's context if it is not empty, and unless
switched off the context of the cloud trace header that counts, if it parses; otherwise there
is none. The source is `none` exactly when the context is empty; once an explicit parent is
given the event and the propagator play no part, and with the header switched off neither
header does. The invocation span is begun under the parent, whatever span of the calling code
is current: with no span context (always so without a parent) it is the root of a new trace,
and under a valid span context (always so for a header) it is that span context's child in its
trace, recorded when sampled. -/
theorem Tracer.parent_precedence (tr : Tracer) (event : tr.source.Event) (inv : Invocation)
    (explicit : Option Context) (env : Environment) (t : Telemetry) :
    ParentResolution tr.config.disableCloudHeader explicit (tr.source.extract event tr.propagator)
        inv.cloudTraceHeader env.cloudTraceHeader (tr.parentOf event inv explicit env) ∧
      ((tr.parentOf event inv explicit env).2 = .none ↔
        (tr.parentOf event inv explicit env).1.isEmpty = true) ∧
      (∀ cx, explicit = some cx → cx.isEmpty = false → ∀ (event' : tr.source.Event) p',
        resolveParent tr.config.disableCloudHeader explicit tr.source event' inv
          env.cloudTraceHeader p' = tr.parentOf event inv explicit env) ∧
      (tr.config.disableCloudHeader = true → ∀ (inv' : Invocation) env',
        resolveParent tr.config.disableCloudHeader explicit tr.source event inv' env'
          tr.propagator = tr.parentOf event inv explicit env) ∧
      ((tr.parentOf event inv explicit env).2 = .none →
        (tr.parentOf event inv explicit env).1.span = none) ∧
      ((tr.parentOf event inv explicit env).2 = .cloudTraceHeader →
        ∃ sc, (tr.parentOf event inv explicit env).1.span = some sc ∧ sc.isValid = true) ∧
      ((tr.parentOf event inv explicit env).1.span = none →
        ∃ s, (tr.start event inv explicit env t).1.span = some s ∧ s.parent = .none ∧
          s.trace = .begun t.recorder.tracesBegun ∧
          (tr.start event inv explicit env t).2.recorder.tracesBegun =
            t.recorder.tracesBegun + 1) ∧
      (∀ sc, (tr.parentOf event inv explicit env).1.span = some sc → sc.isValid = true →
        (tr.start event inv explicit env t).1.span.map (fun s => (s.trace, s.parent)) =
          if sc.isSampled then some (.given sc.traceId, .given sc.spanId sc.remote) else none) := by
  have hr := resolveParent_resolution tr.config.disableCloudHeader explicit tr.source event inv
    env.cloudTraceHeader tr.propagator
  refine ⟨hr, hr.source_eq_none_iff, fun cx hgiven hne event' p' => ?_, fun hoff inv' env' => ?_,
    hr.span_of_source_none, hr.span_of_source_cloudTraceHeader,
    tr.start_span_of_span_none event inv explicit env t,
    fun sc hspan _ => tr.start_span_of_span_some event inv explicit env t hspan⟩
  · exact (resolveParent_of_explicit hgiven hne _ _ _ _ _ _).trans
      (resolveParent_of_explicit hgiven hne _ _ _ _ _ _).symm
  · unfold Tracer.parentOf
    rw [hoff]
    exact resolveParent_of_disabled _ _ _ _ _ _ _ _

/-- A parent with baggage and no span context is taken as explicit, yet the invocation span
begun under it is a root. -/
theorem Tracer.start_root_under_baggage_parent :
    let cx : Context := ⟨none, ⟨[⟨"k", "v", ""⟩]⟩⟩
    let tr : Tracer := ⟨.generic "other", {}, none, none, .traceContext⟩
    (tr.parentOf () {} (some cx) {}).2 = .explicit ∧
      ((tr.start () {} (some cx) {} {}).1.span.map (·.parent)) = some .none := by
  decide

end TracePropagation
