import TracePropagation.Proofs.Lifecycle

/-!
# Polling a traced future

An executor polls the future of a traced call again and again; the handler's work inside it is
pending for some number of polls and then finishes, and the flush that follows, when there is
something to flush, is pending for some number of polls of its own. Whatever both numbers, the
answers are pending until the work and then the flush are done, and then ready, with the work's
result as it was. The invocation span is closed on the poll where the work finishes, once, with
that result recorded, and the work is not polled again before the result is given. An executor
stops there; one that polls on reaches the finished work, which answers as it does when resumed
(an asynchronous handler panics), and nothing more is recorded.

* `TracedFuture.pollTimes` — an executor's `n` polls, with their answers;
* `Poll.readyAt` — the answers of a future that is pending before one poll, ready at it, and
  answers the same after it;
* `TracedFuture.pollTimes_done`, `TracedFuture.pollTimes_flushing`,
  `TracedFuture.pollTimes_pending` — **runs** of each phase: after the result was given, while
  the flush is pending, and while the work is pending;
* `InvocationSpan.close_recordResult`, `TracedFuture.poll_completes`,
  `TracedFuture.pollTimes_startFlush` — the poll where the work finishes, which records its
  result and closes the invocation span, and what follows it;
* `TracedFuture.PolledAsTraced`, `TracedFuture.pollTimes_started` — what a whole run does, and
  that every run from a started invocation span does it;
* `Tracer.traced_future_polls` — the same for the futures that traced calls and traced services
  build.
-/

namespace TracePropagation

/-- The answers of a future that is pending before poll `m`, counting from zero, ready with `r`
at poll `m`, and answers `after` at every later poll. -/
def Poll.readyAt {α : Type} (m : Nat) (r : α) (after : Poll α) (i : Nat) : Poll α :=
  if i < m then .pending else if i = m then .ready r else after

section readyAt

variable {α : Type} (r : α) (after : Poll α)

theorem Poll.readyAt_self (m : Nat) : readyAt m r after m = .ready r := by
  simp [readyAt]

theorem Poll.readyAt_of_lt {m i : Nat} (h : i < m) : readyAt m r after i = .pending := by
  simp [readyAt, h]

theorem Poll.readyAt_of_gt {m i : Nat} (h : m < i) : readyAt m r after i = after := by
  simp [readyAt, Nat.not_lt_of_gt h, Nat.ne_of_gt h]

theorem Poll.readyAt_succ (m i : Nat) : readyAt (m + 1) r after (i + 1) = readyAt m r after i := by
  simp [readyAt]

/-- One poll before the ready one is pending. -/
theorem Poll.range_map_readyAt_succ (n m : Nat) :
    (List.range (n + 1)).map (readyAt (m + 1) r after) =
      .pending :: (List.range n).map (readyAt m r after) := by
  rw [List.range_succ_eq_map, List.map_cons, List.map_map, readyAt_of_lt r after (Nat.succ_pos m)]
  congr 1
  exact List.map_congr_left fun i _ => readyAt_succ r after m i

/-- A future ready at its first poll answers `after` at every later one. -/
theorem Poll.range_map_readyAt_zero (n : Nat) :
    (List.range (n + 1)).map (readyAt 0 r after) = .ready r :: List.replicate n after := by
  rw [List.range_succ_eq_map, List.map_cons, List.map_map, readyAt_self]
  congr 1
  refine List.eq_replicate_iff.mpr ⟨by rw [List.length_map, List.length_range], fun a ha => ?_⟩
  obtain ⟨i, -, rfl⟩ := List.mem_map.mp ha
  exact readyAt_of_gt r after (Nat.succ_pos i)

/-- Polls before the ready one are all pending. -/
theorem Poll.range_map_readyAt_of_le {n m : Nat} (h : n ≤ m) :
    (List.range n).map (readyAt m r after) = List.replicate n .pending := by
  induction n generalizing m with
  | zero => rfl
  | succ n ih =>
    obtain ⟨m, rfl⟩ : ∃ m', m = m' + 1 := ⟨m - 1, by omega⟩
    rw [range_map_readyAt_succ, ih (by omega), List.replicate_succ]

/-- Answers after `p` pending polls are those of a future ready `p` polls later. -/
theorem Poll.replicate_append_range_map_readyAt (p n d : Nat) :
    List.replicate p .pending ++ (List.range n).map (readyAt d r after) =
      (List.range (p + n)).map (readyAt (p + d) r after) := by
  induction p with
  | zero => simp only [List.replicate_zero, List.nil_append, Nat.zero_add]
  | succ p ih =>
    rw [List.replicate_succ, List.cons_append, ih, Nat.add_right_comm p 1 n,
      Nat.add_right_comm p 1 d, range_map_readyAt_succ]

end readyAt

/-- The telemetry after a work's own span, if it opens one, has ended under `parent`. -/
def Work.worked (w : Work) (parent : Option Span) (t : Telemetry) : Telemetry :=
  match w.inner with
  | some enc => t.nested parent enc
  | none => t

theorem Work.worked_flushes (w : Work) (parent : Option Span) (t : Telemetry) :
    (w.worked parent t).flushes = t.flushes := by
  unfold worked
  split
  · exact t.nested_flushes parent _
  · rfl

theorem Telemetry.logAll_flushed (t : Telemetry) (es : List SpanEvent) :
    t.flushed.logAll es = (t.logAll es).flushed := by
  induction es generalizing t with
  | nil => rfl
  | cons e es ih => exact ih (t.log e)

namespace InvocationSpan

theorem finishBounded_snd (g : InvocationSpan) (t : Telemetry) :
    (g.finishBounded t).2 = (g.close t).1.performBounded (g.close t).2.2 := rfl

/-- Recording the outcome of an open span and closing it hands back the span's flush and ends
the span once, with that outcome. -/
theorem close_recordResult {g : InvocationSpan} (hg : g.state = .started)
    (r : Except HandlerError Output) (t : Telemetry) :
    ((g.recordResult r).close t).1 = g.flush ∧
      ((g.recordResult r).close t).2.2.recorder.ended =
        t.recorder.ended ++ (g.span.map (·.closedWith (some r))).toList ∧
      ((g.recordResult r).close t).2.2.flushes = t.flushes := by
  obtain ⟨hrecorded, hopen, hspan, hflush⟩ := g.recordResult_of_started r hg
  obtain ⟨hclose, hcount, hended⟩ := (g.recordResult r).close_of_open t hopen
  rw [if_neg hrecorded, hspan] at hended
  exact ⟨hclose.trans hflush, hended, hcount⟩

end InvocationSpan

namespace TracedFuture

/-! ## An executor's polls -/

/-- Polls the future `n` times, one poll after the other: the answers in order, then the
future and the telemetry after the last poll. -/
def pollTimes : Nat → TracedFuture → Telemetry →
    List (Poll (Except HandlerError Output)) × TracedFuture × Telemetry
  | 0, fut, t => ([], fut, t)
  | n + 1, fut, t =>
    let first := fut.poll t
    let rest := pollTimes n first.2.1 first.2.2
    (first.1 :: rest.1, rest.2)

@[simp] theorem pollTimes_zero (fut : TracedFuture) (t : Telemetry) :
    pollTimes 0 fut t = ([], fut, t) := rfl

theorem pollTimes_succ (n : Nat) (fut : TracedFuture) (t : Telemetry) :
    pollTimes (n + 1) fut t =
      ((fut.poll t).1 :: (pollTimes n (fut.poll t).2.1 (fut.poll t).2.2).1,
        (pollTimes n (fut.poll t).2.1 (fut.poll t).2.2).2) := rfl

/-- Polls split at any point: the later ones start from where the earlier ones left off. -/
theorem pollTimes_add (a b : Nat) (fut : TracedFuture) (t : Telemetry) :
    pollTimes (a + b) fut t =
      ((pollTimes a fut t).1 ++ (pollTimes b (pollTimes a fut t).2.1 (pollTimes a fut t).2.2).1,
        (pollTimes b (pollTimes a fut t).2.1 (pollTimes a fut t).2.2).2) := by
  induction a generalizing fut t with
  | zero => rw [Nat.zero_add]; rfl
  | succ a ih =>
    rw [Nat.add_right_comm, pollTimes_succ, ih, pollTimes_succ]
    rfl

/-! ## After the result was given, and while the flush is pending -/

/-- **Run, done.** Once the result was given, every poll answers as the finished work does and
changes nothing. -/
theorem pollTimes_done (n : Nat) (a : Poll (Except HandlerError Output)) (t : Telemetry) :
    pollTimes n (.done a) t = (List.replicate n a, .done a, t) := by
  induction n with
  | zero => rfl
  | succ n ih =>
    rw [pollTimes_succ]
    simp only [poll, ih, List.replicate_succ]

/-- **Run, flushing.** A flush pending for `m` more polls answers pending that many times,
then gives the result and logs its warnings; after that the future is done. -/
theorem pollTimes_flushing (n m : Nat) (ws : List SpanEvent) (r : Except HandlerError Output)
    (a : Poll (Except HandlerError Output)) (t : Telemetry) :
    (pollTimes n (.flushing m ws r a) t).1 = (List.range n).map (Poll.readyAt m r a) ∧
      (pollTimes n (.flushing m ws r a) t).2 =
        if n ≤ m then (.flushing (m - n) ws r a, t) else (.done a, t.logAll ws) := by
  induction n generalizing m with
  | zero => exact ⟨rfl, by rw [if_pos (Nat.zero_le m), Nat.sub_zero]; rfl⟩
  | succ n ih =>
    rw [pollTimes_succ]
    cases m with
    | zero =>
      -- the flush is done at this poll
      simp only [poll, pollTimes_done]
      exact ⟨(Poll.range_map_readyAt_zero r a n).symm, by rw [if_neg (by omega)]⟩
    | succ m =>
      obtain ⟨hanswers, hstate⟩ := ih m
      simp only [poll, hanswers, hstate]
      refine ⟨(Poll.range_map_readyAt_succ r a n m).symm, ?_⟩
      by_cases h : n ≤ m
      · rw [if_pos h, if_pos (by omega), Nat.add_sub_add_right]
      · rw [if_neg h, if_neg (by omega)]

/-! ## While the work is pending -/

/-- **Run, pending.** While the work is pending, every poll is pending, records nothing and
only counts down the work's pending polls. -/
theorem pollTimes_pending (g : InvocationSpan) (w : Work) (k : Nat) (t : Telemetry) (n : Nat)
    (hn : n ≤ w.pendingPolls) :
    pollTimes n (.running g w k) t =
      (List.replicate n .pending, .running g { w with pendingPolls := w.pendingPolls - n } k, t) := by
  induction n generalizing w with
  | zero => rfl
  | succ n ih =>
    obtain ⟨p, hp⟩ : ∃ p, w.pendingPolls = p + 1 := ⟨w.pendingPolls - 1, by omega⟩
    have hrest := ih { w with pendingPolls := p } (by dsimp only; omega)
    rw [pollTimes_succ, poll_running_pending g w k p t hp]
    simp only [hrest, List.replicate_succ, hp, Nat.add_sub_add_right]

/-- The polls after the work was pending are those of the work that is ready at once. -/
theorem pollTimes_after_pending (g : InvocationSpan) (w : Work) (k : Nat) (t : Telemetry)
    (m : Nat) :
    pollTimes (w.pendingPolls + m) (.running g w k) t =
      (List.replicate w.pendingPolls .pending ++
          (pollTimes m (.running g { w with pendingPolls := 0 } k) t).1,
        (pollTimes m (.running g { w with pendingPolls := 0 } k) t).2) := by
  rw [pollTimes_add, pollTimes_pending g w k t _ (Nat.le_refl _), Nat.sub_self]

/-! ## The poll where the work finishes -/

/-- The poll where the work finishes: its span ends, the result is recorded on the invocation
span, which is closed, and the flush starts. -/
theorem poll_completes (g : InvocationSpan) (w : Work) (k : Nat) (t : Telemetry)
    {r : Except HandlerError Output} (hw : w.pendingPolls = 0) (hr : w.ending.result? = some r) :
    poll (.running g w k) t =
      startFlush ((g.recordResult r).close (w.worked g.span t)).1 k r w.resumed
        ((g.recordResult r).close (w.worked g.span t)).2.2 := by
  simp only [poll, hw, hr]
  rfl

theorem startFlush_of_inactive {f : Flush} (hf : f.isActive = false) (k : Nat)
    (r : Except HandlerError Output) (a : Poll (Except HandlerError Output)) (t : Telemetry) :
    startFlush f k r a t = (.ready r, .done a, f.performBounded t) := by
  simp [startFlush, Flush.performBounded, hf]

theorem startFlush_succ {f : Flush} (hf : f.isActive = true) (m : Nat)
    (r : Except HandlerError Output) (a : Poll (Except HandlerError Output)) (t : Telemetry) :
    startFlush f (m + 1) r a t = (.pending, .flushing m f.boundedWarnings r a, t.flushed) := by
  simp [startFlush, hf]

/-- **After the work finished.** From the poll where the flush starts on, the answers are
pending until the flush is done, then the result, then what the work answers when resumed;
until the result is given the future holds only the pending flush; the spans stay as they were
when the invocation span closed; the providers are flushed once when the flush is active; and
once the result was given, the future is done with the bounded flush performed. -/
theorem pollTimes_startFlush (f : Flush) (k : Nat) (r : Except HandlerError Output)
    (a : Poll (Except HandlerError Output)) (t : Telemetry) (j : Nat) :
    let d := if f.isActive then k else 0
    let s := startFlush f k r a t
    s.1 :: (pollTimes j s.2.1 s.2.2).1 = (List.range (j + 1)).map (Poll.readyAt d r a) ∧
      (j < d → (pollTimes j s.2.1 s.2.2).2.1 = .flushing (d - (j + 1)) f.boundedWarnings r a) ∧
      (pollTimes j s.2.1 s.2.2).2.2.recorder = t.recorder ∧
      (pollTimes j s.2.1 s.2.2).2.2.flushes = t.flushes + (if f.isActive then 1 else 0) ∧
      (d < j + 1 → (pollTimes j s.2.1 s.2.2).2 = (.done a, f.performBounded t)) := by
  intro d s
  cases hf : f.isActive with
  | false =>
    -- nothing to flush: the result is given at once
    have hs : s = (.ready r, .done a, f.performBounded t) := startFlush_of_inactive hf k r a t
    have hperform : f.performBounded t = t := by simp [Flush.performBounded, hf]
    have hd : d = 0 := by simp [d, hf]
    rw [hs, hd, hperform, pollTimes_done]
    exact ⟨(Poll.range_map_readyAt_zero r a j).symm, fun h => absurd h (Nat.not_lt_zero j), rfl,
      rfl, fun _ => rfl⟩
  | true =>
    cases k with
    | zero =>
      -- the flush is done at its first poll
      have hs : s = (.ready r, .done a, f.performBounded t) := startFlush_zero f r a t
      have hd : d = 0 := by simp [d]
      rw [hs, hd, pollTimes_done]
      refine ⟨(Poll.range_map_readyAt_zero r a j).symm, fun h => absurd h (Nat.not_lt_zero j),
        Flush.performBounded_recorder f t, ?_, fun _ => rfl⟩
      rw [Flush.performBounded_flushes, hf]
    | succ m =>
      -- the flush is pending for `m + 1` polls
      have hs : s = (.pending, .flushing m f.boundedWarnings r a, t.flushed) :=
        startFlush_succ hf m r a t
      have hd : d = m + 1 := by simp [d, hf]
      obtain ⟨hanswers, hstate⟩ := pollTimes_flushing j m f.boundedWarnings r a t.flushed
      rw [hs, hd]
      dsimp only
      rw [hanswers, hstate]
      refine ⟨(Poll.range_map_readyAt_succ r a j m).symm, fun hlt => ?_, ?_, ?_, fun hlt => ?_⟩
      · rw [if_pos (by omega), Nat.add_sub_add_right]
      · split <;> simp only [Telemetry.logAll_recorder, Telemetry.flushed_recorder]
      · split <;> simp only [Telemetry.logAll_flushes, Telemetry.flushed_flushes, if_true]
      · rw [if_neg (by omega), Flush.performBounded, if_pos hf, Telemetry.logAll_flushed]

/-! ## A whole run -/

/-- The poll, counting from zero, that gives the result of work pending for `w.pendingPolls`
polls: the poll where the work finishes when there is nothing to flush, and otherwise the poll
where the flush, pending for `k` polls, is done. -/
def readyPoll (g : InvocationSpan) (w : Work) (k : Nat) : Nat :=
  w.pendingPolls + if g.flush.isActive then k else 0

/-- What `n` polls do to the future that wraps the invocation span `g` and the work `w`, with a
flush pending for `k` polls, when the work ends with `r`. Polls are counted from zero; the work
finishes at poll `w.pendingPolls`, and the result is given at `readyPoll g w k`. -/
structure PolledAsTraced (g : InvocationSpan) (w : Work) (k : Nat)
    (r : Except HandlerError Output) (t : Telemetry) (n : Nat) : Prop where
  /-- Every poll before the ready one is pending, and the ready one gives `r`; a poll after it
  answers as the finished work does when it is resumed. -/
  answers : (pollTimes n (.running g w k) t).1 =
    (List.range n).map (Poll.readyAt (readyPoll g w k) r w.resumed)
  /-- While the work is pending, the future only counts down and records nothing. -/
  pending : n ≤ w.pendingPolls → (pollTimes n (.running g w k) t).2 =
    (.running g { w with pendingPolls := w.pendingPolls - n } k, t)
  /-- From the poll where the work finishes until the result is given, the future holds only
  the pending flush with its warnings and the result: the work is not polled. -/
  flushing : w.pendingPolls < n → n ≤ readyPoll g w k → (pollTimes n (.running g w k) t).2.1 =
    .flushing (readyPoll g w k - n) g.flush.boundedWarnings r w.resumed
  /-- From the poll where the work finishes on, the spans ended are those before with the
  work's own span and the invocation span closed with `r`, once, and the providers were flushed
  once when the flush is active. -/
  finished : w.pendingPolls < n →
    (pollTimes n (.running g w k) t).2.2.recorder.ended =
      (w.worked g.span t).recorder.ended ++ (g.span.map (·.closedWith (some r))).toList ∧
    (pollTimes n (.running g w k) t).2.2.flushes = t.flushes + if g.flush.isActive then 1 else 0
  /-- Once the result was given, the future is done, and the telemetry is that of the
  invocation span finished within the flush timeout after the work; later polls change
  nothing. -/
  done : readyPoll g w k < n →
    (pollTimes n (.running g w k) t).2 =
      (.done w.resumed, ((g.recordResult r).finishBounded (w.worked g.span t)).2)

/-- **Run.** From an invocation span that is open without an outcome, and work that ends with
`r`, every number of polls does what `PolledAsTraced` says. -/
theorem pollTimes_started (g : InvocationSpan) (hg : g.state = .started) (w : Work) (k : Nat)
    {r : Except HandlerError Output} (hr : w.ending.result? = some r) (t : Telemetry) (n : Nat) :
    PolledAsTraced g w k r t n := by
  rcases Nat.lt_or_ge w.pendingPolls n with hlt | hle
  · -- the work finishes at poll `w.pendingPolls`: split the run there
    obtain ⟨j, rfl⟩ : ∃ j, n = w.pendingPolls + (j + 1) := ⟨n - w.pendingPolls - 1, by omega⟩
    have hfinish := poll_completes g { w with pendingPolls := 0 } k t rfl hr
    -- the work's own span does not depend on how long the work was pending
    have hworked : ({ w with pendingPolls := 0 } : Work).worked g.span t = w.worked g.span t :=
      rfl
    rw [hworked] at hfinish
    obtain ⟨hclose, hended, hcount⟩ := g.close_recordResult hg r (w.worked g.span t)
    obtain ⟨hanswers, hflushing, hrecorder, hflushes, hdone⟩ := pollTimes_startFlush g.flush k r
      w.resumed ((g.recordResult r).close (w.worked g.span t)).2.2 j
    have hrun := pollTimes_after_pending g w k t (j + 1)
    rw [pollTimes_succ, hfinish, hclose] at hrun
    refine ⟨?_, fun h => absurd h (by omega), fun _ hready => ?_, fun _ => ?_, fun hready => ?_⟩
    · rw [hrun]
      dsimp only
      rw [hanswers, Poll.replicate_append_range_map_readyAt]
      rfl
    · unfold readyPoll at hready ⊢
      rw [hrun, hflushing (by omega)]
      congr 1
      omega
    · rw [hrun]
      exact ⟨by rw [hrecorder, hended], by rw [hflushes, hcount, Work.worked_flushes]⟩
    · unfold readyPoll at hready
      rw [hrun, hdone (by omega), InvocationSpan.finishBounded_snd, hclose]
  · -- the work is still pending
    have hpending := pollTimes_pending g w k t n hle
    refine ⟨?_, fun _ => by rw [hpending], fun h => absurd h (by omega),
      fun h => absurd h (by omega), fun h => absurd h (by unfold readyPoll at h; omega)⟩
    rw [hpending]
    exact (Poll.range_map_readyAt_of_le r w.resumed (by unfold readyPoll; omega)).symm

end TracedFuture

/-- **Polling a traced future.** The future a traced call builds, directly with an explicit
parent or through a traced service with none, wraps the invocation span the tracer starts.
For work pending for any number of polls before it ends with a result `r`, and a flush pending
for any number `k` of polls, the `n` polls of an executor answer pending while the work is
pending, without recording anything; on the poll where the work finishes, `r` is recorded on
the invocation span, which is closed, once; the result is given on that same poll when there
is nothing to flush, and otherwise after the `k` pending polls of the flush, during which the
work is not polled; it is given unchanged, on that one poll. A poll after it, which the
executor does not make, reaches the finished work again and answers as it does, recording
nothing. -/
theorem Tracer.traced_future_polls (tr : Tracer) (event : tr.source.Event) (inv : Invocation)
    (explicit : Option Context) (env : Environment) (t : Telemetry) (w : Work) (k : Nat)
    {r : Except HandlerError Output} (hr : w.ending.result? = some r) (n : Nat) :
    TracedFuture.PolledAsTraced (tr.start event inv explicit env t).1 w k r
      (tr.start event inv explicit env t).2 n :=
  -- the tracer starts the span open
  TracedFuture.pollTimes_started _ (tr.start_state event inv explicit env t) w k hr _ n

/-- A traced call whose work is pending for two polls and then returns, with a tracer provider
to flush and a flush pending for one poll, polled five times: the last poll comes after the
result and reaches the finished work. -/
theorem Tracer.traced_future_polls_after_two_pending :
    let tr : Tracer :=
      { source := .generic "other", config := {}, tracerProvider := some .prompt,
        propagator := .none }
    let w : Work := { pendingPolls := 2, ending := .returns .unit }
    w.ending.result? = some (.ok .unit) ∧
      TracedFuture.PolledAsTraced (tr.start () {} none {} {}).1 w 1 (.ok .unit)
        (tr.start () {} none {} {}).2 5 := by
  intro tr w
  exact ⟨rfl, Tracer.traced_future_polls tr () {} none {} {} w 1 rfl 5⟩

end TracePropagation
