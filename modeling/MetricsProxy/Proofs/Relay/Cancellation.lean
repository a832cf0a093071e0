import MetricsProxy.Proofs.Relay.Progress
import MetricsProxy.Proofs.Relay.Statistics
import MetricsProxy.Proofs.Relay.Turns

/-!
# After the token of a task has fired

A worker whose token has fired begins nothing, but a send that it has in progress
runs to its end and is recorded before the worker leaves its loop (`Winds`,
`fired_worker_run`). A reporter is cut off wherever it is (`fired_reporter_run`).
That is so in every run, whatever ticks are due. When every task moves as soon as
it can, idle workers and all reporters end at once, and the other workers when
their sends return (`fired_worker_advance`, `fired_reporter_advance`).
-/
namespace MetricsProxy.Relay
open Journal

variable {s s' : Relay} {i j k : Nat} {p : FlushPool} {w w' : Worker} {after : List Action}
  {events : List Event}

/-! ## What is recorded of a send -/

/-- From `s` to `s'` a send of pool `i` returns and is recorded. -/
structure Records (s : Relay) (i : Nat) (flight : Flight) (s' : Relay) : Prop where
  /-- Its points are in flight no more; until the listener of the pool has stopped, they
  were counted before. -/
  inFlight : ∃ p q, s.pools[i]? = some p ∧ s'.pools[i]? = some q ∧
    q.inFlight = p.inFlight - flight.unit.size ∧
      (¬ s.GivenUp i → q.inFlight + flight.unit.size = p.inFlight)
  /-- The timer and the histogram of flushing get a sample each, and no other metric changes. -/
  statistics : s'.registry =
    (s.registry.apply MetricName.flushDuration
      (.recordTime ((s.now - flight.began) * 1000000))).apply MetricName.flushPoints
        (.recordSample (UInt64.ofNat flight.unit.size))

theorem registry_rest (s : Relay) (i j : Nat) : (s.rest i j).registry = s.registry := by
  unfold rest
  split
  · rfl
  · dsimp only [ticketFor]
    split <;> rfl

theorem Reachable.covered (h : s.Reachable) (pool : s.pools[i]? = some p)
    (kept : ¬ s.GivenUp i) : ∀ f ∈ p.flights, f.unit.size ≤ p.inFlight := by
  obtain ⟨wallClock, sends, checkIns, before, rfl⟩ := h
  obtain ⟨-, hsends⟩ := (Tended.create wallClock sends checkIns).run_sends
    (sized_create wallClock sends checkIns) before
  obtain ⟨cut, account⟩ :=
    (hsends _ [] i id (sendsExact_create _ wallClock sends checkIns i)).exact p pool
  rw [List.append_nil] at account
  exact (Accounts.of_account account).covered kept

theorem deliver_records (reachable : s.Reachable) (pool : s.pools[i]? = some p)
    (worker : p.workers[j]? = some w) {flight : Flight} (sends : w.phase = .sending flight)
    (elapsed : flight.ends ≤ s.now) : Records s i flight (s.deliver i j) where
  inFlight := by
    obtain ⟨ticket, -, becomes⟩ := deliver_becomes pool worker sends elapsed
    have hi : i < s.pools.length := (List.getElem?_eq_some_iff.mp pool).choose
    refine ⟨p, _, pool, becomes.getElem? hi, rfl, fun kept => ?_⟩
    have mine : flight ∈ p.flights := by
      refine List.mem_append_left _ (List.mem_flatMap.mpr ⟨w, List.mem_of_getElem? worker, ?_⟩)
      rw [sends]
      exact List.mem_singleton_self _
    exact Nat.sub_add_cancel (reachable.covered pool kept flight mine)
  statistics := by
    rw [deliver, worker?_eq pool worker]
    dsimp only
    rw [sends]
    dsimp only
    rw [if_pos elapsed, registry_rest]
    rfl

/-! ## Workers -/

/-- In a run from `s` worker `j` of pool `i` is cut off. -/
def CutOff (s : Relay) (i j : Nat) : List Action → Prop
  | [] => False
  | a :: as => s.CutsOff i j a ∨ (s.step a).CutOff i j as

/-- What a run makes of worker `j` of pool `i`, which is `w` and whose token has fired, with
the events it makes. -/
inductive Winds (s : Relay) (i j : Nat) (w : Worker) (after : List Action) :
    List Event → Worker → Prop where
  | stays : Winds s i j w after [] w
  | ends (idle : w.phase = .idle) : Winds s i j w after [] { w with phase := .ended }
  | lands {flight : Flight} {phase : Phase} (ticket : Nat) (first rest : List Action)
      (sends : w.phase = .sending flight) (split : after = first ++ .deliver i j :: rest)
      (elapsed : flight.ends ≤ (s.run first).now)
      (recorded : Records (s.run first) i flight ((s.run first).step (.deliver i j)))
      (left : phase = .idle ∨ phase = .ended ∨ phase = .aborted ∧ s.CutOff i j after) :
      Winds s i j w after [.returned (.worker i j) (s.run first).now flight.result]
        ⟨w.ticker, phase, ticket⟩
  | cut (awake : w.phase.isOver = false) (reason : s.CutOff i j after) :
      Winds s i j w after [] { w with phase := .aborted }

theorem Winds.cons {a : Action} (h : (s.step a).Winds i j w after events w') :
    s.Winds i j w (a :: after) events w' := by
  cases h with
  | stays => exact .stays
  | ends idle => exact .ends idle
  | lands ticket first rest sends split elapsed recorded left =>
      refine .lands ticket (a :: first) rest sends ?_ elapsed recorded ?_
      · rw [split]
        rfl
      · rcases left with left | left | ⟨left, reason⟩
        · exact .inl left
        · exact .inr (.inl left)
        · exact .inr (.inr ⟨left, .inr reason⟩)
  | cut awake reason => exact .cut awake (.inr reason)

theorem Winds.of_over (h : s.Winds i j w after events w') (finished : w.phase.isOver = true) :
    events = [] ∧ w' = w := by
  cases h with
  | stays => exact ⟨rfl, rfl⟩
  | ends idle => rw [idle] at finished; cases finished
  | lands _ _ _ sends => rw [sends] at finished; cases finished
  | cut awake => rw [finished] at awake; cases awake

/-- Whatever happens once the token has fired, the worker begins nothing. -/
theorem fired_worker_run (reachable : s.Reachable) (task : s.task? (.worker i j) = some w)
    (fired : s.fired (.worker i j) = true) (after : List Action) :
    ∃ events w', Moved (.worker i j) s (s.run after) events w' ∧
      s.Winds i j w after events w' := by
  induction after generalizing s w with
  | nil => exact ⟨[], w, (Spares.refl s).moved task, .stays⟩
  | cons a as ih =>
      obtain ⟨p, pool, worker⟩ := worker?_eq_some task
      have cancelled : p.cancelled = true := by rwa [fired_worker pool] at fired
      obtain ⟨first, v, moved, move⟩ := step_worker pool worker a
      obtain ⟨later, w', moved', winds⟩ := ih (reachable.step a) moved.task (moved.fired fired)
      refine ⟨later ++ first, w', moved.trans moved', ?_⟩
      have running (ticks : s.Ticks p w) : False := by
        have hrunning := ticks.1
        rw [cancelled] at hrunning
        cases hrunning
      cases move with
      | spared =>
          rw [List.append_nil]
          exact winds.cons
      | idles _ ticks => exact (running ticks).elim
      | sends _ ticks => exact (running ticks).elim
      | begins _ ticks => exact (running ticks).elim
      | lands ticket sends elapsed =>
          have recorded := deliver_records reachable pool worker sends elapsed
          have lands {phase : Phase} (left : phase = .idle ∨ phase = .ended ∨
              phase = .aborted ∧ s.CutOff i j (.deliver i j :: as)) :=
            Winds.lands (w := w) ticket [] as sends rfl elapsed recorded left
          cases winds with
          | stays => exact lands (.inl rfl)
          | ends => exact lands (.inr (.inl rfl))
          | lands _ _ _ sends' => cases sends'
          | cut _ reason => exact lands (.inr (.inr ⟨rfl, .inr reason⟩))
      | quits _ idle =>
          obtain ⟨rfl, rfl⟩ := winds.of_over rfl
          exact .ends idle
      | cut reason awake =>
          obtain ⟨rfl, rfl⟩ := winds.of_over rfl
          exact .cut awake (.inl reason)

/-! ## Reporters -/

theorem task?_reporter {r : Reporter} (reporter : s.reporters[k]? = some r) :
    s.task? (.reporter k) = some r.task := by
  rw [task?, reporter]
  rfl

theorem fired_reporter {r : Reporter} (reporter : s.reporters[k]? = some r) :
    s.fired (.reporter k) = r.cancelled := by
  rw [fired, reporter]
  rfl

theorem reporterTick_of_cancelled {r : Reporter} (reporter : s.reporters[k]? = some r)
    (cancelled : r.cancelled = true) : s.reporterTick k = s := by
  rw [reporterTick, reporter]
  exact if_neg fun guard => Bool.false_ne_true (guard.1.symm.trans cancelled)

theorem reporterDeliver_of_cancelled {r : Reporter} (reporter : s.reporters[k]? = some r)
    (cancelled : r.cancelled = true) : s.reporterDeliver k = s := by
  rw [reporterDeliver, reporter]
  dsimp only
  split
  · exact if_neg fun guard => Bool.false_ne_true (guard.1.symm.trans cancelled)
  · rfl

theorem reporterQuit_moved {r : Reporter} (reporter : s.reporters[k]? = some r)
    (cancelled : r.cancelled = true) (awake : r.task.phase.isOver = false) :
    Moved (.reporter k) s (s.reporterQuit k) [] { r.task with phase := .ended } := by
  have hk : k < s.reporters.length := (List.getElem?_eq_some_iff.mp reporter).choose
  have heq : s.reporterQuit k =
      { s with
        reporters := s.reporters.set k { r with task := { r.task with phase := .ended } } } := by
    rw [reporterQuit, modifyReporter, modify_eq_set_of_getElem? reporter, if_pos ⟨cancelled, awake⟩]
  have hset : (s.reporterQuit k).reporters[k]? =
      some { r with task := { r.task with phase := .ended } } := by
    rw [heq]
    exact List.getElem?_set_self hk
  refine ⟨task?_reporter hset, fun _ => (fired_reporter hset).trans cancelled, ?_⟩
  rw [heq]
  rfl

/-- A reporter whose token has fired ends or stays as it is, without any event. -/
theorem step_fired_reporter (task : s.task? (.reporter k) = some w)
    (fired : s.fired (.reporter k) = true) (a : Action) :
    ∃ w', Moved (.reporter k) s (s.step a) [] w' ∧
      (w' = w ∨ w.phase.isOver = false ∧ w' = { w with phase := .ended }) := by
  obtain ⟨r, reporter, rfl⟩ := Option.map_eq_some_iff.mp task
  have cancelled : r.cancelled = true := (fired_reporter reporter).symm.trans fired
  have still (h : s.step a = s) : ∃ w', Moved (.reporter k) s (s.step a) [] w' ∧
      (w' = r.task ∨ r.task.phase.isOver = false ∧ w' = { r.task with phase := .ended }) :=
    ⟨r.task, h.symm ▸ (Spares.refl s).moved task, .inl rfl⟩
  by_cases timeless : ∃ d, a = .wait d
  · obtain ⟨d, rfl⟩ := timeless
    exact ⟨r.task, ((Spares.refl s).moved task).waits _, .inl rfl⟩
  by_cases concerns : s.Concerns a (.reporter k)
  · cases concerns with
    | reporterTick => exact still (reporterTick_of_cancelled reporter cancelled)
    | reporterDeliver => exact still (reporterDeliver_of_cancelled reporter cancelled)
    | reporterQuit =>
        by_cases awake : r.task.phase.isOver = false
        · exact ⟨_, reporterQuit_moved reporter cancelled awake, .inr ⟨awake, rfl⟩⟩
        · refine still ?_
          rw [step, reporterQuit, modifyReporter, modify_eq_set_of_getElem? reporter,
            if_neg fun guard => awake guard.2, set_eq_self_of_getElem? reporter]
  · have spares := step_spares s (fun d h => timeless ⟨d, h⟩) concerns
    exact ⟨r.task, spares.moved task, .inl rfl⟩

theorem fired_reporter_run (task : s.task? (.reporter k) = some w)
    (fired : s.fired (.reporter k) = true) (after : List Action) :
    ∃ w', Moved (.reporter k) s (s.run after) [] w' ∧
      (w' = w ∨ w.phase.isOver = false ∧ w' = { w with phase := .ended }) := by
  induction after generalizing s w with
  | nil => exact ⟨w, (Spares.refl s).moved task, .inl rfl⟩
  | cons a as ih =>
      obtain ⟨v, moved, hv⟩ := step_fired_reporter task fired a
      obtain ⟨w', moved', hw'⟩ := ih moved.task (moved.fired fired)
      refine ⟨w', moved.trans moved', ?_⟩
      rcases hv with rfl | ⟨awake, rfl⟩
      · exact hw'
      · rcases hw' with rfl | ⟨awake', -⟩
        · exact .inr ⟨awake, rfl⟩
        · cases awake'

/-! ## When every task moves as soon as it can -/

/-- No stop of a listener with pool `i` loses patience up to `time`. -/
def Patient (s : Relay) (i time : Nat) : Prop :=
  ∀ (l : Nat) (x : Listener) (closing : Closing), s.listeners[l]? = some x → x.pool = some i →
    x.closing = some closing → time < closing.deadline

theorem Patient.perform {time : Nat} {e : Entry} (h : s.Patient i time) (orderly : s.Orderly)
    (scheduled : Scheduled s e) : (s.perform e).Patient i time := by
  intro l y c' listener owner closes
  obtain ⟨x, hx, pool, waits⟩ := Abide.perform orderly scheduled l y listener
  obtain ⟨c, hc, deadline⟩ := waits c' closes
  exact deadline ▸ h l x c hx (pool.symm.trans owner) hc

theorem Patient.earlier {time time' : Nat} (h : s.Patient i time) (le : time' ≤ time) :
    s.Patient i time' := fun l x closing listener owner closes =>
  Nat.lt_of_le_of_lt le (h l x closing listener owner closes)

theorem not_cutOff_append {as bs : List Action} (first : ¬ s.CutOff i j as)
    (rest : ¬ (s.run as).CutOff i j bs) : ¬ s.CutOff i j (as ++ bs) := by
  induction as generalizing s with
  | nil => exact rest
  | cons a as ih =>
      rintro (now | later)
      · exact first (.inl now)
      · exact ih (fun h => first (.inr h)) rest later

theorem not_cutsOff_wait (d : Nat) : ¬ s.CutsOff i j (.wait d) := nofun

/-- An entry of the agenda cuts no worker off while every stop of its listener is patient. -/
theorem not_cutsOff_scheduled {e : Entry} (scheduled : Scheduled s e)
    (patient : s.Patient i e.time) (j : Nat) :
    ¬ CutsOff { s with now := e.time } i j e.action := by
  intro reason
  have byHand := scheduled.plain.1
  generalize e.action = a at byHand reason
  cases reason with
  | abort => cases byHand
  | expire listener closes expired owner =>
      exact absurd expired (Nat.not_le_of_lt (patient _ _ _ listener owner closes))

/-- So no worker is cut off when all that is due up to some time happens. -/
theorem advance_calm (reachable : s.Reachable) {time : Nat} (patient : s.Patient i time)
    (j : Nat) : ∃ after, s.advance time = s.run after ∧ ¬ s.CutOff i j after := by
  obtain ⟨before, ⟨-, calm⟩, -, heq⟩ := s.advance_run time
    (motive := fun before => (s.run before).Patient i time ∧ ¬ s.CutOff i j before)
    ⟨patient, id⟩ <| by
      rintro before e ⟨patient, calm⟩ next
      obtain ⟨scheduled, soon, -⟩ := of_next? next
      refine ⟨?_, not_cutOff_append calm ?_⟩
      · rw [run_append, ← perform_run scheduled]
        exact patient.perform (reachable.run before).orderly scheduled
      · rintro (waiting | now | later)
        · exact not_cutsOff_wait _ waiting
        · refine not_cutsOff_scheduled scheduled (patient.earlier soon) j ?_
          rwa [step, Nat.add_sub_of_le scheduled.now_le] at now
        · exact later
  refine ⟨_, heq, not_cutOff_append calm ?_⟩
  rintro (now | later)
  · exact not_cutsOff_wait _ now
  · exact later

/-- By the time given, a worker whose token has fired is over unless its send takes longer. -/
theorem fired_worker_advance (reachable : s.Reachable)
    (task : s.task? (.worker i j) = some w) (fired : s.fired (.worker i j) = true) {time : Nat}
    (early : s.now ≤ time) (patient : s.Patient i time) :
    ∃ after events w', s.advance time = s.run after ∧ ¬ s.CutOff i j after ∧
      Moved (.worker i j) s (s.run after) events w' ∧ s.Winds i j w after events w' ∧
      (w'.phase.isOver = false → ∃ f, w.phase = .sending f ∧ time < f.ends) := by
  obtain ⟨after, heq, calm⟩ := advance_calm reachable patient j
  obtain ⟨events, w', moved, winds⟩ := fired_worker_run reachable task fired after
  refine ⟨after, events, w', heq, calm, moved, winds, fun awake => ?_⟩
  -- Whatever is left to do in the end has a later time.
  have late {e : Entry} (left : e ∈ (s.advanceUntil time fun _ => false).agenda) :=
    advanceUntil_late reachable.orderly reachable.ticking early left
  rw [← heq] at moved
  obtain ⟨p, pool, worker⟩ :=
    worker?_eq_some (s := s.advanceUntil time fun _ => false) moved.task
  have cancelled : p.cancelled = true := (fired_worker pool j).symm.trans (moved.fired fired)
  cases hphase : w'.phase with
  | idle => exact absurd (late (quit_mem_agenda pool worker cancelled hphase)).2 (Nat.lt_irrefl _)
  | sending f =>
      obtain ⟨hlate, hafter⟩ := late (deliver_mem_agenda pool worker hphase)
      dsimp only at hlate hafter
      refine ⟨f, ?_, by omega⟩
      cases winds with
      | stays => exact hphase
      | ends => cases hphase
      | lands _ _ _ _ _ _ _ left =>
          dsimp only at hphase
          rcases left with rfl | rfl | ⟨rfl, -⟩ <;> cases hphase
      | cut => cases hphase
  | ended => rw [hphase] at awake; cases awake
  | aborted => rw [hphase] at awake; cases awake

theorem advance_is_run (s : Relay) (time : Nat) : ∃ after, s.advance time = s.run after := by
  obtain ⟨before, -, -, heq⟩ := s.advance_run time (motive := fun _ => True) trivial
    fun _ _ _ _ => trivial
  exact ⟨_, heq⟩

/-- A reporter whose token has fired is over at once, also in the middle of a report. -/
theorem fired_reporter_advance (reachable : s.Reachable)
    (task : s.task? (.reporter k) = some w) (fired : s.fired (.reporter k) = true) {time : Nat}
    (early : s.now ≤ time) :
    ∃ w', Moved (.reporter k) s (s.advance time) [] w' ∧ w'.phase.isOver = true := by
  obtain ⟨after, heq⟩ := s.advance_is_run time
  obtain ⟨w', moved, -⟩ := fired_reporter_run task fired after
  rw [← heq] at moved
  refine ⟨w', moved, ?_⟩
  by_contra awake
  rw [Bool.not_eq_true] at awake
  obtain ⟨r, reporter, rfl⟩ := Option.map_eq_some_iff.mp moved.task
  have cancelled : r.cancelled = true :=
    (fired_reporter (s := s.advance time) reporter).symm.trans (moved.fired fired)
  have left := reporterQuit_mem_agenda (s := s.advanceUntil time fun _ => false) reporter
    cancelled awake
  exact absurd (advanceUntil_late reachable.orderly reachable.ticking early left).2
    (Nat.lt_irrefl _)

/-! ## Firing -/

theorem cancelPool_moved (task : s.task? (.worker i j) = some w) :
    Moved (.worker i j) s (s.cancelPool i) [] w ∧
      (s.cancelPool i).fired (.worker i j) = true := by
  refine ⟨(cancelPool_spares s i).moved task, ?_⟩
  obtain ⟨p, pool, -⟩ := worker?_eq_some task
  have hi : i < s.pools.length := (List.getElem?_eq_some_iff.mp pool).choose
  have becomes := modifyPool_becomes pool fun p => { p with cancelled := true }
  exact fired_worker (becomes.getElem? hi) j

theorem cancelReporters_moved (task : s.task? (.reporter k) = some w) :
    Moved (.reporter k) s s.cancelReporters [] w ∧
      s.cancelReporters.fired (.reporter k) = true := by
  refine ⟨(cancelReporters_spares s).moved task, ?_⟩
  obtain ⟨r, reporter, -⟩ := Option.map_eq_some_iff.mp task
  refine fired_reporter (r := { r with cancelled := true }) ?_
  rw [cancelReporters, List.getElem?_map, reporter]
  rfl

/-- A worker in a slow send, another one whose tick is due, and a reporter in the middle of
its report, when their tokens fire. -/
def midSend : List Action :=
  let point := Point.make "m" (.ofNat 1) 1 .empty
  [.addPool 10 1 1000, .offer 0 [point, point], .spawn 0 2, .addReporter ⟨"a", "h"⟩ 1000,
    .wait 1000, .tick 0 0, .reporterTick 0, .cancelPool 0, .cancelReporters]

end MetricsProxy.Relay
