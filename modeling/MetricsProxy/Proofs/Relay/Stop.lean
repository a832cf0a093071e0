import MetricsProxy.Proofs.Relay.Meanwhile
import MetricsProxy.Proofs.Relay.Progress
import MetricsProxy.Relay.Control

/-!
# What a stop comes to

A stop waits for the workers in order. A worker that is through in time is seen
to end, if the ones before it are; one whose send reaches the deadline is not.
When the grace period is over, all tasks are asked for their ends from the
first one on, also those that were seen to end. So a stop fails if the first
worker is through in time and another one is not, and only then; in every other
case the listener has stopped within the grace period and holds nothing.
-/
namespace MetricsProxy

/-- Whether a worker is in a send that does not return before `deadline`. -/
def Worker.overruns (deadline : Nat) (w : Worker) : Bool :=
  match w.phase with
  | .sending flight => decide (deadline ≤ flight.ends)
  | _ => false

/-- The first worker is through before `deadline` and another one is not. -/
def FlushPool.Mixed (deadline : Nat) (p : FlushPool) : Prop :=
  (∃ w, p.workers[0]? = some w ∧ w.overruns deadline = false) ∧
    ∃ w ∈ p.workers, w.overruns deadline = true

theorem Worker.overruns_of_isOver {w : Worker} (h : w.phase.isOver = true) (deadline : Nat) :
    w.overruns deadline = false := by
  unfold overruns
  cases hphase : w.phase with
  | idle => rfl
  | sending f => rw [hphase] at h; cases h
  | ended => rfl
  | aborted => rfl

theorem FlushPool.AllOver.not_mixed {p : FlushPool} (h : p.AllOver) (deadline : Nat) :
    ¬ p.Mixed deadline := by
  rintro ⟨-, w, hw, slow⟩
  rw [Worker.overruns_of_isOver (h w hw)] at slow
  cases slow

/-- Before the deadline, a step of a cancelled worker does not change which ones reach it. -/
theorem PoolStep.overruns_eq {now i deadline : Nat} {p q : FlushPool} {events : List Event}
    (h : PoolStep now i p events q) (cancelled : p.cancelled = true) (early : now < deadline) :
    q.workers.map (Worker.overruns deadline) = p.workers.map (Worker.overruns deadline) := by
  have hset {ws : List Worker} {j : Nat} {w w' : Worker} (hw : ws[j]? = some w)
      (before : w.overruns deadline = false) (after : w'.overruns deadline = false) :
      (ws.set j w').map (Worker.overruns deadline) = ws.map (Worker.overruns deadline) := by
    rw [List.map_set, after, ← before]
    exact set_eq_self_of_getElem? (by rw [List.getElem?_map, hw]; rfl)
  induction h with
  | idles _ _ _ running _ _ _ => rw [cancelled] at running; cases running
  | begins _ _ _ _ running _ _ _ _ => rw [cancelled] at running; cases running
  | lands flight ticket behind worker sends elapsed =>
      refine hset worker ?_ rfl
      rw [Worker.overruns, sends]
      exact decide_eq_false (by omega)
  | quits worker _ idle =>
      refine hset worker ?_ rfl
      rw [Worker.overruns, idle]
  | seq first _ ih ih' =>
      exact (ih' (first.cancelled_eq.trans cancelled)).trans (ih cancelled)

theorem FlushPool.mixed_congr {deadline : Nat} {p q : FlushPool}
    (h : q.workers.map (Worker.overruns deadline) = p.workers.map (Worker.overruns deadline)) :
    q.Mixed deadline ↔ p.Mixed deadline := by
  have hmixed (r : FlushPool) : r.Mixed deadline ↔
      (r.workers.map (Worker.overruns deadline))[0]? = some false ∧
        true ∈ r.workers.map (Worker.overruns deadline) := by
    rw [List.getElem?_map, Option.map_eq_some_iff, List.mem_map]
    rfl
  rw [hmixed, hmixed, h]

/-- What holds of a listener with pool `i` after its stop. -/
structure Listener.Finished (i : Nat) (x : Listener) : Prop where
  owner : x.pool = some i
  closing : x.closing = none
  state : x.state = .stopping ∨ x.state = .stopped

namespace Listener.Finished
variable {i : Nat} {x : Listener}

theorem ne_created (h : x.Finished i) : x.state ≠ .created := by
  rcases h.state with state | state <;> rw [state] <;> exact nofun

theorem ne_starting (h : x.Finished i) : x.state ≠ .starting := by
  rcases h.state with state | state <;> rw [state] <;> exact nofun

theorem ne_running (h : x.Finished i) : x.state ≠ .running := by
  rcases h.state with state | state <;> rw [state] <;> exact nofun

theorem closing_ne (h : x.Finished i) (closing : Closing) : x.closing ≠ some closing := by
  rw [h.closing]
  exact nofun

end Listener.Finished

namespace Relay

/-- What is known of a stop at its deadline. Without a grace period it waits for
the first worker; else every task that could end in time has ended. -/
inductive AtDeadline (grace deadline awaited : Nat) (x : Listener) (ws : List Worker) : Prop where
  | atOnce (none : grace = 0) (first : awaited = 0)
      (working : ∃ w, ws[0]? = some w ∧ w.phase.isOver = false)
  | late (some : 0 < grace) (left : x.accepting = false)
      (slow : ∀ w ∈ ws, w.phase.isOver = false → w.overruns deadline = true)

/-- The owner of listener `l` waits until `deadline`. Which workers reach it was settled when
the stop began, when the pool was `began`. -/
structure Awaits (grace deadline l i : Nat) (began : FlushPool) (s : Relay) (x : Listener)
    (p : FlushPool) (awaited : Nat) : Prop where
  listener : s.listeners[l]? = some x
  owner : x.pool = some i
  pool : s.pools[i]? = some p
  closes : x.closing = some ⟨deadline, awaited⟩
  now_le : s.now ≤ deadline
  patient : s.now < deadline → 0 < grace
  slow : p.workers.map (Worker.overruns deadline) = began.workers.map (Worker.overruns deadline)
  atDeadline : s.now = deadline → AtDeadline grace deadline awaited x p.workers

/-- The stop of listener `l` has come to its end. -/
structure Ended (grace deadline l i : Nat) (began : FlushPool) (s : Relay) (x : Listener) :
    Prop where
  listener : s.listeners[l]? = some x
  finished : x.Finished i
  now_le : s.now ≤ deadline
  failed : x.failed = true ↔ 0 < grace ∧ began.Mixed deadline

section
variable {s : Relay} {e : Entry} {grace deadline awaited l i : Nat} {began p : FlushPool}
  {x : Listener}

namespace Awaits

/-- Nothing comes before the owner's own entry, which waits until the deadline at most. -/
theorem entry_cases (h : Awaits grace deadline l i began s x p awaited)
    (first : ∀ f ∈ s.agenda, ¬ f.before e = true) :
    e.time < deadline ∨ e.time = deadline ∧ e.ticket = 0 := by
  have hnow := h.now_le
  have hmem := owner_mem_agenda h.listener h.closes
  have hmin := first _ hmem
  rw [Entry.before_iff] at hmin
  split at hmin
  · dsimp only [ownerTicket] at hmin
    omega
  · dsimp only [ownerTicket] at hmin
    omega

theorem late (h : Awaits grace deadline l i began s x p awaited) (sound : s.Sound)
    (first : ∀ f ∈ s.agenda, ¬ f.before e = true) (time : e.time = deadline)
    (early : s.now < deadline) : AtDeadline grace deadline awaited x p.workers := by
  have hlater : ∀ f ∈ s.agenda, deadline ≤ f.time := by
    intro f hf
    have hmin := first f hf
    rw [Entry.before_iff] at hmin
    omega
  have cancelled := (sound.stopping_of h.listener h.owner h.pool h.closes).2.2.1
  have hcancelled : s.isCancelled x = true := by rw [isCancelled_eq h.owner h.pool, cancelled]
  have alone : s.liveCount l = 0 := by
    refine List.countP_eq_zero.mpr fun c hc hlive => ?_
    obtain ⟨k, connection⟩ := List.mem_iff_getElem?.mp hc
    rw [Bool.and_eq_true, beq_iff_eq] at hlive
    have hserver : s.listeners[c.listener]?.elim false s.isCancelled = true := by
      rw [hlive.1, h.listener]
      exact hcancelled
    have hsoon := hlater _ (readOn_mem_agenda connection hlive.2 (.inl hserver))
    dsimp only at hsoon
    omega
  have left : x.accepting = false := by
    rw [← Bool.not_eq_true]
    intro accepting
    have hsoon := hlater _ (endAccepting_mem_agenda h.listener accepting hcancelled alone)
    dsimp only at hsoon
    omega
  refine .late (h.patient early) left fun w hw awake => ?_
  obtain ⟨j, worker⟩ := List.mem_iff_getElem?.mp hw
  unfold Worker.overruns
  cases hphase : w.phase with
  | idle =>
      have hsoon := hlater _ (quit_mem_agenda h.pool worker cancelled hphase)
      dsimp only at hsoon
      omega
  | sending flight =>
      have hsoon := hlater _ (deliver_mem_agenda h.pool worker hphase)
      dsimp only at hsoon
      exact decide_eq_true (by omega)
  | ended => rw [hphase] at awake; cases awake
  | aborted => rw [hphase] at awake; cases awake

theorem atDeadline_of_first (h : Awaits grace deadline l i began s x p awaited) (sound : s.Sound)
    (first : ∀ f ∈ s.agenda, ¬ f.before e = true) (time : e.time = deadline) :
    AtDeadline grace deadline awaited x p.workers := by
  rcases Nat.lt_or_eq_of_le h.now_le with early | now
  · exact h.late sound first time early
  · exact h.atDeadline now

end Awaits

/-- The owner that still waits at the deadline has seen a task end only if a
worker was through in time before one that was not. -/
theorem AtDeadline.awaited_ne_zero_iff
    (h : AtDeadline grace deadline awaited x p.workers)
    (waits : ((p.workers.map fun w => w.phase.isOver) ++ [!x.accepting])[awaited]? = some false)
    (seen : ∀ k, k < awaited →
      ((p.workers.map fun w => w.phase.isOver) ++ [!x.accepting])[k]? = some true) :
    awaited ≠ 0 ↔ 0 < grace ∧ p.Mixed deadline := by
  cases h with
  | atOnce none first working => omega
  | late some left slow =>
      rw [left] at waits seen
      -- The accepting task has left, so the task that is waited for is a worker.
      have hworker : awaited < p.workers.length := by
        by_contra hlast
        rw [List.getElem?_append_right (by simpa using hlast)] at waits
        have hmem := List.mem_of_getElem? waits
        simp at hmem
      have hphase {k : Nat} (hk : k < p.workers.length) :
          ((p.workers.map fun w => w.phase.isOver) ++ [!false])[k]? =
            (p.workers[k]?).map fun w => w.phase.isOver := by
        rw [List.getElem?_append_left (by simpa using hk), List.getElem?_map]
      rw [hphase hworker] at waits
      obtain ⟨w, hw, awake⟩ := Option.map_eq_some_iff.mp waits
      have hslow := slow w (List.mem_of_getElem? hw) awake
      constructor
      · intro positive
        have hfirst := seen 0 (Nat.pos_of_ne_zero positive)
        rw [hphase (by omega)] at hfirst
        obtain ⟨v, hv, ended⟩ := Option.map_eq_some_iff.mp hfirst
        exact ⟨some, ⟨v, hv, Worker.overruns_of_isOver ended deadline⟩,
          w, List.mem_of_getElem? hw, hslow⟩
      · rintro ⟨-, ⟨v, hv, quick⟩, -⟩ rfl
        obtain rfl := Option.some.inj (hv.symm.trans hw)
        rw [hslow] at quick
        cases quick

namespace Awaits

theorem expire (h : Awaits grace deadline l i began s x p awaited) (sound : s.Sound)
    (now : s.now = deadline) (waits : (s.tasksOver x)[awaited]? = some false) :
    ∃ y, Ended grace deadline l i began (s.expire l) y := by
  obtain ⟨state, healthy, -, -, seen⟩ := sound.stopping_of h.listener h.owner h.pool h.closes
  have hlt : awaited < (s.tasksOver x).length := (List.getElem?_eq_some_iff.mp waits).choose
  have hexpire := expire_eq h.listener h.closes h.owner ⟨Nat.le_of_eq now.symm, hlt⟩
  have heq := afterAbort_eq h.listener h.pool
  obtain ⟨hx, hp⟩ := getElem?_afterAbort h.listener h.pool
  have hl : l < (s.afterAbort l i).listeners.length := (List.getElem?_eq_some_iff.mp hx).choose
  have hnow : (s.afterAbort l i).now ≤ deadline := by
    rw [heq]
    exact h.now_le
  rw [tasksOver_eq h.owner h.pool] at waits seen
  have hfails := (h.atDeadline now).awaited_ne_zero_iff waits seen
  rw [FlushPool.mixed_congr h.slow] at hfails
  rw [hexpire]
  dsimp only
  by_cases hfirst : awaited = 0
  · rw [if_pos hfirst]
    obtain ⟨registry', -, hsettle⟩ := settle_eq hx hp
    rw [hsettle]
    refine ⟨_, List.getElem?_set_self hl, ⟨h.owner, rfl, .inr rfl⟩, hnow, ?_⟩
    dsimp only
    rw [healthy, ← hfails, hfirst]
    simp
  · rw [if_neg hfirst, modifyListener_eq hx]
    refine ⟨_, List.getElem?_set_self hl, ⟨h.owner, rfl, .inl state⟩, hnow, ?_⟩
    rw [← hfails]
    simp [hfirst]

theorem awaitTask (h : Awaits grace deadline l i began s x p awaited) (sound : s.Sound)
    (ready : (s.tasksOver x)[awaited]? ≠ some false) :
    (∃ y, Awaits grace deadline l i began (s.awaitTask l) y p (awaited + 1)) ∨
      ∃ y, Ended grace deadline l i began (s.awaitTask l) y := by
  have hl : l < s.listeners.length := (List.getElem?_eq_some_iff.mp h.listener).choose
  rw [awaitTask_eq h.listener h.closes h.owner]
  dsimp only
  cases htask : (s.tasksOver x)[awaited]? with
  | none =>
      obtain ⟨-, healthy, -, -, -⟩ := sound.stopping_of h.listener h.owner h.pool h.closes
      have hover := sound.allOver_of_seen h.listener h.closes h.owner h.pool
        (.inl (List.getElem?_eq_none_iff.mp htask))
      have hmixed := hover.not_mixed deadline
      obtain ⟨registry, -, hsettle⟩ := settle_eq h.listener h.pool
      dsimp only
      rw [hsettle]
      refine .inr ⟨_, List.getElem?_set_self hl, ⟨h.owner, rfl, .inr rfl⟩, h.now_le, ?_⟩
      dsimp only
      rw [healthy, ← FlushPool.mixed_congr h.slow]
      simp [hmixed]
  | some ended =>
      cases ended with
      | false => exact absurd htask ready
      | true =>
          dsimp only
          rw [modifyListener_eq h.listener]
          refine .inl ⟨_, List.getElem?_set_self hl, h.owner, h.pool, rfl, h.now_le, h.patient,
            h.slow, fun now => ?_⟩
          cases h.atDeadline now with
          | late some left slow => exact .late some left slow
          | atOnce none first working =>
              -- The first task is still there, so the owner has seen none end.
              obtain ⟨w, hw, awake⟩ := working
              have hworker : (s.tasksOver x)[0]? = some false := by
                rw [tasksOver_eq h.owner h.pool, List.getElem?_append_left, List.getElem?_map, hw,
                  Option.map_some, awake]
                simpa using (List.getElem?_eq_some_iff.mp hw).choose
              rw [first] at htask
              rw [hworker] at htask
              cases htask

theorem meanwhile {y : Listener} {q : FlushPool} {t : Relay}
    (h : Awaits grace deadline l i began s x p awaited) (sound : s.Sound)
    (first : ∀ f ∈ s.agenda, ¬ f.before e = true) (later : s.now ≤ e.time) (now : t.now = e.time)
    (listener : t.listeners[l]? = some y) (pool : t.pools[i]? = some q)
    (meanwhile : Meanwhile e i x p y q) : Awaits grace deadline l i began t y q awaited := by
  have cancelled := (sound.stopping_of h.listener h.owner h.pool h.closes).2.2.1
  have htime := h.entry_cases first
  have hnow : t.now ≤ deadline := by omega
  have hpatient : t.now < deadline → 0 < grace := fun early => h.patient (by omega)
  cases meanwhile with
  | rests workers =>
      refine ⟨listener, h.owner, pool, h.closes, hnow, hpatient, ?_, fun atEnd => ?_⟩
      · rw [workers]
        exact h.slow
      · rw [workers]
        exact h.atDeadline_of_first sound first (now.symm.trans atEnd)
  | leaves behind =>
      -- An entry that is behind the owner's comes before the deadline.
      have early : e.time < deadline := by omega
      refine ⟨listener, h.owner, pool, h.closes, hnow, hpatient, h.slow, fun atEnd => ?_⟩
      omega
  | works behind move =>
      have early : e.time < deadline := by omega
      refine ⟨listener, h.owner, pool, h.closes, hnow, hpatient, ?_, fun atEnd => ?_⟩
      · exact (move.overruns_eq cancelled early).trans h.slow
      · omega

/-- An entry of the agenda leaves the owner waiting or ends the stop. -/
theorem perform (h : Awaits grace deadline l i began s x p awaited) (sound : s.Sound)
    (scheduled : Scheduled s e) (first : ∀ f ∈ s.agenda, ¬ f.before e = true) :
    (∃ y q n, Awaits grace deadline l i began (s.perform e) y q n) ∨
      ∃ y, Ended grace deadline l i began (s.perform e) y := by
  have later := scheduled.now_le
  by_cases hawaits : e.action = .awaitTask l
  · rw [perform_eq later, hawaits]
    cases scheduled with
    | awaitTask listener closes ready =>
        obtain rfl := Action.awaitTask.inj hawaits
        obtain rfl := Option.some.inj (listener.symm.trans h.listener)
        obtain rfl := Option.some.inj (closes.symm.trans h.closes)
        rcases h.awaitTask sound ready with ⟨y, waits⟩ | ended
        · exact .inl ⟨y, p, _, waits⟩
        · exact .inr ended
    | _ => cases hawaits
  by_cases hexpires : e.action = .expire l
  · rw [perform_eq later, hexpires]
    cases scheduled with
    | @expire m z closing listener closes waits =>
        obtain rfl := Action.expire.inj hexpires
        obtain rfl := Option.some.inj (listener.symm.trans h.listener)
        obtain rfl := Option.some.inj (closes.symm.trans h.closes)
        have htime : max deadline s.now = deadline := Nat.max_eq_left h.now_le
        have hlast := h.atDeadline_of_first sound first htime
        have h' : Awaits grace deadline m i began { s with now := max deadline s.now } z p
            awaited :=
          ⟨h.listener, h.owner, h.pool, h.closes, Nat.le_of_eq htime,
            fun early => absurd early (Nat.not_lt_of_le (Nat.le_max_left _ _)), h.slow,
            fun _ => hlast⟩
        exact .inr (h'.expire (sound.change (.waits s later)) htime waits)
    | _ => cases hexpires
  obtain ⟨now, y, q, listener, pool, meanwhile⟩ :=
    perform_meanwhile sound scheduled h.listener h.owner h.pool ⟨hawaits, hexpires⟩
  exact .inl ⟨y, q, awaited, h.meanwhile sound first later now listener pool meanwhile⟩

end Awaits
end

section
variable {s s' : Relay} {grace deadline l i : Nat} {began : FlushPool}

/-- Nothing happens any more to a listener whose stop has come to its end. -/
theorem Change.stays (h : Change s s') {x : Listener} (listener : s.listeners[l]? = some x)
    (finished : x.Finished i) :
    ∃ y, s'.listeners[l]? = some y ∧ y.Finished i ∧ y.failed = x.failed := by
  have hset {s : Relay} {m : Nat} {x z z' : Listener} (listener' : s.listeners[m]? = some z)
      (listener : s.listeners[l]? = some x) (finished : x.Finished i)
      (same : z = x → z'.Finished i ∧ z'.failed = x.failed) :
      ∃ y, (s.listeners.set m z')[l]? = some y ∧ y.Finished i ∧ y.failed = x.failed := by
    by_cases own : m = l
    · subst own
      have hm : m < s.listeners.length := (List.getElem?_eq_some_iff.mp listener').choose
      have hz : z = x := Option.some.inj (listener'.symm.trans listener)
      exact ⟨z', List.getElem?_set_self hm, same hz⟩
    · exact ⟨x, (List.getElem?_set_ne own).trans listener, finished, rfl⟩
  have hmark {z z' : Listener} {x : Listener} (finished : x.Finished i) (hz : z = x)
      (pool : z'.pool = z.pool) (closing : z'.closing = z.closing) (state : z'.state = z.state)
      (failed : z'.failed = z.failed) : z'.Finished i ∧ z'.failed = x.failed := by
    subst hz
    exact ⟨⟨pool.trans finished.owner, closing.trans finished.closing, state ▸ finished.state⟩,
      failed⟩
  induction h generalizing x with
  | passes => exact ⟨x, listener, finished, rfl⟩
  | works _ _ becomes =>
      obtain ⟨registry, tickets, sends, -, rfl⟩ := becomes
      exact ⟨x, listener, finished, rfl⟩
  | reads reading =>
      have hsame := (reading.undisturbed (l := l) (i := i)).listener
      exact ⟨x, hsame.trans listener, finished, rfl⟩
  | signals => exact ⟨x, listener, finished, rfl⟩
  | adds settings =>
      have hl := (List.getElem?_eq_some_iff.mp listener).choose
      exact ⟨x, (List.getElem?_append_left hl).trans listener, finished, rfl⟩
  | refuses listener' fresh =>
      exact hset listener' listener finished fun hz => absurd (hz ▸ fresh) finished.ne_created
  | starts _ listener' fresh =>
      exact hset listener' listener finished fun hz => absurd (hz ▸ fresh) finished.ne_created
  | connects => exact ⟨x, listener, finished, rfl⟩
  | cancels listener' running =>
      exact hset listener' listener finished fun hz => absurd (hz ▸ running) finished.ne_running
  | forsakes listener' =>
      exact hset listener' listener finished fun hz => hmark finished hz rfl rfl rfl rfl
  | drops listener' =>
      exact hset listener' listener finished fun hz => hmark finished hz rfl rfl rfl rfl
  | leaves listener' =>
      exact hset listener' listener finished fun hz => hmark finished hz rfl rfl rfl rfl
  | sees listener' closes =>
      exact hset listener' listener finished fun hz => absurd (hz ▸ closes) (finished.closing_ne _)
  | aborts listener' =>
      exact hset listener' listener finished fun hz => hmark finished hz rfl rfl rfl rfl
  | settles listener' closes =>
      exact hset listener' listener finished fun hz => absurd (hz ▸ closes) (finished.closing_ne _)
  | fails listener' closes =>
      exact hset listener' listener finished fun hz => absurd (hz ▸ closes) (finished.closing_ne _)
  | seq _ _ ih ih' =>
      obtain ⟨y, listener, finished, failed⟩ := ih listener finished
      rw [← failed]
      exact ih' listener finished

/-- The agenda, followed for a stop, comes to its end. -/
theorem Awaits.advanceUntil {x : Listener} {p : FlushPool} {awaited : Nat}
    (h : Awaits grace deadline l i began s x p awaited) (sound : s.Sound)
    (ticks : ∀ r ∈ s.reporters, r.Ticks) :
    ∃ y, Ended grace deadline l i began (s.advanceUntil deadline fun t => !t.isClosing l) y := by
  have hclosing {t : Relay} {y : Listener} {q : FlushPool} {n : Nat}
      (waits : Awaits grace deadline l i began t y q n) : t.isClosing l = true := by
    rw [isClosing, waits.listener, Option.elim_some, waits.closes]
    rfl
  have hopen {t : Relay} {y : Listener} (ended : Ended grace deadline l i began t y) :
      t.isClosing l = false := by
    rw [isClosing, ended.listener, Option.elim_some, ended.finished.closing]
    rfl
  have hkeeps : (s.advanceUntil deadline fun t => !t.isClosing l).Sound ∧
      ((∃ y q n, Awaits grace deadline l i began
          (s.advanceUntil deadline fun t => !t.isClosing l) y q n) ∨
        ∃ y, Ended grace deadline l i began
          (s.advanceUntil deadline fun t => !t.isClosing l) y) := by
    refine follow_induct (motive := fun t => t.Sound ∧
      ((∃ y q n, Awaits grace deadline l i began t y q n) ∨
        ∃ y, Ended grace deadline l i began t y)) ⟨sound, .inl ⟨x, p, awaited, h⟩⟩ ?_
    rintro t e ⟨sound, waits | ⟨y, ended⟩⟩ busy next
    · obtain ⟨y, q, n, waits⟩ := waits
      obtain ⟨scheduled, -, first⟩ := of_next? next
      exact ⟨sound.change (perform_change sound.toOrderly scheduled),
        waits.perform sound scheduled first⟩
    · rw [hopen ended] at busy
      cases busy
  rcases hkeeps.2 with ⟨y, q, n, waits⟩ | ended
  · -- As long as the owner waits it has an entry, and that is not too late.
    rcases advanceUntil_ends sound.toOrderly ticks deadline fun t => !t.isClosing l with
      enough | idle
    · rw [hclosing waits] at enough
      cases enough
    · have hlate := of_next?_eq_none idle (owner_mem_agenda waits.listener waits.closes)
      have hnow := waits.now_le
      split at hlate
      · dsimp only at hlate
        omega
      · dsimp only at hlate
        omega
  · exact ended

end

theorem Sound.awaits_beginStop {s : Relay} {l i : Nat} {x : Listener} {p : FlushPool}
    (sound : s.Sound) (listener : s.listeners[l]? = some x) (running : x.state = .running)
    (kept : x.dropped = false) (owner : x.pool = some i) (pool : s.pools[i]? = some p) :
    Awaits x.settings.grace (s.now + x.settings.grace) l i p (s.beginStop l)
      { x with state := .stopping, closing := some ⟨s.now + x.settings.grace, 0⟩ }
      { p with cancelled := true } 0 := by
  have hl : l < s.listeners.length := (List.getElem?_eq_some_iff.mp listener).choose
  have hi : i < s.pools.length := (List.getElem?_eq_some_iff.mp pool).choose
  obtain ⟨life, staffed⟩ := sound.life l i x p listener owner pool
  obtain ⟨-, -, working⟩ := life.of_running running kept
  rw [beginStop_eq listener running owner pool]
  refine ⟨List.getElem?_set_self hl, owner, List.getElem?_set_self hi, rfl, Nat.le_add_right _ _,
    fun early => ?_, rfl, fun now => ?_⟩
  · dsimp only at early
    omega
  · dsimp only at now
    have hstaff := ((ListenerSettings.validate_eq_ok_iff _).mp staffed.valid).1
    have hworker : 0 < p.workers.length := staffed.staff ▸ hstaff
    refine .atOnce (by omega) rfl ⟨p.workers[0], List.getElem?_eq_getElem hworker, ?_⟩
    exact working _ (List.getElem_mem hworker)

/-- What a stop is: its tasks go on until it comes to its end, and says how long it took. -/
theorem Sound.stop_eq {s : Relay} {l i : Nat} {x : Listener} {p : FlushPool} (sound : s.Sound)
    (ticks : ∀ r ∈ s.reporters, r.Ticks) (listener : s.listeners[l]? = some x)
    (running : x.state = .running) (kept : x.dropped = false) (owner : x.pool = some i)
    (pool : s.pools[i]? = some p) :
    ∃ r y, r.Sound ∧ Ended x.settings.grace (s.now + x.settings.grace) l i p r y ∧
      s.stop l = (r.settleNow, if y.failed then none else some (r.now - s.now)) := by
  have hchange : Change s (s.beginStop l) := beginStop_change sound.wired l
  have hawaits := sound.awaits_beginStop listener running kept owner pool
  obtain ⟨y, ended⟩ := hawaits.advanceUntil (sound.change hchange) (hchange.ticking ticks)
  have hdeadline : ((s.beginStop l).listeners[l]?.bind fun x => x.closing).elim (s.beginStop l).now
      (fun c => c.deadline) = s.now + x.settings.grace := by
    rw [hawaits.listener]
    rfl
  have sound' : (s.beginStop l).Sound := sound.change hchange
  refine ⟨_, y, sound'.change (follow_change sound'.toOrderly), ended, ?_⟩
  rw [stop, hdeadline, ended.listener]
  rfl

/-- A stop that did not fail leaves nothing. -/
theorem Ended.stopped {r : Relay} {grace deadline l i : Nat} {began : FlushPool} {y : Listener}
    (ended : Ended grace deadline l i began r y) (sound : r.Sound) (healthy : y.failed = false) :
    ∃ z, r.settleNow.listeners[l]? = some z ∧ z.state = .stopped ∧ r.settleNow.buffered z = 0 := by
  have hsettle : Change r r.settleNow := settleNow_change sound.toOrderly
  obtain ⟨z, listener, finished, failed⟩ := hsettle.stays ended.listener ended.finished
  obtain ⟨q, pool, life, -⟩ := (sound.change hsettle).life_of listener finished.owner
  have hpool : r.settleNow.pool? z = some q := by
    rw [pool?, finished.owner]
    exact pool
  cases life with
  | broken state _ _ _ _ _ => exact absurd state finished.ne_starting
  | running state _ _ _ _ => exact absurd state finished.ne_running
  | stopping closing _ closes _ _ _ _ => exact absurd closes (finished.closing_ne closing)
  | failed _ _ hfailed _ _ _ => rw [failed, healthy] at hfailed; cases hfailed
  | stopped hstopped _ _ retired _ =>
      refine ⟨z, listener, hstopped, ?_⟩
      rw [buffered, hpool, Option.elim_some, ← Buffer.length_toList, retired.empty]
      rfl

/-- A stop of a running listener fails if the first worker is through within the
grace period and another one is not, and only then. Else it returns within the
grace period, and the listener has stopped and holds nothing. -/
theorem stop_outcome (wallClock : Int) (sends : Script SendPlan)
    (checkIns : Script (Option ShippingError)) (actions : List Action)
    (ha : ∀ a ∈ actions, a.byHand = false) :
    let s := (create wallClock sends checkIns).run actions
    ∀ (l : Nat) (x : Listener), s.listeners[l]? = some x → x.state = .running →
      x.dropped = false →
      ∃ p, s.pool? x = some p ∧
        ((s.stop l).2 = none ↔
          0 < x.settings.grace ∧ p.Mixed (s.now + x.settings.grace)) ∧
        ∀ took, (s.stop l).2 = some took → took ≤ x.settings.grace ∧
          ∃ y, (s.stop l).1.listeners[l]? = some y ∧ y.state = .stopped ∧
            (s.stop l).1.buffered y = 0 := by
  intro s l x listener running kept
  have sound : s.Sound := sound_run wallClock sends checkIns ha
  have ticks : ∀ r ∈ s.reporters, r.Ticks :=
    (sound_create wallClock sends checkIns).ticking_run ha fun _ hr => absurd hr List.not_mem_nil
  obtain ⟨i, owner⟩ := sound.owner_of_running listener running
  obtain ⟨p, pool, -, -⟩ := sound.life_of listener owner
  obtain ⟨r, y, sound', ended, hstop⟩ := sound.stop_eq ticks listener running kept owner pool
  refine ⟨p, by rw [pool?, owner]; exact pool, ?_⟩
  rw [hstop, ← ended.failed]
  cases hfailed : y.failed with
  | true => exact ⟨by simp, fun took h => absurd h (Option.some_ne_none took).symm⟩
  | false =>
      have hnow := ended.now_le
      refine ⟨by simp, fun took h => ?_⟩
      obtain rfl : r.now - s.now = took := Option.some.inj h
      exact ⟨by omega, ended.stopped sound' hfailed⟩

/-- Two workers that begin to send a point each. -/
def twoSends : List Action :=
  [.addListener { ListenerSettings.standard 2878 .graphite with
      flushThreads := 2, maxPointsPerFlush := 1, grace := 5000 },
    .start 0 (.ok "0.0.0.0:2878"), .connect 0, .arrive 0 "m 1 1\nn 2 2\n".toUTF8.toList,
    .readOn 0, .readOn 0, .wait 1000, .tick 0 0, .tick 0 1]

/-- If the first of them is the slow one, the stop aborts it and returns. -/
theorem stop_outcome_slowFirst :
    let s := (create 0 ⟨[⟨60000, none⟩, ⟨0, none⟩], .deliver⟩ (.always none)).run twoSends
    (∀ a ∈ twoSends, a.byHand = false) ∧
      (∃ x, s.listeners[0]? = some x ∧ x.state = .running ∧ x.dropped = false) ∧
      (s.stop 0).2 = some 5000 ∧
      ∃ y, (s.stop 0).1.listeners[0]? = some y ∧ y.state = .stopped ∧
        (s.stop 0).1.buffered y = 0 := by
  intro s
  have hx : (s.listeners[0]?.map fun x => (x.state, x.dropped)) = some (.running, false) := by
    decide +kernel
  obtain ⟨x, listener, hstate⟩ := Option.map_eq_some_iff.mp hx
  have running : x.state = .running := congrArg Prod.fst hstate
  have kept : x.dropped = false := congrArg Prod.snd hstate
  have took : (s.stop 0).2 = some 5000 := by decide +kernel
  obtain ⟨p, -, -, hstopped⟩ :=
    stop_outcome 0 ⟨[⟨60000, none⟩, ⟨0, none⟩], .deliver⟩ (.always none) twoSends (by decide) 0 x
      listener running kept
  exact ⟨by decide, ⟨x, listener, running, kept⟩, took, (hstopped 5000 took).2⟩

/-- If the second one is, the stop of the running listener fails. -/
theorem stop_fails_slowSecond :
    let s := (create 0 ⟨[⟨0, none⟩, ⟨60000, none⟩], .deliver⟩ (.always none)).run twoSends
    (∀ a ∈ twoSends, a.byHand = false) ∧
      (s.listeners[0]?.map fun x => (x.state, x.dropped)) = some (.running, false) ∧
      (s.stop 0).2 = none ∧
      ((s.stop 0).1.listeners[0]?.map fun x => x.state) = some .stopping := by
  decide +kernel

end Relay
end MetricsProxy
