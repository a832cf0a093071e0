import MetricsProxy.Proofs.Relay.Apart

/-!
# What happens to one worker

Whatever the other tasks do, few things can happen to a given worker: it takes its
tick and flushes, its send returns, it leaves its loop, or it is aborted. `WorkerMove`
has a rule for each, with the events it makes, and every action is one of them or
leaves the worker alone (`step_worker`). What a run does with the worker is the list
of its turns: when each flush began, with which unit, and how long the send takes
(`turns`).
-/
namespace MetricsProxy
open Journal

/-- One flush of a worker: when it begins and what it sends. -/
structure Turn where
  time : Nat
  unit : WorkUnit
  /-- How long the send takes; nothing is sent from an empty buffer. -/
  duration : Nat
  result : DeliveryResult

/-- What a flush enters into the journal once it is over, newest first. -/
def Turn.events (o : Origin) (a : Turn) : List Event :=
  if a.unit.points = [] then []
  else [.returned o (a.time + a.duration) a.result, .begun o a.time a.unit]

namespace Relay

/-- The flush that a worker of pool `p` begins when it takes its tick now. -/
def turn (s : Relay) (p : FlushPool) : Turn where
  time := s.now
  unit := ⟨p.nextPoints⟩
  duration := if p.nextPoints = [] then 0 else s.sends.next.1.duration
  result := s.sends.next.1.result ⟨p.nextPoints⟩

/-- The flush of worker `j` of pool `i` with an action, if the action is its tick. -/
def turn? (s : Relay) (i j : Nat) : Action → Option Turn
  | .tick k l => if k = i ∧ l = j then (s.ticking? i j).map s.turn else none
  | _ => none

/-- The flushes of a worker in a run, oldest first. -/
def turns (i j : Nat) (s : Relay) : List Action → List Turn
  | [] => []
  | a :: as => (s.turn? i j a).toList ++ (s.step a).turns i j as

/-- From `s` to `s'` the task behind `o` becomes `w'` and makes these events, newest first. -/
structure Moved (o : Origin) (s s' : Relay) (events : List Event) (w' : Worker) : Prop where
  task : s'.task? o = some w'
  fired : s.fired o = true → s'.fired o = true
  own : own o s'.journal = events ++ own o s.journal

variable {o : Origin} {s s' s'' : Relay} {i j l : Nat} {p q : FlushPool} {w w' : Worker}
  {events : List Event}

theorem Spares.moved (h : Spares o s s') (task : s.task? o = some w) : Moved o s s' [] w :=
  ⟨h.task w task, h.fired, h.own⟩

theorem Moved.spared (h : Moved o s s' events w') (h' : Spares o s' s'') :
    Moved o s s'' events w' :=
  ⟨h'.task w' h.task, fun hf => h'.fired (h.fired hf), h'.own.trans h.own⟩

theorem Moved.trans {later : List Event} {w'' : Worker} (h : Moved o s s' events w')
    (h' : Moved o s' s'' later w'') : Moved o s s'' (later ++ events) w'' where
  task := h'.task
  fired hf := h'.fired (h.fired hf)
  own := by rw [h'.own, h.own, List.append_assoc]

theorem Moved.waits (h : Moved o s s' events w') (now : Nat) :
    Moved o s { s' with now := now } events w' where
  task := by cases o <;> exact h.task
  fired hf := by cases o <;> exact h.fired hf
  own := h.own

theorem task?_worker (pool : s.pools[i]? = some p) (worker : p.workers[j]? = some w) :
    s.task? (.worker i j) = some w := worker?_eq pool worker

theorem fired_worker (pool : s.pools[i]? = some p) (j : Nat) :
    s.fired (.worker i j) = p.cancelled := by
  rw [fired, pool]
  rfl

theorem Becomes.moved (h : s.Becomes i q events s') (pool : s.pools[i]? = some p)
    (worker : q.workers[j]? = some w') (cancelled : q.cancelled = p.cancelled)
    (origin : ∀ e ∈ events, e.origin? = some (.worker i j)) :
    Moved (.worker i j) s s' events w' where
  task := task?_worker (h.getElem? (List.getElem?_eq_some_iff.mp pool).choose) worker
  fired hf := by
    rw [fired_worker (h.getElem? (List.getElem?_eq_some_iff.mp pool).choose), cancelled]
    rwa [fired_worker pool] at hf
  own := by
    obtain ⟨registry, tickets, sends, -, rfl⟩ := h
    exact own_append origin

/-- Why a worker is cut off: it is aborted by hand, or a stop of its listener loses patience. -/
inductive CutsOff (s : Relay) (i j : Nat) : Action → Prop where
  | abort : CutsOff s i j (.abort i j)
  | expire {l : Nat} {x : Listener} {closing : Closing} (listener : s.listeners[l]? = some x)
      (closes : x.closing = some closing) (expired : closing.deadline ≤ s.now)
      (owner : x.pool = some i) : CutsOff s i j (.expire l)

/-- What an action does to worker `j` of pool `i`, which is `w` and `p`, with the events it
makes, newest first. -/
inductive WorkerMove (s : Relay) (i j : Nat) (p : FlushPool) (w : Worker) :
    Action → List Event → Worker → Prop where
  | spared (a : Action) (other : s.turn? i j a = none) : WorkerMove s i j p w a [] w
  | idles (ticket : Nat) (ticks : s.Ticks p w) (empty : p.nextPoints = []) :
      WorkerMove s i j p w (.tick i j) [] ⟨w.ticker.take s.now, .idle, ticket⟩
  | sends (ticket : Nat) (ticks : s.Ticks p w) (full : p.nextPoints ≠ [])
      (atOnce : s.sends.next.1.duration = 0) :
      WorkerMove s i j p w (.tick i j)
        [.returned (.worker i j) s.now (s.nextFlight ⟨p.nextPoints⟩).result,
          .begun (.worker i j) s.now ⟨p.nextPoints⟩] ⟨w.ticker.take s.now, .idle, ticket⟩
  | begins (ticket : Nat) (ticks : s.Ticks p w) (full : p.nextPoints ≠ [])
      (lasting : 0 < s.sends.next.1.duration) :
      WorkerMove s i j p w (.tick i j) [.begun (.worker i j) s.now ⟨p.nextPoints⟩]
        ⟨w.ticker.take s.now, .sending (s.nextFlight ⟨p.nextPoints⟩), ticket⟩
  | lands {flight : Flight} (ticket : Nat) (sends : w.phase = .sending flight)
      (elapsed : flight.ends ≤ s.now) :
      WorkerMove s i j p w (.deliver i j) [.returned (.worker i j) s.now flight.result]
        ⟨w.ticker, .idle, ticket⟩
  | quits (cancelled : p.cancelled = true) (idle : w.phase = .idle) :
      WorkerMove s i j p w (.quit i j) [] { w with phase := .ended }
  | cut {a : Action} (reason : s.CutsOff i j a) (awake : w.phase.isOver = false) :
      WorkerMove s i j p w a [] { w with phase := .aborted }

theorem turn?_of_ne {a : Action} (h : a ≠ .tick i j) : s.turn? i j a = none := by
  cases a with
  | tick k l => exact if_neg fun same => h (by rw [same.1, same.2])
  | _ => rfl

theorem turn?_tick (pool : s.pools[i]? = some p) (worker : p.workers[j]? = some w)
    (ticks : s.Ticks p w) : s.turn? i j (.tick i j) = some (s.turn p) := by
  rw [turn?, if_pos ⟨rfl, rfl⟩, ticking?_eq_some pool worker ticks]
  rfl

theorem turn?_tick_eq_none
    (never : ∀ p w, s.pools[i]? = some p → p.workers[j]? = some w → ¬ s.Ticks p w) :
    s.turn? i j (.tick i j) = none := by
  rw [turn?, if_pos ⟨rfl, rfl⟩, ticking?_eq_none never]
  rfl

theorem duration_turn_of_empty (s : Relay) (empty : p.nextPoints = []) :
    (s.turn p).duration = 0 := if_pos empty

theorem duration_turn_of_full (s : Relay) (full : p.nextPoints ≠ []) :
    (s.turn p).duration = s.sends.next.1.duration := if_neg full

theorem events_turn_of_empty (s : Relay) (o : Origin) (empty : p.nextPoints = []) :
    (s.turn p).events o = [] := if_pos empty

/-- A flush of some points is a send that begins now and returns when its flight ends. -/
theorem events_turn_of_full (s : Relay) (o : Origin) (full : p.nextPoints ≠ []) :
    (s.turn p).events o =
      [.returned o (s.nextFlight ⟨p.nextPoints⟩).ends (s.nextFlight ⟨p.nextPoints⟩).result,
        .begun o s.now ⟨p.nextPoints⟩] := by
  refine (if_neg full).trans ?_
  rw [s.duration_turn_of_full full]
  rfl

theorem nextFlight_ends_le_iff (s : Relay) (unit : WorkUnit) :
    (s.nextFlight unit).ends ≤ s.now ↔ s.sends.next.1.duration = 0 := by
  rw [nextFlight]
  dsimp only
  omega

theorem tick_moved (pool : s.pools[i]? = some p) (worker : p.workers[j]? = some w)
    (ticks : s.Ticks p w) :
    ∃ events w', Moved (.worker i j) s (s.tick i j) events w' ∧
      s.WorkerMove i j p w (.tick i j) events w' := by
  have hj : j < p.workers.length := (List.getElem?_eq_some_iff.mp worker).choose
  obtain ⟨running, idle, due⟩ := ticks
  by_cases hb : p.buffer.toList = []
  · obtain ⟨ticket, -, becomes⟩ := tick_of_empty pool worker running idle due hb
    exact ⟨_, _, becomes.moved pool (List.getElem?_set_self hj) rfl (fun _ he => nomatch he),
      .idles ticket ⟨running, idle, due⟩ (p.nextPoints_eq_nil_iff.mpr hb)⟩
  · have full : p.nextPoints ≠ [] := fun h => hb (p.nextPoints_eq_nil_iff.mp h)
    obtain ⟨ticket, -, becomes⟩ := tick_of_full pool worker running idle due hb
    by_cases hends : (s.nextFlight ⟨p.nextPoints⟩).ends ≤ s.now
    · rw [if_pos hends] at becomes
      refine ⟨_, _, becomes.moved pool (List.getElem?_set_self hj) rfl (fun e he => ?_),
        .sends ticket ⟨running, idle, due⟩ full ((nextFlight_ends_le_iff _ _).mp hends)⟩
      simp only [List.mem_cons, List.not_mem_nil, or_false] at he
      rcases he with rfl | rfl <;> rfl
    · rw [if_neg hends] at becomes
      rw [nextFlight_ends_le_iff] at hends
      refine ⟨_, _, becomes.moved pool (List.getElem?_set_self hj) rfl (fun e he => ?_),
        .begins ticket ⟨running, idle, due⟩ full (Nat.pos_of_ne_zero hends)⟩
      rw [List.mem_singleton.mp he]
      rfl

/-- A worker that is cut off is aborted, unless it is over already. -/
theorem cut_of_abort {a : Action} (reason : s.CutsOff i j a) (other : s.turn? i j a = none) :
    s.WorkerMove i j p w a [] w.abort := by
  unfold Worker.abort
  by_cases hover : w.phase.isOver = true
  · rw [if_pos hover]
    exact .spared a other
  · rw [if_neg hover]
    exact .cut reason (Bool.not_eq_true _ ▸ hover)

theorem expire_moved (pool : s.pools[i]? = some p) (worker : p.workers[j]? = some w)
    {x : Listener} {closing : Closing} (listener : s.listeners[l]? = some x)
    (closes : x.closing = some closing) (expired : closing.deadline ≤ s.now)
    (owner : x.pool = some i) :
    ∃ w', Moved (.worker i j) s (s.expire l) [] w' ∧
      s.WorkerMove i j p w (.expire l) [] w' := by
  by_cases guard : closing.deadline ≤ s.now ∧ closing.awaited < (s.tasksOver x).length
  · have haborts : Moved (.worker i j) s (s.afterAbort l i) [] w.abort := by
      have hall := modifyPool_becomes pool fun p => { p with workers := p.workers.map Worker.abort }
      have hworker : p.aborted.workers[j]? = some w.abort := by
        rw [FlushPool.aborted, List.getElem?_map, worker]
        rfl
      have hmoved : Moved (.worker i j) s (s.abortAll i) [] w.abort :=
        hall.moved pool hworker rfl (List.forall_mem_nil _)
      exact (hmoved.spared (closeAll_spares _ l)).spared (modifyListener_spares _ l _)
    refine ⟨w.abort, ?_, cut_of_abort (.expire listener closes expired owner) rfl⟩
    rw [expire_eq listener closes owner guard]
    split
    · exact haborts.spared (settle_spares _ l i)
    · exact haborts.spared (modifyListener_spares _ l _)
  · -- The stop has seen the end of every task.
    refine ⟨w, ?_, .spared _ rfl⟩
    have hnothing : s.expire l = s := by
      rw [expire, listener]
      dsimp only
      rw [closes, owner]
      exact if_neg guard
    rw [hnothing]
    exact (Spares.refl s).moved (task?_worker pool worker)

/-- What an action does to a worker. -/
theorem step_worker (pool : s.pools[i]? = some p) (worker : p.workers[j]? = some w)
    (a : Action) :
    ∃ events w', Moved (.worker i j) s (s.step a) events w' ∧
      s.WorkerMove i j p w a events w' := by
  have task := task?_worker pool worker
  have still (h : s.step a = s) (other : s.turn? i j a = none) :
      ∃ events w', Moved (.worker i j) s (s.step a) events w' ∧
        s.WorkerMove i j p w a events w' := by
    rw [h]
    exact ⟨[], w, (Spares.refl s).moved task, .spared a other⟩
  by_cases timeless : ∃ d, a = .wait d
  · obtain ⟨d, rfl⟩ := timeless
    exact ⟨[], w, ⟨task, id, rfl⟩, .spared _ rfl⟩
  by_cases concerns : s.Concerns a (.worker i j)
  · have hj : j < p.workers.length := (List.getElem?_eq_some_iff.mp worker).choose
    cases concerns with
    | tick =>
        rcases tick_cases s i j with ⟨p', w', pool', worker', ticks⟩ | ⟨heq, never⟩
        · obtain rfl := Option.some.inj (pool.symm.trans pool')
          obtain rfl := Option.some.inj (worker.symm.trans worker')
          exact tick_moved pool worker ticks
        · exact still heq (turn?_tick_eq_none never)
    | deliver =>
        rcases deliver_cases s i j with ⟨p', w', flight, pool', worker', sends, elapsed⟩ | heq
        · obtain rfl := Option.some.inj (pool.symm.trans pool')
          obtain rfl := Option.some.inj (worker.symm.trans worker')
          obtain ⟨ticket, -, becomes⟩ := deliver_becomes pool worker sends elapsed
          refine ⟨_, _, becomes.moved pool (List.getElem?_set_self hj) rfl (fun e he => ?_),
            .lands ticket sends elapsed⟩
          rw [List.mem_singleton.mp he]
          rfl
        · exact still heq rfl
    | quit =>
        rcases quit_cases s i j with ⟨p', w', pool', worker', cancelled, idle⟩ | heq
        · obtain rfl := Option.some.inj (pool.symm.trans pool')
          obtain rfl := Option.some.inj (worker.symm.trans worker')
          have becomes := quit_becomes pool worker cancelled idle
          exact ⟨_, _, becomes.moved pool (List.getElem?_set_self hj) rfl (fun _ he => nomatch he),
            .quits cancelled idle⟩
        · exact still heq rfl
    | abort =>
        have becomes := modifyWorker_becomes pool worker Worker.abort
        exact ⟨_, _, becomes.moved pool (List.getElem?_set_self hj) rfl (fun _ he => nomatch he),
          cut_of_abort .abort rfl⟩
    | expire listener closes expired owner =>
        obtain ⟨w', moved, move⟩ := expire_moved pool worker listener closes expired owner
        exact ⟨[], w', moved, move⟩
  · have spares := step_spares s (fun d h => timeless ⟨d, h⟩) concerns
    refine ⟨[], w, spares.moved task, .spared a (turn?_of_ne fun h => concerns ?_)⟩
    rw [h]
    exact .tick i j

end Relay
end MetricsProxy
