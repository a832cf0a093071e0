import MetricsProxy.Proofs.Relay.Apart
import MetricsProxy.Proofs.Relay.Progress

/-!
# How fast workers empty a buffer

Workers that are spawned together tick together. When sends return at once and nothing
else touches their pool, each of them takes one unit from the buffer in every round, as
long as there are points: after `k` intervals the pool has sent as many points as fit into
`k` units for each worker, or all it had (`pool_throughput`). What is invariant is that the
units so far are the full portions of as many flushes as the workers have taken ticks
(`Portioned`, `Drains`).
-/
namespace MetricsProxy
open Journal

/-! ## Portions -/

/-- So many flushes of up to `limit` points have put `points` into units, but for what is
left. -/
structure Portioned (limit : Nat) (points : List Point) (flushes : Nat) (units : List WorkUnit)
    (left : List Point) : Prop where
  parts : unitPoints units ++ left = points
  length : (unitPoints units).length = min points.length (flushes * limit)
  nonempty : ∀ u ∈ units, u.points ≠ []
  within : ∀ u ∈ units, u.size ≤ limit
  full : left ≠ [] → ∀ u ∈ units, u.size = limit
  allButLast : ∀ u ∈ units.dropLast, u.size = limit

namespace Portioned
variable {limit flushes : Nat} {points left : List Point} {units : List WorkUnit}

theorem start (limit : Nat) (points : List Point) : Portioned limit points 0 [] points where
  parts := rfl
  length := by simp
  nonempty _ hu := nomatch hu
  within _ hu := nomatch hu
  full _ _ hu := nomatch hu
  allButLast _ hu := nomatch hu

theorem idle (h : Portioned limit points flushes units []) :
    Portioned limit points (flushes + 1) units [] where
  parts := h.parts
  length := by
    have hall : (unitPoints units).length = points.length := by rw [← h.parts, List.append_nil]
    have hlength := h.length
    rw [Nat.succ_mul]
    omega
  nonempty := h.nonempty
  within := h.within
  full := h.full
  allButLast := h.allButLast

theorem take (h : Portioned limit points flushes units left) (positive : 0 < limit)
    (some : left ≠ []) :
    Portioned limit points (flushes + 1) (units ++ [⟨left.take limit⟩]) (left.drop limit) where
  parts := by
    rw [unitPoints_append, unitPoints_singleton, List.append_assoc, List.take_append_drop]
    exact h.parts
  length := by
    have hparts := congrArg List.length h.parts
    have hlength := h.length
    have hsome := List.length_pos_iff.mpr some
    rw [List.length_append] at hparts
    rw [unitPoints_append, unitPoints_singleton, List.length_append, List.length_take,
      Nat.succ_mul]
    omega
  nonempty u hu := by
    rcases List.mem_append.mp hu with hu | hu
    · exact h.nonempty u hu
    · rw [List.mem_singleton.mp hu]
      exact fun hnil => (List.take_eq_nil_iff.mp hnil).elim (Nat.ne_of_gt positive) some
  within u hu := by
    rcases List.mem_append.mp hu with hu | hu
    · exact h.within u hu
    · rw [List.mem_singleton.mp hu]
      exact List.length_take_le _ _
  full more u hu := by
    rcases List.mem_append.mp hu with hu | hu
    · exact h.full some u hu
    · rw [List.mem_singleton.mp hu]
      refine List.length_take_of_le (Nat.le_of_lt (Nat.lt_of_not_le fun hle => more ?_))
      exact List.drop_eq_nil_of_le hle
  allButLast u hu := by
    rw [List.dropLast_concat] at hu
    exact h.full some u hu

theorem points_eq (h : Portioned limit points flushes units left) :
    unitPoints units = points.take (min points.length (flushes * limit)) := by
  rw [← h.length, ← h.parts, List.take_left]

theorem left_eq (h : Portioned limit points flushes units left) :
    left = points.drop (min points.length (flushes * limit)) := by
  rw [← h.length, ← h.parts, List.drop_left]

end Portioned

/-! ## Rounds -/

/-- How many ticks a worker has taken since it started, if it took each when it was due. -/
def Worker.rounds (start : Nat) (v : Worker) : Nat :=
  (v.ticker.due - start) / v.ticker.period - 1

/-- A worker that waits and has taken each of its ticks when it was due. -/
structure Worker.OnBeat (start interval : Nat) (v : Worker) : Prop where
  idle : v.phase = .idle
  ticker : v.ticker = ⟨interval, start + (v.rounds start + 1) * interval⟩

namespace Worker
variable {start interval : Nat} {v : Worker}

theorem rounds_eq (positive : 0 < interval) {rounds : Nat}
    (ticker : v.ticker = ⟨interval, start + (rounds + 1) * interval⟩) :
    v.rounds start = rounds := by
  rw [Worker.rounds, ticker]
  dsimp only
  rw [Nat.add_sub_cancel_left, Nat.mul_div_cancel _ positive, Nat.add_sub_cancel]

theorem New.onBeat (h : v.New start interval) (positive : 0 < interval) :
    v.OnBeat start interval ∧ v.rounds start = 0 := by
  have ticker : v.ticker = ⟨interval, start + (0 + 1) * interval⟩ := by
    rw [h.ticker, Nat.zero_add, Nat.one_mul]
    rfl
  have none := rounds_eq positive ticker
  exact ⟨⟨h.phase.trans (if_neg (Nat.ne_of_gt positive)), none.symm ▸ ticker⟩, none⟩

/-- It takes the next one when it is due. -/
theorem OnBeat.take (h : v.OnBeat start interval) (positive : 0 < interval) (ticket : Nat) :
    let v' : Worker := ⟨v.ticker.take v.ticker.due, .idle, ticket⟩
    v'.OnBeat start interval ∧ v'.rounds start = v.rounds start + 1 := by
  intro v'
  have ticker : v'.ticker = ⟨interval, start + (v.rounds start + 1 + 1) * interval⟩ := by
    have hdue : (v.ticker.take v.ticker.due).due = v.ticker.due + v.ticker.period :=
      if_pos (Nat.le_add_right _ _)
    have hticker : v'.ticker = ⟨v.ticker.period, v.ticker.due + v.ticker.period⟩ := by
      rw [← hdue]
      rfl
    rw [hticker, h.ticker, Nat.succ_mul (v.rounds start + 1), Nat.add_assoc]
  have next := rounds_eq positive ticker
  exact ⟨⟨rfl, next.symm ▸ ticker⟩, next⟩

end Worker

namespace Relay

theorem drained (q : FlushPool) :
    q.drained.buffer.toList = q.buffer.toList.drop q.unitLimit := Buffer.toList_drain _ _

/-! ## What happens elsewhere -/

/-- From `s` to `s'` pool `i` stays as it is, and no unit of it begins or returns. -/
structure Elsewhere (i : Nat) (s s' : Relay) : Prop where
  pool : s'.pools[i]? = s.pools[i]?
  begun : begunUnits i s'.journal = begunUnits i s.journal
  returned : returnedUnits i s'.journal = returnedUnits i s.journal

variable {s s' s'' : Relay} {e : Entry} {i j k l : Nat} {p q : FlushPool} {x : Listener}

namespace Elsewhere

theorem trans (h : Elsewhere i s s') (h' : Elsewhere i s' s'') : Elsewhere i s s'' where
  pool := h'.pool.trans h.pool
  begun := h'.begun.trans h.begun
  returned := h'.returned.trans h.returned

/-- Another pool changes, and the journal is about something else. -/
theorem of_events (events : List Event) (pool : s'.pools[i]? = s.pools[i]?)
    (journal : s'.journal = events ++ s.journal) (others : ∀ e ∈ events, e.pool? ≠ some i) :
    Elsewhere i s s' := by
  have same := sameFor_append others s.journal
  rw [← journal] at same
  exact ⟨pool, same.begun, same.returned⟩

theorem of_set (apart : k ≠ i) (pools : s'.pools = s.pools.set k q)
    (journal : s'.journal = s.journal) : Elsewhere i s s' :=
  .of_events [] (by rw [pools, List.getElem?_set_ne apart]) journal nofun

theorem of_eq (pools : s'.pools = s.pools) (journal : s'.journal = s.journal) :
    Elsewhere i s s' := .of_events [] (by rw [pools]) journal nofun

end Elsewhere

theorem settle_elsewhere (listener : s.listeners[l]? = some x) (pool : s.pools[k]? = some p)
    (apart : k ≠ i) : Elsewhere i s (s.settle l k) := by
  obtain ⟨registry, -, heq⟩ := settle_eq listener pool
  rw [heq]
  exact .of_set apart rfl rfl

theorem awaitTask_elsewhere {closing : Closing} (listener : s.listeners[l]? = some x)
    (closes : x.closing = some closing) (owner : x.pool = some k) (pool : s.pools[k]? = some p)
    (apart : k ≠ i) : Elsewhere i s (s.awaitTask l) := by
  rw [awaitTask_eq listener closes owner]
  split
  · exact .of_eq rfl rfl
  · exact .of_eq rfl rfl
  · exact settle_elsewhere listener pool apart

theorem expire_elsewhere {closing : Closing} (listener : s.listeners[l]? = some x)
    (closes : x.closing = some closing) (owner : x.pool = some k) (pool : s.pools[k]? = some p)
    (guard : closing.deadline ≤ s.now ∧ closing.awaited < (s.tasksOver x).length)
    (apart : k ≠ i) : Elsewhere i s (s.expire l) := by
  obtain ⟨hx, hp⟩ := getElem?_afterAbort listener pool
  have aborted : Elsewhere i s (s.afterAbort l k) := by
    rw [afterAbort_eq listener pool]
    exact .of_set apart rfl rfl
  rw [expire_eq listener closes owner guard]
  split
  · exact aborted.trans (settle_elsewhere hx hp apart)
  · exact aborted.trans (.of_eq rfl rfl)

theorem Reading.elsewhere {c : Nat} (h : s.Reading c s')
    (free : ∀ x ∈ s.listeners, x.pool ≠ some i) : Elsewhere i s s' := by
  cases h with
  | closes => exact .of_eq rfl rfl
  | keeps => exact .of_eq rfl rfl
  | @takes x listener k _ _ _ _ _ _ server owner _ _ _ handled =>
      have apart : k ≠ i := by
        rintro rfl
        exact free listener (List.mem_of_getElem? server) owner
      cases handled with
      | accepted pool =>
          refine .of_events [_] (List.getElem?_set_ne apart) rfl fun e he => ?_
          rw [List.mem_singleton.mp he]
          exact fun h => apart (Option.some.inj h)
      | rejected => exact .of_eq rfl rfl
      | error => exact .of_eq rfl rfl
      | blank => exact .of_eq rfl rfl

/-- An entry of the agenda is about another pool, if no listener has this one and it is not
the step of one of its workers. -/
theorem perform_elsewhere (orderly : s.Orderly) (h : Scheduled s e)
    (free : ∀ x ∈ s.listeners, x.pool ≠ some i)
    (others : ∀ j, e.action.worker? ≠ some (i, j)) : Elsewhere i s (s.perform e) := by
  have waits : Elsewhere i s { s with now := e.time } := .of_eq rfl rfl
  have apart {l k : Nat} {x : Listener} (listener : s.listeners[l]? = some x)
      (owner : x.pool = some k) : k ≠ i := by
    rintro rfl
    exact free x (List.mem_of_getElem? listener) owner
  have performed := perform_performed orderly h
  generalize s.perform e = t at performed ⊢
  cases performed with
  | @works _ k p pool behind moves about =>
      obtain ⟨j, hj⟩ := about
      have hk : k ≠ i := fun same => others j (same ▸ hj)
      obtain ⟨events, q, move, registry, tickets, sends, -, rfl⟩ := moves
      refine .of_events events (List.getElem?_set_ne hk) rfl fun e he => ?_
      rw [move.pool?_of_mem e he]
      exact fun h => hk (Option.some.inj h)
  | reports _ reports =>
      obtain ⟨task, -, tickets, sends, events, foreign, rfl⟩ := reports
      refine .of_events events rfl rfl fun e he => ?_
      rw [foreign e he]
      exact (Option.some_ne_none i).symm
  | reads reading => exact waits.trans (reading.elsewhere free)
  | leaves => exact .of_eq rfl rfl
  | awaits _ listener closes _ =>
      obtain ⟨k, r, owner, pool⟩ := orderly.tended.owner_of_closing listener closes
      exact waits.trans (awaitTask_elsewhere listener closes owner pool (apart listener owner))
  | expires _ listener closes guard =>
      obtain ⟨k, r, owner, pool⟩ := orderly.tended.owner_of_closing listener closes
      exact waits.trans (expire_elsewhere listener closes owner pool guard (apart listener owner))

/-! ## Draining a pool -/

theorem Scheduled.script (h : Scheduled s e) {P : SendPlan → Prop} (all : s.sends.All P) :
    (s.perform e).sends.All P := by
  rw [perform_eq h.now_le]
  exact (step_spares_reportCall { s with now := e.time } h.timeless).script P all

theorem Abide.free (h : Abide s s') (free : ∀ x ∈ s.listeners, x.pool ≠ some i) :
    ∀ x ∈ s'.listeners, x.pool ≠ some i := by
  intro y hy
  obtain ⟨l, hl⟩ := List.mem_iff_getElem?.mp hy
  obtain ⟨x, hx, abides⟩ := h l y hl
  rw [abides.pool]
  exact free x (List.mem_of_getElem? hx)

/-- Since `began`, when pool `i` was `p`, so many new workers drain it, for that many rounds at
most: now it is `q`, they are `crew` and they have sent `units`. -/
structure Drains (began : Relay) (i : Nat) (p : FlushPool) (count rounds : Nat) (s : Relay)
    (q : FlushPool) (crew : List Worker) (units : List WorkUnit) : Prop where
  orderly : s.Orderly
  atOnce : s.sends.All fun plan => plan.duration = 0
  free : ∀ x ∈ s.listeners, x.pool ≠ some i
  pool : s.pools[i]? = some q
  running : q.cancelled = false
  maxPoints : q.maxPoints = p.maxPoints
  workers : q.workers = p.workers ++ crew
  onBeat : ∀ v ∈ crew, v.OnBeat began.now p.interval
  onTime : ∀ v ∈ crew, s.now ≤ v.ticker.due
  crewed : crew.length = count
  within : ∀ v ∈ crew, v.rounds began.now ≤ rounds
  begun : begunUnits i s.journal = begunUnits i began.journal ++ units
  returned : returnedUnits i s.journal = returnedUnits i began.journal ++ units
  portioned : Portioned p.unitLimit p.buffer.toList (total (crew.map (Worker.rounds began.now)))
    units q.buffer.toList

namespace Drains
variable {began : Relay} {q' : FlushPool} {crew : List Worker} {units : List WorkUnit} {v : Worker}
  {w limit : Nat}

theorem getElem?_crew (h : Drains began i p w k s q crew units) (j : Nat) :
    q.workers[p.workers.length + j]? = crew[j]? := by
  rw [h.workers, List.getElem?_append_right (Nat.le_add_right _ _), Nat.add_sub_cancel_left]

theorem tick_scheduled (h : Drains began i p w k s q crew units) (hv : v ∈ crew) :
    ∃ j, ⟨v.ticker.due, v.ticket, .tick i j⟩ ∈ s.agenda := by
  obtain ⟨j, hj⟩ := List.mem_iff_getElem?.mp hv
  have left := tick_mem_agenda h.pool ((h.getElem?_crew j).trans hj) h.running (h.onBeat v hv).idle
  rw [Nat.max_eq_left (h.onTime v hv)] at left
  exact ⟨_, left⟩

theorem next_le (h : Drains began i p w k s q crew units) (next : s.next? limit = some e)
    (hv : v ∈ crew) : e.time ≤ v.ticker.due := by
  obtain ⟨j, hj⟩ := h.tick_scheduled hv
  exact time_le_of_next? next hj

/-- Of the workers of the pool only the new ones have something to do, and it is their tick. -/
theorem tick_of_own (h : Drains began i p w k s q crew units)
    (finished : ∀ v ∈ p.workers, v.phase.isOver = true) (scheduled : Scheduled s e) {j : Nat}
    (own : e.action.worker? = some (i, j)) :
    ∃ m v, crew[m]? = some v ∧ e = ⟨v.ticker.due, v.ticket, .tick i (p.workers.length + m)⟩ := by
  -- Every worker that is not over is new and waits.
  have crewed {w : Worker} (worker : q.workers[j]? = some w) (awake : w.phase.isOver = false) :
      ∃ m, j = p.workers.length + m ∧ crew[m]? = some w := by
    by_cases old : j < p.workers.length
    · rw [h.workers, List.getElem?_append_left old] at worker
      rw [finished w (List.mem_of_getElem? worker)] at awake
      cases awake
    · have hj : p.workers.length + (j - p.workers.length) = j := by omega
      exact ⟨j - p.workers.length, hj.symm, by rw [← h.getElem?_crew, hj, worker]⟩
  cases scheduled with
  | tick pool worker running idle =>
      obtain ⟨rfl, rfl⟩ := Prod.mk.inj (Option.some.inj own)
      obtain rfl := Option.some.inj (h.pool.symm.trans pool)
      obtain ⟨m, rfl, hm⟩ := crewed worker (by rw [idle]; rfl)
      refine ⟨m, _, hm, ?_⟩
      rw [Nat.max_eq_left (h.onTime _ (List.mem_of_getElem? hm))]
  | quit pool _ cancelled =>
      obtain ⟨rfl, rfl⟩ := Prod.mk.inj (Option.some.inj own)
      obtain rfl := Option.some.inj (h.pool.symm.trans pool)
      rw [h.running] at cancelled
      cases cancelled
  | deliver pool worker sends =>
      obtain ⟨rfl, rfl⟩ := Prod.mk.inj (Option.some.inj own)
      obtain rfl := Option.some.inj (h.pool.symm.trans pool)
      obtain ⟨m, rfl, hm⟩ := crewed worker (by rw [sends]; rfl)
      rw [(h.onBeat _ (List.mem_of_getElem? hm)).idle] at sends
      cases sends
  | _ => cases own

theorem elsewhere (h : Drains began i p w k s q crew units) (next : s.next? limit = some e)
    (others : ∀ j, e.action.worker? ≠ some (i, j)) :
    Drains began i p w k (s.perform e) q crew units := by
  obtain ⟨scheduled, -, -⟩ := of_next? next
  obtain ⟨pool, begun, returned⟩ := perform_elsewhere h.orderly scheduled h.free others
  exact
    { h with
      orderly := h.orderly.change (perform_change h.orderly scheduled : Change _ _)
      atOnce := scheduled.script h.atOnce
      free := Abide.free (.perform h.orderly scheduled) h.free
      pool := pool.trans h.pool
      onTime := fun v hv => perform_now h.orderly scheduled ▸ h.next_le next hv
      begun := begun.trans h.begun
      returned := returned.trans h.returned }

theorem ticked (h : Drains began i p w k s q crew units) (positive : 0 < p.interval)
    (next : s.next? (began.now + k * p.interval) = some e) {m : Nat} (hm : crew[m]? = some v)
    (due : e.time = v.ticker.due) {ticket : Nat} (more : List WorkUnit)
    (pool : (s.perform e).pools[i]? = some q') (running : q'.cancelled = q.cancelled)
    (maxPoints : q'.maxPoints = q.maxPoints)
    (workers : q'.workers =
      q.workers.set (p.workers.length + m) ⟨v.ticker.take v.ticker.due, .idle, ticket⟩)
    (begun : begunUnits i (s.perform e).journal = begunUnits i s.journal ++ more)
    (returned : returnedUnits i (s.perform e).journal = returnedUnits i s.journal ++ more)
    (portioned : ∀ flushes,
      Portioned p.unitLimit p.buffer.toList flushes units q.buffer.toList →
      Portioned p.unitLimit p.buffer.toList (flushes + 1) (units ++ more) q'.buffer.toList) :
    Drains began i p w k (s.perform e) q'
      (crew.set m ⟨v.ticker.take v.ticker.due, .idle, ticket⟩) (units ++ more) := by
  obtain ⟨scheduled, soon, -⟩ := of_next? next
  have now := perform_now h.orderly scheduled
  have hv : v ∈ crew := List.mem_of_getElem? hm
  obtain ⟨onBeat, rounds⟩ := (h.onBeat v hv).take positive ticket
  -- The others are as they were.
  have every {P : Worker → Prop} (old : ∀ u ∈ crew, P u)
      (new : P ⟨v.ticker.take v.ticker.due, .idle, ticket⟩) :
      ∀ u ∈ crew.set m ⟨v.ticker.take v.ticker.due, .idle, ticket⟩, P u := by
    intro u hu
    rcases List.mem_or_eq_of_mem_set hu with hu | rfl
    · exact old u hu
    · exact new
  exact
    { orderly := h.orderly.change (perform_change h.orderly scheduled : Change _ _)
      atOnce := scheduled.script h.atOnce
      free := Abide.free (.perform h.orderly scheduled) h.free
      pool := pool
      running := running.trans h.running
      maxPoints := maxPoints.trans h.maxPoints
      workers := by
        rw [workers, h.workers, List.set_append_right _ _ (Nat.le_add_right _ _),
          Nat.add_sub_cancel_left]
      onBeat := every h.onBeat onBeat
      onTime := by
        rw [now]
        refine every (fun u hu => h.next_le next hu) ?_
        rw [due]
        exact Nat.le_trans (Nat.le_add_right _ _) (Ticker.due_le_due_take _ (Nat.le_refl _))
      crewed := by rw [List.length_set, h.crewed]
      within := by
        refine every h.within ?_
        have hbound : began.now + (v.rounds began.now + 1) * p.interval ≤
            began.now + k * p.interval := by
          rw [due, (h.onBeat v hv).ticker] at soon
          exact soon
        rw [rounds]
        exact Nat.le_of_mul_le_mul_right (Nat.le_of_add_le_add_left hbound) positive
      begun := by rw [begun, h.begun, List.append_assoc]
      returned := by rw [returned, h.returned, List.append_assoc]
      portioned := by
        have hset := total_map_set (Worker.rounds began.now) hm
          ⟨v.ticker.take v.ticker.due, .idle, ticket⟩
        have htotal : total ((crew.set m ⟨v.ticker.take v.ticker.due, .idle, ticket⟩).map
            (Worker.rounds began.now)) = total (crew.map (Worker.rounds began.now)) + 1 := by
          omega
        rw [htotal]
        exact portioned _ h.portioned }

/-- A new worker takes its tick, whether it finds points or not. -/
theorem ticks (h : Drains began i p w k s q crew units) (positive : 0 < p.interval)
    (next : s.next? (began.now + k * p.interval) = some e) {m : Nat} (hm : crew[m]? = some v)
    (he : e = ⟨v.ticker.due, v.ticket, .tick i (p.workers.length + m)⟩) :
    ∃ q' crew' units', Drains began i p w k (s.perform e) q' crew' units' := by
  have hi : i < s.pools.length := (List.getElem?_eq_some_iff.mp h.pool).choose
  have hlimit : q.unitLimit = p.unitLimit := by
    rw [FlushPool.unitLimit, h.maxPoints]
    rfl
  have worker : q.workers[p.workers.length + m]? = some v := (h.getElem?_crew m).trans hm
  have idle := (h.onBeat v (List.mem_of_getElem? hm)).idle
  have perform : s.perform e =
      Relay.tick { s with now := v.ticker.due } i (p.workers.length + m) := by
    rw [perform_eq (of_next? next).1.now_le, he]
    rfl
  by_cases hempty : q.buffer.toList = []
  · obtain ⟨ticket, -, becomes⟩ := tick_of_empty (s := { s with now := v.ticker.due }) h.pool worker
      h.running idle (Nat.le_refl _) hempty
    rw [← perform] at becomes
    have pool := becomes.getElem? hi
    obtain ⟨registry, tickets, sends, -, heq⟩ := becomes
    refine ⟨_, _, _, h.ticked positive next hm (he ▸ rfl) [] pool rfl rfl rfl ?_ ?_ ?_⟩
    · rw [heq, List.append_nil]
      rfl
    · rw [heq, List.append_nil]
      rfl
    · intro flushes portioned
      rw [hempty] at portioned
      rw [List.append_nil, drained, hempty, List.drop_nil]
      exact portioned.idle
  · obtain ⟨ticket, -, becomes⟩ := tick_of_full (s := { s with now := v.ticker.due }) h.pool worker
      h.running idle (Nat.le_refl _) hempty
    have hends : (nextFlight { s with now := v.ticker.due } ⟨q.nextPoints⟩).ends ≤
        v.ticker.due := Nat.le_of_eq (congrArg (v.ticker.due + ·) h.atOnce.next.1)
    rw [if_pos hends, ← perform] at becomes
    have pool := becomes.getElem? hi
    obtain ⟨registry, tickets, sends, -, heq⟩ := becomes
    refine ⟨_, _, _, h.ticked positive next hm (he ▸ rfl) [⟨q.nextPoints⟩] pool rfl rfl rfl ?_ ?_
      ?_⟩
    · rw [heq]
      simp [begunUnits, Origin.pool?]
    · rw [heq]
      simp [returnedUnits, lastBegun, Origin.pool?]
    · intro flushes portioned
      rw [drained, FlushPool.nextPoints, hlimit]
      exact portioned.take p.one_le_unitLimit hempty

theorem perform (h : Drains began i p w k s q crew units) (positive : 0 < p.interval)
    (finished : ∀ v ∈ p.workers, v.phase.isOver = true)
    (next : s.next? (began.now + k * p.interval) = some e) :
    ∃ q' crew' units', Drains began i p w k (s.perform e) q' crew' units' := by
  by_cases own : ∃ j, e.action.worker? = some (i, j)
  · obtain ⟨j, own⟩ := own
    obtain ⟨m, v, hm, he⟩ := h.tick_of_own finished (of_next? next).1 own
    exact h.ticks positive next hm he
  · exact ⟨q, crew, units, h.elsewhere next fun j hj => own ⟨j, hj⟩⟩

/-- Once no tick is due any more up to the last round, every new worker has taken part in
every round. -/
theorem total_rounds (h : Drains began i p w k s q crew units)
    (late : ∀ f ∈ s.agenda, began.now + k * p.interval < f.time) :
    total (crew.map (Worker.rounds began.now)) = k * w := by
  have all (v : Worker) (hv : v ∈ crew) : v.rounds began.now = k := by
    obtain ⟨j, hj⟩ := h.tick_scheduled hv
    have hlate := late _ hj
    dsimp only at hlate
    rw [(h.onBeat v hv).ticker] at hlate
    have hrounds : k < v.rounds began.now + 1 :=
      Nat.lt_of_mul_lt_mul_right (Nat.lt_of_add_lt_add_left hlate)
    have := h.within v hv
    omega
  rw [List.map_congr_left all, List.map_const', h.crewed, total_replicate, Nat.mul_comm]

theorem spawned {began : Relay} (orderly : began.Orderly) (pool : began.pools[i]? = some p)
    (running : p.cancelled = false) (positive : 0 < p.interval)
    (atOnce : began.sends.All fun plan => plan.duration = 0)
    (free : ∀ x ∈ began.listeners, x.pool ≠ some i) (w k : Nat) :
    ∃ q crew, Drains began i p w k (began.step (.spawn i w)) q crew [] := by
  have hi : i < began.pools.length := (List.getElem?_eq_some_iff.mp pool).choose
  obtain ⟨crew, hlength, hnew, heq⟩ := spawnWorkers_eq pool w
  have onBeat (v : Worker) (hv : v ∈ crew) := (hnew v hv).onBeat positive
  have rounds : total (crew.map (Worker.rounds began.now)) = 0 := by
    rw [List.map_congr_left fun v hv => (onBeat v hv).2, List.map_const', total_replicate,
      Nat.mul_zero]
  refine ⟨{ p with workers := p.workers ++ crew }, crew, ?_⟩
  rw [Relay.step, heq]
  exact
    { orderly := heq ▸ orderly.step (.spawn i w)
      atOnce := atOnce
      free := free
      pool := List.getElem?_set_self hi
      running := running
      maxPoints := rfl
      workers := rfl
      onBeat := fun v hv => (onBeat v hv).1
      onTime := fun v hv => by
        rw [(hnew v hv).ticker]
        exact Nat.le_add_right _ _
      crewed := hlength
      within := fun v hv => (onBeat v hv).2 ▸ Nat.zero_le k
      begun := (List.append_nil _).symm
      returned := (List.append_nil _).symm
      portioned := rounds.symm ▸ .start _ _ }

end Drains

/-- When workers are spawned for a pool that nothing else touches, and sends return at once,
then all that is due up to `k` intervals later sends as many points as `k` units for each
worker hold, or all there are. They are the oldest ones, in full units but for the last
one, and the others are still in the buffer. -/
theorem pool_throughput (wallClock : Int) (sends : Script SendPlan)
    (checkIns : Script (Option ShippingError)) (before : List Action) :
    let s := (create wallClock sends checkIns).run before
    ∀ (i : Nat) (p : FlushPool) (w k : Nat), s.pools[i]? = some p → p.cancelled = false →
      0 < p.interval → (∀ v ∈ p.workers, v.phase.isOver = true) →
      (∀ x ∈ s.listeners, x.pool ≠ some i) → (s.sends.All fun plan => plan.duration = 0) →
      let t := (s.step (.spawn i w)).advance (s.now + k * p.interval)
      let sent := min p.buffer.size (k * w * max p.maxPoints 1)
      ∃ q units, t.pools[i]? = some q ∧
        begunUnits i t.journal = begunUnits i s.journal ++ units ∧
        returnedUnits i t.journal = returnedUnits i s.journal ++ units ∧
        unitPoints units = p.buffer.toList.take sent ∧ (unitPoints units).length = sent ∧
        q.buffer.toList = p.buffer.toList.drop sent ∧ q.buffer.size = p.buffer.size - sent ∧
        (∀ u ∈ units, u.points ≠ [] ∧ u.size ≤ max p.maxPoints 1) ∧
        ∀ u ∈ units.dropLast, u.size = max p.maxPoints 1 := by
  intro s i p w k pool running positive finished free atOnce t sent
  have reachable : s.Reachable := ⟨wallClock, sends, checkIns, before, rfl⟩
  have spawned : (s.step (.spawn i w)).Reachable := reachable.step _
  obtain ⟨q₀, crew₀, drains₀⟩ :=
    Drains.spawned reachable.orderly pool running positive atOnce free w k
  obtain ⟨q, crew, units, drains⟩ : ∃ q crew units,
      Drains s i p w k ((s.step (.spawn i w)).advanceUntil (s.now + k * p.interval) fun _ => false)
        q crew units := by
    refine follow_induct (motive := fun r => ∃ q crew units, Drains s i p w k r q crew units)
      ⟨q₀, crew₀, [], drains₀⟩ ?_
    rintro r e ⟨q, crew, units, drains⟩ _ next
    exact drains.perform positive finished next
  have early : (s.step (.spawn i w)).now ≤ s.now + k * p.interval := by
    rw [step_now s (a := .spawn i w) nofun]
    exact Nat.le_add_right _ _
  have rounds := drains.total_rounds fun f hf =>
    (advanceUntil_late spawned.orderly spawned.ticking early hf).1
  have portioned := drains.portioned
  rw [rounds] at portioned
  have hsent : sent = min p.buffer.toList.length (k * w * p.unitLimit) := by
    rw [p.buffer.length_toList]
    rfl
  refine ⟨q, units, drains.pool, drains.begun, drains.returned, hsent ▸ portioned.points_eq,
    hsent ▸ portioned.length, hsent ▸ portioned.left_eq, ?_,
    fun u hu => ⟨portioned.nonempty u hu, portioned.within u hu⟩, portioned.allButLast⟩
  rw [← q.buffer.length_toList, portioned.left_eq, List.length_drop, ← hsent,
    p.buffer.length_toList]

/-- Two workers that take two points each leave one of five after their first round. -/
theorem pool_throughput_fivePoints :
    let point := Point.make "m" (.ofNat 1) 1 .empty
    let s := (create 0 (.always .deliver) (.always none)).run
      [.addPool 10 2 1000, .offer 0 (List.replicate 5 point)]
    let t := (s.step (.spawn 0 2)).advance (s.now + 1 * 1000)
    (∃ p, s.pools[0]? = some p ∧ p.cancelled = false ∧ p.buffer.size = 5) ∧
      (s.sends.All fun plan => plan.duration = 0) ∧
      ∃ q units, t.pools[0]? = some q ∧ returnedUnits 0 t.journal = units ∧
        (unitPoints units).length = 4 ∧ q.buffer.size = 1 ∧
        ∀ u ∈ units.dropLast, u.size = 2 := by
  intro point s t
  have hpool : (s.pools[0]?.map fun p => (p.cancelled, p.interval, p.maxPoints, p.workers,
      p.buffer.size)) = some (false, 1000, 2, [], 5) := by decide +kernel
  obtain ⟨p, pool, hp⟩ := Option.map_eq_some_iff.mp hpool
  obtain ⟨running, interval, maxPoints, workers, size⟩ :
      p.cancelled = false ∧ p.interval = 1000 ∧ p.maxPoints = 2 ∧ p.workers = [] ∧
        p.buffer.size = 5 := by simpa using hp
  have free : ∀ x ∈ s.listeners, x.pool ≠ some 0 := by decide +kernel
  have atOnce : s.sends.All fun plan => plan.duration = 0 :=
    ⟨by decide +kernel, fun _ => by decide +kernel⟩
  have fresh : returnedUnits 0 s.journal = [] := by decide +kernel
  obtain ⟨q, units, hq, -, returned, -, length, -, left, -, full⟩ :=
    pool_throughput 0 (.always .deliver) (.always none)
      [.addPool 10 2 1000, .offer 0 (List.replicate 5 point)] 0 p 2 1 pool running
      (by rw [interval]; decide) (by rw [workers]; exact nofun) free atOnce
  rw [interval] at hq returned
  rw [size, maxPoints] at length left
  rw [maxPoints] at full
  refine ⟨⟨p, pool, running, size⟩, atOnce, q, units, hq, ?_, length, left, full⟩
  rw [returned, fresh]
  rfl

end Relay
end MetricsProxy
