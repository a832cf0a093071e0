import MetricsProxy.Proofs.Relay.Meanwhile

/-!
# Following the agenda comes to its end

Every task has an effort left up to a time: a periodic task can tick once at
most in every moment that is left, a reader has the bytes that have arrived, a
stop has the tasks that it has not seen end. Each entry of the agenda takes some
of it (`perform_effort_lt`), and a relay never has more of it than its budget
(`effort_le_budget`). So the budget lets the agenda be followed until nothing is
due any more or enough has happened (`follow_ends`).
-/
namespace MetricsProxy

/-! ## Effort -/

/-- Steps until the next tick. -/
def Phase.effort : Phase → Nat
  | idle => 1
  | sending _ => 2
  | _ => 0

/-- What a periodic task may still do up to `limit`. -/
def Worker.effort (limit : Nat) (w : Worker) : Nat :=
  2 * (limit + 1 - w.ticker.due) + w.phase.effort

def FlushPool.effort (limit : Nat) (p : FlushPool) : Nat :=
  total (p.workers.map (Worker.effort limit))

/-- What is left to read of a connection, and its end. -/
def Connection.effort (x : Connection) : Nat :=
  if x.live then
    (if x.arrived = [] then (if x.reader.finish.isSome then 1 else 0)
      else x.arrived.length + 1) + 1
  else 0

/-- The workers of a listener and the task that accepts connections. -/
def Listener.taskCount (pools : List FlushPool) (x : Listener) : Nat :=
  (x.pool.bind fun i => pools[i]?).elim 0 (fun p => p.workers.length) + 1

/-- Of this many tasks of a listener, those that its stop has not seen end. -/
def Listener.effort (tasks : Nat) (x : Listener) : Nat :=
  (if x.accepting then 1 else 0) + x.closing.elim 0 fun closing => tasks - closing.awaited + 1

theorem TaskStep.effort_lt {now limit : Nat} {w w' : Worker} (h : TaskStep now w w')
    (soon : now ≤ limit) (positive : 0 < w.ticker.period) : w'.effort limit < w.effort limit := by
  induction h with
  | rests ticket idle due =>
      have hdue := Ticker.due_le_due_take _ due
      simp only [Worker.effort, idle, Phase.effort]
      omega
  | sends flight ticket idle due =>
      have hdue := Ticker.due_le_due_take _ due
      simp only [Worker.effort, idle, Phase.effort]
      omega
  | lands flight ticket sends elapsed =>
      simp only [Worker.effort, sends, Phase.effort]
      omega
  | @ends w awake =>
      cases hphase : w.phase with
      | idle => simp only [Worker.effort, hphase, Phase.effort]; omega
      | sending f => simp only [Worker.effort, hphase, Phase.effort]; omega
      | ended => rw [hphase] at awake; cases awake
      | aborted => rw [hphase] at awake; cases awake
  | seq first second ih ih' =>
      have hsecond := ih' (first.period_eq ▸ positive)
      have hfirst := ih positive
      omega

theorem PoolStep.effort_lt {now i limit : Nat} {p q : FlushPool} {events : List Event}
    (h : PoolStep now i p events q) (soon : now ≤ limit) (orderly : p.Orderly) :
    q.effort limit < p.effort limit := by
  let ticking (ws : List Worker) : Prop := ∀ w ∈ ws, w.phase.isOver = false → 0 < w.ticker.period
  have hboth : ticking p.workers → ticking q.workers ∧
      total (q.workers.map (Worker.effort limit)) <
        total (p.workers.map (Worker.effort limit)) := by
    refine h.induct_tasks (motive := fun us vs => ticking us → ticking vs ∧
        total (vs.map (Worker.effort limit)) < total (us.map (Worker.effort limit))) ?_ ?_
    · intro ws j w w' hw step hticking
      have hperiod := hticking w (List.mem_of_getElem? hw) step.awake
      refine ⟨fun v hv awake => ?_, ?_⟩
      · rcases List.mem_or_eq_of_mem_set hv with hv | rfl
        · exact hticking v hv awake
        · rw [step.period_eq]
          exact hperiod
      · have hset := total_map_set (Worker.effort limit) hw w'
        have hlt := step.effort_lt soon hperiod
        omega
    · intro us vs ws first second hticking
      obtain ⟨hvs, hlt⟩ := first hticking
      obtain ⟨hws, hlt'⟩ := second hvs
      exact ⟨hws, Nat.lt_trans hlt' hlt⟩
  exact (hboth fun w hw => (orderly w hw).ticks).2

theorem FlushPool.effort_aborted_le (limit : Nat) (p : FlushPool) :
    p.aborted.effort limit ≤ p.effort limit := by
  rw [effort, effort, aborted, List.map_map]
  refine total_map_le fun w _ => ?_
  rw [Function.comp_apply, Worker.abort]
  split
  · exact Nat.le_refl _
  · exact Nat.add_le_add_left (Nat.zero_le _) _

theorem Connection.effort_closedBy_le (l : Nat) (x : Connection) :
    (x.closedBy l).effort ≤ x.effort := by
  unfold closedBy
  split
  · exact Nat.zero_le _
  · exact Nat.le_refl _

theorem LineReader.length_lt_of_feed {r : LineReader} {chunk rest : List UInt8} {frame : Frame}
    (h : r.feed chunk = .complete frame rest) : rest.length < chunk.length := by
  have hskip : ∀ {bs rest : List UInt8} {frame : Frame},
      r.skip bs = .complete frame rest → rest.length < bs.length := by
    intro bs rest frame h
    unfold skip at h
    cases hafter : afterNewline? bs with
    | none => rw [hafter] at h; cases h
    | some left =>
        rw [hafter] at h
        cases h
        induction bs with
        | nil => cases hafter
        | cons b bs ih =>
            rw [afterNewline?] at hafter
            split at hafter
            · cases hafter
              exact Nat.lt_succ_self _
            · exact Nat.lt_succ_of_lt (ih hafter)
  unfold feed at h
  split at h
  · exact hskip h
  · have happend := congrArg List.length (cut_append (r.limit + 1 - r.held.length) chunk)
    rw [List.length_append] at happend
    dsimp only at h
    split at h
    · rename_i hnewline
      cases h
      have hne : (cut (r.limit + 1 - r.held.length) chunk).1 ≠ [] := by
        intro hnil
        rw [hnil] at hnewline
        cases hnewline
      have hpos := List.length_pos_iff.mpr hne
      omega
    · split at h
      · cases h
      · have hlt := hskip h
        omega

namespace Relay

def effort (limit : Nat) (s : Relay) : Nat :=
  total (s.pools.map (FlushPool.effort limit)) +
    total (s.reporters.map fun r => r.task.effort limit) +
    total (s.connections.map Connection.effort) +
    total (s.listeners.map fun x => x.effort (x.taskCount s.pools))

theorem length_tasksOver (s : Relay) (x : Listener) :
    (s.tasksOver x).length = x.taskCount s.pools := by
  unfold tasksOver pool? Listener.taskCount
  rw [List.length_append, List.length_singleton]
  congr 1
  cases x.pool.bind fun i => s.pools[i]? <;> simp

/-- A relay never has more to do than its budget. -/
theorem effort_le_budget (s : Relay) (limit : Nat) : s.effort limit ≤ s.budget limit := by
  have htask (w : Worker) : w.effort limit ≤ taskBudget limit w := by
    unfold Worker.effort taskBudget Phase.effort
    split <;> omega
  have hpools : total (s.pools.map (FlushPool.effort limit)) ≤
      total (s.pools.map fun p => total (p.workers.map (taskBudget limit))) :=
    total_map_le fun p _ => total_map_le fun w _ => htask w
  have hreporters : total (s.reporters.map fun r => r.task.effort limit) ≤
      total (s.reporters.map fun r => taskBudget limit r.task) :=
    total_map_le fun r _ => htask r.task
  have hconnections : total (s.connections.map Connection.effort) ≤
      total (s.connections.map fun x => x.arrived.length + 4) := by
    refine total_map_le fun x _ => ?_
    unfold Connection.effort
    split
    · split
      · split <;> omega
      · omega
    · omega
  have hlisteners : total (s.listeners.map fun x => x.effort (x.taskCount s.pools)) ≤
      total (s.listeners.map fun x => (s.tasksOver x).length + 3) := by
    refine total_map_le fun x _ => ?_
    have haccepting : (if x.accepting then 1 else 0) ≤ 1 := by split <;> omega
    rw [length_tasksOver]
    cases hcloses : x.closing with
    | none =>
        simp only [Listener.effort, hcloses, Option.elim_none]
        omega
    | some closing =>
        simp only [Listener.effort, hcloses, Option.elim_some]
        omega
  unfold effort budget
  omega

section
variable {s s' : Relay} {i k l c limit : Nat}

/-! ## Each entry takes some of it -/

/-- A pool that has as many workers as before leaves its listener as many tasks. -/
theorem taskCount_set {p q : FlushPool} (pool : s.pools[i]? = some p)
    (staff : q.workers.length = p.workers.length) (x : Listener) :
    x.taskCount (s.pools.set i q) = x.taskCount s.pools := by
  have hi : i < s.pools.length := (List.getElem?_eq_some_iff.mp pool).choose
  unfold Listener.taskCount
  cases x.pool with
  | none => rfl
  | some j =>
      dsimp only [Option.bind_some]
      by_cases hij : i = j
      · subst hij
        rw [List.getElem?_set_self hi, pool]
        simp [staff]
      · rw [List.getElem?_set_ne hij]

theorem effort_set_pool (limit : Nat) {p : FlushPool} (pool : s.pools[i]? = some p) (q : FlushPool)
    (staff : q.workers.length = p.workers.length) :
    effort limit { s with pools := s.pools.set i q } + p.effort limit =
      s.effort limit + q.effort limit := by
  have hset := total_map_set (FlushPool.effort limit) pool q
  have htasks : total (s.listeners.map fun x => x.effort (x.taskCount (s.pools.set i q))) =
      total (s.listeners.map fun x => x.effort (x.taskCount s.pools)) :=
    total_map_congr fun x _ => congrArg x.effort (taskCount_set pool staff x)
  unfold effort
  dsimp only at htasks ⊢
  omega

theorem effort_set_listener (limit : Nat) {x : Listener} (listener : s.listeners[l]? = some x)
    (y : Listener) (owner : y.pool = x.pool) :
    effort limit { s with listeners := s.listeners.set l y } + x.effort (x.taskCount s.pools) =
      s.effort limit + y.effort (x.taskCount s.pools) := by
  have hset := total_map_set (fun x => x.effort (x.taskCount s.pools)) listener y
  have hcount : y.taskCount s.pools = x.taskCount s.pools := by
    rw [Listener.taskCount, owner, Listener.taskCount]
  rw [hcount] at hset
  unfold effort
  dsimp only
  omega

theorem effort_lt_of_works {p q : FlushPool} {events : List Event} (pool : s.pools[i]? = some p)
    (becomes : s.Becomes i q events s') (staff : q.workers.length = p.workers.length)
    (less : q.effort limit < p.effort limit) : s'.effort limit < s.effort limit := by
  obtain ⟨registry, tickets, sends, -, rfl⟩ := becomes
  have hset : s.effort limit + q.effort limit = effort limit _ + _ :=
    (effort_set_pool limit pool q staff).symm
  unfold effort at hset ⊢
  dsimp only at hset ⊢
  omega

theorem effort_lt_of_reports {r : Reporter} {task : Worker} (reporter : s.reporters[k]? = some r)
    (assigns : s.Assigns k r task s') (less : task.effort limit < r.task.effort limit) :
    s'.effort limit < s.effort limit := by
  obtain ⟨tickets, sends, events, -, rfl⟩ := assigns
  have hset := total_map_set (fun r => r.task.effort limit) reporter { r with task := task }
  unfold effort
  dsimp only at hset ⊢
  omega

theorem Handled.effort_eq {cls : LineClass} (h : s.Handled i c cls s') :
    s'.effort limit = s.effort limit := by
  cases h with
  | @accepted p point pool room =>
      exact Nat.add_right_cancel
        (effort_set_pool limit pool { p with buffer := (p.buffer.enqueue point).1 } rfl)
  | rejected => rfl
  | error => rfl
  | blank => rfl

theorem effort_set_connection {x y : Connection} (connection : s.connections[c]? = some x)
    (less : y.effort < x.effort) (registry : Registry) :
    effort limit { s with connections := s.connections.set c y, registry := registry } <
      s.effort limit := by
  have hset := total_map_set Connection.effort connection y
  unfold effort
  dsimp only
  omega

theorem Reading.effort_lt (h : s.Reading c s') : s'.effort limit < s.effort limit := by
  cases h with
  | @closes x listener i connection live server pool reason =>
      refine effort_set_connection connection ?_ _
      unfold Connection.effort
      rw [if_neg Bool.false_ne_true, if_pos live]
      omega
  | @keeps x listener i reader connection live server pool running some fed =>
      refine effort_set_connection connection ?_ s.registry
      have hlength := List.length_pos_iff.mpr some
      unfold Connection.effort
      rw [if_pos live, if_pos live, if_pos rfl, if_neg some]
      split <;> omega
  | @takes x listener i frame rest cls s' connection live server pool running framed classified
      handled =>
      rw [handled.effort_eq]
      refine effort_set_connection connection ?_ s.registry
      have hfresh : (LineReader.fresh listener.settings.maxLineLength).finish.isSome = false := rfl
      unfold Connection.effort
      rw [if_pos live, if_pos live]
      dsimp only
      rw [hfresh, if_neg Bool.false_ne_true]
      rcases framed with ⟨hsome, hfeed⟩ | ⟨harrived, rfl, -, -, hfinish⟩
      · have hlength := LineReader.length_lt_of_feed hfeed
        rw [if_neg hsome]
        split <;> omega
      · rw [if_pos rfl, if_pos harrived, hfinish, Option.isSome_some, if_pos rfl]
        omega

theorem effort_settle_lt {x : Listener} {p : FlushPool} {closing : Closing}
    (listener : s.listeners[l]? = some x) (closes : x.closing = some closing)
    (pool : s.pools[i]? = some p) : (s.settle l i).effort limit < s.effort limit := by
  obtain ⟨registry, -, heq⟩ := settle_eq listener pool
  have hpool : effort limit { s with registry := registry, pools := s.pools.set i p.settled } =
      s.effort limit := Nat.add_right_cancel (effort_set_pool limit pool p.settled rfl)
  have hlistener := effort_set_listener limit
    (s := { s with registry := registry, pools := s.pools.set i p.settled }) listener
    { x with state := .stopped, closing := none } rfl
  simp only [Listener.effort, closes, Option.elim_some, Option.elim_none] at hlistener
  rw [heq]
  omega

theorem effort_afterAbort_le {x : Listener} {p : FlushPool} (listener : s.listeners[l]? = some x)
    (pool : s.pools[i]? = some p) : (s.afterAbort l i).effort limit ≤ s.effort limit := by
  have hpool := effort_set_pool limit pool p.aborted (List.length_map _)
  have haborted := p.effort_aborted_le limit
  have hconnections : total ((s.connections.map (Connection.closedBy l)).map Connection.effort) ≤
      total (s.connections.map Connection.effort) := by
    rw [List.map_map]
    exact total_map_le fun x _ => x.effort_closedBy_le l
  have hlistener := effort_set_listener limit
    (s := { s with
      registry := s.registry.release (s.liveCount l)
      pools := s.pools.set i p.aborted
      connections := s.connections.map (Connection.closedBy l) }) listener
    { x with accepting := false } rfl
  simp only [Listener.effort, Bool.false_eq_true, if_false] at hlistener
  rw [afterAbort_eq listener pool]
  unfold effort at hpool hlistener ⊢
  dsimp only at hpool hlistener ⊢
  omega

theorem effort_awaitTask_lt (tended : s.Tended) {x : Listener} {closing : Closing}
    (listener : s.listeners[l]? = some x) (closes : x.closing = some closing)
    (ready : (s.tasksOver x)[closing.awaited]? ≠ some false) :
    (s.awaitTask l).effort limit < s.effort limit := by
  obtain ⟨i, p, owner, pool⟩ := tended.owner_of_closing listener closes
  rw [awaitTask_eq listener closes owner]
  cases htask : (s.tasksOver x)[closing.awaited]? with
  | none => exact effort_settle_lt listener closes pool
  | some ended =>
      cases ended with
      | false => exact absurd htask ready
      | true =>
          have hlt := (List.getElem?_eq_some_iff.mp htask).choose
          have hset := effort_set_listener limit listener
            { x with closing := some { closing with awaited := closing.awaited + 1 } } rfl
          rw [length_tasksOver] at hlt
          simp only [Listener.effort, closes, Option.elim_some] at hset
          dsimp only
          rw [modifyListener_eq listener]
          omega

theorem effort_expire_lt (tended : s.Tended) {x : Listener} {closing : Closing}
    (listener : s.listeners[l]? = some x) (closes : x.closing = some closing)
    (guard : closing.deadline ≤ s.now ∧ closing.awaited < (s.tasksOver x).length) :
    (s.expire l).effort limit < s.effort limit := by
  obtain ⟨i, p, owner, pool⟩ := tended.owner_of_closing listener closes
  have habort : (s.afterAbort l i).effort limit ≤ s.effort limit :=
    effort_afterAbort_le listener pool
  obtain ⟨hx, hp⟩ := getElem?_afterAbort listener pool
  rw [expire_eq listener closes owner guard]
  split
  · exact Nat.lt_of_lt_of_le (effort_settle_lt hx closes hp) habort
  · have hset := effort_set_listener limit hx
      { x with accepting := false, closing := none, failed := true } rfl
    rw [modifyListener_eq hx]
    simp only [Listener.effort, closes, Option.elim_some, Option.elim_none] at hset ⊢
    omega

end

/-- Every entry of the agenda takes some of the effort that is left. -/
theorem perform_effort_lt {s : Relay} {e : Entry} {limit : Nat} (orderly : s.Orderly)
    (ticks : ∀ r ∈ s.reporters, r.Ticks) (h : Scheduled s e) (soon : e.time ≤ limit) :
    (s.perform e).effort limit < s.effort limit := by
  -- The effort is up to `limit`, so moving the clock takes none of it.
  have hsame : effort limit { s with now := e.time } = s.effort limit := rfl
  have tended : Tended { s with now := e.time } := orderly.tended
  rw [← hsame]
  have performed := perform_performed orderly h
  generalize s.perform e = t at performed ⊢
  cases performed with
  | works pool behind moves =>
      obtain ⟨events, q, move, becomes⟩ := moves
      exact effort_lt_of_works pool becomes move.length_workers
        (move.effort_lt soon (orderly.pool pool))
  | @reports _ k r reporter reports =>
      obtain ⟨task, step, assigns⟩ := reports
      have hticks := ticks r (List.mem_of_getElem? reporter) step.awake
      exact effort_lt_of_reports reporter assigns (step.effort_lt soon hticks)
  | reads reading => exact reading.effort_lt
  | @leaves l x listener accepting behind =>
      have hset := effort_set_listener limit (s := { s with now := e.time }) listener
        { x with accepting := false } rfl
      simp only [Listener.effort, accepting, Bool.false_eq_true, if_false, if_true] at hset
      omega
  | awaits action listener closes ready => exact effort_awaitTask_lt tended listener closes ready
  | expires action listener closes guard => exact effort_expire_lt tended listener closes guard

/-! ## Following the agenda -/

section
variable {s : Relay} {limit n : Nat} {enough : Relay → Bool}

/-- What every entry keeps holds in the end. -/
theorem follow_induct {motive : Relay → Prop} (start : motive s)
    (keeps : ∀ (t : Relay) (e : Entry), motive t → enough t = false →
      t.next? limit = some e → motive (t.perform e)) : motive (follow limit enough n s) := by
  induction n generalizing s with
  | zero => exact start
  | succ n ih =>
      rw [follow]
      by_cases henough : enough s = true
      · rw [if_pos henough]
        exact start
      · rw [if_neg henough]
        cases hnext : s.next? limit with
        | none => exact start
        | some e => exact ih (keeps s e start (Bool.not_eq_true _ ▸ henough) hnext)

/-- To take an entry of the agenda is to wait for its time and to take its action. -/
theorem perform_run {e : Entry} (h : Scheduled s e) :
    s.perform e = s.run [.wait (e.time - s.now), e.action] := by
  change _ = Relay.step { s with now := s.now + (e.time - s.now) } e.action
  rw [perform_eq h.now_le, Nat.add_sub_of_le h.now_le]

/-- To go on until `limit` is one of the runs, and what every entry keeps holds of it. -/
theorem advance_run {motive : List Action → Prop} (s : Relay) (limit : Nat) (start : motive [])
    (keeps : ∀ (before : List Action) (e : Entry), motive before →
      (s.run before).next? limit = some e →
      motive (before ++ [.wait (e.time - (s.run before).now), e.action])) :
    ∃ before, motive before ∧ (s.advanceUntil limit fun _ => false) = s.run before ∧
      s.advance limit = s.run (before ++ [.wait (limit - (s.run before).now)]) := by
  have followed : ∃ before, (s.advanceUntil limit fun _ => false) = s.run before ∧
      motive before := by
    refine follow_induct (motive := fun t => ∃ before, t = s.run before ∧ motive before)
      ⟨[], rfl, start⟩ ?_
    rintro t e ⟨before, rfl, kept⟩ _ next
    refine ⟨_, ?_, keeps before e kept next⟩
    rw [run_append, perform_run (of_next? next).1]
  obtain ⟨before, heq, kept⟩ := followed
  refine ⟨before, kept, heq, ?_⟩
  rw [advance, heq, run_append]
  exact congrArg (fun now => ({ s.run before with now := now } : Relay))
    (by omega : max (s.run before).now limit =
      (s.run before).now + (limit - (s.run before).now))

theorem follow_change {opens : Bool} (orderly : s.Orderly) :
    Shift opens s (follow limit enough n s) := by
  refine follow_induct (.refl s) fun t e shift _ next => ?_
  exact shift.seq (perform_change (orderly.change shift) (of_next? next).1)

theorem follow_ends (orderly : s.Orderly) (ticks : ∀ r ∈ s.reporters, r.Ticks)
    (fuel : s.effort limit ≤ n) :
    enough (follow limit enough n s) = true ∨ (follow limit enough n s).next? limit = none := by
  induction n generalizing s with
  | zero =>
      refine .inr ?_
      cases hnext : s.next? limit with
      | none => exact hnext
      | some e =>
          obtain ⟨scheduled, soon, -⟩ := of_next? hnext
          have hlt := perform_effort_lt orderly ticks scheduled soon
          omega
  | succ n ih =>
      rw [follow]
      by_cases henough : enough s = true
      · rw [if_pos henough]
        exact .inl henough
      · rw [if_neg henough]
        cases hnext : s.next? limit with
        | none => exact .inr hnext
        | some e =>
            obtain ⟨scheduled, soon, -⟩ := of_next? hnext
            have hlt := perform_effort_lt orderly ticks scheduled soon
            have change : Change s (s.perform e) := perform_change orderly scheduled
            exact ih (orderly.change change) (change.ticking ticks) (by omega)

/-- Up to the limit, nothing is left to do or enough has happened. -/
theorem advanceUntil_ends (orderly : s.Orderly) (ticks : ∀ r ∈ s.reporters, r.Ticks) (limit : Nat)
    (enough : Relay → Bool) :
    enough (s.advanceUntil limit enough) = true ∨
      (s.advanceUntil limit enough).next? limit = none :=
  follow_ends orderly ticks (s.effort_le_budget limit)

theorem now_follow_le (orderly : s.Orderly) (early : s.now ≤ limit) :
    (follow limit enough n s).now ≤ limit := by
  refine (follow_induct (motive := fun t => t.Orderly ∧ t.now ≤ limit) ⟨orderly, early⟩ ?_).2
  rintro t e ⟨orderly, -⟩ _ next
  obtain ⟨scheduled, soon, -⟩ := of_next? next
  have change : Change t (t.perform e) := perform_change orderly scheduled
  refine ⟨orderly.change change, ?_⟩
  rw [perform_now orderly scheduled]
  exact soon

/-- Whatever is left to do when the agenda has been followed has a later time. -/
theorem advanceUntil_late (orderly : s.Orderly) (ticks : ∀ r ∈ s.reporters, r.Ticks)
    (early : s.now ≤ limit) {e : Entry}
    (left : e ∈ (s.advanceUntil limit fun _ => false).agenda) :
    limit < e.time ∧ (s.advanceUntil limit fun _ => false).now < e.time := by
  rcases advanceUntil_ends orderly ticks limit fun _ => false with enough | nothing
  · cases enough
  · have late := of_next?_eq_none nothing left
    exact ⟨late, Nat.lt_of_le_of_lt (now_follow_le orderly early) late⟩

theorem settleNow_change {opens : Bool} (orderly : s.Orderly) : Shift opens s s.settleNow :=
  (follow_change orderly).seq (.waits _ (Nat.le_max_left _ _))

end
end Relay
end MetricsProxy
