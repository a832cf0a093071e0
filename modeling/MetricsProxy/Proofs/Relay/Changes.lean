import MetricsProxy.Proofs.Relay.Reading
import MetricsProxy.Proofs.Relay.Tasks
import MetricsProxy.Relay.Action

/-!
# What an action changes

Whatever happens to listeners, their connections and the reporters beside them
is one of few changes, or several of them in a row. Each rule of `Shift` says
when it applies and what it leaves as it was, so that an invariant of the relay
is proved once for each rule and not for each action (`step_change`). A shift
that opens no connection is told apart from a change of any kind (`step_shift`).
Arrivals of bytes are apart from the rules, since histories record them
(`arrive_cases`).

Actions by hand, on pools that no listener owns, are left out.
-/
namespace MetricsProxy

/-- Whether an action is one that the owner of a bare pool takes. -/
def Action.byHand : Action → Bool
  | addPool _ _ _ | offer _ _ | beginCall _ | endCall _ _ | releaseSize _ | spawn _ _
  | cancelPool _ | abort _ _ => true
  | _ => false

/-- The bytes that arrive with an action, and on which connection. -/
def Action.arrival? : Action → Option (Nat × List UInt8)
  | arrive c bytes => some (c, bytes)
  | _ => none

/-- Whether a connection may be opened by an action. -/
def Action.opens : Action → Bool
  | connect _ => true
  | _ => false

theorem Action.eq_arrive {a : Action} {input : Nat × List UInt8} (h : a.arrival? = some input) :
    a = .arrive input.1 input.2 := by
  cases a with
  | arrive c bytes => cases h; rfl
  | _ => cases h

def Connection.opened (listener limit : Nat) : Connection where
  listener := listener
  reader := .fresh limit
  arrived := []
  finished := false
  broken := false
  live := true

/-- A connection after every connection of listener `l` is closed. -/
def Connection.closedBy (l : Nat) (x : Connection) : Connection :=
  if x.listener = l then { x with live := false } else x

def FlushPool.aborted (p : FlushPool) : FlushPool :=
  { p with workers := p.workers.map Worker.abort }

/-- A pool after what it holds and counts is given up. -/
def FlushPool.settled (p : FlushPool) : FlushPool :=
  { p with reported := 0, buffer := p.buffer.clear.1, inFlight := 0 }

def FlushPool.staffed (settings : ListenerSettings) (workers : List Worker) : FlushPool :=
  { FlushPool.create settings.maxBufferSize settings.maxPointsPerFlush settings.flushInterval with
    workers := workers }

/-- A listener that is bound and has got pool `i`. It runs if its connections can be counted. -/
def Listener.begun (x : Listener) (address : String) (i : Nat) : Listener :=
  { x with
    state := if x.settings.maxConnections ≤ Semaphore.maxPermits then .running else .starting
    bound := some address
    pool := some i
    accepting := x.accepting || x.settings.maxConnections ≤ Semaphore.maxPermits }

theorem Listener.begun_ne (x : Listener) (address : String) (i : Nat) :
    (x.begun address i).state ≠ .created ∧ (x.begun address i).state ≠ .stopping ∧
      (x.begun address i).state ≠ .stopped := by
  unfold Listener.begun
  dsimp only
  split
  · exact ⟨nofun, nofun, nofun⟩
  · exact ⟨nofun, nofun, nofun⟩

/-- Whether a reporter that has not ended waits a while between two reports. -/
def Reporter.Ticks (r : Reporter) : Prop := r.task.phase.isOver = false → 0 < r.task.ticker.period

/-- A worker that starts at `now`. It cannot run on an interval of zero. -/
structure Worker.New (now interval : Nat) (w : Worker) : Prop where
  ticker : w.ticker = .start now interval
  phase : w.phase = if interval = 0 then .aborted else .idle
  behind : 0 < w.ticket

/-- A worker that was just started with this interval. -/
structure Worker.Started (interval : Nat) (w : Worker) : Prop where
  idle : w.phase = .idle
  period : w.ticker.period = interval
  behind : 0 < w.ticket

theorem Worker.New.started {now interval : Nat} {w : Worker} (h : w.New now interval)
    (positive : 0 < interval) : w.Started interval where
  idle := h.phase.trans (if_neg (Nat.ne_of_gt positive))
  period := congrArg Ticker.period h.ticker
  behind := h.behind

namespace Relay

/-- One change, or several in a row; `opens` says whether some may open connections. -/
inductive Shift (opens : Bool) : Relay → Relay → Prop where
  | passes {s : Relay} {now tickets : Nat} {sends : Script SendPlan} {reporters : List Reporter}
      {registry : Registry} (events : List Event) (later : s.now ≤ now)
      (ticking : (∀ r ∈ s.reporters, r.Ticks) → ∀ r ∈ reporters, r.Ticks)
      (counts : s.registry.SameCounts registry) (foreign : ∀ e ∈ events, e.pool? = none)
      (slots : s.registry.SameSlots registry) :
      Shift opens s
        { s with
          now := now
          tickets := tickets
          sends := sends
          reporters := reporters
          registry := registry
          journal := events ++ s.journal }
  | works {s s' : Relay} {i : Nat} {p q : FlushPool} {events : List Event}
      (pool : s.pools[i]? = some p) (move : PoolStep s.now i p events q)
      (becomes : s.Becomes i q events s') : Shift opens s s'
  | reads {s s' : Relay} {c : Nat} (reading : s.Reading c s') : Shift opens s s'
  | signals {s : Relay} {c : Nat} {x : Connection} (finished broken : Bool)
      (connection : s.connections[c]? = some x) (lasting : x.finished = true → finished = true)
      (beyond : x.broken = true → broken = true) :
      Shift opens s
        { s with
          connections := s.connections.set c { x with finished := finished, broken := broken } }
  | adds {s : Relay} (settings : ListenerSettings) :
      Shift opens s { s with listeners := s.listeners ++ [.create settings] }
  | refuses {s : Relay} {l : Nat} {x : Listener} (listener : s.listeners[l]? = some x)
      (fresh : x.state = .created) (valid : x.settings.validate = .ok ()) :
      Shift opens s { s with listeners := s.listeners.set l { x with state := .stopped } }
  | starts {s : Relay} {l tickets : Nat} {x : Listener} {registry : Registry}
      {workers : List Worker} (address : String) (listener : s.listeners[l]? = some x)
      (fresh : x.state = .created) (valid : x.settings.validate = .ok ())
      (counts : s.registry.SameCounts registry)
      (staff : workers.length = x.settings.flushThreads)
      (started : ∀ w ∈ workers, w.Started x.settings.flushInterval)
      (slots : s.registry.SameSlots registry) :
      Shift opens s
        { s with
          registry := registry
          tickets := tickets
          pools := s.pools ++ [.staffed x.settings workers]
          listeners := s.listeners.set l (x.begun address s.pools.length) }
  | connects {s : Relay} {l : Nat} {x : Listener} {registry : Registry}
      (listener : s.listeners[l]? = some x) (accepting : x.accepting = true)
      (running : s.isCancelled x = false) (counts : s.registry.SameCounts registry)
      (allowed : opens = true) (room : s.liveCount l < x.settings.maxConnections) :
      Shift opens s
        { s with
          connections := s.connections ++ [.opened l x.settings.maxLineLength]
          registry := registry }
  | cancels {s : Relay} {l i : Nat} {x : Listener} {p : FlushPool}
      (listener : s.listeners[l]? = some x) (running : x.state = .running)
      (owner : x.pool = some i) (pool : s.pools[i]? = some p) :
      Shift opens s
        { s with
          pools := s.pools.set i { p with cancelled := true }
          listeners := s.listeners.set l
            { x with state := .stopping, closing := some ⟨s.now + x.settings.grace, 0⟩ } }
  | forsakes {s : Relay} {l : Nat} {x : Listener} (listener : s.listeners[l]? = some x)
      (poolless : x.pool = none) :
      Shift opens s { s with listeners := s.listeners.set l { x with dropped := true } }
  | drops {s : Relay} {l i : Nat} {x : Listener} {p : FlushPool}
      (listener : s.listeners[l]? = some x) (owner : x.pool = some i)
      (pool : s.pools[i]? = some p) :
      Shift opens s
        { s with
          pools := s.pools.set i { p with cancelled := true }
          listeners := s.listeners.set l { x with dropped := true } }
  | leaves {s : Relay} {l : Nat} {x : Listener} (listener : s.listeners[l]? = some x)
      (accepting : x.accepting = true) (cancelled : s.isCancelled x = true)
      (alone : s.liveCount l = 0) :
      Shift opens s { s with listeners := s.listeners.set l { x with accepting := false } }
  | sees {s : Relay} {l : Nat} {x : Listener} {closing : Closing}
      (listener : s.listeners[l]? = some x) (closes : x.closing = some closing)
      (ended : (s.tasksOver x)[closing.awaited]? = some true) :
      Shift opens s
        { s with
          listeners := s.listeners.set l
            { x with closing := some { closing with awaited := closing.awaited + 1 } } }
  | aborts {s : Relay} {l i : Nat} {x : Listener} {closing : Closing} {p : FlushPool}
      (listener : s.listeners[l]? = some x)
      (closes : x.closing = some closing) (owner : x.pool = some i)
      (pool : s.pools[i]? = some p) (expired : closing.deadline ≤ s.now) :
      Shift opens s
        { s with
          registry := s.registry.release (s.liveCount l)
          pools := s.pools.set i p.aborted
          connections := s.connections.map (Connection.closedBy l)
          listeners := s.listeners.set l { x with accepting := false } }
  | settles {s : Relay} {l i : Nat} {x : Listener} {closing : Closing} {p : FlushPool}
      {registry : Registry} (listener : s.listeners[l]? = some x)
      (closes : x.closing = some closing) (owner : x.pool = some i)
      (pool : s.pools[i]? = some p)
      (seen : (s.tasksOver x).length ≤ closing.awaited ∨ ∀ b ∈ s.tasksOver x, b = true)
      (counted : ∀ a b e, s.registry.Counts a b e →
        registry.Counts a (b + (p.inFlight + p.buffer.size)) e)
      (slots : s.registry.SameSlots registry) :
      Shift opens s
        { s with
          registry := registry
          pools := s.pools.set i p.settled
          listeners := s.listeners.set l { x with state := .stopped, closing := none } }
  | fails {s : Relay} {l : Nat} {x : Listener} {closing : Closing}
      (listener : s.listeners[l]? = some x) (closes : x.closing = some closing)
      (allEnded : ∀ b ∈ s.tasksOver x, b = true) :
      Shift opens s
        { s with
          listeners := s.listeners.set l { x with closing := none, failed := true } }
  | seq {s s' s'' : Relay} (first : Shift opens s s') (second : Shift opens s' s'') :
      Shift opens s s''

abbrev Change : Relay → Relay → Prop := Shift true

namespace Shift
variable {opens : Bool} {s s' : Relay}

theorem refl (s : Relay) : Shift opens s s :=
  .passes [] (Nat.le_refl _) id (.refl _) (fun _ h => nomatch h) (.refl _)

theorem waits (s : Relay) {now : Nat} (later : s.now ≤ now) :
    Shift opens s { s with now := now } :=
  .passes [] later id (.refl _) (fun _ h => nomatch h) (.refl _)

/-- Whoever may open connections may do without. -/
theorem widen {opens' : Bool} (h : Shift opens s s') (wider : opens = true → opens' = true) :
    Shift opens' s s' := by
  induction h with
  | passes events later ticking counts foreign slots =>
      exact .passes events later ticking counts foreign slots
  | works pool move becomes => exact .works pool move becomes
  | reads reading => exact .reads reading
  | signals finished broken connection lasting beyond =>
      exact .signals finished broken connection lasting beyond
  | adds settings => exact .adds settings
  | refuses listener fresh valid => exact .refuses listener fresh valid
  | starts address listener fresh valid counts staff started slots =>
      exact .starts address listener fresh valid counts staff started slots
  | connects listener accepting running counts allowed room =>
      exact .connects listener accepting running counts (wider allowed) room
  | cancels listener running owner pool => exact .cancels listener running owner pool
  | forsakes listener poolless => exact .forsakes listener poolless
  | drops listener owner pool => exact .drops listener owner pool
  | leaves listener accepting cancelled alone => exact .leaves listener accepting cancelled alone
  | sees listener closes ended => exact .sees listener closes ended
  | aborts listener closes owner pool expired => exact .aborts listener closes owner pool expired
  | settles listener closes owner pool seen counted slots =>
      exact .settles listener closes owner pool seen counted slots
  | fails listener closes allEnded => exact .fails listener closes allEnded
  | seq _ _ ih ih' => exact ih.seq ih'

theorem change (h : Shift opens s s') : Change s s' := h.widen fun _ => rfl

theorem wallClock_eq (h : Shift opens s s') : s'.wallClock = s.wallClock := by
  induction h with
  | works _ _ becomes =>
      obtain ⟨registry, tickets, sends, -, rfl⟩ := becomes
      rfl
  | reads reading =>
      cases reading with
      | closes => rfl
      | keeps => rfl
      | takes _ _ _ _ _ _ _ handled => cases handled <;> rfl
  | seq _ _ ih ih' => exact ih'.trans ih
  | _ => rfl

theorem ticking (h : Shift opens s s') (ticks : ∀ r ∈ s.reporters, r.Ticks) :
    ∀ r ∈ s'.reporters, r.Ticks := by
  induction h with
  | passes _ _ ticking _ _ => exact ticking ticks
  | works _ _ becomes =>
      obtain ⟨registry, tickets, sends, -, rfl⟩ := becomes
      exact ticks
  | reads reading =>
      cases reading with
      | closes => exact ticks
      | keeps => exact ticks
      | takes _ _ _ _ _ _ _ handled => cases handled <;> exact ticks
  | seq _ _ ih ih' => exact ih' (ih ticks)
  | _ => exact ticks

end Shift

section
variable {opens : Bool} {s s' : Relay} {i j k l c : Nat}

theorem Reports.change {r : Reporter} (h : s.Reports k r s') (hr : s.reporters[k]? = some r) :
    Shift opens s s' := by
  obtain ⟨task, step, tickets, sends, events, foreign, rfl⟩ := h
  refine .passes events (Nat.le_refl _) (fun ticks r' hr' => ?_) (.refl _) foreign (.refl _)
  rcases List.mem_or_eq_of_mem_set hr' with hr' | rfl
  · exact ticks r' hr'
  · intro _
    rw [step.period_eq]
    exact ticks r (List.mem_of_getElem? hr) step.awake

/-! ## Tasks -/

theorem worker?_eq_some {w : Worker} (h : s.worker? i j = some w) :
    ∃ p, s.pools[i]? = some p ∧ p.workers[j]? = some w := Option.bind_eq_some_iff.mp h

/-- Whether a worker of pool `p` takes its tick now. -/
def Ticks (s : Relay) (p : FlushPool) (w : Worker) : Prop :=
  p.cancelled = false ∧ w.phase = .idle ∧ w.ticker.due ≤ s.now

instance (s : Relay) (p : FlushPool) (w : Worker) : Decidable (s.Ticks p w) :=
  inferInstanceAs (Decidable (p.cancelled = false ∧ w.phase = .idle ∧ w.ticker.due ≤ s.now))

def ticking? (s : Relay) (i j : Nat) : Option FlushPool :=
  s.pools[i]?.filter fun p => p.workers[j]?.any fun w => s.Ticks p w

theorem ticking?_eq_some {p : FlushPool} {w : Worker} (pool : s.pools[i]? = some p)
    (worker : p.workers[j]? = some w) (ticks : s.Ticks p w) : s.ticking? i j = some p := by
  simp [ticking?, pool, worker, ticks]

theorem ticking?_eq_none
    (h : ∀ p w, s.pools[i]? = some p → p.workers[j]? = some w → ¬ s.Ticks p w) :
    s.ticking? i j = none := by
  rw [ticking?, Option.filter_eq_none_iff]
  intro p hp ticks
  obtain ⟨w, hw, hticks⟩ := (Option.any_eq_true _ _).mp ticks
  exact h p w hp hw (of_decide_eq_true hticks)

theorem tick_cases (s : Relay) (i j : Nat) :
    (∃ p w, s.pools[i]? = some p ∧ p.workers[j]? = some w ∧ s.Ticks p w) ∨
      s.tick i j = s ∧
        ∀ p w, s.pools[i]? = some p → p.workers[j]? = some w → ¬ s.Ticks p w := by
  by_cases h : ∃ p w, s.pools[i]? = some p ∧ p.workers[j]? = some w ∧ s.Ticks p w
  · exact .inl h
  · refine .inr ⟨?_, fun p w hp hw ticks => h ⟨p, w, hp, hw, ticks⟩⟩
    unfold tick
    split
    · rename_i p w hp hworker
      obtain ⟨p', hp', hw⟩ := worker?_eq_some hworker
      obtain rfl := Option.some.inj (hp.symm.trans hp')
      exact if_neg fun ticks => h ⟨p, w, hp, hw, ticks⟩
    · rfl

theorem deliver_cases (s : Relay) (i j : Nat) :
    (∃ p w flight, s.pools[i]? = some p ∧ p.workers[j]? = some w ∧
      w.phase = .sending flight ∧ flight.ends ≤ s.now) ∨ s.deliver i j = s := by
  unfold deliver
  split
  · rename_i w hworker
    obtain ⟨p, hp, hw⟩ := worker?_eq_some hworker
    split
    · rename_i flight sends
      by_cases elapsed : flight.ends ≤ s.now
      · exact .inl ⟨p, w, flight, hp, hw, sends, elapsed⟩
      · exact .inr (if_neg elapsed)
    · exact .inr rfl
  · exact .inr rfl

theorem quit_cases (s : Relay) (i j : Nat) :
    (∃ p w, s.pools[i]? = some p ∧ p.workers[j]? = some w ∧ p.cancelled = true ∧
      w.phase = .idle) ∨ s.quit i j = s := by
  unfold quit
  split
  · rename_i p w hp hworker
    obtain ⟨p', hp', hw⟩ := worker?_eq_some hworker
    obtain rfl := Option.some.inj (hp.symm.trans hp')
    by_cases guard : p.cancelled = true ∧ w.phase = .idle
    · exact .inl ⟨p, w, hp, hw, guard⟩
    · exact .inr (if_neg guard)
  · exact .inr rfl

theorem tick_change (s : Relay) (i j : Nat) : Shift opens s (s.tick i j) := by
  rcases tick_cases s i j with ⟨p, w, hp, hw, running, idle, due⟩ | ⟨heq, -⟩
  · obtain ⟨events, q, move, becomes⟩ := tick_moves hp hw running idle due
    exact .works hp move becomes
  · rw [heq]
    exact .refl s

theorem deliver_change (s : Relay) (i j : Nat) : Shift opens s (s.deliver i j) := by
  rcases deliver_cases s i j with ⟨p, w, flight, hp, hw, sends, elapsed⟩ | heq
  · obtain ⟨events, q, move, becomes⟩ := deliver_moves hp hw sends elapsed
    exact .works hp move becomes
  · rw [heq]
    exact .refl s

theorem quit_change (s : Relay) (i j : Nat) : Shift opens s (s.quit i j) := by
  rcases quit_cases s i j with ⟨p, w, hp, hw, cancelled, idle⟩ | heq
  · obtain ⟨events, q, move, becomes⟩ := quit_moves hp hw cancelled idle
    exact .works hp move becomes
  · rw [heq]
    exact .refl s

theorem reporterTick_cases (s : Relay) (k : Nat) :
    (∃ r, s.reporters[k]? = some r ∧ s.Reports k r (s.reporterTick k)) ∨
      s.reporterTick k = s := by
  cases hr : s.reporters[k]? with
  | none => exact .inr (by rw [reporterTick, hr])
  | some r =>
      by_cases guard : r.cancelled = false ∧ r.task.phase = .idle ∧ r.task.ticker.due ≤ s.now
      · exact .inl ⟨r, rfl, reporterTick_reports hr guard.1 guard.2.1 guard.2.2⟩
      · rw [reporterTick, hr]
        exact .inr (if_neg guard)

theorem reporterDeliver_cases (s : Relay) (k : Nat) :
    (∃ r, s.reporters[k]? = some r ∧ s.Reports k r (s.reporterDeliver k)) ∨
      s.reporterDeliver k = s := by
  cases hr : s.reporters[k]? with
  | none => exact .inr (by rw [reporterDeliver, hr])
  | some r =>
      cases hphase : r.task.phase with
      | sending flight =>
          by_cases guard : r.cancelled = false ∧ flight.ends ≤ s.now
          · exact .inl ⟨r, rfl, reporterDeliver_reports hr guard.1 hphase guard.2⟩
          · rw [reporterDeliver, hr]
            dsimp only
            rw [hphase]
            exact .inr (if_neg guard)
      | _ =>
          rw [reporterDeliver, hr]
          dsimp only
          rw [hphase]
          exact .inr rfl

theorem reporterQuit_cases (s : Relay) (k : Nat) :
    (∃ r, s.reporters[k]? = some r ∧ s.Reports k r (s.reporterQuit k)) ∨
      s.reporterQuit k = s := by
  cases hr : s.reporters[k]? with
  | none => exact .inr (by rw [reporterQuit, modifyReporter, modify_eq_self_of_getElem? hr])
  | some r =>
      by_cases guard : r.cancelled = true ∧ r.task.phase.isOver = false
      · exact .inl ⟨r, rfl, reporterQuit_reports hr guard.1 guard.2⟩
      · rw [reporterQuit, modifyReporter, modify_eq_set_of_getElem? hr, if_neg guard,
          set_eq_self_of_getElem? hr]
        exact .inr rfl

theorem change_of_reports (h : (∃ r, s.reporters[k]? = some r ∧ s.Reports k r s') ∨ s' = s) :
    Shift opens s s' := by
  rcases h with ⟨r, hr, reports⟩ | rfl
  · exact reports.change hr
  · exact .refl _

theorem addReporter_change (s : Relay) (agent : Agent) (interval : Nat) :
    Shift opens s (s.addReporter agent interval) := by
  refine .passes [] (Nat.le_refl _) (fun ticks r hr => ?_) (.refl _)
    (fun _ h => nomatch h) (.refl _)
  rcases List.mem_append.mp hr with hr | hr
  · exact ticks r hr
  · rw [List.mem_singleton.mp hr]
    intro awake
    by_cases hinterval : interval = 0
    · rw [if_pos hinterval] at awake
      cases awake
    · exact Nat.pos_of_ne_zero hinterval

theorem cancelReporters_change (s : Relay) : Shift opens s s.cancelReporters := by
  refine .passes [] (Nat.le_refl _) (fun ticks r hr => ?_) (.refl _)
    (fun _ h => nomatch h) (.refl _)
  obtain ⟨r', hr', rfl⟩ := List.mem_map.mp hr
  exact ticks r' hr'

/-! ## Clients -/

theorem modifyConnection_of_none (h : s.connections[c]? = none) (f : Connection → Connection) :
    s.modifyConnection c f = s := by
  rw [modifyConnection, modify_eq_self_of_getElem? h]

/-- Bytes arrive on a connection that is there. -/
theorem arrive_cases (s : Relay) (c : Nat) (bytes : List UInt8) :
    s.connections[c]? = none ∧ s.arrive c bytes = s ∨
      ∃ x, s.connections[c]? = some x ∧ s.arrive c bytes =
        { s with
          connections := s.connections.set c { x with arrived := x.arrived ++ bytes } } := by
  unfold arrive
  cases hx : s.connections[c]? with
  | none => exact .inl ⟨rfl, modifyConnection_of_none hx _⟩
  | some x => exact .inr ⟨x, rfl, modifyConnection_eq hx _⟩

theorem endInput_change (s : Relay) (c : Nat) : Shift opens s (s.endInput c) := by
  unfold endInput
  cases hx : s.connections[c]? with
  | none =>
      rw [modifyConnection_of_none hx]
      exact .refl s
  | some x =>
      rw [modifyConnection_eq hx]
      exact .signals true x.broken hx (fun _ => rfl) id

theorem breakOff_change (s : Relay) (c : Nat) : Shift opens s (s.breakOff c) := by
  unfold breakOff
  cases hx : s.connections[c]? with
  | none =>
      rw [modifyConnection_of_none hx]
      exact .refl s
  | some x =>
      rw [modifyConnection_eq hx]
      exact .signals x.finished true hx id fun _ => rfl

theorem connect_change (s : Relay) (l : Nat) : Change s (s.connect l).1 := by
  unfold connect
  cases hx : s.listeners[l]? with
  | none => exact .refl s
  | some x =>
      dsimp only
      by_cases guard : x.accepting = true ∧ s.isCancelled x = false
      · rw [if_pos guard]
        by_cases room : s.liveCount l < x.settings.maxConnections
        · rw [if_pos room]
          exact .connects hx guard.1 guard.2
            (Registry.sameCounts_apply s.registry _ _ (by decide)) rfl room
        · rw [if_neg room]
          exact .passes [] (Nat.le_refl _) id (Registry.sameCounts_apply _ _ _ (by decide))
            (fun _ h => nomatch h) (Registry.sameSlots_rejected _ rfl)
      · rw [if_neg guard]
        exact .refl s

def Wired (s : Relay) : Prop :=
  ∀ (l : Nat) (x : Listener) (i : Nat), s.listeners[l]? = some x → x.pool = some i →
    ∃ p, s.pools[i]? = some p

theorem readOn_cases (wired : s.Wired) (c : Nat) :
    s.Reading c (s.readOn c) ∨ s.readOn c = s := by
  cases hx : s.connections[c]? with
  | none =>
      rw [readOn_of_not_served (by simp [hx])]
      exact .inr rfl
  | some x =>
      cases hlive : x.live with
      | false =>
          rw [readOn_of_not_served (by simp [hx, hlive])]
          exact .inr rfl
      | true =>
          cases hlistener : s.listeners[x.listener]? with
          | none =>
              rw [readOn, hx]
              dsimp only
              rw [hlistener]
              exact .inr rfl
          | some listener =>
              cases howner : listener.pool with
              | none =>
                  rw [readOn, hx]
                  dsimp only
                  rw [hlistener]
                  dsimp only
                  rw [howner]
                  split
                  · rename_i h
                    cases h
                  · exact .inr rfl
              | some i =>
                  obtain ⟨p, hp⟩ := wired x.listener listener i hlistener howner
                  rcases readOn_reading hx hlive hlistener howner hp with ⟨heq, -⟩ | reading
                  · exact .inr heq
                  · exact .inl reading

theorem readOn_change (wired : s.Wired) (c : Nat) : Shift opens s (s.readOn c) := by
  rcases readOn_cases wired c with reading | heq
  · exact .reads reading
  · rw [heq]
    exact .refl s

/-! ## Listeners -/

theorem modifyListener_eq {x : Listener} (h : s.listeners[l]? = some x)
    (f : Listener → Listener) :
    s.modifyListener l f = { s with listeners := s.listeners.set l (f x) } := by
  rw [modifyListener, modify_eq_set_of_getElem? h]

/-- New workers wait behind those that a pool has. -/
theorem spawnWorkers_eq {p : FlushPool} (h : s.pools[i]? = some p) (n : Nat) :
    ∃ workers : List Worker, workers.length = n ∧ (∀ w ∈ workers, w.New s.now p.interval) ∧
      s.spawnWorkers i n =
        { s with
          tickets := s.tickets + n
          pools := s.pools.set i { p with workers := p.workers ++ workers } } := by
  induction n generalizing s p with
  | zero =>
      refine ⟨[], rfl, by simp, ?_⟩
      rw [List.append_nil, set_eq_self_of_getElem? h]
      rfl
  | succ n ih =>
      have hi : i < s.pools.length := (List.getElem?_eq_some_iff.mp h).choose
      -- The workers are added one at a time, each with the next ticket.
      let w : Worker :=
        ⟨.start s.now p.interval, if p.interval = 0 then .aborted else .idle,
          firstTicket + s.tickets⟩
      have hone : s.spawnWorkers i (n + 1) =
          Relay.spawnWorkers
            { s with
              tickets := s.tickets + 1
              pools := s.pools.set i { p with workers := p.workers ++ [w] } } i n := by
        rw [spawnWorkers]
        simp only [ticket]
        rw [modifyPool_eq (s := { s with tickets := s.tickets + 1 }) h]
      obtain ⟨workers, hlength, hnew, heq⟩ := ih
        (s := { s with
          tickets := s.tickets + 1
          pools := s.pools.set i { p with workers := p.workers ++ [w] } })
        (p := { p with workers := p.workers ++ [w] }) (List.getElem?_set_self hi)
      have hw : w.New s.now p.interval := ⟨rfl, rfl, Nat.add_pos_left (by decide) _⟩
      refine ⟨w :: workers, by simp [hlength], ?_, ?_⟩
      · intro v hv
        rcases List.mem_cons.mp hv with rfl | hv
        · exact hw
        · exact hnew v hv
      · rw [hone, heq]
        simp [Nat.add_comm n 1, Nat.add_assoc]

theorem registerListenerMetrics_eq (s : Relay) :
    ∃ registry, s.registry.SameCounts registry ∧ s.registry.SameSlots registry ∧
      s.registerListenerMetrics = { s with registry := registry } := by
  refine ⟨_, ?_, ?_, rfl⟩
  · have hreceived := Registry.sameCounts_look s.registry MetricName.pointsReceived
    have hdropped := hreceived.trans (Registry.sameCounts_look _ MetricName.pointsDropped)
    have herrors := hdropped.trans (Registry.sameCounts_look _ MetricName.pointsDecodeErrors)
    have hrejected := herrors.trans (Registry.sameCounts_look _ MetricName.connectionsRejected)
    exact hrejected.trans (Registry.sameCounts_apply _ _ (.look .gauge) (by decide))
  · have hreceived := Registry.sameSlots_apply s.registry MetricName.pointsReceived
      (.look .counter) (by decide)
    have hdropped := hreceived.trans (Registry.sameSlots_apply _ MetricName.pointsDropped
      (.look .counter) (by decide))
    have herrors := hdropped.trans (Registry.sameSlots_apply _ MetricName.pointsDecodeErrors
      (.look .counter) (by decide))
    have hrejected := herrors.trans (Registry.sameSlots_rejected _ (u := .look .counter) rfl)
    exact hrejected.trans (Registry.sameSlots_look _)

theorem registerFlushMetrics_same (s : Relay) :
    s.registry.SameCounts s.registerFlushMetrics.registry ∧
      s.registry.SameSlots s.registerFlushMetrics.registry := by
  have hsize := (Registry.SameBut.refl flushMetrics s.registry).apply
    (show MetricName.bufferSize ∈ flushMetrics by decide) (.look .gauge)
  have htime := hsize.apply (show MetricName.flushDuration ∈ flushMetrics by decide) (.look .timer)
  have hall := htime.apply (show MetricName.flushPoints ∈ flushMetrics by decide)
    (.look .histogram)
  exact ⟨hall.sameCounts (by decide), hall.sameSlots (by decide)⟩

theorem staffPool_eq (s : Relay) (settings : ListenerSettings) :
    ∃ workers : List Worker, workers.length = settings.flushThreads ∧
      (∀ w ∈ workers, w.New s.now settings.flushInterval) ∧
      (s.addPool (.create settings.maxBufferSize settings.maxPointsPerFlush
          settings.flushInterval)).spawnWorkers s.pools.length settings.flushThreads =
        { s with
          registry := s.registerFlushMetrics.registry
          tickets := s.tickets + settings.flushThreads
          pools := s.pools ++ [.staffed settings workers] } := by
  obtain ⟨workers, hlength, hnew, heqspawn⟩ := spawnWorkers_eq
    (s := s.addPool (.staffed settings [])) (i := s.pools.length) (p := .staffed settings [])
    List.getElem?_concat_length settings.flushThreads
  have hpools : (s.pools ++ [FlushPool.staffed settings []]).set s.pools.length
      { FlushPool.staffed settings [] with
        workers := (FlushPool.staffed settings []).workers ++ workers } =
      s.pools ++ [.staffed settings workers] := by
    simp [FlushPool.staffed]
  refine ⟨workers, hlength, hnew, ?_⟩
  change (s.addPool (.staffed settings [])).spawnWorkers _ _ = _
  rw [heqspawn, ← hpools]
  rfl

/-- What a start does that may be made and finds its address free. -/
theorem start_eq_begun {x : Listener} (listener : s.listeners[l]? = some x)
    (fresh : x.state = .created) (valid : x.settings.validate = .ok ()) (address : String) :
    ∃ registry workers, s.registry.SameCounts registry ∧ s.registry.SameSlots registry ∧
      (Semaphore.maxPermits < x.settings.maxConnections →
        registry = s.registerFlushMetrics.registry) ∧
      workers.length = x.settings.flushThreads ∧
      (∀ w ∈ workers, w.New s.now x.settings.flushInterval) ∧
      s.start l (.ok address) =
        ({ s with
          registry := registry
          tickets := s.tickets + x.settings.flushThreads
          pools := s.pools ++ [.staffed x.settings workers]
          listeners := s.listeners.set l (x.begun address s.pools.length) },
        if x.settings.maxConnections ≤ Semaphore.maxPermits then some (.ok ()) else none) := by
  obtain ⟨hcounts, hslots⟩ := s.registerFlushMetrics_same
  obtain ⟨workers, hlength, hnew, hstaff⟩ := s.staffPool_eq x.settings
  rw [start, listener]
  dsimp only
  rw [if_neg (not_not_intro fresh), valid]
  dsimp only
  rw [hstaff]
  by_cases within : x.settings.maxConnections ≤ Semaphore.maxPermits
  · obtain ⟨registry, hregister, hregisterSlots, heqregister⟩ := registerListenerMetrics_eq
      { s with
        registry := s.registerFlushMetrics.registry
        tickets := s.tickets + x.settings.flushThreads
        pools := s.pools ++ [.staffed x.settings workers] }
    refine ⟨registry, workers, hcounts.trans hregister, hslots.trans hregisterSlots,
      fun beyond => absurd within (Nat.not_le_of_lt beyond), hlength, hnew, ?_⟩
    rw [if_pos within, if_pos within, heqregister, modifyListener_eq (x := x) (by exact listener)]
    simp [Listener.begun, within]
  · refine ⟨_, workers, hcounts, hslots, fun _ => rfl, hlength, hnew, ?_⟩
    rw [if_neg within, if_neg within, modifyListener_eq (x := x) (by exact listener)]
    simp [Listener.begun, within]

theorem start_change (s : Relay) (l : Nat) (bind : Except String String) :
    Shift opens s (s.start l bind).1 := by
  cases hx : s.listeners[l]? with
  | none =>
      rw [start, hx]
      exact .refl s
  | some x =>
      by_cases hfresh : x.state = .created
      · cases hvalid : x.settings.validate with
        | error e =>
            rw [start, hx]
            dsimp only
            rw [if_neg (not_not_intro hfresh), hvalid]
            exact .refl s
        | ok u =>
            cases bind with
            | error reason =>
                rw [start, hx]
                dsimp only
                rw [if_neg (not_not_intro hfresh), hvalid]
                dsimp only
                rw [modifyListener_eq hx]
                exact .refuses hx hfresh hvalid
            | ok address =>
                obtain ⟨-, -, positive, -⟩ := (ListenerSettings.validate_eq_ok_iff _).mp hvalid
                obtain ⟨registry, workers, counts, slots, -, staff, new, heq⟩ :=
                  start_eq_begun hx hfresh hvalid address
                rw [heq]
                exact .starts address hx hfresh hvalid counts staff
                  (fun w hw => (new w hw).started positive) slots
      · rw [start, hx]
        dsimp only
        rw [if_pos hfresh]
        exact .refl s

theorem isCancelled_eq {x : Listener} {p : FlushPool} (owner : x.pool = some i)
    (pool : s.pools[i]? = some p) : s.isCancelled x = p.cancelled := by
  simp [isCancelled, pool?, owner, pool]

theorem tasksOver_eq {x : Listener} {p : FlushPool} (owner : x.pool = some i)
    (pool : s.pools[i]? = some p) :
    s.tasksOver x = (p.workers.map fun w => w.phase.isOver) ++ [!x.accepting] := by
  simp [tasksOver, pool?, owner, pool]

theorem beginStop_eq {x : Listener} {p : FlushPool} (listener : s.listeners[l]? = some x)
    (running : x.state = .running) (owner : x.pool = some i) (pool : s.pools[i]? = some p) :
    s.beginStop l =
      { s with
        pools := s.pools.set i { p with cancelled := true }
        listeners := s.listeners.set l
          { x with state := .stopping, closing := some ⟨s.now + x.settings.grace, 0⟩ } } := by
  have hlistener : (s.cancelPool i).listeners[l]? = some x := listener
  rw [beginStop, listener]
  dsimp only
  rw [running, owner]
  dsimp only
  rw [modifyListener_eq hlistener, cancelPool, modifyPool_eq pool, ← owner]

theorem beginStop_change (wired : s.Wired) (l : Nat) : Shift opens s (s.beginStop l) := by
  cases hx : s.listeners[l]? with
  | none =>
      rw [beginStop, hx]
      exact .refl s
  | some x =>
      by_cases hstate : x.state = .running
      · rcases Option.eq_none_or_eq_some x.pool with howner | ⟨i, howner⟩
        · rw [beginStop, hx]
          dsimp only
          rw [hstate, howner]
          exact .refl s
        · obtain ⟨p, hp⟩ := wired l x i hx howner
          rw [beginStop_eq hx hstate howner hp]
          exact .cancels hx hstate howner hp
      · rw [beginStop, hx]
        dsimp only
        split
        · contradiction
        · exact .refl s

theorem dropListener_change (wired : s.Wired) (l : Nat) : Shift opens s (s.dropListener l) := by
  unfold dropListener
  cases hx : s.listeners[l]? with
  | none => exact .refl s
  | some x =>
      dsimp only
      rw [modifyListener_eq hx]
      rcases Option.eq_none_or_eq_some x.pool with howner | ⟨i, howner⟩
      · have helim (t : Relay) : x.pool.elim t t.cancelPool = t := by rw [howner]; rfl
        rw [helim]
        exact .forsakes hx howner
      · have helim (t : Relay) : x.pool.elim t t.cancelPool = t.cancelPool i := by
          rw [howner]; rfl
        obtain ⟨p, hp⟩ := wired l x i hx howner
        rw [helim, cancelPool, modifyPool_eq (p := p) (by exact hp)]
        exact .drops hx howner hp

theorem endAccepting_eq {x : Listener} (listener : s.listeners[l]? = some x)
    (accepting : x.accepting = true) (cancelled : s.isCancelled x = true)
    (alone : s.liveCount l = 0) :
    s.endAccepting l =
      { s with listeners := s.listeners.set l { x with accepting := false } } := by
  rw [endAccepting, listener]
  dsimp only
  rw [if_pos ⟨accepting, cancelled, alone⟩, modifyListener_eq listener]

theorem endAccepting_change (s : Relay) (l : Nat) : Shift opens s (s.endAccepting l) := by
  cases hx : s.listeners[l]? with
  | none =>
      rw [endAccepting, hx]
      exact .refl s
  | some x =>
      by_cases guard : x.accepting = true ∧ s.isCancelled x = true ∧ s.liveCount l = 0
      · rw [endAccepting_eq hx guard.1 guard.2.1 guard.2.2]
        exact .leaves hx guard.1 guard.2.1 guard.2.2
      · rw [endAccepting, hx]
        dsimp only
        rw [if_neg guard]
        exact .refl s

theorem countDropped_eq (s : Relay) (n : Nat) :
    ∃ registry, (∀ a b e, s.registry.Counts a b e → registry.Counts a (b + n) e) ∧
      s.registry.SameSlots registry ∧ s.countDropped n = { s with registry := registry } := by
  unfold countDropped
  by_cases hn : 0 < n
  · rw [if_pos hn]
    exact ⟨_, fun a b e h => h.count_dropped n, Registry.sameSlots_apply _ _ _ (by decide), rfl⟩
  · rw [if_neg hn]
    obtain rfl : n = 0 := by omega
    exact ⟨s.registry, fun a b e h => h, .refl _, rfl⟩

theorem settle_eq {x : Listener} {p : FlushPool} (listener : s.listeners[l]? = some x)
    (pool : s.pools[i]? = some p) :
    ∃ registry, ((∀ a b e, s.registry.Counts a b e →
        registry.Counts a (b + (p.inFlight + p.buffer.size)) e) ∧
        s.registry.SameSlots registry) ∧
      s.settle l i =
        { s with
          registry := registry
          pools := s.pools.set i p.settled
          listeners := s.listeners.set l { x with state := .stopped, closing := none } } := by
  obtain ⟨registry, hflight, hflightSlots, heqflight⟩ := s.countDropped_eq p.inFlight
  have hgauge := Registry.sameCounts_apply registry MetricName.bufferSize
    (.addGauge (Binary64.ofNat p.reported).neg) (by decide)
  have hgaugeSlots := Registry.sameSlots_apply registry MetricName.bufferSize
    (.addGauge (Binary64.ofNat p.reported).neg) (by decide)
  obtain ⟨registry', hleft, hleftSlots, heqleft⟩ := countDropped_eq
    { s with
      registry := registry.apply MetricName.bufferSize (.addGauge (Binary64.ofNat p.reported).neg)
      pools := s.pools.set i p.settled } p.buffer.size
  refine ⟨registry', ⟨fun a b e h => ?_, (hflightSlots.trans hgaugeSlots).trans hleftSlots⟩, ?_⟩
  · rw [← Nat.add_assoc]
    exact hleft a _ e (hgauge a _ e (hflight a b e h))
  · have hi : i < s.pools.length := (List.getElem?_eq_some_iff.mp pool).choose
    have hset : (s.pools.set i { p with reported := 0 })[i]? = some { p with reported := 0 } :=
      List.getElem?_set_self hi
    rw [settle, pool]
    dsimp only
    rw [heqflight, releaseSize]
    dsimp only
    rw [pool]
    dsimp only
    rw [modifyPool_eq (s := { s with registry := registry }) pool,
      modifyPool_eq (p := { p with reported := 0 }) (by exact hset)]
    simp only [use, List.set_set]
    change Relay.modifyListener (Relay.countDropped
      { s with
        registry := registry.apply MetricName.bufferSize
          (.addGauge (Binary64.ofNat p.reported).neg)
        pools := s.pools.set i p.settled } p.buffer.size) l _ = _
    rw [heqleft, modifyListener_eq (x := x) (by exact listener)]

theorem settle_change {x : Listener} {p : FlushPool} {closing : Closing}
    (listener : s.listeners[l]? = some x) (closes : x.closing = some closing)
    (owner : x.pool = some i) (pool : s.pools[i]? = some p)
    (seen : (s.tasksOver x).length ≤ closing.awaited ∨ ∀ b ∈ s.tasksOver x, b = true) :
    Shift opens s (s.settle l i) := by
  obtain ⟨registry, ⟨counted, slots⟩, heq⟩ := settle_eq listener pool
  rw [heq]
  exact .settles listener closes owner pool seen counted slots

theorem awaitTask_eq {x : Listener} {closing : Closing} (listener : s.listeners[l]? = some x)
    (closes : x.closing = some closing) (owner : x.pool = some i) :
    s.awaitTask l = match (s.tasksOver x)[closing.awaited]? with
      | some true => s.modifyListener l fun x =>
          { x with closing := some { closing with awaited := closing.awaited + 1 } }
      | some false => s
      | none => s.settle l i := by
  cases htask : (s.tasksOver x)[closing.awaited]? with
  | none => simp [awaitTask, listener, closes, owner, htask]
  | some ended =>
      cases ended with
      | true => simp [awaitTask, listener, closes, owner, htask]
      | false => simp [awaitTask, listener, closes, owner, htask]

theorem awaitTask_change (wired : s.Wired) (l : Nat) : Shift opens s (s.awaitTask l) := by
  unfold awaitTask
  cases hx : s.listeners[l]? with
  | none => exact .refl s
  | some x =>
      dsimp only
      cases hcloses : x.closing with
      | none => exact .refl s
      | some closing =>
          cases howner : x.pool with
          | none => exact .refl s
          | some i =>
              obtain ⟨p, hp⟩ := wired l x i hx howner
              dsimp only
              cases htask : (s.tasksOver x)[closing.awaited]? with
              | none =>
                  exact settle_change hx hcloses howner hp
                    (.inl (List.getElem?_eq_none_iff.mp htask))
              | some ended =>
                  cases ended with
                  | true =>
                      dsimp only
                      rw [modifyListener_eq hx]
                      exact .sees hx hcloses htask
                  | false => exact .refl s

theorem closeOne_eq (s : Relay) (l c : Nat) :
    (if (s.connections[c]?.map fun x => x.listener) = some l then s.close c else s) =
      { s with
        registry := s.registry.release
          (s.connections[c]?.toList.countP fun x => x.listener == l && x.live)
        connections := s.connections.modify c (Connection.closedBy l) } := by
  cases hx : s.connections[c]? with
  | none =>
      rw [if_neg (by simp), modify_eq_self_of_getElem? hx]
      rfl
  | some x =>
      rw [modify_eq_set_of_getElem? hx, Connection.closedBy, Option.map_some]
      by_cases howner : x.listener = l
      · rw [if_pos (congrArg some howner), if_pos howner]
        cases hlive : x.live with
        | true =>
            rw [close_eq hx hlive]
            simp [howner, hlive, Registry.release]
        | false =>
            rw [close, hx]
            dsimp only
            rw [hlive, if_neg Bool.false_ne_true, ← hlive, set_eq_self_of_getElem? hx]
            simp [hlive, Registry.release]
      · rw [if_neg (fun h => howner (Option.some.inj h)), if_neg howner, set_eq_self_of_getElem? hx]
        simp [howner, Registry.release]

theorem closeAll_prefix (s : Relay) (l n : Nat) :
    ∃ connections,
      (∀ c, connections[c]? = if c < n then s.connections[c]?.map (Connection.closedBy l)
        else s.connections[c]?) ∧
      (List.range n).foldl (fun s c =>
        if (s.connections[c]?.map fun x => x.listener) = some l then s.close c else s) s =
          { s with
            registry := s.registry.release
              ((s.connections.take n).countP fun x => x.listener == l && x.live)
            connections := connections } := by
  induction n with
  | zero => exact ⟨s.connections, by simp, rfl⟩
  | succ n ih =>
      obtain ⟨connections, hconnections, heq⟩ := ih
      have hn : connections[n]? = s.connections[n]? := by
        rw [hconnections, if_neg (Nat.lt_irrefl n)]
      refine ⟨connections.modify n (Connection.closedBy l), fun c => ?_, ?_⟩
      · rw [List.getElem?_modify, hconnections c]
        by_cases hc : n = c
        · subst hc
          simp
        · by_cases hlt : c < n
          · simp [hc, hlt, Nat.lt_succ_of_lt hlt]
          · have hnot : ¬ c < n + 1 := by omega
            simp [hc, hlt, hnot]
      · rw [List.range_succ, List.foldl_append, heq, List.foldl_cons, List.foldl_nil, closeOne_eq]
        dsimp only
        rw [hn, Registry.release_add, List.take_add_one, List.countP_append]

theorem closeAll_eq (s : Relay) (l : Nat) :
    s.closeAll l =
      { s with
        registry := s.registry.release (s.liveCount l)
        connections := s.connections.map (Connection.closedBy l) } := by
  obtain ⟨connections, hconnections, heq⟩ := s.closeAll_prefix l s.connections.length
  have hmap : connections = s.connections.map (Connection.closedBy l) := by
    apply List.ext_getElem?
    intro c
    rw [hconnections, List.getElem?_map]
    by_cases hc : c < s.connections.length
    · rw [if_pos hc]
    · rw [if_neg hc, List.getElem?_eq_none (Nat.le_of_not_lt hc)]
      rfl
  rw [closeAll, heq, hmap, List.take_length]
  rfl

theorem allOver_aborted (p : FlushPool) : ∀ w ∈ p.aborted.workers, w.phase.isOver = true := by
  intro w hw
  obtain ⟨v, -, rfl⟩ := List.mem_map.mp hw
  unfold Worker.abort
  split
  · assumption
  · rfl

def afterAbort (s : Relay) (l i : Nat) : Relay :=
  ((s.abortAll i).closeAll l).modifyListener l fun x => { x with accepting := false }

theorem expire_eq {x : Listener} {closing : Closing} (listener : s.listeners[l]? = some x)
    (closes : x.closing = some closing) (owner : x.pool = some i)
    (guard : closing.deadline ≤ s.now ∧ closing.awaited < (s.tasksOver x).length) :
    s.expire l = if closing.awaited = 0 then (s.afterAbort l i).settle l i
      else (s.afterAbort l i).modifyListener l fun x =>
        { x with closing := none, failed := true } := by
  rw [expire, listener]
  dsimp only
  rw [closes, owner]
  dsimp only
  rw [if_pos guard]
  rfl

theorem afterAbort_eq {x : Listener} {p : FlushPool} (listener : s.listeners[l]? = some x)
    (pool : s.pools[i]? = some p) :
    s.afterAbort l i =
      { s with
        registry := s.registry.release (s.liveCount l)
        pools := s.pools.set i p.aborted
        connections := s.connections.map (Connection.closedBy l)
        listeners := s.listeners.set l { x with accepting := false } } := by
  rw [afterAbort, abortAll, modifyPool_eq pool]
  change Relay.modifyListener (Relay.closeAll { s with pools := s.pools.set i p.aborted } l) l _ = _
  rw [closeAll_eq, modifyListener_eq (x := x) (by exact listener)]
  rfl

theorem getElem?_afterAbort {x : Listener} {p : FlushPool} (listener : s.listeners[l]? = some x)
    (pool : s.pools[i]? = some p) :
    (s.afterAbort l i).listeners[l]? = some { x with accepting := false } ∧
      (s.afterAbort l i).pools[i]? = some p.aborted := by
  have hl : l < s.listeners.length := (List.getElem?_eq_some_iff.mp listener).choose
  have hi : i < s.pools.length := (List.getElem?_eq_some_iff.mp pool).choose
  rw [afterAbort_eq listener pool]
  exact ⟨List.getElem?_set_self hl, List.getElem?_set_self hi⟩

theorem expire_change (wired : s.Wired) (l : Nat) : Shift opens s (s.expire l) := by
  cases hx : s.listeners[l]? with
  | none =>
      rw [expire, hx]
      exact .refl s
  | some x =>
      cases hcloses : x.closing with
      | none =>
          rw [expire, hx]
          dsimp only
          rw [hcloses]
          exact .refl s
      | some closing =>
          cases howner : x.pool with
          | none =>
              rw [expire, hx]
              dsimp only
              rw [hcloses, howner]
              exact .refl s
          | some i =>
              obtain ⟨p, hp⟩ := wired l x i hx howner
              by_cases guard : closing.deadline ≤ s.now ∧ closing.awaited < (s.tasksOver x).length
              · have haborts : Shift opens s (s.afterAbort l i) := by
                  rw [afterAbort_eq hx hp]
                  exact .aborts hx hcloses howner hp guard.1
                obtain ⟨hx', hp'⟩ := getElem?_afterAbort hx hp
                have hover : ∀ b ∈ (s.afterAbort l i).tasksOver { x with accepting := false },
                    b = true := by
                  rw [tasksOver_eq (x := { x with accepting := false }) howner hp']
                  intro b hb
                  rcases List.mem_append.mp hb with hb | hb
                  · obtain ⟨w, hw, rfl⟩ := List.mem_map.mp hb
                    exact allOver_aborted p w hw
                  · exact List.mem_singleton.mp hb
                rw [expire_eq hx hcloses howner guard]
                by_cases hfirst : closing.awaited = 0
                · rw [if_pos hfirst]
                  exact haborts.seq (settle_change hx' hcloses howner hp' (.inr hover))
                · rw [if_neg hfirst, modifyListener_eq hx']
                  exact haborts.seq (.fails hx' hcloses hover)
              · rw [expire, hx]
                dsimp only
                rw [hcloses, howner]
                dsimp only
                rw [if_neg guard]
                exact .refl s

/-- Every action that is not by hand is a shift, but for arrivals. Only a client that
connects may open a connection. -/
theorem step_shift (wired : s.Wired) (a : Action) (h : a.byHand = false)
    (quiet : a.arrival? = none) : Shift a.opens s (s.step a) := by
  cases a with
  | addPool _ _ _ => cases h
  | offer _ _ => cases h
  | beginCall _ => cases h
  | endCall _ _ => cases h
  | releaseSize _ => cases h
  | spawn _ _ => cases h
  | cancelPool _ => cases h
  | abort _ _ => cases h
  | wait d => exact .waits s (Nat.le_add_right _ _)
  | tick i j => exact tick_change s i j
  | deliver i j => exact deliver_change s i j
  | quit i j => exact quit_change s i j
  | addReporter agent interval => exact addReporter_change s agent interval
  | cancelReporters => exact cancelReporters_change s
  | reporterTick k => exact change_of_reports (reporterTick_cases s k)
  | reporterDeliver k => exact change_of_reports (reporterDeliver_cases s k)
  | reporterQuit k => exact change_of_reports (reporterQuit_cases s k)
  | addListener settings => exact .adds settings
  | start l answer => exact start_change s l answer
  | beginStop l => exact beginStop_change wired l
  | awaitTask l => exact awaitTask_change wired l
  | expire l => exact expire_change wired l
  | endAccepting l => exact endAccepting_change s l
  | dropListener l => exact dropListener_change wired l
  | connect l => exact connect_change s l
  | arrive c bytes => cases quiet
  | endInput c => exact endInput_change s c
  | breakOff c => exact breakOff_change s c
  | readOn c => exact readOn_change wired c

theorem step_change (wired : s.Wired) (a : Action) (h : a.byHand = false)
    (quiet : a.arrival? = none) : Change s (s.step a) := (step_shift wired a h quiet).change

end
end Relay
end MetricsProxy
