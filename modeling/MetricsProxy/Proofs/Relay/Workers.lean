import MetricsProxy.Proofs.Lists
import MetricsProxy.Proofs.Relay.Journal
import MetricsProxy.Proofs.Telemetry
import MetricsProxy.Relay.Flush

/-!
# What workers do to their pool

A worker can do four things: find the buffer empty at its tick, begin a send,
see its send return, leave its loop. `PoolStep` has one rule for each, with the
events it enters into the journal; a send that returns at once is two of them.
Ticks, returns and exits of the relay are these steps and change nothing else
but tickets, the script of the destination and the metrics of flushing
(`tick_moves`, `deliver_moves`, `quit_moves`). What workers keep is proved from
the rules.
-/
namespace MetricsProxy

/-- The points that the next unit takes from the buffer. -/
def FlushPool.nextPoints (p : FlushPool) : List Point := p.buffer.toList.take p.unitLimit

theorem FlushPool.one_le_unitLimit (p : FlushPool) : 1 ≤ p.unitLimit := Nat.le_max_right _ _

theorem FlushPool.nextPoints_eq_nil_iff (p : FlushPool) :
    p.nextPoints = [] ↔ p.buffer.toList = [] := by
  have hlimit : p.unitLimit ≠ 0 := by have := p.one_le_unitLimit; omega
  simp [nextPoints, List.take_eq_nil_iff, hlimit]

/-- A pool after its next unit is taken out and its size is reported. -/
def FlushPool.drained (p : FlushPool) : FlushPool :=
  let buffer := (p.buffer.drain p.unitLimit).1
  { p with buffer := buffer, reported := buffer.size }

theorem FlushPool.nextPoints_append_drained (p : FlushPool) :
    p.nextPoints ++ p.drained.buffer.toList = p.buffer.toList := by
  rw [nextPoints, drained, Buffer.toList_drain, List.take_append_drop]

/-- The answer to a send tells how many points it was about. -/
def Flight.Sized (f : Flight) : Prop := f.result.points = f.unit.size

theorem SendPlan.points_result (plan : SendPlan) (unit : WorkUnit) :
    (plan.result unit).points = unit.size := by
  unfold result
  split <;> rfl

/-- What the workers of pool `i` do at a time, with the events it makes, newest
first. -/
inductive PoolStep (now i : Nat) : FlushPool → List Event → FlushPool → Prop where
  | idles {p : FlushPool} {j : Nat} {w : Worker} (ticket : Nat) (behind : 0 < ticket)
      (worker : p.workers[j]? = some w) (running : p.cancelled = false)
      (idle : w.phase = .idle) (due : w.ticker.due ≤ now) (empty : p.buffer.toList = []) :
      PoolStep now i p []
        { p.drained with workers := p.workers.set j ⟨w.ticker.take now, .idle, ticket⟩ }
  | begins {p : FlushPool} {j : Nat} {w : Worker} (flight : Flight) (ticket : Nat)
      (behind : 0 < ticket) (worker : p.workers[j]? = some w) (running : p.cancelled = false)
      (idle : w.phase = .idle) (due : w.ticker.due ≤ now) (full : p.buffer.toList ≠ [])
      (unit : flight.unit = ⟨p.nextPoints⟩) (sized : flight.Sized) :
      PoolStep now i p [.begun (.worker i j) now flight.unit]
        { p.drained with
          inFlight := p.inFlight + flight.unit.size
          workers := p.workers.set j ⟨w.ticker.take now, .sending flight, ticket⟩ }
  | lands {p : FlushPool} {j : Nat} {w : Worker} (flight : Flight) (ticket : Nat)
      (behind : 0 < ticket) (worker : p.workers[j]? = some w) (sends : w.phase = .sending flight)
      (elapsed : flight.ends ≤ now) :
      PoolStep now i p [.returned (.worker i j) now flight.result]
        { p with
          inFlight := p.inFlight - flight.unit.size
          workers := p.workers.set j ⟨w.ticker, .idle, ticket⟩ }
  | quits {p : FlushPool} {j : Nat} {w : Worker}
      (worker : p.workers[j]? = some w) (cancelled : p.cancelled = true)
      (idle : w.phase = .idle) :
      PoolStep now i p [] { p with workers := p.workers.set j { w with phase := .ended } }
  | seq {p q r : FlushPool} {earlier later : List Event} (first : PoolStep now i p earlier q)
      (second : PoolStep now i q later r) : PoolStep now i p (later ++ earlier) r

namespace PoolStep
variable {now i : Nat} {p q : FlushPool} {events : List Event}

theorem pool?_of_mem (h : PoolStep now i p events q) : ∀ e ∈ events, e.pool? = some i := by
  induction h with
  | idles => intro e he; cases he
  | begins => intro e he; rw [List.mem_singleton.mp he]; rfl
  | lands => intro e he; rw [List.mem_singleton.mp he]; rfl
  | quits => intro e he; cases he
  | seq _ _ ih ih' =>
      intro e he
      rcases List.mem_append.mp he with he | he
      · exact ih' e he
      · exact ih e he

theorem cancelled_eq (h : PoolStep now i p events q) : q.cancelled = p.cancelled := by
  induction h with
  | seq _ _ ih ih' => exact ih'.trans ih
  | _ => rfl

theorem length_workers (h : PoolStep now i p events q) :
    q.workers.length = p.workers.length := by
  induction h with
  | seq _ _ ih ih' => exact ih'.trans ih
  | _ => exact List.length_set

end PoolStep

namespace Relay
variable {s : Relay} {i j : Nat} {p : FlushPool}

theorem modifyPool_eq (h : s.pools[i]? = some p) (f : FlushPool → FlushPool) :
    s.modifyPool i f = { s with pools := s.pools.set i (f p) } := by
  rw [modifyPool, modify_eq_set_of_getElem? h]

/-- The metrics that flushing uses. -/
def flushMetrics : List String :=
  [MetricName.bufferSize, MetricName.flushDuration, MetricName.flushPoints]

/-- In `s'` pool `i` is `q` and the journal has these events more. All else is as in
`s`, but for tickets, the destination's script and the metrics of flushing. -/
def Becomes (s : Relay) (i : Nat) (q : FlushPool) (events : List Event) (s' : Relay) : Prop :=
  ∃ registry tickets sends, s.registry.SameBut flushMetrics registry ∧
    s' = { s with
      pools := s.pools.set i q
      journal := events ++ s.journal
      registry := registry
      tickets := tickets
      sends := sends }

namespace Becomes
variable {s s' s'' : Relay} {i : Nat} {q q' : FlushPool} {events later : List Event}

theorem getElem? (h : s.Becomes i q events s') (hi : i < s.pools.length) :
    s'.pools[i]? = some q := by
  obtain ⟨registry, tickets, sends, -, rfl⟩ := h
  simp [hi]

theorem now_eq (h : s.Becomes i q events s') : s'.now = s.now := by
  obtain ⟨registry, tickets, sends, -, rfl⟩ := h
  rfl

theorem trans (h : s.Becomes i q events s') (h' : s'.Becomes i q' later s'') :
    s.Becomes i q' (later ++ events) s'' := by
  obtain ⟨registry, tickets, sends, hr, rfl⟩ := h
  obtain ⟨registry', tickets', sends', hr', rfl⟩ := h'
  exact ⟨registry', tickets', sends', hr.trans hr', by simp⟩

end Becomes

theorem modifyPool_becomes (h : s.pools[i]? = some p) (f : FlushPool → FlushPool) :
    s.Becomes i (f p) [] (s.modifyPool i f) :=
  ⟨s.registry, s.tickets, s.sends, .refl _ _, by rw [modifyPool_eq h]; rfl⟩

theorem use_becomes (h : s.pools[i]? = some p) (name : String) (hn : name ∈ flushMetrics)
    (u : MetricUse) : s.Becomes i p [] (s.use name u) := by
  refine ⟨s.registry.apply name u, s.tickets, s.sends, (Registry.SameBut.refl _ _).apply hn u, ?_⟩
  rw [set_eq_self_of_getElem? h]
  rfl

theorem log_becomes (h : s.pools[i]? = some p) (e : Event) : s.Becomes i p [e] (s.log e) := by
  refine ⟨s.registry, s.tickets, s.sends, .refl _ _, ?_⟩
  rw [set_eq_self_of_getElem? h]
  rfl

theorem modifyWorker_becomes {w : Worker} (h : s.pools[i]? = some p)
    (hw : p.workers[j]? = some w) (f : Worker → Worker) :
    s.Becomes i { p with workers := p.workers.set j (f w) } [] (s.modifyWorker i j f) := by
  rw [← modify_eq_set_of_getElem? hw]
  exact modifyPool_becomes h _

theorem worker?_eq {w : Worker} (h : s.pools[i]? = some p) (hw : p.workers[j]? = some w) :
    s.worker? i j = some w := by
  simp [worker?, h, hw]

theorem rest_becomes {w : Worker} (h : s.pools[i]? = some p) (hw : p.workers[j]? = some w) :
    ∃ ticket, 0 < ticket ∧
      s.Becomes i { p with workers := p.workers.set j ⟨w.ticker, .idle, ticket⟩ } []
        (s.rest i j) := by
  rw [rest, worker?_eq h hw]
  unfold ticketFor
  by_cases hd : w.ticker.due ≤ s.now
  · refine ⟨1, Nat.one_pos, ?_⟩
    simp only [if_pos hd]
    exact modifyWorker_becomes h hw _
  · refine ⟨firstTicket + s.tickets, by unfold firstTicket; omega, ?_⟩
    simp only [if_neg hd, ticket]
    exact modifyWorker_becomes (s := { s with tickets := s.tickets + 1 }) h hw _

theorem await_becomes {w : Worker} (h : s.pools[i]? = some p) (hw : p.workers[j]? = some w)
    (flight : Flight) :
    ∃ ticket, 0 < ticket ∧ s.Becomes i
      { p with workers := p.workers.set j ⟨w.ticker, .sending flight, ticket⟩ } []
      (s.await i j flight) :=
  ⟨firstTicket + s.tickets, by unfold firstTicket; omega,
    modifyWorker_becomes (s := { s with tickets := s.tickets + 1 }) h hw _⟩

theorem endFlush_becomes (h : s.pools[i]? = some p) (origin : Origin) (flight : Flight) :
    s.Becomes i { p with inFlight := p.inFlight - flight.unit.size }
      [.returned origin s.now flight.result] (s.endFlush i origin flight) := by
  have hi : i < s.pools.length := (List.getElem?_eq_some_iff.mp h).choose
  have hlog := log_becomes h (.returned origin s.now flight.result)
  have hpool := hlog.trans (modifyPool_becomes (hlog.getElem? hi) fun p =>
    { p with inFlight := p.inFlight - flight.unit.size })
  have htime := hpool.trans (use_becomes (hpool.getElem? hi)
    MetricName.flushDuration (by simp [flushMetrics])
    (.recordTime ((s.now - flight.began) * 1000000)))
  exact htime.trans (use_becomes (htime.getElem? hi)
    MetricName.flushPoints (by simp [flushMetrics])
    (.recordSample (UInt64.ofNat flight.unit.size)))

theorem reportSize_becomes (h : s.pools[i]? = some p) (size : Nat) :
    s.Becomes i { p with reported := size } [] (s.reportSize i size) := by
  have hi : i < s.pools.length := (List.getElem?_eq_some_iff.mp h).choose
  have hpool := modifyPool_becomes h fun p => { p with reported := size }
  rw [reportSize, h]
  exact hpool.trans (use_becomes (hpool.getElem? hi) _ (by simp [flushMetrics]) _)

theorem drain_becomes (h : s.pools[i]? = some p) :
    s.Becomes i p.drained []
      ((s.modifyPool i fun q => { q with buffer := (p.buffer.drain p.unitLimit).1 }).reportSize i
        (p.buffer.drain p.unitLimit).1.size) := by
  have hi : i < s.pools.length := (List.getElem?_eq_some_iff.mp h).choose
  have hpool := modifyPool_becomes h fun q => { q with buffer := (p.buffer.drain p.unitLimit).1 }
  exact hpool.trans (reportSize_becomes (hpool.getElem? hi) _)

theorem beginFlush_of_empty (h : s.pools[i]? = some p) (hempty : p.buffer.toList = [])
    (origin : Origin) :
    ∃ s', s.beginFlush i origin = (s', none) ∧ s.Becomes i p.drained [] s' := by
  have hnone : (p.buffer.drain p.unitLimit).2.isEmpty = true := by
    rw [Buffer.drained, hempty, List.take_nil]; rfl
  refine ⟨_, ?_, drain_becomes h⟩
  rw [beginFlush, h]
  exact if_pos hnone

/-- The send that begins if a unit is handed over now. -/
def nextFlight (s : Relay) (unit : WorkUnit) : Flight where
  unit := unit
  began := s.now
  ends := s.now + s.sends.next.1.duration
  result := s.sends.next.1.result unit

theorem sized_nextFlight (s : Relay) (unit : WorkUnit) : (s.nextFlight unit).Sized :=
  SendPlan.points_result _ _

theorem sends_reportSize (s : Relay) (i size : Nat) : (s.reportSize i size).sends = s.sends := by
  unfold reportSize
  split <;> rfl

theorem beginFlush_of_full (h : s.pools[i]? = some p) (hfull : p.buffer.toList ≠ [])
    (origin : Origin) :
    ∃ s', s.beginFlush i origin = (s', some (s.nextFlight ⟨p.nextPoints⟩)) ∧
      s.Becomes i { p.drained with inFlight := p.inFlight + p.nextPoints.length }
        [.begun origin s.now ⟨p.nextPoints⟩] s' := by
  have hi : i < s.pools.length := (List.getElem?_eq_some_iff.mp h).choose
  have hpoints : (p.buffer.drain p.unitLimit).2 = p.nextPoints := Buffer.drained _ _
  have hsome : ¬ (p.buffer.drain p.unitLimit).2.isEmpty = true := by
    rw [hpoints, List.isEmpty_iff, FlushPool.nextPoints_eq_nil_iff]
    exact hfull
  have hdrain := drain_becomes h
  have hsends := sends_reportSize
    (s.modifyPool i fun q => { q with buffer := (p.buffer.drain p.unitLimit).1 }) i
    (p.buffer.drain p.unitLimit).1.size
  rw [beginFlush, h]
  dsimp only
  rw [if_neg hsome, hpoints]
  generalize (s.modifyPool i fun q =>
    { q with buffer := (p.buffer.drain p.unitLimit).1 }).reportSize i
      (p.buffer.drain p.unitLimit).1.size = t at hdrain hsends ⊢
  have hflight : (t.launch origin ⟨p.nextPoints⟩).2 = s.nextFlight ⟨p.nextPoints⟩ := by
    obtain ⟨registry, tickets, sends, -, rfl⟩ := hdrain
    obtain rfl : sends = s.sends := hsends
    rfl
  have hlaunch : s.Becomes i p.drained [.begun origin s.now ⟨p.nextPoints⟩]
      (t.launch origin ⟨p.nextPoints⟩).1 := by
    obtain ⟨registry, tickets, sends, hr, rfl⟩ := hdrain
    exact ⟨registry, tickets, _, hr, rfl⟩
  rw [hflight]
  exact ⟨_, rfl, hlaunch.trans (modifyPool_becomes (hlaunch.getElem? hi) _)⟩

/-! ## Ticks, returns and exits -/

section
variable {w : Worker}

theorem tick_of_empty (h : s.pools[i]? = some p) (hw : p.workers[j]? = some w)
    (hc : p.cancelled = false) (hidle : w.phase = .idle) (hdue : w.ticker.due ≤ s.now)
    (hempty : p.buffer.toList = []) :
    ∃ ticket, 0 < ticket ∧ s.Becomes i
      { p.drained with workers := p.workers.set j ⟨w.ticker.take s.now, .idle, ticket⟩ } []
      (s.tick i j) := by
  have hi : i < s.pools.length := (List.getElem?_eq_some_iff.mp h).choose
  have hj : j < p.workers.length := (List.getElem?_eq_some_iff.mp hw).choose
  have htake := modifyWorker_becomes h hw fun w => { w with ticker := w.ticker.take s.now }
  have h₁ := htake.getElem? hi
  obtain ⟨s₂, heq, hdrain⟩ := beginFlush_of_empty h₁ hempty (.worker i j)
  have hall := htake.trans hdrain
  obtain ⟨ticket, hticket, hrest⟩ := rest_becomes (j := j) (hall.getElem? hi)
    (List.getElem?_set_self hj)
  rw [tick, h, worker?_eq h hw]
  dsimp only
  rw [if_pos ⟨hc, hidle, hdue⟩, heq]
  refine ⟨ticket, hticket, ?_⟩
  simpa [FlushPool.drained, FlushPool.unitLimit] using hall.trans hrest

/-- A tick on a buffer that has points begins a send; one that takes no time returns with
the tick. -/
theorem tick_of_full (h : s.pools[i]? = some p) (hw : p.workers[j]? = some w)
    (hc : p.cancelled = false) (hidle : w.phase = .idle) (hdue : w.ticker.due ≤ s.now)
    (hfull : p.buffer.toList ≠ []) :
    ∃ ticket, 0 < ticket ∧
      if (s.nextFlight ⟨p.nextPoints⟩).ends ≤ s.now then
        s.Becomes i
          { p.drained with workers := p.workers.set j ⟨w.ticker.take s.now, .idle, ticket⟩ }
          [.returned (.worker i j) s.now (s.nextFlight ⟨p.nextPoints⟩).result,
            .begun (.worker i j) s.now ⟨p.nextPoints⟩] (s.tick i j)
      else
        s.Becomes i
          { p.drained with
            inFlight := p.inFlight + p.nextPoints.length
            workers := p.workers.set j
              ⟨w.ticker.take s.now, .sending (s.nextFlight ⟨p.nextPoints⟩), ticket⟩ }
          [.begun (.worker i j) s.now ⟨p.nextPoints⟩] (s.tick i j) := by
  have hi : i < s.pools.length := (List.getElem?_eq_some_iff.mp h).choose
  have hj : j < p.workers.length := (List.getElem?_eq_some_iff.mp hw).choose
  have htake := modifyWorker_becomes h hw fun w => { w with ticker := w.ticker.take s.now }
  obtain ⟨s₂, heq, hbegin⟩ := beginFlush_of_full (htake.getElem? hi) hfull (.worker i j)
  change _ = (s₂, some (s.nextFlight ⟨p.nextPoints⟩)) at heq
  have hall : s.Becomes i
      { p.drained with
        inFlight := p.inFlight + p.nextPoints.length
        workers := p.workers.set j { w with ticker := w.ticker.take s.now } }
      [.begun (.worker i j) s.now ⟨p.nextPoints⟩] s₂ := htake.trans hbegin
  have h₂ := hall.getElem? hi
  rw [tick, h, worker?_eq h hw]
  dsimp only
  rw [if_pos ⟨hc, hidle, hdue⟩, heq]
  dsimp only
  rw [hall.now_eq]
  by_cases hends : (s.nextFlight ⟨p.nextPoints⟩).ends ≤ s.now
  · have hend := endFlush_becomes h₂ (.worker i j) (s.nextFlight ⟨p.nextPoints⟩)
    rw [hall.now_eq, show (s.nextFlight ⟨p.nextPoints⟩).unit.size = p.nextPoints.length from rfl,
      Nat.add_sub_cancel] at hend
    have hboth := hall.trans hend
    obtain ⟨ticket, hticket, hrest⟩ := rest_becomes (j := j) (hboth.getElem? hi)
      (List.getElem?_set_self hj)
    have hafter := hboth.trans hrest
    rw [List.set_set] at hafter
    refine ⟨ticket, hticket, ?_⟩
    rw [if_pos hends, if_pos hends]
    exact hafter
  · obtain ⟨ticket, hticket, hawait⟩ := await_becomes (j := j) h₂ (List.getElem?_set_self hj)
      (s.nextFlight ⟨p.nextPoints⟩)
    have hafter := hall.trans hawait
    rw [List.set_set] at hafter
    refine ⟨ticket, hticket, ?_⟩
    rw [if_neg hends, if_neg hends]
    exact hafter

theorem deliver_becomes {flight : Flight} (h : s.pools[i]? = some p)
    (hw : p.workers[j]? = some w) (hsends : w.phase = .sending flight)
    (hover : flight.ends ≤ s.now) :
    ∃ ticket, 0 < ticket ∧ s.Becomes i
      { p with
        inFlight := p.inFlight - flight.unit.size
        workers := p.workers.set j ⟨w.ticker, .idle, ticket⟩ }
      [.returned (.worker i j) s.now flight.result] (s.deliver i j) := by
  have hi : i < s.pools.length := (List.getElem?_eq_some_iff.mp h).choose
  have hend := endFlush_becomes h (.worker i j) flight
  obtain ⟨ticket, hticket, hrest⟩ := rest_becomes (hend.getElem? hi) hw
  rw [deliver, worker?_eq h hw]
  dsimp only
  rw [hsends]
  dsimp only
  rw [if_pos hover]
  exact ⟨ticket, hticket, hend.trans hrest⟩

theorem quit_becomes (h : s.pools[i]? = some p) (hw : p.workers[j]? = some w)
    (hc : p.cancelled = true) (hidle : w.phase = .idle) :
    s.Becomes i { p with workers := p.workers.set j { w with phase := .ended } } []
      (s.quit i j) := by
  rw [quit, h, worker?_eq h hw]
  dsimp only
  rw [if_pos ⟨hc, hidle⟩]
  exact modifyWorker_becomes h hw _

/-- The workers of pool `i`, which is `p`, make steps. -/
def Moves (s : Relay) (i : Nat) (p : FlushPool) (s' : Relay) : Prop :=
  ∃ events q, PoolStep s.now i p events q ∧ s.Becomes i q events s'

theorem tick_moves (h : s.pools[i]? = some p) (hw : p.workers[j]? = some w)
    (hc : p.cancelled = false) (hidle : w.phase = .idle) (hdue : w.ticker.due ≤ s.now) :
    s.Moves i p (s.tick i j) := by
  have hj : j < p.workers.length := (List.getElem?_eq_some_iff.mp hw).choose
  by_cases hb : p.buffer.toList = []
  · obtain ⟨ticket, hticket, becomes⟩ := tick_of_empty h hw hc hidle hdue hb
    exact ⟨_, _, .idles ticket hticket hw hc hidle hdue hb, becomes⟩
  · obtain ⟨ticket, hticket, becomes⟩ := tick_of_full h hw hc hidle hdue hb
    have hstep (ticket : Nat) (hticket : 0 < ticket) :=
      PoolStep.begins (i := i) (s.nextFlight ⟨p.nextPoints⟩) ticket hticket hw hc hidle hdue hb
        rfl (s.sized_nextFlight _)
    by_cases hends : (s.nextFlight ⟨p.nextPoints⟩).ends ≤ s.now
    · rw [if_pos hends] at becomes
      refine ⟨_, _, .seq (hstep 1 Nat.one_pos)
        (.lands (s.nextFlight ⟨p.nextPoints⟩) ticket hticket (List.getElem?_set_self hj) rfl hends),
        ?_⟩
      dsimp only
      rw [List.set_set, show (s.nextFlight ⟨p.nextPoints⟩).unit.size = p.nextPoints.length from rfl,
        Nat.add_sub_cancel]
      exact becomes
    · rw [if_neg hends] at becomes
      exact ⟨_, _, hstep ticket hticket, becomes⟩

theorem deliver_moves {flight : Flight} (h : s.pools[i]? = some p)
    (hw : p.workers[j]? = some w) (hsends : w.phase = .sending flight)
    (hover : flight.ends ≤ s.now) : s.Moves i p (s.deliver i j) := by
  obtain ⟨ticket, hticket, becomes⟩ := deliver_becomes h hw hsends hover
  exact ⟨_, _, .lands flight ticket hticket hw hsends hover, becomes⟩

theorem quit_moves (h : s.pools[i]? = some p) (hw : p.workers[j]? = some w)
    (hc : p.cancelled = true) (hidle : w.phase = .idle) : s.Moves i p (s.quit i j) :=
  ⟨_, _, .quits hw hc hidle, quit_becomes h hw hc hidle⟩

end
end Relay
end MetricsProxy
