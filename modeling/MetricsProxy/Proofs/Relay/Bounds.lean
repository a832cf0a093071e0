import MetricsProxy.Proofs.Buffer
import MetricsProxy.Proofs.Relay.Each
import MetricsProxy.Proofs.Relay.Flights

/-!
# What a running listener never exceeds

The buffer of a listener is as large as its settings say and its workers are as many,
whatever happens. Each unit that they begin is taken from the buffer in one piece,
so it is not empty and not larger than the settings allow (`PoolStep.mem_begunUnits`).
While the listener runs no send is cut off, so the sends that have not returned are
with workers, one each at most. That bounds the sends in progress and the points in
them (`run_stays_bounded`).
-/
namespace MetricsProxy
open Journal

/-- A worker waits for one send at most. -/
theorem FlushPool.length_flights_le {p : FlushPool} (calls : p.calls = []) :
    p.flights.length ≤ p.workers.length := by
  rw [flights, calls, List.append_nil]
  induction p.workers with
  | nil => exact Nat.le_refl _
  | cons w ws ih =>
      have hw : w.phase.flights.length ≤ 1 := by cases w.phase <;> simp [Phase.flights]
      rw [List.flatMap_cons, List.length_append, List.length_cons]
      omega

theorem FlushPool.size_nextPoints {p : FlushPool} (full : p.buffer.toList ≠ []) :
    1 ≤ (WorkUnit.mk p.nextPoints).size ∧ (WorkUnit.mk p.nextPoints).size ≤ p.unitLimit := by
  have hsize : (WorkUnit.mk p.nextPoints).size = min p.unitLimit p.buffer.toList.length :=
    List.length_take
  have hlimit := p.one_le_unitLimit
  have hlength : 0 < p.buffer.toList.length := List.length_pos_iff.mpr full
  omega

namespace PoolStep
variable {now i : Nat} {p q : FlushPool} {events : List Event}

theorem fixed (h : PoolStep now i p events q) :
    q.buffer.capacity = p.buffer.capacity ∧ q.maxPoints = p.maxPoints ∧ q.calls = p.calls := by
  induction h with
  | seq _ _ ih ih' => exact ⟨ih'.1.trans ih.1, ih'.2.1.trans ih.2.1, ih'.2.2.trans ih.2.2⟩
  | _ => exact ⟨rfl, rfl, rfl⟩

/-- Every unit that workers begin is a bounded piece of the buffer. -/
theorem mem_begunUnits (h : PoolStep now i p events q) {journal : List Event} {u : WorkUnit}
    (hu : u ∈ begunUnits i (events ++ journal)) :
    u ∈ begunUnits i journal ∨ 1 ≤ u.size ∧ u.size ≤ p.unitLimit := by
  induction h generalizing journal with
  | begins flight _ _ _ _ _ _ full unit =>
      have hbegun : u ∈ begunUnits i journal ++ [flight.unit] := by
        simpa [begunUnits, Origin.pool?] using hu
      rcases List.mem_append.mp hbegun with hu | hu
      · exact .inl hu
      · rw [List.mem_singleton.mp hu, unit]
        exact .inr (FlushPool.size_nextPoints full)
  | seq first _ ih ih' =>
      rw [List.append_assoc] at hu
      rcases ih' hu with hu | hu
      · exact ih hu
      · rw [FlushPool.unitLimit, first.fixed.2.1] at hu
        exact .inr hu
  | _ => exact .inl hu

end PoolStep

/-- What bounds a listener, its pool and its sends. -/
structure Bounded (journal : List Event) (x : Listener) (i : Nat) (p : FlushPool) : Prop where
  valid : x.settings.validate = .ok ()
  capacity : p.buffer.capacity = x.settings.maxBufferSize
  limit : p.maxPoints = x.settings.maxPointsPerFlush
  staff : p.workers.length = x.settings.flushThreads
  calls : p.calls = []
  sized : p.Sized
  units : ∀ u ∈ begunUnits i journal, 1 ≤ u.size ∧ u.size ≤ x.settings.maxPointsPerFlush
  /-- Nothing is cut off as long as the listener runs. -/
  sends : x.state = .running → SendAccount True i journal p []

namespace Bounded
variable {journal events : List Event} {x : Listener} {i now : Nat} {p q : FlushPool}

theorem unitLimit_eq (h : Bounded journal x i p) : p.unitLimit = x.settings.maxPointsPerFlush := by
  obtain ⟨-, positive, -, -⟩ := (ListenerSettings.validate_eq_ok_iff _).mp h.valid
  rw [FlushPool.unitLimit, h.limit, Nat.max_eq_left positive]

theorem works (h : Bounded journal x i p) (move : PoolStep now i p events q) :
    Bounded (events ++ journal) x i q where
  valid := h.valid
  capacity := move.fixed.1.trans h.capacity
  limit := move.fixed.2.1.trans h.limit
  staff := move.length_workers.trans h.staff
  calls := move.fixed.2.2.trans h.calls
  sized := move.flightStep.sized h.sized
  units u hu := by
    rcases move.mem_begunUnits hu with hu | hu
    · exact h.units u hu
    · rwa [h.unitLimit_eq] at hu
  sends running := move.flightStep.account h.sized (h.sends running)

theorem same (h : Bounded journal x i p) (events : List Event) (quiet : ∀ e ∈ events, ¬ e.Sends i)
    (capacity : q.buffer.capacity = p.buffer.capacity) (limit : q.maxPoints = p.maxPoints)
    (workers : q.workers = p.workers) (calls : q.calls = p.calls)
    (inFlight : q.inFlight = p.inFlight) : Bounded (events ++ journal) x i q := by
  have hflights : q.flights = p.flights := by rw [FlushPool.flights, workers, calls]; rfl
  have begun := (sends_append quiet journal).1
  exact {
    valid := h.valid
    capacity := capacity.trans h.capacity
    limit := limit.trans h.limit
    staff := by rw [workers, h.staff]
    calls := calls.trans h.calls
    sized := by rw [FlushPool.Sized, hflights]; exact h.sized
    units := by rw [begun]; exact h.units
    sends := fun running => (h.sends running).keeps quiet (.of_eq hflights) inFlight }

theorem staffed {workers : List Worker} (address : String) (valid : x.settings.validate = .ok ())
    (staff : workers.length = x.settings.flushThreads)
    (started : ∀ w ∈ workers, w.Started x.settings.flushInterval) :
    Bounded [] (x.begun address i) i (.staffed x.settings workers) where
  valid := valid
  capacity := rfl
  limit := rfl
  staff := staff
  calls := rfl
  sized := by
    rw [FlushPool.Sized, FlushPool.flights_staffed started]
    exact fun _ hf => nomatch hf
  units := fun _ hu => nomatch hu
  sends := fun _ => .fresh (fun _ he => nomatch he) (FlushPool.flights_staffed started) rfl

/-- Workers are aborted by a stop, so not while the listener runs. -/
theorem aborts (h : Bounded journal x i p) (stopping : x.state = .stopping) :
    Bounded journal x i p.aborted where
  valid := h.valid
  capacity := h.capacity
  limit := h.limit
  staff := by rw [FlushPool.aborted, List.length_map, h.staff]
  calls := h.calls
  sized := h.sized.of_subset fun f hf =>
    p.flights_aborted.symm.subset (List.mem_append_left _ hf)
  units := h.units
  sends running := by
    rw [stopping] at running
    cases running

theorem settles (h : Bounded journal x i p) (stopping : x.state = .stopping) :
    Bounded journal x i p.settled where
  valid := h.valid
  capacity := h.capacity
  limit := h.limit
  staff := h.staff
  calls := h.calls
  sized := h.sized
  units := h.units
  sends running := by
    rw [stopping] at running
    cases running

end Bounded

theorem bounded_kept : ListenerFact.Kept Bounded where
  aside foreign h :=
    h.same _ (fun e he => Event.not_sends_of_pool (foreign e he)) rfl rfl rfl rfl rfl
  starts address valid staff started := .staffed address valid staff started
  works move h := h.works move
  accepts c point _ _ h := by
    refine h.same [_] (fun e he => ?_) ?_ rfl rfl rfl rfl
    · exact List.mem_singleton.mp he ▸ Event.accepted_not_sends _ _ _ _
    · exact Buffer.capacity_perform _ (.enqueue point)
  fires h := h.same [] (fun _ he => nomatch he) rfl rfl rfl rfl rfl
  marks h settings running :=
    { valid := settings ▸ h.valid
      capacity := settings ▸ h.capacity
      limit := settings ▸ h.limit
      staff := settings ▸ h.staff
      calls := h.calls
      sized := h.sized
      units := settings ▸ h.units
      sends := fun state => h.sends (running state) }
  aborts stopping h := h.aborts stopping
  settles stopping _ h := h.settles stopping

namespace Relay

/-- The bounds of a listener `x` whose pool is `p`, with index `i`. -/
structure Within (s : Relay) (x : Listener) (i : Nat) (p : FlushPool) : Prop where
  buffered : s.buffered x ≤ x.settings.maxBufferSize
  /-- Sends that were begun and have not returned. -/
  sends : (begunUnits i s.journal).length ≤ (landed i s.journal).length + x.settings.flushThreads
  inFlight : p.inFlight ≤ x.settings.flushThreads * x.settings.maxPointsPerFlush

/-- Whatever its clients send and however long its sends take, a listener that runs stays
within its settings: in its buffer, in the sends that it has begun and that have not
returned, and in the points of these. Every unit that it has ever begun has at least one
point, and no more than its settings allow. -/
theorem run_stays_bounded (wallClock : Int) (sends : Script SendPlan)
    (checkIns : Script (Option ShippingError)) (actions : List Action)
    (ha : ∀ a ∈ actions, a.byHand = false) :
    let s := (create wallClock sends checkIns).run actions
    ∀ (l : Nat) (x : Listener), s.listeners[l]? = some x → x.state = .running →
      ∃ (i : Nat) (p : FlushPool), x.pool = some i ∧ s.pools[i]? = some p ∧ s.Within x i p ∧
        ∀ u ∈ begunUnits i s.journal, 1 ≤ u.size ∧ u.size ≤ x.settings.maxPointsPerFlush := by
  intro s l x listener running
  have sound : s.Sound := sound_run wallClock sends checkIns ha
  obtain ⟨i, owner⟩ := sound.owner_of_running listener running
  obtain ⟨p, pool⟩ := sound.wired l x i listener owner
  have bounded : Bounded s.journal x i p :=
    bounded_kept.run wallClock sends checkIns ha l i x p listener owner pool
  -- Nothing was cut off, so what has not returned is what the workers wait for.
  obtain ⟨⟨back, hbegun, hback⟩, hflight⟩ := bounded.sends running
  have hwaiting : (p.aloft []).length ≤ x.settings.flushThreads := by
    have hflights := FlushPool.length_flights_le bounded.calls
    rw [FlushPool.aloft, List.append_nil, List.length_map]
    exact Nat.le_trans hflights (Nat.le_of_eq bounded.staff)
  refine ⟨i, p, owner, pool, ⟨?_, ?_, ?_⟩, bounded.units⟩
  · have hpool : s.pool? x = some p := by rw [pool?, owner]; exact pool
    rw [buffered, hpool]
    exact bounded.capacity ▸ p.buffer.bounded
  · have hbegun := hbegun.length_eq
    have hback := hback.length_eq
    rw [List.length_append] at hbegun
    rw [List.length_map] at hback
    omega
  · have hunits : ∀ n ∈ (p.aloft []).map WorkUnit.size, n ≤ x.settings.maxPointsPerFlush := by
      intro n hn
      obtain ⟨u, hu, rfl⟩ := List.mem_map.mp hn
      exact (bounded.units u (hbegun.symm.subset (List.mem_append_right _ hu))).2
    have htotal := total_le hunits
    rw [List.length_map] at htotal
    rw [hflight trivial]
    exact Nat.le_trans htotal (Nat.mul_le_mul_right _ hwaiting)

/-- Both workers of a listener are in a slow send, and one point waits. -/
def bothSending : List Action :=
  [.addListener { ListenerSettings.standard 2878 .graphite with
      flushThreads := 2, maxPointsPerFlush := 1, maxBufferSize := 3 },
    .start 0 (.ok "0.0.0.0:2878"), .connect 0, .arrive 0 "m 1 1\nn 2 2\no 3 3\n".toUTF8.toList,
    .readOn 0, .readOn 0, .readOn 0, .wait 1000, .tick 0 0, .tick 0 1]

theorem run_stays_bounded_bothSending :
    let s := (create 0 (.always ⟨60000, none⟩) (.always none)).run bothSending
    (∀ a ∈ bothSending, a.byHand = false) ∧
      ∃ x p, s.listeners[0]? = some x ∧ x.state = .running ∧ s.pools[0]? = some p ∧
        s.Within x 0 p ∧ s.buffered x = 1 ∧ p.inFlight = 2 ∧
        (begunUnits 0 s.journal).length = 2 ∧ landed 0 s.journal = [] := by
  intro s
  obtain ⟨x, listener, hx⟩ := Option.map_eq_some_iff.mp (show
    (s.listeners[0]?.map fun x => (x.state, x.pool, s.buffered x)) = some (.running, some 0, 1) by
      decide +kernel)
  obtain ⟨running, owner, waiting⟩ : x.state = .running ∧ x.pool = some 0 ∧ s.buffered x = 1 := by
    simpa using hx
  obtain ⟨i, p, owner', pool, within, -⟩ := run_stays_bounded 0 (.always ⟨60000, none⟩)
    (.always none) bothSending (by decide) 0 x listener running
  obtain rfl := Option.some.inj (owner.symm.trans owner')
  have inFlight : p.inFlight = 2 := by
    have hsome : (s.pools[0]?.map fun p => p.inFlight) = some 2 := by decide +kernel
    rw [pool] at hsome
    exact Option.some.inj hsome
  exact ⟨by decide, x, p, listener, running, pool, within, waiting, inFlight, by decide +kernel,
    by decide +kernel⟩

end Relay
end MetricsProxy
