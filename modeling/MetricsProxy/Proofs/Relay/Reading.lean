import MetricsProxy.Proofs.Relay.Workers
import MetricsProxy.Relay.Serve

/-!
# What a reader does

A reader rests, closes its connection, keeps the bytes of a line that has not
ended, or takes a frame and handles it. Only a frame touches more than the
connection, and only as its class says: a decoded point is counted and goes
into the buffer if there is room, else it is counted as dropped.
-/
namespace MetricsProxy.Relay
variable {s : Relay} {i c : Nat}

theorem modifyConnection_eq {x : Connection} (h : s.connections[c]? = some x)
    (f : Connection → Connection) :
    s.modifyConnection c f = { s with connections := s.connections.set c (f x) } := by
  rw [modifyConnection, modify_eq_set_of_getElem? h]

/-- What becomes of a frame of a class, read from connection `c` for pool `i`. -/
inductive Handled (s : Relay) (i c : Nat) : LineClass → Relay → Prop where
  | accepted {p : FlushPool} {point : Point} (pool : s.pools[i]? = some p)
      (room : p.buffer.size < p.buffer.capacity) :
      Handled s i c (.decoded point)
        { s with
          registry := s.registry.apply MetricName.pointsReceived (.count 1)
          pools := s.pools.set i { p with buffer := (p.buffer.enqueue point).1 }
          journal := .accepted i (some c) point :: s.journal }
  | rejected {p : FlushPool} {point : Point} (pool : s.pools[i]? = some p)
      (full : ¬ p.buffer.size < p.buffer.capacity) :
      Handled s i c (.decoded point)
        { s with
          registry := (s.registry.apply MetricName.pointsReceived (.count 1)).apply
            MetricName.pointsDropped (.count 1) }
  | error (cause : Option DecodeError) :
      Handled s i c (.error cause)
        { s with registry := s.registry.apply MetricName.pointsDecodeErrors (.count 1) }
  | blank : Handled s i c .blank s

theorem handle_handled {p : FlushPool} (pool : s.pools[i]? = some p) (cls : LineClass) :
    s.Handled i c cls (s.handle i c cls) := by
  cases cls with
  | error cause => exact .error cause
  | blank => exact .blank
  | decoded point =>
      have hpool : (s.use MetricName.pointsReceived (.count 1)).pools[i]? = some p := pool
      rw [handle, receive, hpool]
      dsimp only
      by_cases room : p.buffer.size < p.buffer.capacity
      · have hacc : (p.buffer.enqueue point).2 = true := (Buffer.enqueue_accepts_iff _ _).mpr room
        rw [show p.buffer.enqueue point = ((p.buffer.enqueue point).1, true) from Prod.ext rfl hacc]
        dsimp only
        rw [modifyPool_eq hpool]
        exact .accepted pool room
      · have hacc : (p.buffer.enqueue point).2 = false := by
          rw [← Bool.not_eq_true, Buffer.enqueue_accepts_iff]
          exact room
        rw [show p.buffer.enqueue point = ((p.buffer.enqueue point).1, false) from
          Prod.ext rfl hacc]
        exact .rejected pool room

theorem close_eq {x : Connection} (h : s.connections[c]? = some x) (live : x.live = true) :
    s.close c =
      { s with
        connections := s.connections.set c { x with live := false }
        registry := s.registry.apply MetricName.connectionsActive
          (.addGauge (Binary64.ofNat 1).neg) } := by
  rw [close, h]
  dsimp only
  rw [if_pos live, modifyConnection_eq h]
  rfl

/-- What a reader does when there is something to see. -/
inductive Reading (s : Relay) (c : Nat) : Relay → Prop where
  | closes {x : Connection} {listener : Listener} {i : Nat}
      (connection : s.connections[c]? = some x) (live : x.live = true)
      (server : s.listeners[x.listener]? = some listener) (pool : listener.pool = some i)
      (reason : s.isCancelled listener = true ∨ x.arrived = [] ∧
        (x.broken = true ∨ x.finished = true ∧ x.reader.finish = none)) :
      Reading s c
        { s with
          connections := s.connections.set c { x with live := false }
          registry := s.registry.apply MetricName.connectionsActive
            (.addGauge (Binary64.ofNat 1).neg) }
  | keeps {x : Connection} {listener : Listener} {i : Nat} {reader : LineReader}
      (connection : s.connections[c]? = some x) (live : x.live = true)
      (server : s.listeners[x.listener]? = some listener) (pool : listener.pool = some i)
      (running : s.isCancelled listener = false) (some : x.arrived ≠ [])
      (fed : x.reader.feed x.arrived = .pending reader) :
      Reading s c
        { s with connections := s.connections.set c { x with reader := reader, arrived := [] } }
  | takes {x : Connection} {listener : Listener} {i : Nat} {frame : Frame} {rest : List UInt8}
      {cls : LineClass} {s' : Relay} (connection : s.connections[c]? = some x)
      (live : x.live = true)
      (server : s.listeners[x.listener]? = some listener) (pool : listener.pool = some i)
      (running : s.isCancelled listener = false)
      (framed : x.arrived ≠ [] ∧ x.reader.feed x.arrived = .complete frame rest ∨
        x.arrived = [] ∧ rest = [] ∧ x.broken = false ∧ x.finished = true ∧
          x.reader.finish = some frame)
      (classified : cls =
        listener.settings.format.classify s.wallClock listener.settings.maxLineLength frame)
      (handled : Handled
        { s with
          connections := s.connections.set c
            { x with
              reader := .fresh listener.settings.maxLineLength
              arrived := rest } } i c cls s') :
      Reading s c s'

/-- A reader that waits: nothing has come since, and nothing is going to end. -/
def Waiting (s : Relay) (x : Connection) (listener : Listener) : Prop :=
  s.isCancelled listener = false ∧ x.arrived = [] ∧ x.broken = false ∧ x.finished = false

theorem readOn_of_not_served (h : ∀ x, s.connections[c]? = some x → x.live = false) :
    s.readOn c = s := by
  unfold readOn
  cases hx : s.connections[c]? with
  | none => rfl
  | some x =>
      dsimp only
      rw [h x hx]
      split <;> rfl

theorem readOn_reading {x : Connection} {listener : Listener} {p : FlushPool}
    (connection : s.connections[c]? = some x) (live : x.live = true)
    (server : s.listeners[x.listener]? = some listener) (pool : listener.pool = some i)
    (inPool : s.pools[i]? = some p) :
    s.readOn c = s ∧ s.Waiting x listener ∨ s.Reading c (s.readOn c) := by
  unfold readOn
  rw [connection]
  dsimp only
  rw [server]
  dsimp only
  rw [live, pool]
  dsimp only
  by_cases hcancelled : s.isCancelled listener = true
  · rw [if_pos hcancelled, close_eq connection live]
    exact .inr (.closes connection live server pool (.inl hcancelled))
  rw [if_neg hcancelled]
  have running : s.isCancelled listener = false := Bool.not_eq_true _ ▸ hcancelled
  by_cases harrived : x.arrived = []
  · rw [if_neg fun h => h harrived]
    by_cases hbroken : x.broken = true
    · rw [if_pos hbroken, close_eq connection live]
      exact .inr (.closes connection live server pool (.inr ⟨harrived, .inl hbroken⟩))
    rw [if_neg hbroken]
    have whole : x.broken = false := Bool.not_eq_true _ ▸ hbroken
    by_cases hfinished : x.finished = true
    · rw [if_pos hfinished]
      cases hfinish : x.reader.finish with
      | none =>
          rw [close_eq connection live]
          exact .inr (.closes connection live server pool
            (.inr ⟨harrived, .inr ⟨hfinished, hfinish⟩⟩))
      | some frame =>
          refine .inr (.takes connection live server pool running
            (.inr ⟨harrived, rfl, whole, hfinished, hfinish⟩) rfl ?_)
          dsimp only
          rw [modifyConnection_eq connection, ← harrived]
          apply handle_handled
          exact inPool
    · rw [if_neg hfinished]
      exact .inl ⟨rfl, running, harrived, whole, Bool.not_eq_true _ ▸ hfinished⟩
  · rw [if_pos harrived]
    cases hfeed : x.reader.feed x.arrived with
    | pending reader =>
        dsimp only
        rw [modifyConnection_eq connection]
        exact .inr (.keeps connection live server pool running harrived hfeed)
    | complete frame rest =>
        refine .inr (.takes connection live server pool running (.inl ⟨harrived, hfeed⟩) rfl ?_)
        dsimp only
        rw [modifyConnection_eq connection]
        apply handle_handled
        exact inPool

end MetricsProxy.Relay
