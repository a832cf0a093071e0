import MetricsProxy.Relay.Flush

/-!
# Listening

A listener that starts gets a flush pool and accepts connections up to its
limit. Each connection is read line by line. A stop fires the pool's token,
waits for the listener's tasks in order, the workers first and the accepting
task last, and after the grace period aborts what is left. What a stop finds in
abandoned sends or in the buffer is counted as dropped.

Memory is taken to suffice. The connections of a listener are counted by a
semaphore, and a start breaks off if it is to count more than a semaphore can.
-/
namespace MetricsProxy.Relay

/-- The flush pool of a listener, once it is started. -/
def pool? (s : Relay) (l : Listener) : Option FlushPool := l.pool.bind fun i => s.pools[i]?

def isCancelled (s : Relay) (l : Listener) : Bool := (s.pool? l).elim false fun p => p.cancelled

def addListener (s : Relay) (settings : ListenerSettings) : Relay :=
  { s with listeners := s.listeners ++ [.create settings] }

def registerListenerMetrics (s : Relay) : Relay :=
  let s := s.use MetricName.pointsReceived (.look .counter)
  let s := s.use MetricName.pointsDropped (.look .counter)
  let s := s.use MetricName.pointsDecodeErrors (.look .counter)
  let s := s.use MetricName.connectionsRejected (.look .counter)
  s.use MetricName.connectionsActive (.look .gauge)

/-- Starts a listener; `bind` is what the network answers: the address it bound, or a reason.
A start that breaks off has no answer. -/
def start (s : Relay) (l : Nat) (bind : Except String String) :
    Relay × Option (Except ListenerError Unit) :=
  match s.listeners[l]? with
  | none => (s, some (.ok ()))
  | some listener =>
      if listener.state ≠ .created then
        (s, some (.error (.invalidState listener.state .created)))
      else
        match listener.settings.validate with
        | .error e => (s, some (.error e))
        | .ok () =>
            match bind with
            | .error reason =>
                (s.modifyListener l fun x => { x with state := .stopped },
                  some (.error (.bind listener.settings.address reason)))
            | .ok address =>
                let settings := listener.settings
                let i := s.pools.length
                let s := s.addPool (.create settings.maxBufferSize settings.maxPointsPerFlush
                  settings.flushInterval)
                let s := s.spawnWorkers i settings.flushThreads
                if settings.maxConnections ≤ Semaphore.maxPermits then
                  (s.registerListenerMetrics.modifyListener l fun x =>
                    { x with
                      state := .running
                      bound := some address
                      pool := some i
                      accepting := true }, some (.ok ()))
                else
                  -- No semaphore, but what was made before it is left behind.
                  (s.modifyListener l fun x =>
                    { x with
                      state := .starting
                      bound := some address
                      pool := some i }, none)

def liveCount (s : Relay) (l : Nat) : Nat :=
  s.connections.countP fun c => c.listener == l && c.live

/-- What becomes of a client that connects. -/
inductive Admission where
  | served (connection : Nat)
  | rejected
  | refused
  deriving DecidableEq, Repr

/-- A client connects: nobody accepts it, or it is served, or it is closed at once. -/
def connect (s : Relay) (l : Nat) : Relay × Admission :=
  match s.listeners[l]? with
  | none => (s, .refused)
  | some listener =>
      if listener.accepting = true ∧ s.isCancelled listener = false then
        if s.liveCount l < listener.settings.maxConnections then
          let c : Connection :=
            { listener := l
              reader := .fresh listener.settings.maxLineLength
              arrived := []
              finished := false
              broken := false
              live := true }
          ({ s with connections := s.connections ++ [c] }.use MetricName.connectionsActive
            (.addGauge (Binary64.ofNat 1)), .served s.connections.length)
        else (s.use MetricName.connectionsRejected (.count 1), .rejected)
      else (s, .refused)

def arrive (s : Relay) (c : Nat) (bytes : List UInt8) : Relay :=
  s.modifyConnection c fun x => { x with arrived := x.arrived ++ bytes }

def endInput (s : Relay) (c : Nat) : Relay :=
  s.modifyConnection c fun x => { x with finished := true }

def breakOff (s : Relay) (c : Nat) : Relay :=
  s.modifyConnection c fun x => { x with broken := true }

/-- The listener closes a connection that it still serves. -/
def close (s : Relay) (c : Nat) : Relay :=
  match s.connections[c]? with
  | some x =>
      if x.live then
        (s.modifyConnection c fun x => { x with live := false }).use MetricName.connectionsActive
          (.addGauge (Binary64.ofNat 1).neg)
      else s
  | none => s

/-- A decoded point is offered to the buffer and is dropped if that is full. -/
def receive (s : Relay) (i c : Nat) (point : Point) : Relay :=
  let s := s.use MetricName.pointsReceived (.count 1)
  match s.pools[i]? with
  | none => s
  | some p =>
      match p.buffer.enqueue point with
      | (buffer, true) =>
          (s.modifyPool i fun p => { p with buffer := buffer }).log (.accepted i (some c) point)
      | (_, false) => s.use MetricName.pointsDropped (.count 1)

def handle (s : Relay) (i c : Nat) : LineClass → Relay
  | .decoded point => s.receive i c point
  | .error _ => s.use MetricName.pointsDecodeErrors (.count 1)
  | .blank => s

/-- A connection's reader goes on until it has one frame, needs more bytes or
comes to the end. Once the token has fired it only closes the connection. -/
def readOn (s : Relay) (c : Nat) : Relay :=
  match s.connections[c]? with
  | none => s
  | some x =>
      match s.listeners[x.listener]? with
      | none => s
      | some listener =>
          match x.live, listener.pool with
          | true, some i =>
              let settings := listener.settings
              let classify := settings.format.classify s.wallClock settings.maxLineLength
              if s.isCancelled listener then s.close c
              else if x.arrived ≠ [] then
                match x.reader.feed x.arrived with
                | .pending r => s.modifyConnection c fun x =>
                    { x with reader := r, arrived := [] }
                | .complete f rest =>
                    let s := s.modifyConnection c fun x =>
                      { x with reader := .fresh settings.maxLineLength, arrived := rest }
                    s.handle i c (classify f)
              else if x.broken then s.close c
              else if x.finished then
                match x.reader.finish with
                | none => s.close c
                | some f =>
                    (s.modifyConnection c fun x =>
                      { x with reader := .fresh settings.maxLineLength }).handle i c (classify f)
              else s
          | _, _ => s

/-- The accepting task ends once the token has fired and every connection is closed. -/
def endAccepting (s : Relay) (l : Nat) : Relay :=
  match s.listeners[l]? with
  | some listener =>
      if listener.accepting = true ∧ s.isCancelled listener = true ∧ s.liveCount l = 0 then
        s.modifyListener l fun x => { x with accepting := false }
      else s
  | none => s

/-- A stop begins, if the listener runs: its token fires and the wait starts. -/
def beginStop (s : Relay) (l : Nat) : Relay :=
  match s.listeners[l]? with
  | some listener =>
      match listener.state, listener.pool with
      | .running, some i =>
          (s.cancelPool i).modifyListener l fun x =>
            { x with state := .stopping
                     closing := some ⟨s.now + x.settings.grace, 0⟩ }
      | _, _ => s
  | none => s

/-- Whether each of the listener's tasks is over: its workers in order, then the accepting task. -/
def tasksOver (s : Relay) (listener : Listener) : List Bool :=
  ((s.pool? listener).elim [] fun p => p.workers.map fun w => w.phase.isOver) ++
    [!listener.accepting]

def countDropped (s : Relay) (n : Nat) : Relay :=
  if 0 < n then s.use MetricName.pointsDropped (.count (UInt64.ofNat n)) else s

/-- What remains of a listener is counted and given up. -/
def settle (s : Relay) (l i : Nat) : Relay :=
  match s.pools[i]? with
  | none => s
  | some p =>
      let s := s.countDropped p.inFlight
      let s := s.releaseSize i
      let (buffer, left) := p.buffer.clear
      let s := s.modifyPool i fun p => { p with buffer := buffer, inFlight := 0 }
      (s.countDropped left).modifyListener l fun x => { x with state := .stopped, closing := none }

/-- The stop sees the next task end, or settles when it has seen all of them. -/
def awaitTask (s : Relay) (l : Nat) : Relay :=
  match s.listeners[l]? with
  | some listener =>
      match listener.closing, listener.pool with
      | some closing, some i =>
          match (s.tasksOver listener)[closing.awaited]? with
          | some true =>
              s.modifyListener l fun x =>
                { x with closing := some { closing with awaited := closing.awaited + 1 } }
          | some false => s
          | none => s.settle l i
      | _, _ => s
  | none => s

def closeAll (s : Relay) (l : Nat) : Relay :=
  (List.range s.connections.length).foldl
    (fun s c => if (s.connections[c]?.map fun x => x.listener) = some l then s.close c else s) s

/-- The grace period is over: every task is aborted and asked for its end once
more. Asking a task whose end was seen already fails the stop. -/
def expire (s : Relay) (l : Nat) : Relay :=
  match s.listeners[l]? with
  | some listener =>
      match listener.closing, listener.pool with
      | some closing, some i =>
          if closing.deadline ≤ s.now ∧ closing.awaited < (s.tasksOver listener).length then
            let s := ((s.abortAll i).closeAll l).modifyListener l fun x =>
              { x with accepting := false }
            if closing.awaited = 0 then s.settle l i
            else s.modifyListener l fun x => { x with closing := none, failed := true }
          else s
      | _, _ => s
  | none => s

/-- A listener goes away without being stopped: only its token fires. -/
def dropListener (s : Relay) (l : Nat) : Relay :=
  match s.listeners[l]? with
  | some listener =>
      let s := s.modifyListener l fun x => { x with dropped := true }
      listener.pool.elim s s.cancelPool
  | none => s

def buffered (s : Relay) (listener : Listener) : Nat :=
  (s.pool? listener).elim 0 fun p => p.buffer.size

end MetricsProxy.Relay
