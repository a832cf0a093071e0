import MetricsProxy.Relay.Basic

/-!
# Flushing

A flush drains one unit from the buffer, reports the buffer's new size and
hands the unit to the destination. Workers flush on every tick until they are
cancelled; a send in progress is finished first. All pools share the gauge of
the buffered points: each adds only the change of its own share.
-/
namespace MetricsProxy.Relay

def registerFlushMetrics (s : Relay) : Relay :=
  let s := s.use MetricName.bufferSize (.look .gauge)
  let s := s.use MetricName.flushDuration (.look .timer)
  s.use MetricName.flushPoints (.look .histogram)

def addPool (s : Relay) (p : FlushPool) : Relay :=
  { s.registerFlushMetrics with pools := s.pools ++ [p] }

/-- Offers points to a buffer, and says how many it took. -/
def offer (s : Relay) (i : Nat) (points : List Point) : Relay × Nat :=
  match s.pools[i]? with
  | none => (s, 0)
  | some p =>
      let (buffer, taken) := p.buffer.enqueueBatch points
      let s := s.modifyPool i fun p => { p with buffer := buffer }
      ((points.take taken).foldl (fun s q => s.log (.accepted i none q)) s, taken)

/-- Moves a pool's share of the common gauge to `size`. -/
def reportSize (s : Relay) (i size : Nat) : Relay :=
  match s.pools[i]? with
  | none => s
  | some p =>
      let delta := (Binary64.ofNat size).sub (Binary64.ofNat p.reported)
      (s.modifyPool i fun p => { p with reported := size }).use MetricName.bufferSize
        (.addGauge delta)

def releaseSize (s : Relay) (i : Nat) : Relay :=
  match s.pools[i]? with
  | none => s
  | some p =>
      let delta := (Binary64.ofNat p.reported).neg
      (s.modifyPool i fun p => { p with reported := 0 }).use MetricName.bufferSize (.addGauge delta)

/-- Drains a unit and begins to send it; nothing is sent from an empty buffer. -/
def beginFlush (s : Relay) (i : Nat) (origin : Origin) : Relay × Option Flight :=
  match s.pools[i]? with
  | none => (s, none)
  | some p =>
      let (buffer, points) := p.buffer.drain p.unitLimit
      let s := (s.modifyPool i fun p => { p with buffer := buffer }).reportSize i buffer.size
      if points.isEmpty then (s, none)
      else
        let (s, flight) := s.launch origin ⟨points⟩
        (s.modifyPool i fun p => { p with inFlight := p.inFlight + points.length }, some flight)

def endFlush (s : Relay) (i : Nat) (origin : Origin) (flight : Flight) : Relay :=
  let n := flight.unit.size
  let s := s.land origin flight
  let s := s.modifyPool i fun p => { p with inFlight := p.inFlight - n }
  let s := s.use MetricName.flushDuration (.recordTime ((s.now - flight.began) * 1000000))
  s.use MetricName.flushPoints (.recordSample (UInt64.ofNat n))

def rest (s : Relay) (i j : Nat) : Relay :=
  match s.worker? i j with
  | none => s
  | some w =>
      let (s, ticket) := s.ticketFor w.ticker.due
      s.modifyWorker i j fun w => { w with phase := .idle, ticket := ticket }

def await (s : Relay) (i j : Nat) (flight : Flight) : Relay :=
  let (s, ticket) := s.ticket
  s.modifyWorker i j fun w => { w with phase := .sending flight, ticket := ticket }

/-- Workers that start now. A worker cannot run on an interval of zero. -/
def spawnWorkers (s : Relay) (i : Nat) : Nat → Relay
  | 0 => s
  | n + 1 =>
      let (s, ticket) := s.ticket
      let s := s.modifyPool i fun p =>
        { p with workers := p.workers ++ [{
            ticker := .start s.now p.interval
            phase := if p.interval = 0 then .aborted else .idle
            ticket := ticket }] }
      s.spawnWorkers i n

def tick (s : Relay) (i j : Nat) : Relay :=
  match s.pools[i]?, s.worker? i j with
  | some p, some w =>
      if p.cancelled = false ∧ w.phase = .idle ∧ w.ticker.due ≤ s.now then
        let s := s.modifyWorker i j fun w => { w with ticker := w.ticker.take s.now }
        match s.beginFlush i (.worker i j) with
        | (s, none) => s.rest i j
        | (s, some flight) =>
            if flight.ends ≤ s.now then (s.endFlush i (.worker i j) flight).rest i j
            else s.await i j flight
      else s
  | _, _ => s

def deliver (s : Relay) (i j : Nat) : Relay :=
  match s.worker? i j with
  | some w =>
      match w.phase with
      | .sending flight =>
          if flight.ends ≤ s.now then (s.endFlush i (.worker i j) flight).rest i j else s
      | _ => s
  | none => s

/-- A cancelled worker that is not sending leaves its loop. -/
def quit (s : Relay) (i j : Nat) : Relay :=
  match s.pools[i]?, s.worker? i j with
  | some p, some w =>
      if p.cancelled = true ∧ w.phase = .idle then
        s.modifyWorker i j fun w => { w with phase := .ended }
      else s
  | _, _ => s

/-- A worker is stopped wherever it is; a send in progress never returns. -/
def abort (s : Relay) (i j : Nat) : Relay := s.modifyWorker i j Worker.abort

def abortAll (s : Relay) (i : Nat) : Relay :=
  s.modifyPool i fun p => { p with workers := p.workers.map Worker.abort }

def forgetWorkers (s : Relay) (i : Nat) : Relay := s.modifyPool i fun p => { p with workers := [] }

/-- A flush by hand begins. Its send, if there is one, is the pool's last call. -/
def beginCall (s : Relay) (i : Nat) : Relay :=
  match s.beginFlush i (.flushCall i) with
  | (s, none) => s
  | (s, some flight) => s.modifyPool i fun p => { p with calls := p.calls ++ [flight] }

def endCall (s : Relay) (i k : Nat) : Relay :=
  match s.pools[i]?.bind fun p => p.calls[k]? with
  | some flight =>
      if flight.ends ≤ s.now then
        (s.modifyPool i fun p => { p with calls := p.calls.eraseIdx k }).endFlush i
          (.flushCall i) flight
      else s
  | none => s

def cancelPool (s : Relay) (i : Nat) : Relay := s.modifyPool i fun p => { p with cancelled := true }

end MetricsProxy.Relay
