import MetricsProxy.Relay.Basic

/-!
# Reporting

A report ships the agent's points of the moment as one unit; without points
nothing is sent. A reporter reports on every tick until it is cancelled, and a
report in progress is cut off then.
-/
namespace MetricsProxy.Relay

/-- Posts the snapshot of the self-metrics; says whether it was accepted. -/
def register (s : Relay) : Relay × Bool :=
  let (drop, rest) := s.checkIns.next
  ({ s with checkIns := rest }.log (.checkedIn s.registry.snapshotJson.render), drop.isNone)

/-- Begins a report, if there is anything to report. -/
def beginReport (s : Relay) (agent : Agent) (origin : Origin) : Relay × Option Flight :=
  let points := agent.points s.registry s.wallClock
  if points.isEmpty then (s, none)
  else
    let (s, flight) := s.launch origin ⟨points⟩
    (s, some flight)

/-- A reporter that starts now. It cannot run on an interval of zero. -/
def addReporter (s : Relay) (agent : Agent) (interval : Nat) : Relay :=
  let (s, ticket) := s.ticket
  { s with reporters := s.reporters ++ [{
      agent := agent
      cancelled := false
      task := {
        ticker := .start s.now interval
        phase := if interval = 0 then .aborted else .idle
        ticket := ticket } }] }

def reporterRest (s : Relay) (k : Nat) : Relay :=
  match s.reporters[k]? with
  | none => s
  | some r =>
      let (s, ticket) := s.ticketFor r.task.ticker.due
      s.modifyReporter k fun r =>
        { r with task := { r.task with phase := .idle, ticket := ticket } }

def reporterTick (s : Relay) (k : Nat) : Relay :=
  match s.reporters[k]? with
  | some r =>
      if r.cancelled = false ∧ r.task.phase = .idle ∧ r.task.ticker.due ≤ s.now then
        let s := s.modifyReporter k fun r =>
          { r with task := { r.task with ticker := r.task.ticker.take s.now } }
        match s.beginReport r.agent (.reporter k) with
        | (s, none) => s.reporterRest k
        | (s, some flight) =>
            if flight.ends ≤ s.now then (s.land (.reporter k) flight).reporterRest k
            else
              let (s, ticket) := s.ticket
              s.modifyReporter k fun r =>
                { r with task := { r.task with phase := .sending flight, ticket := ticket } }
      else s
  | none => s

/-- A reporter's send returns, unless the reporter is cancelled: then it is never seen to return. -/
def reporterDeliver (s : Relay) (k : Nat) : Relay :=
  match s.reporters[k]? with
  | some r =>
      match r.task.phase with
      | .sending flight =>
          if r.cancelled = false ∧ flight.ends ≤ s.now then
            (s.land (.reporter k) flight).reporterRest k
          else s
      | _ => s
  | none => s

/-- A cancelled reporter ends at once, also in the middle of a report. -/
def reporterQuit (s : Relay) (k : Nat) : Relay :=
  s.modifyReporter k fun r =>
    if r.cancelled = true ∧ r.task.phase.isOver = false then
      { r with task := { r.task with phase := .ended } }
    else r

def cancelReporters (s : Relay) : Relay :=
  { s with reporters := s.reporters.map fun r => { r with cancelled := true } }

end MetricsProxy.Relay
