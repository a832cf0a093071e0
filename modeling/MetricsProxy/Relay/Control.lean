import MetricsProxy.Listener.Network
import MetricsProxy.Relay.Agenda

/-!
# Control of a relay

What the owner of a relay and its clients ask for, one thing after another.
Each request is followed by everything that is due by then; the owner's own
waits end before anything else that is due at the same time.
-/
namespace MetricsProxy.Relay

def sleep (s : Relay) (duration : Nat) : Relay := s.advance (s.now + duration)

/-- Waits for something of one's own that ends at `time`. -/
def waitFor (s : Relay) (time : Nat) : Relay :=
  if time ≤ s.now then s else { s.advance (time - 1) with now := time }

/-! ## Flush pools -/

def enqueue (s : Relay) (i : Nat) (points : List Point) : Relay × Nat :=
  let (s, taken) := s.offer i points
  (s.settleNow, taken)

def flush (s : Relay) (i : Nat) : Relay × Option DeliveryResult :=
  let k := s.pools[i]?.elim 0 fun p => p.calls.length
  let s := s.beginCall i
  match s.pools[i]?.bind fun p => p.calls[k]? with
  | none => (s.settleNow, none)
  | some flight => (((s.waitFor flight.ends).endCall i k).settleNow, some flight.result)

def release (s : Relay) (i : Nat) : Relay := (s.releaseSize i).settleNow

def spawn (s : Relay) (i workers : Nat) : Relay := (s.spawnWorkers i workers).settleNow

def workers (s : Relay) (i : Nat) : List Worker := s.pools[i]?.elim [] fun p => p.workers

def workersOver (s : Relay) (i : Nat) : Nat := (s.workers i).countP fun w => w.phase.isOver

def cancel (s : Relay) (i : Nat) : Relay × Nat :=
  let s := (s.cancelPool i).settleNow
  (s, s.workersOver i)

/-- Aborts and forgets the workers of a pool, and says how many were running. -/
def abortWorkers (s : Relay) (i : Nat) : Relay × Nat :=
  let running := (s.workers i).countP fun w => !w.phase.isOver
  (((s.abortAll i).forgetWorkers i).settleNow, running)

/-- Waits for the workers of a cancelled pool and forgets them. -/
def joinWorkers (s : Relay) (i : Nat) : Relay :=
  let last := (s.workers i).foldl (fun t w => match w.phase with
    | .sending f => max t f.ends
    | _ => t) s.now
  let s := s.advanceUntil last fun s => s.workersOver i == (s.workers i).length
  (s.forgetWorkers i).settleNow

/-! ## Reporters -/

def report (s : Relay) (agent : Agent) : Relay × Option DeliveryResult :=
  match s.beginReport agent .reportCall with
  | (s, none) => (s.settleNow, none)
  | (s, some flight) =>
      (((s.waitFor flight.ends).land .reportCall flight).settleNow, some flight.result)

def runReporter (s : Relay) (agent : Agent) (interval : Nat) : Relay :=
  (s.addReporter agent interval).settleNow

def cancelReports (s : Relay) : Relay × Nat :=
  let s := s.cancelReporters.settleNow
  (s, s.reporters.countP fun r => r.task.phase.isOver)

/-! ## Listeners -/

def isClosing (s : Relay) (l : Nat) : Bool := s.listeners[l]?.elim false fun x => x.closing.isSome

def startListener (s : Relay) (network : Network) (l : Nat) :
    Relay × Option (Except ListenerError String) :=
  match s.listeners[l]? with
  | none => (s, some (.ok ""))
  | some x =>
      let (s, answer) := s.start l (network.bind x.settings.host x.settings.port)
      let bound := (s.listeners[l]?.bind fun x => x.bound).getD ""
      (s.settleNow, answer.map fun result => result.map fun _ => bound)

/-- Stops a listener and says how long it took; there is no such time if the
stop failed. -/
def stop (s : Relay) (l : Nat) : Relay × Option Nat :=
  let began := s.now
  let s := s.beginStop l
  let deadline := (s.listeners[l]?.bind fun x => x.closing).elim s.now fun c => c.deadline
  let s := s.advanceUntil deadline fun s => !s.isClosing l
  let took := s.now - began
  (s.settleNow, if s.listeners[l]?.elim false fun x => x.failed then none else some took)

def drop (s : Relay) (l : Nat) : Relay := (s.dropListener l).settleNow

/-! ## Clients -/

def dial (s : Relay) (network : Network) (l : Nat) : Relay × Admission :=
  if network.connected then
    let (s, admission) := s.connect l
    (s.settleNow, admission)
  else (s, .refused)

def isOpen (s : Relay) (c : Nat) : Bool := s.connections[c]?.elim false fun x => x.live

/-- Sends bytes, unless the listener has closed the connection. -/
def transmit (s : Relay) (c : Nat) (bytes : List UInt8) : Relay × Bool :=
  if s.isOpen c then ((s.arrive c bytes).settleNow, true) else (s, false)

def finish (s : Relay) (c : Nat) : Relay := (s.endInput c).settleNow

def reset (s : Relay) (c : Nat) : Relay := (s.breakOff c).settleNow

end MetricsProxy.Relay
