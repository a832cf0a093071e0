import MetricsProxy.Agent
import MetricsProxy.Buffer
import MetricsProxy.Clock.Ticker
import MetricsProxy.Delivery.Script
import MetricsProxy.Listener.Intake
import MetricsProxy.Listener.Settings

/-!
# The running relay

A relay is everything that runs at one time: flush pools with their buffers and
workers, agent reporters, listeners and their connections, all on one clock,
one registry and one destination. What its parts do is split into steps that
nothing interrupts; the journal records the steps that matter outside.
-/
namespace MetricsProxy

/-- Who hands a unit to the destination. -/
inductive Origin where
  | worker (pool worker : Nat)
  | flushCall (pool : Nat)
  | reporter (index : Nat)
  | reportCall
  deriving DecidableEq, Repr

structure Flight where
  unit : WorkUnit
  began : Nat
  ends : Nat
  result : DeliveryResult
  deriving DecidableEq

/-- What a periodic task is doing. -/
inductive Phase where
  /-- Waits for its next tick. -/
  | idle
  | sending (flight : Flight)
  /-- Left its loop. -/
  | ended
  /-- Stopped from outside, wherever it was. -/
  | aborted
  deriving DecidableEq

namespace Phase

def isOver : Phase → Bool
  | ended => true
  | aborted => true
  | _ => false

def load : Phase → Nat
  | sending f => f.unit.size
  | _ => 0

end Phase

/-- A periodic task. Its ticket is its place among the tasks that wait for the
clock: of those due at one time, the lowest ticket goes first. -/
structure Worker where
  ticker : Ticker
  phase : Phase
  ticket : Nat
  deriving DecidableEq

def Worker.abort (w : Worker) : Worker := if w.phase.isOver then w else { w with phase := .aborted }

/-- A buffer with the workers that drain it. -/
structure FlushPool where
  buffer : Buffer
  maxPoints : Nat
  interval : Nat
  /-- The buffer's share of the common gauge. -/
  reported : Nat
  /-- Points in sends that have not returned. -/
  inFlight : Nat
  cancelled : Bool
  workers : List Worker
  /-- Flushes by hand whose sends have not returned. -/
  calls : List Flight

namespace FlushPool

def create (capacity maxPoints interval : Nat) : FlushPool where
  buffer := .empty capacity
  maxPoints := maxPoints
  interval := interval
  reported := 0
  inFlight := 0
  cancelled := false
  workers := []
  calls := []

/-- The most points of a unit; at least one. -/
def unitLimit (p : FlushPool) : Nat := max p.maxPoints 1

end FlushPool

/-- A periodic task that reports for an agent. -/
structure Reporter where
  agent : Agent
  cancelled : Bool
  task : Worker
  deriving DecidableEq

/-- A stop in progress: when it loses patience and how many of the listener's
tasks, taken in order, it has seen end. -/
structure Closing where
  deadline : Nat
  awaited : Nat
  deriving DecidableEq, Repr

structure Listener where
  settings : ListenerSettings
  state : Lifecycle
  /-- The address it was bound to, once started. -/
  bound : Option String
  /-- Index of its flush pool, once started. -/
  pool : Option Nat
  /-- Whether the task that accepts connections is still there. -/
  accepting : Bool
  closing : Option Closing
  /-- Whether a stop asked a task for its end a second time and failed. -/
  failed : Bool
  dropped : Bool
  deriving DecidableEq

namespace Listener

def create (settings : ListenerSettings) : Listener where
  settings := settings
  state := .created
  bound := none
  pool := none
  accepting := false
  closing := none
  failed := false
  dropped := false

end Listener

structure Connection where
  listener : Nat
  reader : LineReader
  /-- Bytes that have arrived and are not read yet. -/
  arrived : List UInt8
  /-- Whether the client has ended its input. -/
  finished : Bool
  /-- Whether the client has broken the connection. -/
  broken : Bool
  /-- Whether the listener still serves it. -/
  live : Bool
  deriving DecidableEq

/-- What happened, as far as it matters outside. -/
inductive Event where
  | accepted (pool : Nat) (connection : Option Nat) (point : Point)
  | begun (origin : Origin) (time : Nat) (unit : WorkUnit)
  | returned (origin : Origin) (time : Nat) (result : DeliveryResult)
  | checkedIn (payload : String)
  deriving DecidableEq

structure Relay where
  /-- Milliseconds since the relay was made. -/
  now : Nat
  /-- Wall clock in seconds, for points without a time. -/
  wallClock : Int
  /-- The next ticket. -/
  tickets : Nat
  registry : Registry
  sends : Script SendPlan
  /-- Answers to check-ins: `none` accepts. -/
  checkIns : Script (Option ShippingError)
  pools : List FlushPool
  reporters : List Reporter
  listeners : List Listener
  connections : List Connection
  /-- Newest first. -/
  journal : List Event

namespace Relay

def create (wallClock : Int) (sends : Script SendPlan) (checkIns : Script (Option ShippingError)) :
    Relay where
  now := 0
  wallClock := wallClock
  tickets := 0
  registry := .empty
  sends := sends
  checkIns := checkIns
  pools := []
  reporters := []
  listeners := []
  connections := []
  journal := []

def modifyPool (s : Relay) (i : Nat) (f : FlushPool → FlushPool) : Relay :=
  { s with pools := s.pools.modify i f }

def modifyWorker (s : Relay) (i j : Nat) (f : Worker → Worker) : Relay :=
  s.modifyPool i fun p => { p with workers := p.workers.modify j f }

def modifyReporter (s : Relay) (k : Nat) (f : Reporter → Reporter) : Relay :=
  { s with reporters := s.reporters.modify k f }

def modifyListener (s : Relay) (l : Nat) (f : Listener → Listener) : Relay :=
  { s with listeners := s.listeners.modify l f }

def modifyConnection (s : Relay) (c : Nat) (f : Connection → Connection) : Relay :=
  { s with connections := s.connections.modify c f }

def worker? (s : Relay) (i j : Nat) : Option Worker := s.pools[i]?.bind fun p => p.workers[j]?

def use (s : Relay) (name : String) (u : MetricUse) : Relay :=
  { s with registry := s.registry.apply name u }

def log (s : Relay) (e : Event) : Relay := { s with journal := e :: s.journal }

/-- Tickets below this one are kept for tasks that need not wait at all. -/
def firstTicket : Nat := 2

def ticket (s : Relay) : Relay × Nat :=
  ({ s with tickets := s.tickets + 1 }, firstTicket + s.tickets)

/-- The ticket of a task that waits until `due`. A task whose time has come
already goes before all others. -/
def ticketFor (s : Relay) (due : Nat) : Relay × Nat := if due ≤ s.now then (s, 1) else s.ticket

/-- Hands a unit to the destination, which answers by its script. -/
def launch (s : Relay) (origin : Origin) (unit : WorkUnit) : Relay × Flight :=
  let (plan, rest) := s.sends.next
  ({ s with sends := rest }.log (.begun origin s.now unit),
    { unit := unit, began := s.now, ends := s.now + plan.duration, result := plan.result unit })

def land (s : Relay) (origin : Origin) (flight : Flight) : Relay :=
  s.log (.returned origin s.now flight.result)

end Relay
end MetricsProxy
