import MetricsProxy.Relay.Action
import MetricsProxy.Total

/-!
# The agenda

What the tasks of a relay would do next, and when. Of the actions due first the
lowest ticket is taken; the owner, who waits for a stop, goes before the tasks.
Following the agenda up to a time is one of the runs of a relay, and the one in
which every task moves as soon as it can.
-/
namespace MetricsProxy

structure Entry where
  time : Nat
  ticket : Nat
  action : Action

namespace Entry

/-- Whether an entry is taken before another one. -/
def before (a b : Entry) : Bool :=
  decide (a.time < b.time) || (a.time == b.time && decide (a.ticket < b.ticket))

/-- The first entry in the order of time and ticket. -/
def earliest : List Entry → Option Entry
  | [] => none
  | e :: es =>
      match earliest es with
      | none => some e
      | some f => if f.before e then some f else some e

end Entry

namespace Relay

def ownerTicket : Nat := 0

/-- The ticket of a task that does not wait for the clock. -/
def readyTicket : Nat := 1

def workerEntries (s : Relay) (i : Nat) (p : FlushPool) : List Entry :=
  p.workers.zipIdx.filterMap fun (w, j) =>
    match w.phase with
    | .idle =>
        if p.cancelled then some ⟨s.now, readyTicket, .quit i j⟩
        else some ⟨max w.ticker.due s.now, w.ticket, .tick i j⟩
    | .sending f => some ⟨max f.ends s.now, w.ticket, .deliver i j⟩
    | _ => none

def reporterEntry (s : Relay) (k : Nat) (r : Reporter) : Option Entry :=
  match r.task.phase with
  | .idle =>
      if r.cancelled then some ⟨s.now, readyTicket, .reporterQuit k⟩
      else some ⟨max r.task.ticker.due s.now, r.task.ticket, .reporterTick k⟩
  | .sending f =>
      if r.cancelled then some ⟨s.now, readyTicket, .reporterQuit k⟩
      else some ⟨max f.ends s.now, r.task.ticket, .reporterDeliver k⟩
  | _ => none

/-- A served connection is read as soon as there is something to see. -/
def connectionEntry (s : Relay) (c : Nat) (x : Connection) : Option Entry :=
  let cancelled := s.listeners[x.listener]?.elim false s.isCancelled
  if x.live && (cancelled || x.broken || x.finished || !x.arrived.isEmpty) then
    some ⟨s.now, readyTicket, .readOn c⟩
  else none

def listenerEntries (s : Relay) (l : Nat) (x : Listener) : List Entry :=
  let accepting :=
    if x.accepting && s.isCancelled x && s.liveCount l == 0 then
      [⟨s.now, readyTicket, .endAccepting l⟩] else []
  let closing := x.closing.elim [] fun closing =>
    if (s.tasksOver x)[closing.awaited]? = some false then
      [⟨max closing.deadline s.now, ownerTicket, .expire l⟩]
    else [⟨s.now, ownerTicket, .awaitTask l⟩]
  accepting ++ closing

def agenda (s : Relay) : List Entry :=
  (s.pools.zipIdx.flatMap fun (p, i) => s.workerEntries i p) ++
    (s.reporters.zipIdx.filterMap fun (r, k) => s.reporterEntry k r) ++
    (s.connections.zipIdx.filterMap fun (x, c) => s.connectionEntry c x) ++
    s.listeners.zipIdx.flatMap fun (x, l) => s.listenerEntries l x

/-- What happens next, if anything does until `limit`. -/
def next? (s : Relay) (limit : Nat) : Option Entry :=
  (Entry.earliest s.agenda).filter fun e => e.time ≤ limit

/-- The clock moves to the time of an entry and its action is taken. -/
def perform (s : Relay) (e : Entry) : Relay := { s with now := max s.now e.time }.step e.action

/-- Takes at most `n` entries, none after `limit` and none once `enough` holds. -/
def follow (limit : Nat) (enough : Relay → Bool) : Nat → Relay → Relay
  | 0, s => s
  | n + 1, s =>
      if enough s then s
      else
        match s.next? limit with
        | none => s
        | some e => follow limit enough n (s.perform e)

/-- A periodic task takes a tick and returns from it at most once for every
moment from when its next tick is due. -/
def taskBudget (limit : Nat) (w : Worker) : Nat := 2 * (limit + 1 - w.ticker.due) + 3

/-- No run up to `limit` takes more entries than this. -/
def budget (s : Relay) (limit : Nat) : Nat :=
  total (s.pools.map fun p => total (p.workers.map (taskBudget limit))) +
    total (s.reporters.map fun r => taskBudget limit r.task) +
    total (s.connections.map fun x => x.arrived.length + 4) +
    total (s.listeners.map fun x => (s.tasksOver x).length + 3)

/-- Follows the agenda up to `limit`, or until `enough` holds. -/
def advanceUntil (s : Relay) (limit : Nat) (enough : Relay → Bool) : Relay :=
  follow limit enough (s.budget limit) s

/-- Everything due up to `time` happens, and then it is `time`. -/
def advance (s : Relay) (time : Nat) : Relay :=
  let s := s.advanceUntil time fun _ => false
  { s with now := max s.now time }

def settleNow (s : Relay) : Relay := s.advance s.now

end Relay
end MetricsProxy
