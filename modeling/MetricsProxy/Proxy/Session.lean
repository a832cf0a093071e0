import MetricsProxy.Delivery.Server
import MetricsProxy.Point.Graphite
import MetricsProxy.Proxy

/-!
# A whole run of the proxy

The proxy finds settings, files and a server, starts, serves its clients one
after another and stops at a signal, once as many lines as were waited for have
reached the server. Everything that is seen of a run from outside is in its
report.
-/
namespace MetricsProxy

/-- What a run finds. -/
structure World where
  settings : Except SettingsError Settings
  /-- The log's filter where the settings give none. -/
  filter : String
  files : Files
  /-- The id that is taken if none is stored. -/
  freshId : String
  wallClock : Int
  currentMillis : String
  server : Delivery.Server
  /-- The network's answer to the `n`-th listener. -/
  bind : Settings → Nat → Except String String
  /-- What the client of each listener sends. -/
  clients : List (List UInt8)
  /-- Lines at the server that are waited for, and for how long at most. -/
  awaitedLines : Nat
  patience : Nat
  signal : Signal

/-- What is seen of a run. -/
structure Report where
  exit : Exit
  log : List LogLine
  checkIns : List Delivery.Request
  lines : List String
  files : Files

namespace Proxy

/-- The lines that have reached the server; `requests` says how often each unit was issued. -/
def arrivedLines (hostname : String) (requests : List Nat) (r : Relay) : List String :=
  let units := r.journal.reverse.filterMap fun
    | .begun _ _ unit => some unit
    | _ => none
  units.zipIdx.flatMap fun (unit, k) =>
    let times := (requests[k]? <|> requests.getLast?).getD 1
    let lines := (Text.pieces (· == '\n') (unit.chars hostname)).filter fun l => !l.isEmpty
    (List.replicate times (lines.map String.ofList)).flatten

/-- The network's answer to the `n`-th listener: a port that an earlier one holds is taken. -/
def bindInTurn (network : Network) (settings : Settings) (n : Nat) : Except String String :=
  match (plan settings)[n]? with
  | none => .error "no such listener"
  | some (port, format) =>
      let held := (((plan settings).take n).map (·.1)).filter (· != 0)
      { network with occupied := network.occupied ++ held }.bind
        (settings.listener port format).host port

def report (p : Proxy) (exit : Exit) (filter : String) (checkIns : List Delivery.Request)
    (lines : List String) (files : Files) : Report where
  exit := exit
  log := p.log.reverse.filter (LogDirective.shows (LogDirective.parseAll filter))
  checkIns := checkIns
  lines := lines
  files := files

def client (settings : Settings) (agentId : String) : Delivery.Client where
  endpoint := .create settings.server settings.token agentId settings.hostname version none
  strategy := settings.retry

def runPrepared (w : World) (ready : Prepared) (p : Proxy) : Report :=
  let settings := ready.settings
  let x := Delivery.Exchange.create (client settings ready.agentId) w.server firstRegistry
  let (x, checkIns, outcome) := x.checkIn w.currentMillis x.registry.snapshotJson.render
  let drop := match outcome with
    | .ok _ => none
    | .error e => some e
  let plans := x.forecast (w.server.pushes.entries.length + 1)
  let relay := { Relay.create w.wallClock ⟨plans.map (·.1), .deliver⟩ (.always drop) with
    registry := x.registry }
  let arrived := arrivedLines settings.hostname (plans.map (·.2))
  match launch settings ready.agentId (w.bind settings) (fun _ => []) { p with relay := relay } with
  | (p, some exit) =>
      p.report exit settings.logLevel checkIns (arrived p.relay) ready.files
  | (p, none) =>
      let p := (w.clients.zip p.started).foldl (fun p c => p.serve c.2 c.1) p
      let relay := p.relay.advanceUntil (p.relay.now + w.patience) fun r =>
        decide (w.awaitedLines ≤ (arrived r).length)
      let (p, exit) := Proxy.onSignal { p with relay := relay } w.signal
      p.report exit settings.logLevel checkIns (arrived p.relay) ready.files

def run (w : World) : Report :=
  let blank : Proxy := ⟨.create w.wallClock (.always .deliver) (.always none), [], []⟩
  match w.settings with
  | .error e =>
      (blank.say .error mainSource s!"Invalid configuration, shutting down: {e.message}").report
        .failure w.filter [] [] w.files
  | .ok settings =>
      match identify settings w.files w.freshId blank with
      | (p, .error files) => p.report .failure settings.logLevel [] [] files
      | (p, .ok ready) => runPrepared w ready p

end Proxy
end MetricsProxy
