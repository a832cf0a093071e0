import MetricsProxy.Identity
import MetricsProxy.Point.Graphite
import MetricsProxy.Proxy.Log
import MetricsProxy.Relay.Control
import MetricsProxy.Settings
import MetricsProxy.Total
import MetricsProxy.Version

/-!
# The proxy

The proxy checks in, starts its reporter and then its listeners one after
another, ports for Graphite first. Start-up is all or nothing: when a listener
cannot start, or when there is none to start, everything that runs is stopped
again and the proxy exits with failure. A signal stops the listeners in order,
then the reporter, and the proxy exits with success. A start that breaks off
ends the proxy on the spot.
-/
namespace MetricsProxy

inductive Exit where
  | success
  | failure
  /-- Something broke off, and nothing was stopped. -/
  | crash
  deriving DecidableEq, Repr

namespace Exit

def code : Exit → Nat
  | success => 0
  | failure => 1
  | crash => 101

end Exit

inductive Signal where
  | terminate
  | interrupt
  deriving DecidableEq, Repr

namespace Signal

def text : Signal → String
  | terminate => "SIGTERM"
  | interrupt => "Ctrl+C"

end Signal

structure Proxy where
  relay : Relay
  /-- The listeners that have been started, in order. -/
  started : List Nat
  /-- Newest line first. -/
  log : List LogLine

namespace Proxy

def version : String := "0.1.0"

/-- The self-metrics that are there before anything runs: the proxy's own version. -/
def firstRegistry : Registry :=
  Registry.apply .empty MetricName.buildVersion
    (.setGauge (Binary64.ofInt (Version.encode version)))

def mainSource : String := "wavefront_proxy"
def listenerSource : String := "points::listener"

def say (p : Proxy) (level : LogLevel) (source text : String) : Proxy :=
  { p with log := ⟨level, source, text⟩ :: p.log }

/-- The listeners of the settings: ports for Graphite before ports for OpenTSDB. -/
def plan (settings : Settings) : List (Nat × Format) :=
  settings.pushPorts.map (fun port => (port, .graphite)) ++
    settings.openTsdbPorts.map fun port => (port, .openTsdb)

/-- Starts a listener as the next one; `answer` is what the network says to its port. -/
def startListener (p : Proxy) (settings : ListenerSettings) (answer : Except String String) :
    Proxy × Option (Except ListenerError Unit) :=
  let l := p.relay.listeners.length
  let kind := settings.format.name
  match (p.relay.addListener settings).start l answer with
  | (relay, none) => ({ p with relay := relay }, none)
  | (relay, some (.ok ())) =>
      let bound := relay.listeners[l]?.bind fun x => x.bound
      let place := bound.getD settings.address
      (({ p with relay := relay, started := p.started ++ [l] }).say .info listenerSource
        s!"Listening for {kind} points on {place} with {settings.flushThreads} flush workers",
        some (.ok ()))
  | (relay, some (.error e)) =>
      let p := { p with relay := relay }
      let p := match e with
        | .bind address reason =>
            p.say .error listenerSource s!"Failed to bind {kind} listener to {address}: {reason}"
        | _ => p
      (p.say .error mainSource
        s!"Unable to start {kind} listener on port {settings.port}: {e.message}",
        some (.error e))

/-- Starts listeners in order up to the first that fails, and says whether none did;
there is nothing to say if a start breaks off. The network answers the `n`-th listener
with `answers n`, and until then its tasks and clients do what `meanwhile n` says. -/
def startAll (answers : Nat → Except String String) (meanwhile : Nat → List Action)
    (settings : Settings) : List (Nat × Format) → Proxy → Proxy × Option Bool
  | [], p => (p, some true)
  | (port, format) :: rest, p =>
      let n := p.relay.listeners.length
      let p := { p with relay := p.relay.run (meanwhile n) }
      match p.startListener (settings.listener port format) (answers n) with
      | (p, some (.ok ())) => startAll answers meanwhile settings rest p
      | (p, some (.error _)) => (p, some false)
      | (p, none) => (p, none)

def stopListener (p : Proxy) (l : Nat) : Proxy :=
  match p.relay.listeners[l]? with
  | none => p
  | some x =>
      let discarded := p.relay.buffered x
      let before := p.relay.registry.counter MetricName.pointsDropped
      let p := { p with relay := (p.relay.stop l).1 }
      let abandoned := p.relay.registry.counter MetricName.pointsDropped - before - discarded
      let port := x.settings.port
      let overrun := s!"Listener on port {port} did not stop within {x.settings.grace} ms"
      let p := if 0 < abandoned then
          (p.say .warn listenerSource (overrun ++ ", aborting remaining tasks")).say
            .warn listenerSource s!"Abandoned {abandoned} in-flight points on shutdown"
        else p
      let p := if 0 < discarded then
          p.say .warn listenerSource s!"Discarded {discarded} buffered points on shutdown"
        else p
      p.say .info listenerSource s!"Stopped {x.settings.format.name} listener on port {port}"

def shutdown (p : Proxy) : Proxy :=
  let p := p.say .info mainSource s!"Stopping {p.started.length} listeners"
  let p := p.started.foldl stopListener p
  ({ p with relay := p.relay.cancelReports.1 }).say .info mainSource "Shutdown complete"

def announce (p : Proxy) (settings : Settings) (agentId : String) : Proxy :=
  let agent : Agent := ⟨agentId, settings.hostname⟩
  let (drop, _) := p.relay.checkIns.next
  let (relay, _) := p.relay.register
  let p := { p with relay := relay.runReporter agent settings.agentReportInterval }
  match drop with
  | none => p.say .info "points::agent" s!"Agent {agentId} checked in as {settings.hostname}"
  | some e =>
      p.say .warn "points::agent" s!"Agent {agentId} check-in failed, continuing: {e.message}"

/-- What follows when the listeners have been started, or one of them has not. -/
def conclude : Proxy × Option Bool → Proxy × Option Exit
  | (p, none) => (p, some .crash)
  | (p, some false) => (p.shutdown, some .failure)
  | (p, some true) =>
      if p.started = [] then
        ((p.say .error mainSource "No listener ports configured, shutting down").shutdown,
          some .failure)
      else ({ p with relay := p.relay.settleNow }, none)

/-- Starts everything on a relay that holds the proxy's version already. Without an
exit the proxy runs until a signal comes. -/
def launch (settings : Settings) (agentId : String) (answers : Nat → Except String String)
    (meanwhile : Nat → List Action) (p : Proxy) : Proxy × Option Exit :=
  conclude (startAll answers meanwhile settings (plan settings) (p.announce settings agentId))

/-- A client connects to a listener, sends everything and leaves. A full buffer is
reported once for the connection. -/
def serve (p : Proxy) (l : Nat) (bytes : List UInt8) : Proxy :=
  match p.relay.connect l with
  | (relay, .refused) => { p with relay := relay }
  | (relay, .rejected) =>
      let limit := relay.listeners[l]?.elim 0 fun x => x.settings.maxConnections
      ({ p with relay := relay.settleNow }).say .warn listenerSource
        s!"Rejecting connection from <peer>: {limit} connections already open"
  | (relay, .served c) =>
      let before := relay.registry.counter MetricName.pointsDropped
      let relay := ((relay.settleNow.transmit c bytes).1).finish c
      let p := { p with relay := relay }
      if before < relay.registry.counter MetricName.pointsDropped then
        p.say .warn listenerSource "Point buffer full, dropping points from <peer>"
      else p

def isDrained (r : Relay) : Bool := r.pools.all fun q => q.buffer.isEmpty && q.inFlight == 0

/-- Goes on until everything that was received is delivered or dropped. A flush takes
at least one point, so as many flushes as there are points suffice. -/
def drain (p : Proxy) : Proxy :=
  let waiting := total (p.relay.pools.map fun q => q.buffer.size + 1)
  let longest := (p.relay.pools.map fun q => q.interval).foldl max 1
  let sends := (p.relay.sends.entries.map fun plan => plan.duration).foldl max 0
  let limit := p.relay.now + waiting * (longest + sends + Ticker.tolerance)
  { p with relay := p.relay.advanceUntil limit isDrained }

def handedOver (p : Proxy) (hostname : String) : List String :=
  p.relay.journal.reverse.flatMap fun
    | .begun _ _ unit => unit.points.map fun q => q.line hostname
    | _ => []

def onSignal (p : Proxy) (signal : Signal) : Proxy × Exit :=
  ((p.say .info mainSource s!"Received {signal.text}, initiating shutdown").shutdown, .success)

/-- What stands before the first listener: the settings, the agent's id, and the
files after it was looked up. -/
structure Prepared where
  settings : Settings
  agentId : String
  files : Files

/-- Looks up the agent's id, or gives up. -/
def identify (settings : Settings) (files : Files) (fresh : String) (p : Proxy) :
    Proxy × Except Files Prepared :=
  let outcome := Identity.createOrGet files (.ofString settings.idFile) fresh
  match outcome.result with
  | .error e =>
      (p.say .error mainSource
        s!"Unable to read or create agent id file {settings.idFile}: {e.message}",
        .error outcome.files)
  | .ok id =>
      let p := if outcome.drawn then
          p.say .info "wavefront_proxy::identity"
            s!"Generated new agent id {id} in {settings.idFile}"
        else p
      (p.say .info mainSource
        s!"Starting wavefront-proxy {version} as agent {id} on {settings.hostname}",
        .ok ⟨settings, id, outcome.files⟩)

end Proxy
end MetricsProxy
