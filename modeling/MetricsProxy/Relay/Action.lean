import MetricsProxy.Relay.Report
import MetricsProxy.Relay.Serve

/-!
# Actions

Everything that can happen to a relay between two moments of rest, by its own
tasks, by its owner and by its clients. An action that cannot happen now
changes nothing, so every list of actions is a run, however it interleaves the
tasks.
-/
namespace MetricsProxy

inductive Action where
  /-- Time passes. -/
  | wait (duration : Nat)
  | addPool (capacity maxPoints interval : Nat)
  | offer (pool : Nat) (points : List Point)
  | beginCall (pool : Nat)
  | endCall (pool call : Nat)
  | releaseSize (pool : Nat)
  | spawn (pool count : Nat)
  | cancelPool (pool : Nat)
  | abort (pool worker : Nat)
  | tick (pool worker : Nat)
  | deliver (pool worker : Nat)
  | quit (pool worker : Nat)
  | addReporter (agent : Agent) (interval : Nat)
  | cancelReporters
  | reporterTick (reporter : Nat)
  | reporterDeliver (reporter : Nat)
  | reporterQuit (reporter : Nat)
  | addListener (settings : ListenerSettings)
  /-- A listener is started; `answer` is the address it is bound to or why it is not. -/
  | start (listener : Nat) (answer : Except String String)
  | beginStop (listener : Nat)
  | awaitTask (listener : Nat)
  | expire (listener : Nat)
  | endAccepting (listener : Nat)
  | dropListener (listener : Nat)
  | connect (listener : Nat)
  | arrive (connection : Nat) (bytes : List UInt8)
  | endInput (connection : Nat)
  | breakOff (connection : Nat)
  | readOn (connection : Nat)

namespace Relay

def step (s : Relay) : Action → Relay
  | .wait d => { s with now := s.now + d }
  | .addPool capacity maxPoints interval => s.addPool (.create capacity maxPoints interval)
  | .offer i points => (s.offer i points).1
  | .beginCall i => s.beginCall i
  | .endCall i k => s.endCall i k
  | .releaseSize i => s.releaseSize i
  | .spawn i n => s.spawnWorkers i n
  | .cancelPool i => s.cancelPool i
  | .abort i j => s.abort i j
  | .tick i j => s.tick i j
  | .deliver i j => s.deliver i j
  | .quit i j => s.quit i j
  | .addReporter agent interval => s.addReporter agent interval
  | .cancelReporters => s.cancelReporters
  | .reporterTick k => s.reporterTick k
  | .reporterDeliver k => s.reporterDeliver k
  | .reporterQuit k => s.reporterQuit k
  | .addListener settings => s.addListener settings
  | .start l answer => (s.start l answer).1
  | .beginStop l => s.beginStop l
  | .awaitTask l => s.awaitTask l
  | .expire l => s.expire l
  | .endAccepting l => s.endAccepting l
  | .dropListener l => s.dropListener l
  | .connect l => (s.connect l).1
  | .arrive c bytes => s.arrive c bytes
  | .endInput c => s.endInput c
  | .breakOff c => s.breakOff c
  | .readOn c => s.readOn c

def run (s : Relay) (actions : List Action) : Relay := actions.foldl step s

theorem run_append (s : Relay) (as bs : List Action) : s.run (as ++ bs) = (s.run as).run bs :=
  List.foldl_append

end Relay
end MetricsProxy
