import MetricsProxy.Point
import MetricsProxy.Telemetry.Registry
import MetricsProxy.Telemetry.Names

/-!
# Reports of the proxy about itself

An agent ships the self-metrics as points: one per registered metric with a
finite snapshot, in name order, tagged with the agent's id and with its host
name as source.
-/
namespace MetricsProxy

structure Agent where
  id : String
  hostname : String
  deriving DecidableEq, Repr

namespace Agent

def tags (a : Agent) : Tags := Dict.ofList [("source", a.hostname), ("agent", a.id)]

def point (a : Agent) (timestamp : Int) (name : String) (value : Binary64) : Point :=
  .make (MetricName.agentMark ++ name) value timestamp a.tags

def points (a : Agent) (registry : Registry) (timestamp : Int) : List Point :=
  (registry.snapshot.filter fun e => e.2.isFinite).map fun e => a.point timestamp e.1 e.2

end Agent
end MetricsProxy
