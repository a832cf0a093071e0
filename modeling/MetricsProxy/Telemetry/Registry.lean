import MetricsProxy.Dict
import MetricsProxy.Json
import MetricsProxy.Telemetry.Metric

/-!
# The registry of self-metrics

A name gets its kind from the first component that asks for it and keeps it.
Who asks for another kind under that name works on a fresh metric of its own,
which the registry never shows.
-/
namespace MetricsProxy

abbrev Registry := Dict Metric

namespace Registry

/-- The metric a component works on when it asks for a kind under a name: the
registered one if its kind agrees, else one of its own. -/
def handle (r : Registry) (name : String) (kind : MetricKind) : Metric :=
  match r.find? name with
  | some m => if m.kind = kind then m else .fresh kind
  | none => .fresh kind

/-- Whether the name is free or has this kind already. -/
def admits (r : Registry) (name : String) (kind : MetricKind) : Bool :=
  match r.find? name with
  | some m => m.kind == kind
  | none => true

/-- Fetches a metric by name, registering it when new, and uses it. Gives the
registry and the metric as its user sees it afterwards. -/
def use (r : Registry) (name : String) (u : MetricUse) : Registry × Metric :=
  let m := u.apply (r.handle name u.kind)
  (if r.admits name u.kind then r.insert name m else r, m)

/-- Uses a metric for its effect alone. -/
def apply (r : Registry) (name : String) (u : MetricUse) : Registry := (r.use name u).1

def count (r : Registry) (name : String) (n : Nat) : Registry :=
  r.apply name (.count (UInt64.ofNat n))

def snapshot (r : Registry) : List (String × Binary64) := (r.map Metric.snapshot).toList

def snapshotJson (r : Registry) : Json :=
  .object (r.snapshot.map fun e => (e.1, .float e.2))

def counter (r : Registry) (name : String) : Nat :=
  match r.handle name .counter with
  | .counter total => total.toNat
  | _ => 0

def gauge (r : Registry) (name : String) : Binary64 :=
  match r.handle name .gauge with
  | .gauge value => value
  | _ => .zero

def histogram (r : Registry) (name : String) : Histogram :=
  match r.handle name .histogram with
  | .histogram samples => samples
  | _ => .empty

def timer (r : Registry) (name : String) : Histogram :=
  match r.handle name .timer with
  | .timer micros => micros
  | _ => .empty

theorem kind_handle (r : Registry) (name : String) (kind : MetricKind) :
    (r.handle name kind).kind = kind := by
  unfold handle
  split
  · split
    · assumption
    · exact Metric.kind_fresh kind
  · exact Metric.kind_fresh kind

end Registry
end MetricsProxy
