import MetricsProxy.Delivery.Attempts
import MetricsProxy.Delivery.Request
import MetricsProxy.Delivery.Script
import MetricsProxy.Telemetry.Names
import MetricsProxy.Telemetry.Registry
import MetricsProxy.Total

/-!
# Delivery with its accounts

A unit is delivered as a whole or dropped as a whole, and its points are added
to one of two counters accordingly. Pushes and check-ins by themselves only
count their repeated attempts.
-/
namespace MetricsProxy.Delivery

structure Client where
  endpoint : Endpoint
  strategy : RetryStrategy
  deriving DecidableEq, Repr

namespace Client

/-- The counters of a client, registered when it is made. -/
def register (r : Registry) : Registry :=
  let r := r.apply MetricName.pointsDelivered (.look .counter)
  let r := r.apply MetricName.pointsDeliveryFailed (.look .counter)
  let r := r.apply MetricName.unitsDeliveryFailed (.look .counter)
  r.apply MetricName.deliveryRetries (.look .counter)

/-- What a request meets: the `i`-th one that is issued gets `answers i`, and
one that cannot be written meets nothing, as often as it is tried. -/
def conditions (request : Option (Url × Request)) (answers : Nat → Answer) (i : Nat) : Answer :=
  if request.isSome then answers i else .nothing "the request cannot be written"

/-- Issues a request with all its attempts. -/
def issue (c : Client) (r : Registry) (request : Option (Url × Request)) (answers : Nat → Answer) :
    Registry × Trial :=
  let trial := Trial.run c.strategy (conditions request answers)
  (r.count MetricName.deliveryRetries trial.pauses.length, trial)

/-- Pushes a unit; `defect` says why its body cannot be built, if it cannot. Then
nothing is issued. -/
def push (c : Client) (r : Registry) (id : String) (unit : WorkUnit) (defect : Option String)
    (answers : Nat → Answer) : Registry × Trial :=
  match defect with
  | some detail => (r, ⟨0, [], .error (.payload detail)⟩)
  | none => c.issue r (c.endpoint.push? id unit) answers

def checkIn (c : Client) (r : Registry) (currentMillis payload : String) (answers : Nat → Answer) :
    Registry × Trial :=
  c.issue r (c.endpoint.checkIn? currentMillis payload) answers

/-- Delivers a unit. An empty one is delivered without a request. -/
def send (c : Client) (r : Registry) (id : String) (unit : WorkUnit) (defect : Option String)
    (answers : Nat → Answer) : Registry × Option Trial × DeliveryResult :=
  if unit.isEmpty then (r, none, .delivered 0)
  else
    let (r, trial) := c.push r id unit defect answers
    match trial.result with
    | .ok _ => (r.count MetricName.pointsDelivered unit.size, some trial, .delivered unit.size)
    | .error reason =>
        let r := r.count MetricName.unitsDeliveryFailed 1
        (r.count MetricName.pointsDeliveryFailed unit.size, some trial, .dropped unit.size reason)

/-- How sends go that follow one another from the `i`-th request on, each with the
number of its requests. -/
def forecast (strategy : RetryStrategy) (answers : Nat → Answer) (i : Nat) :
    Nat → List (SendPlan × Nat)
  | 0 => []
  | n + 1 =>
      let trial := Trial.run strategy fun k => answers (i + k)
      let drop := match trial.result with
        | .ok _ => none
        | .error reason => some reason
      (⟨total trial.pauses, drop⟩, trial.requests) ::
        forecast strategy answers (i + trial.requests) n

end Client
end MetricsProxy.Delivery
