import MetricsProxy.Delivery.Error
import MetricsProxy.Delivery.Retry
import MetricsProxy.Text.Lossy

/-!
# Attempts at a request

A request is issued until the destination's verdict is final or the strategy's
attempts are used up. Between two attempts there is one pause, as long as the
strategy says.
-/
namespace MetricsProxy.Delivery

/-- What comes back for one request. -/
inductive Answer where
  | response (status : Status) (body : List UInt8)
  /-- A response whose body breaks off. -/
  | cutOff (status : Status)
  /-- No response at all. -/
  | nothing (detail : String)
  deriving DecidableEq, Repr

/-- Success, or the failure that a status means. -/
def Status.verdict (status : Status) (body : String) : Except ShippingError Status :=
  if status.isSuccess then .ok status
  else if status.isTransient then .error (.transient (some status) body)
  else .error (.permanent status body)

/-- How one request went. A body that breaks off counts as empty. -/
def Answer.verdict : Answer → Except ShippingError Status
  | .nothing detail => .error (.transient none detail)
  | .response status body => status.verdict (Text.lossy body)
  | .cutOff status => status.verdict ""

structure Trial where
  /-- How often the request was issued. -/
  requests : Nat
  /-- The pauses between the attempts, in milliseconds. -/
  pauses : List Nat
  result : Except ShippingError Status

namespace Trial

def exhausted (status : Option Status) (attempts : Nat) : ShippingError :=
  .transient status s!"Failed to send request after {attempts} attempts"

/-- The trial that one attempt and a pause precede. -/
def after (t : Trial) (pause : Nat) : Trial where
  requests := t.requests + 1
  pauses := pause :: t.pauses
  result := t.result

/-- The attempts from the `k`-th on, of which `left` may follow it. The `i`-th
request of all gets `answers i`. -/
def runFrom (strategy : RetryStrategy) (answers : Nat → Answer) (k : Nat) : Nat → Trial
  | 0 =>
      match (answers k).verdict with
      | .error (.transient status _) => ⟨1, [], .error (exhausted status k)⟩
      | verdict => ⟨1, [], verdict⟩
  | left + 1 =>
      match (answers k).verdict with
      | .error (.transient _ _) => (runFrom strategy answers (k + 1) left).after (strategy.delay k)
      | verdict => ⟨1, [], verdict⟩

def run (strategy : RetryStrategy) (answers : Nat → Answer) : Trial :=
  runFrom strategy answers 1 (strategy.attempts - 1)

/-- A pause lies between every two attempts and nowhere else. -/
theorem length_pauses_runFrom (strategy : RetryStrategy) (answers : Nat → Answer) (k left : Nat) :
    (runFrom strategy answers k left).pauses.length + 1 =
      (runFrom strategy answers k left).requests := by
  induction left generalizing k with
  | zero => unfold runFrom; split <;> rfl
  | succ left ih =>
      unfold runFrom
      split
      · simp [after, ih]
      · rfl

end Trial
end MetricsProxy.Delivery
