import MetricsProxy.Delivery.Client

/-!
# The course of a call

What a client does in a call, one thing after another: it writes a request and
issues it, and if the answer is worth another attempt, it waits and writes the
request anew.
-/
namespace MetricsProxy.Delivery

/-- One thing that a client does; a request that cannot be written goes nowhere. -/
inductive Deed where
  | request (written : Option (Url × Request))
  | pause (milliseconds : Nat)
  deriving DecidableEq

namespace Deed

def isRequest : Deed → Bool
  | request _ => true
  | pause _ => false

def pause? : Deed → Option Nat
  | request _ => none
  | pause milliseconds => some milliseconds

end Deed

/-- All deeds of a call in order, and how it ended. -/
structure Course where
  deeds : List Deed
  result : Except ShippingError Status

namespace Course

/-- The course that an attempt and a pause precede. -/
def after (course : Course) (written : Option (Url × Request)) (pause : Nat) : Course where
  deeds := .request written :: .pause pause :: course.deeds
  result := course.result

/-- The attempts from the `k`-th on, of which `left` may follow it. The `i`-th request is
`written i` and meets `answers i`. -/
def runFrom (strategy : RetryStrategy) (written : Nat → Option (Url × Request))
    (answers : Nat → Answer) (k : Nat) : Nat → Course
  | 0 =>
      match (Client.conditions (written k) answers k).verdict with
      | .error (.transient status _) =>
          ⟨[.request (written k)], .error (Trial.exhausted status k)⟩
      | verdict => ⟨[.request (written k)], verdict⟩
  | left + 1 =>
      match (Client.conditions (written k) answers k).verdict with
      | .error (.transient _ _) =>
          (runFrom strategy written answers (k + 1) left).after (written k) (strategy.delay k)
      | verdict => ⟨[.request (written k)], verdict⟩

/-- What is kept of a course in the accounts. -/
def trial (course : Course) : Trial where
  requests := course.deeds.countP Deed.isRequest
  pauses := course.deeds.filterMap Deed.pause?
  result := course.result

end Course

/-- The course of a push whose body can be built. Each attempt writes the same unit under
the same id. -/
def Client.pushCourse (c : Client) (id : String) (unit : WorkUnit) (answers : Nat → Answer) :
    Course :=
  Course.runFrom c.strategy (fun _ => c.endpoint.push? id unit) answers 1 (c.strategy.attempts - 1)

end MetricsProxy.Delivery
