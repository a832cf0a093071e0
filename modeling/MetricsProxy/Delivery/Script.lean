import MetricsProxy.Delivery.Error
import MetricsProxy.Point

/-!
# Scripted destinations

A script says how a destination answers: the first call gets the first entry,
the next call the next one, and the last entry answers for ever.
-/
namespace MetricsProxy

structure Script (α : Type) where
  entries : List α
  /-- Answers every call of an empty script. -/
  otherwise : α
  deriving DecidableEq

namespace Script

/-- The answer to the next call and the script of the calls after it. -/
def next {α : Type} (s : Script α) : α × Script α :=
  match s.entries with
  | [] => (s.otherwise, s)
  | [a] => (a, s)
  | a :: rest => (a, { s with entries := rest })

/-- The answer to the `i`-th call, counted from one. -/
def nth {α : Type} (s : Script α) (i : Nat) : α :=
  match s.entries[i - 1]? with
  | some a => a
  | none => s.entries.getLast?.getD s.otherwise

/-- The script after `k` calls; its last entry stays. -/
def skip {α : Type} (s : Script α) (k : Nat) : Script α :=
  { s with entries := s.entries.drop (min k (s.entries.length - 1)) }

/-- A script that answers every call alike. -/
def always {α : Type} (a : α) : Script α := ⟨[], a⟩

end Script

/-- How a send goes: how long it takes and, if it is dropped, why. -/
structure SendPlan where
  duration : Nat
  drop : Option ShippingError
  deriving DecidableEq, Repr

namespace SendPlan

def deliver : SendPlan := ⟨0, none⟩

def result (plan : SendPlan) (unit : WorkUnit) : DeliveryResult :=
  match plan.drop with
  | none => .delivered unit.size
  | some reason => .dropped unit.size reason

end SendPlan
end MetricsProxy
