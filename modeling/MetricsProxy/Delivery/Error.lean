import MetricsProxy.Delivery.Status

/-!
# Why a delivery failed

A payload that cannot be built and a final answer of the destination end a
delivery at once. A transient failure, with the status of the answer if there
was one, may be tried again.
-/
namespace MetricsProxy

inductive ShippingError where
  | payload (detail : String)
  | transient (status : Option Delivery.Status) (detail : String)
  | permanent (status : Delivery.Status) (detail : String)
  deriving DecidableEq, Repr

namespace ShippingError

def isTransient : ShippingError → Bool
  | transient _ _ => true
  | _ => false

def status : ShippingError → Option Delivery.Status
  | payload _ => none
  | transient s _ => s
  | permanent s _ => some s

def optionalCode : Option Delivery.Status → String
  | none => "None"
  | some s => s!"Some({s.code})"

def message : ShippingError → String
  | payload detail => s!"failed to build payload: {detail}"
  | transient s detail => s!"transient failure ({optionalCode s}): {detail}"
  | permanent s detail => s!"permanent failure ({s.text}): {detail}"

end ShippingError

inductive DeliveryResult where
  | delivered (points : Nat)
  | dropped (points : Nat) (reason : ShippingError)
  deriving DecidableEq, Repr

namespace DeliveryResult

def points : DeliveryResult → Nat
  | delivered n => n
  | dropped n _ => n

end DeliveryResult
end MetricsProxy
