import MetricsProxy.Delivery.Client

/-!
# A client and a server

A server answers pushes and check-ins by two scripts. Only requests to its own
authority reach it; all others meet nothing. Each call of a client uses up as
much of a script as it issues requests.
-/
namespace MetricsProxy.Delivery

structure Server where
  /-- Host and port. -/
  authority : String
  pushes : Script Answer
  checkIns : Script Answer

namespace Server

def isReached (s : Server) (request : Option (Url × Request)) : Bool :=
  request.elim false fun r => r.1.authority == s.authority

/-- What the requests of one call meet, counted from one. -/
def meets (s : Server) (script : Script Answer) (request : Option (Url × Request)) (i : Nat) :
    Answer :=
  if s.isReached request then script.nth i else .nothing "nothing listens there"

/-- What the server sees of a request that is issued `n` times. -/
def sees (s : Server) (request : Option (Url × Request)) (n : Nat) : List Request :=
  if s.isReached request then request.elim [] fun r => List.replicate n r.2 else []

end Server

/-- A client with the server it meets and the registry of its accounts. -/
structure Exchange where
  client : Client
  server : Server
  registry : Registry

namespace Exchange

def create (client : Client) (server : Server) (registry : Registry) : Exchange where
  client := client
  server := server
  registry := Client.register registry

def push (x : Exchange) (id : String) (unit : WorkUnit) :
    Exchange × List Request × Except ShippingError Status :=
  let request := x.client.endpoint.push? id unit
  let (registry, trial) :=
    x.client.push x.registry id unit none (x.server.meets x.server.pushes request)
  let seen := x.server.sees request trial.requests
  ({ x with
      registry := registry
      server := { x.server with pushes := x.server.pushes.skip seen.length } }, seen, trial.result)

def send (x : Exchange) (id : String) (unit : WorkUnit) :
    Exchange × List Request × DeliveryResult :=
  let request := x.client.endpoint.push? id unit
  let (registry, trial, result) :=
    x.client.send x.registry id unit none (x.server.meets x.server.pushes request)
  let seen := x.server.sees request (trial.elim 0 fun t => t.requests)
  ({ x with
      registry := registry
      server := { x.server with pushes := x.server.pushes.skip seen.length } }, seen, result)

def checkIn (x : Exchange) (currentMillis payload : String) :
    Exchange × List Request × Except ShippingError Status :=
  let request := x.client.endpoint.checkIn? currentMillis payload
  let (registry, trial) :=
    x.client.checkIn x.registry currentMillis payload (x.server.meets x.server.checkIns request)
  let seen := x.server.sees request trial.requests
  ({ x with
      registry := registry
      server := { x.server with checkIns := x.server.checkIns.skip seen.length } }, seen,
    trial.result)

/-- How `n` sends of units go that follow one another, each with the number of its
requests that the server sees. -/
def forecast (x : Exchange) (n : Nat) : List (SendPlan × Nat) :=
  let request := x.client.endpoint.push? "" ⟨[]⟩
  let plans := Client.forecast x.client.strategy
    (Client.conditions request (x.server.meets x.server.pushes request)) 1 n
  plans.map fun (plan, requests) => (plan, if x.server.isReached request then requests else 0)

end Exchange
end MetricsProxy.Delivery
