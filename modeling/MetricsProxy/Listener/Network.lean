/-!
# The network of a listener

A host is an address or a name for one. Ports that other programs hold cannot be
bound. Where there is no way from clients to listeners, every connection is
refused.
-/
namespace MetricsProxy

structure Network where
  /-- Ports that other programs hold. -/
  occupied : List Nat
  /-- Names of addresses. -/
  names : List (String × String)
  /-- Whether clients get through to listeners. -/
  connected : Bool
  deriving DecidableEq, Repr

namespace Network

def resolve (n : Network) (host : String) : String := (n.names.lookup host).getD host

def bind (n : Network) (host : String) (port : Nat) : Except String String :=
  if n.occupied.contains port then .error "Address already in use (os error 98)"
  else .ok (n.resolve host)

end Network
end MetricsProxy
