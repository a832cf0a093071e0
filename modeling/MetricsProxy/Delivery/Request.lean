import MetricsProxy.Defaults
import MetricsProxy.Delivery.Url
import MetricsProxy.Json
import MetricsProxy.Point.Graphite

/-!
# Requests to the destination

Units are pushed as lines of text, check-ins as JSON. Every request carries the
token, the host name and the version of the proxy. A request whose address or
headers cannot be written is never issued.
-/
namespace MetricsProxy.Delivery

structure Request where
  method : String
  target : String
  authorization : String
  userAgent : String
  contentType : String
  contentEncoding : Option String
  /-- The body before compression. -/
  body : String
  deriving DecidableEq, Repr

/-- Whom requests go to and in whose name. -/
structure Endpoint where
  /-- Without slashes at its end. -/
  server : String
  token : String
  agentId : String
  hostname : String
  version : String
  /-- The level at which bodies of pushes are compressed, if they are. -/
  compression : Option Int
  deriving DecidableEq, Repr

namespace Endpoint

def trimSlashes (server : String) : String :=
  String.ofList (server.toList.reverse.dropWhile (· == '/')).reverse

def create (server token agentId hostname version : String) (compression : Option Int) :
    Endpoint where
  server := trimSlashes server
  token := token
  agentId := agentId
  hostname := hostname
  version := version
  compression := compression

def userAgent (e : Endpoint) : String := s!"wavefront-proxy/{e.version}"

def authorization (e : Endpoint) : String := s!"Bearer {e.token}"

/-- Whether a text can stand in a header: no control characters but the tab. -/
def isHeaderText (s : String) : Bool :=
  s.toList.all fun c => c == '\t' || (decide (0x20 ≤ c.toNat) && c != '\x7f')

/-- A header as it is received: without blanks around it. -/
def headerValue (s : String) : String :=
  let isMargin := fun c : Char => c == ' ' || c == '\t'
  String.ofList ((s.toList.dropWhile isMargin).reverse.dropWhile isMargin).reverse

def post? (e : Endpoint) (path : String) (form : List (String × String)) (contentType : String)
    (contentEncoding : Option String) (body : String) : Option (Url × Request) :=
  match Url.parse? (e.server ++ path) with
  | none => none
  | some url =>
      if isHeaderText e.authorization && isHeaderText e.userAgent then
        let url := url.withForm form
        some (url, {
          method := "POST"
          target := url.target
          authorization := headerValue e.authorization
          userAgent := headerValue e.userAgent
          contentType := contentType
          contentEncoding := contentEncoding
          body := body })
      else none

def push? (e : Endpoint) (id : String) (unit : WorkUnit) : Option (Url × Request) :=
  e.post? s!"/daemon/{e.agentId}/pushdata/{id}"
    [("format", Defaults.pushFormat), ("hostname", e.hostname), ("version", e.version)]
    "text/plain" (e.compression.map fun _ => "zstd") (unit.body e.hostname)

def checkIn? (e : Endpoint) (currentMillis : String) (payload : String) : Option (Url × Request) :=
  e.post? s!"/daemon/{e.agentId}/checkin"
    [("hostname", e.hostname), ("version", e.version), ("currentMillis", currentMillis)]
    "application/json" none payload

end Endpoint
end MetricsProxy.Delivery
