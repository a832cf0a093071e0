import MetricsProxy.Defaults
import MetricsProxy.Delivery.Retry
import MetricsProxy.Dict
import MetricsProxy.Json
import MetricsProxy.Listener.Settings
import MetricsProxy.Ports
import MetricsProxy.Text.Blank
import MetricsProxy.Text.LowerCase

/-!
# Settings of the proxy

Settings come as named values, later sources over earlier ones over the
defaults. They are first read, each by the type it must have, and then checked
as a whole. What passes the check is never refused by a listener.
-/
namespace MetricsProxy

inductive SettingsError where
  /-- A value has not the type of its setting; without a key the whole file is unreadable. -/
  | unreadable (key : String)
  | missing (key : String)
  | invalid (key value : String)
  /-- No host name is given, and the machine does not tell its own. -/
  | unresolved (detail : String)
  deriving DecidableEq, Repr

namespace SettingsError

/-- The setting that is at fault. -/
def key : SettingsError → String
  | unreadable key => key
  | missing key => key
  | invalid key _ => key
  | unresolved _ => "hostname"

def message : SettingsError → String
  | unreadable _ => "failed to load configuration"
  | missing key => "missing required setting `" ++ key ++ "`"
  | invalid key value => "invalid value for `" ++ key ++ "`: " ++ value
  | unresolved detail => "could not resolve the local hostname: " ++ detail

end SettingsError

/-- Settings as they are read, before the check. Times are in the units of their names. -/
structure RawSettings where
  token : Option String
  server : Option String
  hostname : Option String
  pushPorts : String
  openTsdbPorts : String
  flushThreads : Nat
  flushIntervalMillis : Nat
  flushMaxPoints : Nat
  bufferLimit : Nat
  idFile : String
  logLevel : String
  maxConnections : Nat
  retryAttempts : Nat
  requestTimeoutSeconds : Nat
  agentReportSeconds : Nat
  shutdownGraceMillis : Nat
  deriving DecidableEq, Repr

namespace RawSettings
open Text

def standard : RawSettings where
  token := none
  server := none
  hostname := none
  pushPorts := toString Defaults.pushListenerPort
  openTsdbPorts := toString Defaults.openTsdbPort
  flushThreads := Defaults.flushThreads
  flushIntervalMillis := Defaults.flushInterval
  flushMaxPoints := Defaults.flushMaxPoints
  bufferLimit := Defaults.memoryBufferLimit
  idFile := ".wavefront_id"
  logLevel := "info"
  maxConnections := Defaults.maxConnections
  retryAttempts := Defaults.retryAttempts
  requestTimeoutSeconds := Defaults.requestTimeout / 1000
  agentReportSeconds := Defaults.agentReportInterval / 1000
  shutdownGraceMillis := Defaults.shutdownGrace

mutual

/-- The way to the first whole number, signed or not, that has more than 64 bits. -/
def oversized? : Json → Option (List String)
  | .whole i => if -0x8000000000000000 ≤ i ∧ i < 0x10000000000000000 then none else some []
  | .array items => oversizedItem? 0 items
  | .object members => oversizedMember? members
  | _ => none

def oversizedItem? (i : Nat) : List Json → Option (List String)
  | [] => none
  | v :: vs =>
      match oversized? v with
      | some path => some (toString i :: path)
      | none => oversizedItem? (i + 1) vs

def oversizedMember? : List (String × Json) → Option (List String)
  | [] => none
  | (key, v) :: ms =>
      match oversized? v with
      | some path => some (key :: path)
      | none => oversizedMember? ms

end

/-- A text or a number as text; blank texts and all other values stand for no text. -/
def textOrNumber? : Json → Option String
  | .text s => if trim s.toList = [] then none else some (trimText s)
  | .whole i => some (Json.whole i).render
  | .float x => if x.isFinite then some (Json.float x).render else none
  | _ => none

/-- An item of a port list: a text stands for itself, everything else for its JSON text. -/
def portChars : Json → List Char
  | .text s => s.toList
  | v => v.toChars

/-- A port list: a text, one number or a list of both; nothing stands for no port. -/
def portsText? : Json → Option String
  | .text s => some s
  | .whole i => some (Json.whole i).render
  | .float x => some (if x.isFinite then (Json.float x).render else "")
  | .array items => some (String.ofList (([','] : List Char).intercalate (items.map portChars)))
  | .null => some ""
  | _ => none

/-- A whole number below `limit`. -/
def natural? (limit : Nat) : Json → Option Nat
  | .whole i => if 0 ≤ i ∧ i < limit then some i.toNat else none
  | _ => none

def text? : Json → Option String
  | .text s => some s
  | _ => none

def word : Nat := 0x10000000000000000
def halfWord : Nat := 0x100000000

def names : List String :=
  ["token", "server", "hostname", "push_listener_ports", "opentsdb_ports", "flush_threads",
   "push_flush_interval", "push_flush_max_points", "push_memory_buffer_limit", "id_file",
   "log_level", "max_connections", "retry_attempts", "request_timeout_secs",
   "agent_report_interval_secs", "shutdown_grace_period_ms"]

/-- Reads one setting; names that are no setting are passed over. -/
def assign? (r : RawSettings) (key : String) (v : Json) : Option RawSettings :=
  match key with
  | "token" => some { r with token := textOrNumber? v }
  | "server" => some { r with server := textOrNumber? v }
  | "hostname" => some { r with hostname := textOrNumber? v }
  | "push_listener_ports" => (portsText? v).map fun s => { r with pushPorts := s }
  | "opentsdb_ports" => (portsText? v).map fun s => { r with openTsdbPorts := s }
  | "flush_threads" => (natural? word v).map fun n => { r with flushThreads := n }
  | "push_flush_interval" => (natural? word v).map fun n => { r with flushIntervalMillis := n }
  | "push_flush_max_points" => (natural? word v).map fun n => { r with flushMaxPoints := n }
  | "push_memory_buffer_limit" => (natural? word v).map fun n => { r with bufferLimit := n }
  | "id_file" => (text? v).map fun s => { r with idFile := s }
  | "log_level" => (text? v).map fun s => { r with logLevel := s }
  | "max_connections" => (natural? word v).map fun n => { r with maxConnections := n }
  | "retry_attempts" => (natural? halfWord v).map fun n => { r with retryAttempts := n }
  | "request_timeout_secs" => (natural? word v).map fun n => { r with requestTimeoutSeconds := n }
  | "agent_report_interval_secs" =>
      (natural? word v).map fun n => { r with agentReportSeconds := n }
  | "shutdown_grace_period_ms" =>
      (natural? word v).map fun n => { r with shutdownGraceMillis := n }
  | _ => some r

/-- The settings that take values of several types, none of them with a number of more
than 64 bits. -/
def openNames : List String :=
  ["token", "server", "hostname", "push_listener_ports", "opentsdb_ports"]

/-- Reads one setting, or says where in it the value is that cannot be read. -/
def assign (r : RawSettings) (key : String) (v : Json) : Except SettingsError RawSettings :=
  match if openNames.contains key then oversized? v else none with
  | some path => .error (.unreadable (".".intercalate (key :: path)))
  | none =>
      match r.assign? key v with
      | some r => .ok r
      | none => .error (.unreadable key)

/-- Reads settings in key order; the first one that cannot be read is reported. -/
def ofDict (d : Dict Json) : Except SettingsError RawSettings :=
  d.toList.foldlM (fun r e => r.assign e.1 e.2) standard

/-- Reads settings from sources, each overriding those before it. -/
def ofSources (sources : List (List (String × Json))) : Except SettingsError RawSettings :=
  ofDict (.ofList sources.flatten)

end RawSettings

/-- Settings that have passed the check. Times are milliseconds. -/
structure Settings where
  token : String
  server : String
  hostname : String
  pushPorts : List Nat
  openTsdbPorts : List Nat
  flushThreads : Nat
  flushInterval : Nat
  flushMaxPoints : Nat
  bufferLimit : Nat
  idFile : String
  logLevel : String
  maxConnections : Nat
  retryAttempts : Nat
  requestTimeout : Nat
  agentReportInterval : Nat
  shutdownGrace : Nat
  deriving DecidableEq, Repr

namespace RawSettings
open Text

def require (key : String) : Option String → Except SettingsError String
  | some s => .ok s
  | none => .error (.missing key)

def isServer (s : String) : Bool :=
  "http://".toList.isPrefixOf s.toList || "https://".toList.isPrefixOf s.toList

/-- The host name that is given, or else that of the machine, which may not be known. -/
def resolve (machine : Except String String) : Option String → Except SettingsError String
  | some s => .ok s
  | none => machine.mapError .unresolved

def ports (key text : String) : Except SettingsError (List Nat) :=
  match Ports.parse? text with
  | some ps => .ok ps
  | none => .error (.invalid key text)

def positive (key : String) (n : Nat) : Except SettingsError Unit :=
  if n = 0 then .error (.invalid key "0") else .ok ()

/-- Checks settings as a whole; `machine` is what asking for the machine's name gives. -/
def check (r : RawSettings) (machine : Except String String) :
    Except SettingsError Settings := do
  let token ← require "token" r.token
  let server ← require "server" r.server
  if isServer server = false then throw (.invalid "server" server)
  let hostname ← resolve machine r.hostname
  let pushPorts ← ports "push_listener_ports" r.pushPorts
  let openTsdbPorts ← ports "opentsdb_ports" r.openTsdbPorts
  positive "flush_threads" r.flushThreads
  positive "push_flush_max_points" r.flushMaxPoints
  positive "max_connections" r.maxConnections
  positive "push_flush_interval" r.flushIntervalMillis
  return {
    token := token
    server := server
    hostname := hostname
    pushPorts := pushPorts
    openTsdbPorts := openTsdbPorts
    flushThreads := r.flushThreads
    flushInterval := r.flushIntervalMillis
    flushMaxPoints := r.flushMaxPoints
    bufferLimit := r.bufferLimit
    idFile := r.idFile
    logLevel := lowerText r.logLevel
    maxConnections := r.maxConnections
    retryAttempts := max r.retryAttempts 1
    requestTimeout := r.requestTimeoutSeconds * 1000
    agentReportInterval := max r.agentReportSeconds 1 * 1000
    shutdownGrace := r.shutdownGraceMillis }

end RawSettings

namespace Settings

def load (sources : List (List (String × Json))) (machine : Except String String) :
    Except SettingsError Settings :=
  (RawSettings.ofSources sources).bind fun r => r.check machine

def listener (s : Settings) (port : Nat) (format : Format) : ListenerSettings :=
  { ListenerSettings.standard port format with
    flushThreads := s.flushThreads
    flushInterval := s.flushInterval
    maxBufferSize := s.bufferLimit
    maxPointsPerFlush := s.flushMaxPoints
    maxConnections := s.maxConnections
    grace := s.shutdownGrace }

def retry (s : Settings) : RetryStrategy :=
  .exponential s.retryAttempts Defaults.retryBaseDelay Defaults.retryMaxDelay

end Settings
end MetricsProxy
