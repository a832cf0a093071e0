import MetricsProxy.Decode
import MetricsProxy.Defaults

/-!
# Listener settings and lifecycle

A listener is created, started and stopped once. Its settings are checked when
it is started, before anything else happens.
-/
namespace MetricsProxy

inductive Lifecycle where
  | created
  | starting
  | running
  | stopping
  | stopped
  deriving DecidableEq, Repr

namespace Lifecycle

def name : Lifecycle → String
  | created => "created"
  | starting => "starting"
  | running => "running"
  | stopping => "stopping"
  | stopped => "stopped"

/-- The place of a state on the way from creation to the end. -/
def rank : Lifecycle → Nat
  | created => 0
  | starting => 1
  | running => 2
  | stopping => 3
  | stopped => 4

end Lifecycle

inductive ListenerError where
  | bind (address reason : String)
  | invalidState (actual expected : Lifecycle)
  | invalidConfig (detail : String)
  deriving DecidableEq, Repr

namespace ListenerError

def message : ListenerError → String
  | bind address reason => s!"failed to bind {address}: {reason}"
  | invalidState actual expected => s!"listener is {actual.name}, expected {expected.name}"
  | invalidConfig detail => s!"invalid listener configuration: {detail}"

end ListenerError

/-- The most permits that a semaphore can be made with. -/
def Semaphore.maxPermits : Nat := 0x1fffffffffffffff

/-- What a listener is started with. Times are milliseconds. -/
structure ListenerSettings where
  host : String
  port : Nat
  format : Format
  /-- Workers that drain the buffer. -/
  flushThreads : Nat
  flushInterval : Nat
  /-- Capacity of the buffer. -/
  maxBufferSize : Nat
  maxPointsPerFlush : Nat
  /-- Connections served at a time; further ones are closed at once. -/
  maxConnections : Nat
  maxLineLength : Nat
  /-- How long a stop waits for workers and connections before it aborts them. -/
  grace : Nat
  deriving DecidableEq, Repr

namespace ListenerSettings

def standard (port : Nat) (format : Format) : ListenerSettings where
  host := "0.0.0.0"
  port := port
  format := format
  flushThreads := Defaults.flushThreads
  flushInterval := Defaults.flushInterval
  maxBufferSize := Defaults.memoryBufferLimit
  maxPointsPerFlush := Defaults.flushMaxPoints
  maxConnections := Defaults.maxConnections
  maxLineLength := Defaults.maxLineLength
  grace := Defaults.shutdownGrace

/-- The first setting that is zero and must not be. -/
def validate (s : ListenerSettings) : Except ListenerError Unit :=
  if s.flushThreads = 0 then .error (.invalidConfig "flush_threads must be at least 1")
  else if s.maxPointsPerFlush = 0 then
    .error (.invalidConfig "max_points_per_flush must be at least 1")
  else if s.flushInterval = 0 then
    .error (.invalidConfig "flush_interval must be greater than zero")
  else if s.maxConnections = 0 then
    .error (.invalidConfig "max_connections must be at least 1")
  else .ok ()

theorem validate_eq_ok_iff (s : ListenerSettings) :
    s.validate = .ok () ↔ 0 < s.flushThreads ∧ 0 < s.maxPointsPerFlush ∧ 0 < s.flushInterval ∧
      0 < s.maxConnections := by
  unfold validate
  repeat' split
  all_goals simp only [reduceCtorEq, false_iff, true_iff, not_and]
  all_goals omega

def address (s : ListenerSettings) : String := s!"{s.host}:{s.port}"

end ListenerSettings
end MetricsProxy
