/-!
# Default settings

Times are milliseconds.
-/
namespace MetricsProxy.Defaults

def pushListenerPort : Nat := 2878
def openTsdbPort : Nat := 4242
def flushThreads : Nat := 2
def flushInterval : Nat := 1000
def flushMaxPoints : Nat := 40000
/-- Points that one listener keeps in memory. -/
def memoryBufferLimit : Nat := 640000
def maxConnections : Nat := 1024
/-- Bytes of a line; anything longer is garbage or no text at all. -/
def maxLineLength : Nat := 32 * 1024
def shutdownGrace : Nat := 5000
def requestTimeout : Nat := 10000
def retryAttempts : Nat := 3
def retryBaseDelay : Nat := 100
def retryMaxDelay : Nat := 5000
def agentReportInterval : Nat := 60000
/-- Name of the outgoing line format. -/
def pushFormat : String := "graphite_v2"

end MetricsProxy.Defaults
