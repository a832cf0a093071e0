/-!
# Names of the self-metrics
-/
namespace MetricsProxy.MetricName

def pointsReceived : String := "points.received"
def pointsDropped : String := "points.dropped"
def pointsDecodeErrors : String := "points.decode_errors"
def pointsDelivered : String := "points.delivered"
def pointsDeliveryFailed : String := "points.delivery_failed"
def unitsDeliveryFailed : String := "units.delivery_failed"
def deliveryRetries : String := "delivery.retries"
def connectionsActive : String := "connections.active"
def connectionsRejected : String := "connections.rejected"
def bufferSize : String := "buffer.size"
def flushDuration : String := "flush.duration"
def flushPoints : String := "flush.points"
def buildVersion : String := "build.version"

/-- All of them, in the order in which a point passes them. -/
def all : List String :=
  [pointsReceived, pointsDropped, pointsDecodeErrors, pointsDelivered, pointsDeliveryFailed,
   unitsDeliveryFailed, deliveryRetries, connectionsActive, connectionsRejected, bufferSize,
   flushDuration, flushPoints, buildVersion]

/-- What is put before a self-metric's name when it is shipped as a point. -/
def agentMark : String := "~agent."

end MetricsProxy.MetricName
