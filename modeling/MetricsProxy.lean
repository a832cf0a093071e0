import MetricsProxy.Point.Graphite
import MetricsProxy.Ports
import MetricsProxy.Version
import MetricsProxy.Delivery.Describe
import MetricsProxy.Relay.Control
import MetricsProxy.Settings
import MetricsProxy.Main
import MetricsProxy.Proxy.Session
import MetricsProxy.Settings.File
import MetricsProxy.Yaml.Cursor
import MetricsProxy.Yaml.Scalar.Block
import MetricsProxy.Yaml.Scalar.Quoted
import MetricsProxy.Yaml.Tag
import MetricsProxy.Yaml.Token
import MetricsProxy.Yaml.Node
import MetricsProxy.Yaml.Scalar.Meaning
import MetricsProxy.Yaml.Value
import MetricsProxy.Proofs.Framing
import MetricsProxy.Proofs.Relay.Conservation
import MetricsProxy.Proofs.Relay.Order
import MetricsProxy.Proofs.Relay.Orderly
import MetricsProxy.Proofs.Relay.Apart
import MetricsProxy.Proofs.Relay.Aftermath
import MetricsProxy.Proofs.Relay.Lines
import MetricsProxy.Proofs.Binary64.Rounding
import MetricsProxy.Proofs.Binary64.Shortest
import MetricsProxy.Proofs.Binary64.Written
import MetricsProxy.Proofs.Graphite.RoundTrip
import MetricsProxy.Proofs.Buffer
import MetricsProxy.Proofs.Decode.Grammar
import MetricsProxy.Proofs.Delivery.Accounts
import MetricsProxy.Proofs.Binary64.Whole
import MetricsProxy.Proofs.Relay.Slots
import MetricsProxy.Proofs.Relay.Bounds
import MetricsProxy.Proofs.Relay.Gauge
import MetricsProxy.Proofs.Relay.Statistics
import MetricsProxy.Proofs.Relay.Starts
import MetricsProxy.Proofs.Decode.Agreement
import MetricsProxy.Proofs.Decode.WellFormed
import MetricsProxy.Proofs.Decode.Tags
import MetricsProxy.Proofs.Decode.Timestamps
import MetricsProxy.Proofs.Graphite.Lines
import MetricsProxy.Proofs.Delivery.Attempts
import MetricsProxy.Proofs.Telemetry.Accumulation
import MetricsProxy.Proofs.Relay.Cancellation
import MetricsProxy.Proofs.Relay.Pace
import MetricsProxy.Proofs.Relay.Throughput
import MetricsProxy.Proofs.Relay.Report
import MetricsProxy.Proofs.Delivery.Backoff
import MetricsProxy.Proofs.Ports
import MetricsProxy.Proofs.Settings
import MetricsProxy.Proofs.Relay.Unattended
import MetricsProxy.Proofs.Relay.Shutdown
import MetricsProxy.Proofs.Startup
import MetricsProxy.Proofs.Version
import MetricsProxy.Proofs.Identity
import MetricsProxy.Proofs.Labels
