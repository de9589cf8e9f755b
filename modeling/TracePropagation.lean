import TracePropagation.Binary64.Basic
import TracePropagation.Binary64.Shortest
import TracePropagation.Cloud.TraceHeader
import TracePropagation.Config.EnvValue
import TracePropagation.Config.Toml
import TracePropagation.Config.TomlDocument
import TracePropagation.Http.Gateway
import TracePropagation.Http.Headers
import TracePropagation.Http.Host
import TracePropagation.Invocation.Call
import TracePropagation.Invocation.Config
import TracePropagation.Invocation.Flush
import TracePropagation.Invocation.Future
import TracePropagation.Invocation.Lambda
import TracePropagation.Invocation.Output
import TracePropagation.Invocation.Resolver
import TracePropagation.Invocation.Span
import TracePropagation.Invocation.Tracer
import TracePropagation.Invocation.Trigger
import TracePropagation.Json.Decimal
import TracePropagation.Json.ReadError
import TracePropagation.Json.Reader
import TracePropagation.Json.Render
import TracePropagation.Json.Value
import TracePropagation.Messaging.Attributes
import TracePropagation.Messaging.Carrier
import TracePropagation.Messaging.Codec
import TracePropagation.Messaging.Envelope
import TracePropagation.Messaging.Events
import TracePropagation.Messaging.Injection
import TracePropagation.Messaging.Parameters
import TracePropagation.Proofs.Budget
import TracePropagation.Proofs.Consistency
import TracePropagation.Proofs.IndexedKeys
import TracePropagation.Proofs.Injection
import TracePropagation.Propagation.BaggageHeader
import TracePropagation.Propagation.Propagator
import TracePropagation.Propagation.TraceContext
import TracePropagation.Service.Configuration
import TracePropagation.Service.Context
import TracePropagation.Service.Dispatch
import TracePropagation.Service.Events
import TracePropagation.Service.Extraction
import TracePropagation.Service.Invocation
import TracePropagation.Service.Messaging
import TracePropagation.Service.Request
import TracePropagation.Service.Tracing
import TracePropagation.Telemetry.Attribute
import TracePropagation.Telemetry.Recorder
import TracePropagation.Telemetry.Span
import TracePropagation.Text.Ascii
import TracePropagation.Text.Blank
import TracePropagation.Text.Escaped
import TracePropagation.Text.Hex
import TracePropagation.Text.Percent
import TracePropagation.Text.Radix
import TracePropagation.Text.Split
import TracePropagation.Trace.Baggage
import TracePropagation.Trace.Context
import TracePropagation.Trace.Ids
import TracePropagation.Trace.SpanContext
import TracePropagation.Trace.State
import TracePropagation.Proofs.EnvelopeText
import TracePropagation.Proofs.TraceHeaders
import TracePropagation.Proofs.RoundTrip
import TracePropagation.Proofs.Idempotence
import TracePropagation.Proofs.ParentResolution
import TracePropagation.Proofs.Lifecycle
import TracePropagation.Proofs.JsonLayout
import TracePropagation.Proofs.NotificationBody
import TracePropagation.Proofs.CarrierWrites
import TracePropagation.Proofs.NameCase
import TracePropagation.Proofs.TracedPolling
import TracePropagation.Proofs.HexPairs
import TracePropagation.Proofs.CloudHeader
import TracePropagation.Proofs.EnvelopeDecode
import TracePropagation.Proofs.HostHeader
import TracePropagation.Proofs.HexSpelling
import TracePropagation.Proofs.KnownValues
import TracePropagation.Proofs.LogStatements
