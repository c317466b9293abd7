import PgProxy.Lib.BigEndian
import PgProxy.Lib.ChunkReader
import PgProxy.Lib.Runs
import PgProxy.Lib.Ranking
import PgProxy.Lib.Ownership
import PgProxy.Lib.Informer
import PgProxy.Lib.Deadlines
import PgProxy.Lib.Debounce
import PgProxy.Lib.Delimited
import PgProxy.Lib.Slices
import PgProxy.Lib.Tally
import PgProxy.Go
import PgProxy.HostPort
import PgProxy.Api
import PgProxy.Registry.Table
import PgProxy.Registry.Agreement
import PgProxy.Registry.Award
import PgProxy.Registry.Specification
import PgProxy.Registry.ClientResolver
import PgProxy.Controller.Status
import PgProxy.Controller.StatusTruth
import PgProxy.Controller.FailureReasons
import PgProxy.Controller.Discovery
import PgProxy.Controller.DiscoveryFrame
import PgProxy.Controller.DriftCorrection
import PgProxy.Controller.DiscoveredPort
import PgProxy.Controller.DiscoveryLoop
import PgProxy.Controller.DiscoveryConvergence
import PgProxy.Controller.DiscoveryRaces
import PgProxy.Controller.DiscoveryContent
import PgProxy.Controller.DiscoveryOwnership
import PgProxy.Controller.RouteTable
import PgProxy.Controller.Publications
import PgProxy.Controller.Wakeup
import PgProxy.Controller.TransientFailures
import PgProxy.Controller.TableConvergence
import PgProxy.Controller.Provenance
import PgProxy.Controller.StatusReport
import PgProxy.Controller.StatusHistory
import PgProxy.Controller.ChangeDetection
import PgProxy.Controller.Replica
import PgProxy.Controller.ObservedGeneration
import PgProxy.Controller.StatusConvergence
import PgProxy.Pgwire.Protocol
import PgProxy.Pgwire.Message
import PgProxy.Pgwire.Framing
import PgProxy.Pgwire.MessageCodec
import PgProxy.Pgwire.Startup
import PgProxy.Pgwire.Grammar
import PgProxy.Pgwire.StartupCodec
import PgProxy.Proxy.Cancel
import PgProxy.Proxy.Relay
import PgProxy.Proxy.ClientStream
import PgProxy.Proxy.ByteAccounting
import PgProxy.Proxy.Backend
import PgProxy.Proxy.Session
import PgProxy.Proxy.Negotiation
import PgProxy.Proxy.Handling
import PgProxy.Proxy.BackendStream
import PgProxy.Proxy.MalformedHandshake
import PgProxy.Proxy.StartupLimit
import PgProxy.Proxy.ErrorResponses
import PgProxy.Proxy.DatabaseChoice
import PgProxy.Proxy.Server
import PgProxy.Proxy.KeyLifetime
import PgProxy.Proxy.CancelSafety
import PgProxy.Proxy.CancelPath
import PgProxy.Proxy.MetricLabels
import PgProxy.Proxy.BackendTLS
import PgProxy.Proxy.Admission
import PgProxy.Proxy.AcceptLoop
import PgProxy.Proxy.KeySecrecy
import PgProxy.Proxy.Progress
import PgProxy.Proxy.Shutdown
import PgProxy.Proxy.Sessions
import PgProxy.Proxy.Deadlines
import PgProxy.Proxy.TrackedKeys
import PgProxy.Proxy.Gauges
import PgProxy.Proxy.Counters
import PgProxy.Proxy.Confinement
import PgProxy.Settings
import PgProxy.System.Node
import PgProxy.System.Routing
import PgProxy.System.Discovery
import PgProxy.System.Deployment
import PgProxy.System.Scope
