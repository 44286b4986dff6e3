import Minikura.Backend.Requests
import Minikura.Backend.SyncAll
import Minikura.Backend.StaleDeletion
import Minikura.Backend.UpdateRequests
import Minikura.Backend.FailedUpdates
import Minikura.Backend.SecretCollection
import Minikura.Backend.UserService
import Minikura.Operator.Workloads
import Minikura.Operator.ProxyObjects
import Minikura.Operator.FailureStatus
import Minikura.Operator.Backends
import Minikura.Operator.ResourceNames
import Minikura.Operator.EnvMerging
import Minikura.Operator.ServerSideApply
import Minikura.Registry.Versions
import Minikura.Backend.Bootstrap
import Minikura.Velocity.Proxy
import Minikura.Velocity.Refresh
import Minikura.Velocity.Admission
import Minikura.Velocity.Transfer
import Minikura.Velocity.Handover
import Minikura.Velocity.FetchServers
import Minikura.Velocity.Arrival
import Minikura.Backend.Routes
import Minikura.Backend.Confidentiality
import Minikura.Patcher.Main
import Minikura.Web.Reopening
import Minikura.Data.NumberText
import Minikura.Registry.Storage
import Minikura.Web.ServerForm
import Minikura.Web.Environment
import Minikura.Web.Edits
import Minikura.Velocity.EndProxy
import Minikura.Operator.Idempotence
import Minikura.Operator.Addresses
import Minikura.Backend.ConcurrentDeletion
import Minikura.Operator.ContainerResources
import Minikura.Operator.DistinctNames
import Minikura.Data.Utf8Decoder
import Minikura.Data.Utf8Framing
import Minikura.Backend.TerminalOutput
import Minikura.Backend.TerminalSession
import Minikura.Backend.Notifications
import Minikura.Web.TopologyPage
import Minikura.Web.PluginSelection
import Minikura.Web.Metrics
import Minikura.Web.Topology
import Minikura.Data.Separators
import Minikura.Web.TopologyLinks
import Minikura.Web.WellFormedTopology
import Minikura.Data.Slots
import Minikura.Web.Layout
import Minikura.Web.Placement
import Minikura.Web.LostNodes
import Minikura.Operator.HeapSize
import Minikura.Data.DoubleRounding
import Minikura.Web.DisplayedUsage
import Minikura.Data.Updates
import Minikura.Patcher.Restart
import Minikura.Concurrency.Team
import Minikura.Operator.Isolation
import Minikura.Backend.EventBus
import Minikura.Backend.TerminalInput
import Minikura.Backend.ChangeNotices
import Minikura.Web.SystemHealth
import Minikura.Backend.AccessControl
import Minikura.Concurrency.Latest
import Minikura.Operator.ProxyOfRow
import Minikura.Web.UsersPage
import Minikura.Concurrency.Rows
import Minikura.Registry.Catalog
import Minikura.Registry.Downloads
import Minikura.Registry.Listing
import Minikura.Velocity.Routing
import Minikura.Web.PluginRegistry
