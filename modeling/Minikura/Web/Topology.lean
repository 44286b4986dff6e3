import Mathlib.Data.List.Infix
import Minikura.Backend.Connections
import Minikura.Data.Multimap
import Minikura.Web.Metrics

/-!
# The topology graph

Servers, proxies and Kubernetes nodes with what connects them. Maps are lists of entries, with
the keys in the order of insertion; of servers, proxies and pods there is what is read here.

## Main definitions

* `buildTopologyGraph` — the nodes, the edges and the counters.
* `filterNodes`, `filterEdges` — what the page shows of them.
-/

namespace Minikura.Web.Topology

/-! ## What the API returns -/

structure NormalServer where
  id : String
deriving Repr, DecidableEq

structure ReverseProxyServer where
  id : String
deriving Repr, DecidableEq

structure PodInfo where
  name : String
  status : String
  ready : String
  nodeName : Option String := none
deriving Repr, DecidableEq

structure K8sNodeSummary where
  name : Option String := none
  status : String
deriving Repr, DecidableEq

structure ConnectionInfo where
  type : String
  connectionString : Option String := none
  note : Option String := none
  ip : Option String := none
  port : Option ℤ := none
  nodeIP : Option String := none
  nodePort : Option ℤ := none
  externalIP : Option String := none
deriving Repr, DecidableEq

structure Usage where
  cpu : Option String
  memory : Option String

structure PodMetrics where
  name : Option String
  /-- The usage of each container. -/
  containers : List (Option Usage)

structure NodeMetrics where
  name : Option String
  usage : Option Usage

structure BuildEnhancedGraphInput where
  servers : List NormalServer
  proxies : List ReverseProxyServer
  serverPods : List (String × List PodInfo)
  proxyPods : List (String × List PodInfo)
  k8sNodes : List K8sNodeSummary
  serverConnections : Option (List (String × Option ConnectionInfo)) := none
  proxyConnections : Option (List (String × Option ConnectionInfo)) := none
  proxyBackends : Option (List (String × List String)) := none
  podMetrics : Option (List PodMetrics) := none
  nodeMetrics : Option (List NodeMetrics) := none

/-! ## The graph -/

inductive HealthStatus where
  | healthy
  | degraded
  | unhealthy
  | unknown
deriving Repr, DecidableEq

inductive NodeType where
  | server
  | proxy
  | k8sNode
deriving Repr, DecidableEq

inductive EdgeType where
  | proxyToServer
  | podToNode
deriving Repr, DecidableEq

structure ServerMetadata where
  server : NormalServer
  podCount : ℕ
  readyPods : ℕ
  pods : List PodInfo
  health : HealthStatus
  connectedProxies : List String
  k8sNodes : List String
  connectionInfo : Option ConnectionInfo
  metrics : Option ResourceMetrics
deriving DecidableEq

structure ProxyMetadata where
  proxy : ReverseProxyServer
  podCount : ℕ
  readyPods : ℕ
  pods : List PodInfo
  health : HealthStatus
  connectedServers : List String
  k8sNodes : List String
  connectionInfo : Option ConnectionInfo
  metrics : Option ResourceMetrics
deriving DecidableEq

structure K8sNodeMetadata where
  node : K8sNodeSummary
  podCount : ℕ
  serverPods : List String
  proxyPods : List String
  health : HealthStatus
  metrics : Option ResourceMetrics
deriving DecidableEq

inductive NodeMetadata where
  | server (metadata : ServerMetadata)
  | proxy (metadata : ProxyMetadata)
  | k8sNode (metadata : K8sNodeMetadata)
deriving DecidableEq

structure TopologyNodeData where
  id : String
  type : NodeType
  label : String
  status : HealthStatus
  metadata : NodeMetadata
deriving DecidableEq

structure Position where
  x : ℚ
  y : ℚ
deriving DecidableEq

/-- The sides on which edges end and begin. -/
inductive Side where
  | top
  | bottom
deriving Repr, DecidableEq

structure TopologyNode where
  id : String
  type : String
  position : Position
  data : TopologyNodeData
  targetPosition : Option Side := none
  sourcePosition : Option Side := none
deriving DecidableEq

structure TopologyEdgeData where
  id : String
  source : String
  target : String
  type : EdgeType
  label : String
  animated : Bool
deriving Repr, DecidableEq

structure TopologyEdge where
  id : String
  source : String
  target : String
  type : String
  animated : Bool
  data : TopologyEdgeData
deriving Repr, DecidableEq

structure GraphMetadata where
  totalServers : ℕ
  totalProxies : ℕ
  totalK8sNodes : ℕ
  totalConnections : ℕ
  healthySystems : ℕ
  degradedSystems : ℕ
  unhealthySystems : ℕ
deriving Repr, DecidableEq

structure TopologyGraph where
  nodes : List TopologyNode
  edges : List TopologyEdge
  metadata : GraphMetadata

/-! ## Pods -/

/-- `text.toLowerCase() === word`, for a word in ASCII -/
def isWord (text word : String) : Bool := text.toList.flatMap Backend.lowerCase = word.toList

def parsePodReady (ready : String) : ℚ × ℚ :=
  let parts := (ready.toList.splitOn '/').map String.ofList
  ((parts[0]?.bind parseInt).getD 0, (parts[1]?.bind parseInt).getD 0)

def isReady (p : PodInfo) : Bool :=
  let (ready, total) := parsePodReady p.ready
  ready = total && isWord p.status "running"

def calculateHealthStatus (readyPods totalPods : ℕ) : HealthStatus :=
  if totalPods = 0 then .unknown
  else if readyPods = totalPods then .healthy
  else if 0 < readyPods then .degraded
  else .unhealthy

def getPodMetrics (podName : String) (podMetrics : Option (List PodMetrics)) :
    Option ResourceMetrics := do
  let metric ← (← podMetrics).find? (·.name = some podName)
  let usage ← (← metric.containers.head?)
  return parseK8sMetrics usage.cpu usage.memory

def getNodeMetrics (nodeName : String) (nodeMetrics : Option (List NodeMetrics)) :
    Option ResourceMetrics := do
  let metric ← (← nodeMetrics).find? (·.name = some nodeName)
  let usage ← metric.usage
  return parseK8sMetrics usage.cpu usage.memory

/-! ## Maps -/

def parseProxyServerConnections (proxy : ReverseProxyServer) (allServers : List NormalServer)
    (backendsByProxyId : Option (List (String × List String))) : List String :=
  match backendsByProxyId.bind (·.lookup proxy.id) with
  | none => []
  | some backends => backends.filter fun id => id ∈ allServers.map (·.id)

/-- The names of the nodes on which pods run, each once. -/
def podNodeNames (pods : List PodInfo) : List String :=
  (pods.filterMap fun pod => given pod.nodeName).eraseDups

structure HostedPods where
  servers : List String
  proxies : List String

/-- The name of a pod pushed to the entry of its node, if there is one. -/
def pushPod (push : HostedPods → String → HostedPods) (m : List (String × HostedPods))
    (pod : PodInfo) : List (String × HostedPods) :=
  match given pod.nodeName with
  | none => m
  | some nodeName =>
    match m.lookup nodeName with
    | none => m
    | some nodeData => setEntry m nodeName (push nodeData pod.name)

structure GraphMaps where
  serverToProxies : List (String × List String)
  proxyToServers : List (String × List String)
  serverToK8sNodes : List (String × List String)
  proxyToK8sNodes : List (String × List String)
  k8sNodeToPods : List (String × HostedPods)

namespace BuildEnhancedGraphInput

variable (input : BuildEnhancedGraphInput)

def connectedServerIds (proxy : ReverseProxyServer) : List String :=
  parseProxyServerConnections proxy input.servers input.proxyBackends

/-- The names of the nodes that have one. -/
def nodeNames : List String := input.k8sNodes.filterMap fun node => given node.name

def maps : GraphMaps :=
  let nodeEntries := input.nodeNames.foldl (fun m name => setEntry m name ⟨[], []⟩) []
  let withServers := input.serverPods.foldl (fun m entry =>
    entry.2.foldl (pushPod fun d name => { d with servers := d.servers ++ [name] }) m) nodeEntries
  { serverToProxies := input.proxies.foldl (fun m proxy =>
      (input.connectedServerIds proxy).foldl (pushTo · · proxy.id) m) []
    proxyToServers := input.proxies.foldl (fun m proxy =>
      setEntry m proxy.id (input.connectedServerIds proxy)) []
    serverToK8sNodes := input.serverPods.foldl (fun m entry =>
      setEntry m entry.1 (podNodeNames entry.2)) []
    proxyToK8sNodes := input.proxyPods.foldl (fun m entry =>
      setEntry m entry.1 (podNodeNames entry.2)) []
    k8sNodeToPods := input.proxyPods.foldl (fun m entry =>
      entry.2.foldl (pushPod fun d name => { d with proxies := d.proxies ++ [name] }) m)
      withServers }

/-! ## Nodes -/

def pushNode (id : String) (type : NodeType) (typeName : String) (name : String)
    (status : HealthStatus) (metadata : NodeMetadata) : TopologyNode where
  id := id
  type := typeName
  position := ⟨0, 0⟩
  data := { id := name, type, label := name, status, metadata }

def podHealth (pods : List PodInfo) : HealthStatus :=
  calculateHealthStatus (pods.countP isReady) pods.length

def podMetric (pods : List PodInfo) : Option ResourceMetrics :=
  pods.head?.bind fun pod => getPodMetrics pod.name input.podMetrics

def serverNode (server : NormalServer) : TopologyNode :=
  let pods := (input.serverPods.lookup server.id).getD []
  pushNode ("server-" ++ server.id) .server "server" server.id (podHealth pods) (.server {
    server
    podCount := pods.length
    readyPods := pods.countP isReady
    pods
    health := podHealth pods
    connectedProxies := (input.maps.serverToProxies.lookup server.id).getD []
    k8sNodes := (input.maps.serverToK8sNodes.lookup server.id).getD []
    connectionInfo := (input.serverConnections.bind (·.lookup server.id)).getD none
    metrics := input.podMetric pods })

def connectedServers (proxy : ReverseProxyServer) : List String :=
  (input.maps.proxyToServers.lookup proxy.id).getD []

def proxyNode (proxy : ReverseProxyServer) : TopologyNode :=
  let pods := (input.proxyPods.lookup proxy.id).getD []
  pushNode ("proxy-" ++ proxy.id) .proxy "proxy" proxy.id (podHealth pods) (.proxy {
    proxy
    podCount := pods.length
    readyPods := pods.countP isReady
    pods
    health := podHealth pods
    connectedServers := input.connectedServers proxy
    k8sNodes := (input.maps.proxyToK8sNodes.lookup proxy.id).getD []
    connectionInfo := (input.proxyConnections.bind (·.lookup proxy.id)).getD none
    metrics := input.podMetric pods })

def k8sNode (node : K8sNodeSummary) (name : String) : TopologyNode :=
  let nodePods := (input.maps.k8sNodeToPods.lookup name).getD ⟨[], []⟩
  let health := if isWord node.status "ready" then .healthy else .unhealthy
  pushNode ("k8s-node-" ++ name) .k8sNode "k8s-node" name health (.k8sNode {
    node
    podCount := nodePods.servers.length + nodePods.proxies.length
    serverPods := nodePods.servers
    proxyPods := nodePods.proxies
    health
    metrics := getNodeMetrics name input.nodeMetrics })

/-! ## Edges -/

def pushEdge (id source target : String) (type : EdgeType) (label : String) : TopologyEdge where
  id := id
  source := source
  target := target
  type := "smoothstep"
  animated := false
  data := { id, source, target, type, label, animated := false }

def proxyEdges (proxy : ReverseProxyServer) : List TopologyEdge :=
  (input.connectedServers proxy).map fun serverId =>
    pushEdge ("edge-proxy-" ++ proxy.id ++ "-server-" ++ serverId) ("proxy-" ++ proxy.id)
      ("server-" ++ serverId) .proxyToServer "routes to"

def k8sEdges (name : String) : List TopologyEdge :=
  (input.maps.serverToK8sNodes.filter (name ∈ ·.2)).map (fun entry =>
    pushEdge ("edge-k8s-" ++ name ++ "-server-" ++ entry.1) ("k8s-node-" ++ name)
      ("server-" ++ entry.1) .podToNode "hosts") ++
  (input.maps.proxyToK8sNodes.filter (name ∈ ·.2)).map (fun entry =>
    pushEdge ("edge-k8s-" ++ name ++ "-proxy-" ++ entry.1) ("k8s-node-" ++ name)
      ("proxy-" ++ entry.1) .podToNode "hosts")

end BuildEnhancedGraphInput

/-! ## The graph -/

structure Counters where
  healthySystems : ℕ := 0
  degradedSystems : ℕ := 0
  unhealthySystems : ℕ := 0

def Counters.count (c : Counters) : HealthStatus → Counters
  | .healthy => { c with healthySystems := c.healthySystems + 1 }
  | .degraded => { c with degradedSystems := c.degradedSystems + 1 }
  | .unhealthy => { c with unhealthySystems := c.unhealthySystems + 1 }
  | .unknown => c

def buildTopologyGraph (input : BuildEnhancedGraphInput) : TopologyGraph :=
  let serverNodes := input.servers.map input.serverNode
  let proxyNodes := input.proxies.map input.proxyNode
  let k8sNodes := input.k8sNodes.filterMap fun node =>
    (given node.name).map (input.k8sNode node)
  let edges := input.proxies.flatMap input.proxyEdges ++ input.nodeNames.flatMap input.k8sEdges
  let counters : Counters :=
    (serverNodes ++ proxyNodes).foldl (fun c node => c.count node.data.status) {}
  { nodes := serverNodes ++ proxyNodes ++ k8sNodes
    edges
    metadata := {
      totalServers := input.servers.length
      totalProxies := input.proxies.length
      totalK8sNodes := input.k8sNodes.length
      totalConnections := edges.length
      healthySystems := counters.healthySystems
      degradedSystems := counters.degradedSystems
      unhealthySystems := counters.unhealthySystems } }

theorem nodes_eq (input : BuildEnhancedGraphInput) : (buildTopologyGraph input).nodes =
    input.servers.map input.serverNode ++ input.proxies.map input.proxyNode ++
      input.k8sNodes.filterMap fun node => (given node.name).map (input.k8sNode node) := rfl

/-- A node is that of a server, a proxy or a named Kubernetes node. -/
theorem mem_nodes {input : BuildEnhancedGraphInput} {node : TopologyNode} :
    node ∈ (buildTopologyGraph input).nodes ↔
      (∃ server ∈ input.servers, input.serverNode server = node) ∨
      (∃ proxy ∈ input.proxies, input.proxyNode proxy = node) ∨
      ∃ k8s ∈ input.k8sNodes, ∃ name, given k8s.name = some name ∧
        input.k8sNode k8s name = node := by
  simp only [nodes_eq, List.mem_append, List.mem_map, List.mem_filterMap, Option.map_eq_some_iff,
    or_assoc]

/-! ## Filters -/

structure TopologyFilters where
  showServers : Bool := true
  showProxies : Bool := true
  showK8sNodes : Bool := true
  showConnections : Bool := true
  searchQuery : String := ""
  filterByStatus : Option HealthStatus := none

variable (toLowerCase : String → String)

/-- For any way to compare without case. -/
def filterNodes (nodes : List TopologyNode) (filters : TopologyFilters) : List TopologyNode :=
  nodes.filter fun node =>
    (match node.data.type with
      | .server => filters.showServers
      | .proxy => filters.showProxies
      | .k8sNode => filters.showK8sNodes) &&
    (filters.searchQuery = "" ||
      (toLowerCase filters.searchQuery).toList <:+: (toLowerCase node.data.label).toList) &&
    (match filters.filterByStatus with
      | none => true
      | some status => node.data.status = status)

def filterEdges (edges : List TopologyEdge) (visibleNodeIds : List String) : List TopologyEdge :=
  edges.filter fun edge => edge.source ∈ visibleNodeIds && edge.target ∈ visibleNodeIds

end Minikura.Web.Topology
