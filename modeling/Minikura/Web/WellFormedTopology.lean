import Minikura.Backend.Schema
import Minikura.Web.TopologyLinks

/-!
# Well-formed topology graphs

The graph of an admissible input is well formed just if no link of the input can be taken for
another. All else holds of it in any case: nodes have distinct ids, edges end at nodes, and routes
and counters are those of the nodes.

## Main results

* `wellFormed_iff` — when the graph is well formed.
* `sharedNames_not_wellFormed` — an input with ids that the API admits whose graph is not.
-/

namespace Minikura.Web.Topology

namespace TopologyGraph

/-- There is a routing edge from the proxy to the server. -/
def Routes (g : TopologyGraph) (proxyId serverId : String) : Prop :=
  ∃ e ∈ g.edges, e.data.type = .proxyToServer ∧ e.source = "proxy-" ++ proxyId ∧
    e.target = "server-" ++ serverId

/-- How many servers and proxies have a status. -/
def systems (g : TopologyGraph) (status : HealthStatus) : ℕ :=
  g.nodes.countP fun node => node.data.type ≠ .k8sNode && node.data.status = status

structure WellFormed (g : TopologyGraph) : Prop where
  nodeIds : (g.nodes.map (·.id)).Nodup
  edgeIds : (g.edges.map (·.id)).Nodup
  endpoints : ∀ e ∈ g.edges, e.source ∈ g.nodes.map (·.id) ∧ e.target ∈ g.nodes.map (·.id)
  connectedServers : ∀ node ∈ g.nodes, ∀ metadata, node.data.metadata = .proxy metadata →
    ∀ serverId, g.Routes metadata.proxy.id serverId ↔ serverId ∈ metadata.connectedServers
  connectedProxies : ∀ node ∈ g.nodes, ∀ metadata, node.data.metadata = .server metadata →
    ∀ proxyId, g.Routes proxyId metadata.server.id ↔ proxyId ∈ metadata.connectedProxies
  healthySystems : g.metadata.healthySystems = g.systems .healthy
  degradedSystems : g.metadata.degradedSystems = g.systems .degraded
  unhealthySystems : g.metadata.unhealthySystems = g.systems .unhealthy

end TopologyGraph

open BuildEnhancedGraphInput

variable {input : BuildEnhancedGraphInput}

/-! ## Nodes -/

theorem nodeIds_eq (input : BuildEnhancedGraphInput) :
    (buildTopologyGraph input).nodes.map (·.id) =
      input.servers.map ("server-" ++ ·.id) ++ input.proxies.map ("proxy-" ++ ·.id) ++
        input.nodeNames.map ("k8s-node-" ++ ·) := by
  rw [nodes_eq, List.map_append, List.map_append, List.map_map, List.map_map, List.map_filterMap,
    nodeNames, List.map_filterMap]
  congr 1
  refine List.filterMap_congr fun node _ => ?_
  rw [Option.map_map]
  rfl

/-- Ids of the three kinds begin with different letters. -/
theorem nodeIds_nodup (h : input.Admissible) :
    ((buildTopologyGraph input).nodes.map (·.id)).Nodup := by
  have hinj : ∀ s : String, Function.Injective (s ++ ·) :=
    fun s _ _ heq => (String.append_right_inj s).mp heq
  rw [nodeIds_eq, List.nodup_append, List.nodup_append]
  refine ⟨⟨?_, ?_, ?_⟩, h.nodeNames.map (hinj _), ?_⟩
  · simpa [Function.comp_def] using h.servers.map (hinj "server-")
  · simpa [Function.comp_def] using h.proxies.map (hinj "proxy-")
  · intro a ha b hb heq
    obtain ⟨server, -, rfl⟩ := List.mem_map.mp ha
    obtain ⟨proxy, -, rfl⟩ := List.mem_map.mp hb
    have := congrArg (·.toList.head?) heq
    simp [String.toList_append] at this
  · intro a ha b hb heq
    obtain ⟨name, -, rfl⟩ := List.mem_map.mp hb
    have hhead := congrArg (·.toList.head?) heq
    rcases List.mem_append.mp ha with ha | ha <;>
      obtain ⟨row, -, rfl⟩ := List.mem_map.mp ha <;>
      simp [String.toList_append] at hhead

theorem server_mem_nodeIds {id : String} (h : id ∈ input.servers.map (·.id)) :
    "server-" ++ id ∈ (buildTopologyGraph input).nodes.map (·.id) := by
  obtain ⟨server, hserver, rfl⟩ := List.mem_map.mp h
  rw [nodeIds_eq]
  exact List.mem_append_left _ (List.mem_append_left _
    (List.mem_map_of_mem (f := fun server : NormalServer => "server-" ++ server.id) hserver))

theorem proxy_mem_nodeIds {id : String} (h : id ∈ input.proxies.map (·.id)) :
    "proxy-" ++ id ∈ (buildTopologyGraph input).nodes.map (·.id) := by
  obtain ⟨proxy, hproxy, rfl⟩ := List.mem_map.mp h
  rw [nodeIds_eq]
  exact List.mem_append_left _ (List.mem_append_right _
    (List.mem_map_of_mem (f := fun proxy : ReverseProxyServer => "proxy-" ++ proxy.id) hproxy))

theorem k8sNode_mem_nodeIds {name : String} (h : name ∈ input.nodeNames) :
    "k8s-node-" ++ name ∈ (buildTopologyGraph input).nodes.map (·.id) := by
  rw [nodeIds_eq]
  exact List.mem_append_right _ (List.mem_map_of_mem h)

/-! ## Edges -/

theorem mem_edges (h : input.Admissible) {e : TopologyEdge} :
    e ∈ (buildTopologyGraph input).edges ↔ ∃ l, input.Linked l ∧ l.edge = e := by
  simp only [edges_eq, List.mem_map, mem_links h]

theorem endpoints_mem (h : input.Admissible) {e : TopologyEdge}
    (he : e ∈ (buildTopologyGraph input).edges) :
    e.source ∈ (buildTopologyGraph input).nodes.map (·.id) ∧
      e.target ∈ (buildTopologyGraph input).nodes.map (·.id) := by
  obtain ⟨l, hl, rfl⟩ := (mem_edges h).mp he
  cases hl with
  | routes hproxy hserver =>
    exact ⟨proxy_mem_nodeIds (List.mem_map_of_mem hproxy),
      server_mem_nodeIds (connectedServerIds_mem hserver)⟩
  | hostsServer hnode hpods =>
    exact ⟨k8sNode_mem_nodeIds hnode,
      server_mem_nodeIds (h.serverPods_mem _ (List.mem_map_of_mem hpods))⟩
  | hostsProxy hnode hpods =>
    exact ⟨k8sNode_mem_nodeIds hnode,
      proxy_mem_nodeIds (h.proxyPods_mem _ (List.mem_map_of_mem hpods))⟩

theorem routes_iff (h : input.Admissible) {proxyId serverId : String} :
    (buildTopologyGraph input).Routes proxyId serverId ↔
      input.Linked (.routes proxyId serverId) := by
  constructor
  · rintro ⟨e, he, htype, hsource, htarget⟩
    obtain ⟨l, hl, rfl⟩ := (mem_edges h).mp he
    cases hl with
    | routes hproxy hserver =>
      obtain rfl := (String.append_right_inj _).mp hsource
      obtain rfl := (String.append_right_inj _).mp htarget
      exact .routes hproxy hserver
    | hostsServer => cases htype
    | hostsProxy => cases htype
  · exact fun hl => ⟨_, (mem_edges h).mpr ⟨_, hl, rfl⟩, rfl, rfl, rfl⟩

theorem linked_routes_iff (h : input.Admissible) {proxy : ReverseProxyServer}
    (hproxy : proxy ∈ input.proxies) {serverId : String} :
    input.Linked (.routes proxy.id serverId) ↔ serverId ∈ input.connectedServerIds proxy := by
  refine ⟨fun hl => ?_, .routes hproxy⟩
  generalize hid : proxy.id = id at hl
  cases hl with
  | @routes proxy' _ hproxy' hserver =>
    rwa [List.inj_on_of_nodup_map h.proxies hproxy hproxy' hid]

/-- The nodes that have the metadata of a proxy are those of the proxies. -/
theorem exists_of_proxy {node : TopologyNode} {metadata : ProxyMetadata}
    (hnode : node ∈ (buildTopologyGraph input).nodes)
    (hmetadata : node.data.metadata = .proxy metadata) :
    ∃ proxy ∈ input.proxies, metadata.proxy = proxy ∧
      metadata.connectedServers = input.connectedServers proxy := by
  rcases mem_nodes.mp hnode with ⟨server, -, rfl⟩ | ⟨proxy, hproxy, rfl⟩ | ⟨k8s, -, name, -, rfl⟩
  · cases hmetadata
  · obtain rfl := NodeMetadata.proxy.inj hmetadata
    exact ⟨proxy, hproxy, rfl, rfl⟩
  · cases hmetadata

theorem exists_of_server {node : TopologyNode} {metadata : ServerMetadata}
    (hnode : node ∈ (buildTopologyGraph input).nodes)
    (hmetadata : node.data.metadata = .server metadata) :
    ∃ server ∈ input.servers, metadata.server = server ∧
      metadata.connectedProxies = bucket input.maps.serverToProxies server.id := by
  rcases mem_nodes.mp hnode with ⟨server, hserver, rfl⟩ | ⟨proxy, -, rfl⟩ | ⟨k8s, -, name, -, rfl⟩
  · obtain rfl := NodeMetadata.server.inj hmetadata
    exact ⟨server, hserver, rfl, rfl⟩
  · cases hmetadata
  · cases hmetadata

/-! ## Counters -/

def Counters.value (c : Counters) : HealthStatus → ℕ
  | .healthy => c.healthySystems
  | .degraded => c.degradedSystems
  | .unhealthy => c.unhealthySystems
  | .unknown => 0

theorem value_count (c : Counters) (s : HealthStatus) {status : HealthStatus}
    (h : status ≠ .unknown) :
    (c.count s).value status = c.value status + if s = status then 1 else 0 := by
  cases s <;> cases status <;> first | rfl | exact absurd rfl h

theorem value_foldl (nodes : List TopologyNode) (c : Counters) {status : HealthStatus}
    (h : status ≠ .unknown) :
    (nodes.foldl (fun c node => c.count node.data.status) c).value status =
      c.value status + nodes.countP (·.data.status = status) := by
  induction nodes generalizing c with
  | nil => rfl
  | cons node nodes ih =>
    rw [List.foldl_cons, ih, value_count c _ h, List.countP_cons]
    simp only [decide_eq_true_eq]
    omega

theorem systems_eq (input : BuildEnhancedGraphInput) {status : HealthStatus} :
    (buildTopologyGraph input).systems status =
      (input.servers.map input.serverNode ++ input.proxies.map input.proxyNode).countP
        (·.data.status = status) := by
  have hk8s : (input.k8sNodes.filterMap fun node =>
      (given node.name).map (input.k8sNode node)).countP
        (fun node => node.data.type ≠ .k8sNode && node.data.status = status) = 0 := by
    rw [List.countP_eq_zero]
    intro node hnode
    obtain ⟨row, -, hrow⟩ := List.mem_filterMap.mp hnode
    obtain ⟨name, -, rfl⟩ := Option.map_eq_some_iff.mp hrow
    simp [k8sNode, pushNode]
  rw [TopologyGraph.systems, nodes_eq, List.countP_append, hk8s, Nat.add_zero]
  refine List.countP_congr fun node hnode => ?_
  rcases List.mem_append.mp hnode with hnode | hnode <;>
    obtain ⟨row, -, rfl⟩ := List.mem_map.mp hnode <;>
    simp [serverNode, proxyNode, pushNode]

/-! ## Well-formedness -/

/-- The graph of an admissible input is well formed just if no link can be taken for another. -/
theorem wellFormed_iff (h : input.Admissible) :
    (buildTopologyGraph input).WellFormed ↔ input.Unambiguous := by
  refine ⟨fun hg => (edgeIds_nodup_iff h).mp hg.edgeIds, fun hun => ?_⟩
  have hcounters : ∀ status ≠ HealthStatus.unknown,
      ((input.servers.map input.serverNode ++ input.proxies.map input.proxyNode).foldl
        (fun c node => c.count node.data.status) ({} : Counters)).value status =
      (buildTopologyGraph input).systems status := by
    intro status hstatus
    rw [value_foldl _ _ hstatus, systems_eq]
    cases status <;> simp [Counters.value]
  refine {
    nodeIds := nodeIds_nodup h
    edgeIds := (edgeIds_nodup_iff h).mpr hun
    endpoints := fun e he => endpoints_mem h he
    connectedServers := ?servers
    connectedProxies := ?proxies
    healthySystems := hcounters .healthy (by decide)
    degradedSystems := hcounters .degraded (by decide)
    unhealthySystems := hcounters .unhealthy (by decide) }
  case servers =>
    intro node hnode metadata hmetadata serverId
    obtain ⟨proxy, hproxy, hid, hservers⟩ := exists_of_proxy hnode hmetadata
    rw [routes_iff h, hid, linked_routes_iff h hproxy, hservers, connectedServers_eq h hproxy]
  case proxies =>
    intro node hnode metadata hmetadata proxyId
    obtain ⟨server, -, hid, hproxies⟩ := exists_of_server hnode hmetadata
    rw [routes_iff h, hid, hproxies, mem_connectedProxies]
    constructor
    · intro hl
      cases hl with
      | @routes proxy _ hproxy hserver => exact ⟨proxy, hproxy, hserver, rfl⟩
    · rintro ⟨proxy, hproxy, hserver, rfl⟩
      exact .routes hproxy hserver

/-- A proxy before a server, on one node. -/
def smallInput : BuildEnhancedGraphInput where
  servers := [⟨"lobby"⟩]
  proxies := [⟨"main"⟩]
  serverPods := [("lobby", [⟨"lobby-0", "Running", "1/1", some "worker"⟩])]
  proxyPods := [("main", [⟨"main-0", "Pending", "0/1", some "worker"⟩])]
  k8sNodes := [⟨some "worker", "Ready"⟩]
  proxyBackends := some [("main", ["lobby"])]

theorem smallInput_admissible : smallInput.Admissible where
  servers := by decide
  proxies := by decide
  nodeNames := by decide
  serverPods := by decide
  serverPods_mem := by decide
  proxyPods := by decide
  proxyPods_mem := by decide
  backends := by
    rintro _ ⟨⟩
    decide

theorem smallInput_wellFormed :
    (buildTopologyGraph smallInput).WellFormed ∧ (buildTopologyGraph smallInput).edges.length = 3 :=
  ⟨(wellFormed_iff smallInput_admissible).mpr (unambiguous_of_plain (by decide)), by decide⟩

/-- Each of the two routes can be read as the other. -/
def sharedNames : BuildEnhancedGraphInput where
  servers := [⟨"b-server-c"⟩, ⟨"c"⟩]
  proxies := [⟨"a"⟩, ⟨"a-server-b"⟩]
  serverPods := []
  proxyPods := []
  k8sNodes := []
  proxyBackends := some [("a", ["b-server-c"]), ("a-server-b", ["c"])]

theorem sharedNames_admissible : sharedNames.Admissible where
  servers := by decide
  proxies := by decide
  nodeNames := by decide
  serverPods := by decide
  serverPods_mem := by decide
  proxyPods := by decide
  proxyPods_mem := by decide
  backends := by
    rintro _ ⟨⟩
    decide

theorem sharedNames_not_wellFormed : ¬ ∀ input : BuildEnhancedGraphInput, input.Admissible →
    (∀ server ∈ input.servers, Backend.resourceIdAccepted server.id) →
    (∀ proxy ∈ input.proxies, Backend.resourceIdAccepted proxy.id) →
    (buildTopologyGraph input).WellFormed := by
  intro h
  have hids :=
    (h sharedNames sharedNames_admissible (by decide +kernel) (by decide +kernel)).edgeIds
  revert hids
  decide +kernel

end Minikura.Web.Topology
