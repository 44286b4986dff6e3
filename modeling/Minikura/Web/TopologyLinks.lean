import Minikura.Data.Separators
import Minikura.Web.Topology

/-!
# The edges of the topology graph

What the input connects, as a set of links, and the graph that is made of it. An edge is named
after the ends of its link, and the names of two links may be the same: where the beginning of
one goes on past the word between, it can be cut in two places.

## Main definitions

* `BuildEnhancedGraphInput.Linked` — the links of an input.
* `Link.Confusable` — a link whose edge has the name of another's.

## Main results

* `edgeId_eq_iff` — when two links name their edges alike.
* `edges_eq`, `mem_links` — the graph has an edge for each link of the input.
-/

namespace Minikura.Web.Topology

open BuildEnhancedGraphInput

/-- A proxy that routes to a server, or a node that hosts one of the two. -/
inductive Link where
  | routes (proxyId serverId : String)
  | hostsServer (nodeName serverId : String)
  | hostsProxy (nodeName proxyId : String)
deriving Repr, DecidableEq

namespace Link

def type : Link → EdgeType
  | .routes .. => .proxyToServer
  | .hostsServer .. | .hostsProxy .. => .podToNode

def start : Link → String
  | .routes start _ | .hostsServer start _ | .hostsProxy start _ => start

def word : Link → String
  | .routes .. | .hostsServer .. => "server"
  | .hostsProxy .. => "proxy"

def stop : Link → String
  | .routes _ stop | .hostsServer _ stop | .hostsProxy _ stop => stop

def edge : Link → TopologyEdge
  | .routes proxyId serverId =>
    pushEdge ("edge-proxy-" ++ proxyId ++ "-server-" ++ serverId) ("proxy-" ++ proxyId)
      ("server-" ++ serverId) .proxyToServer "routes to"
  | .hostsServer nodeName serverId =>
    pushEdge ("edge-k8s-" ++ nodeName ++ "-server-" ++ serverId) ("k8s-node-" ++ nodeName)
      ("server-" ++ serverId) .podToNode "hosts"
  | .hostsProxy nodeName proxyId =>
    pushEdge ("edge-k8s-" ++ nodeName ++ "-proxy-" ++ proxyId) ("k8s-node-" ++ nodeName)
      ("proxy-" ++ proxyId) .podToNode "hosts"

/-- The first link goes on past the word between where the second has its own. -/
def Confusable (l l' : Link) : Prop :=
  l.type = l'.type ∧ Continues '-' l.start.toList l.word.toList l.stop.toList
    l'.start.toList l'.word.toList l'.stop.toList

/-! ## Names of edges -/

def group : EdgeType → String
  | .proxyToServer => "edge-proxy-"
  | .podToNode => "edge-k8s-"

theorem server_between : "-server-".toList = '-' :: ("server".toList ++ ['-']) := by decide

theorem proxy_between : "-proxy-".toList = '-' :: ("proxy".toList ++ ['-']) := by decide

theorem edge_id (l : Link) : l.edge.id.toList =
    (group l.type).toList ++ joined '-' l.start.toList l.word.toList l.stop.toList := by
  cases l <;>
    simp only [edge, pushEdge, String.toList_append, server_between, proxy_between, joined, group,
      type, start, word, stop, List.append_assoc, List.cons_append, List.nil_append]

theorem separator_notMem (l : Link) : '-' ∉ l.word.toList := by
  have hserver : '-' ∉ "server".toList := by decide
  have hproxy : '-' ∉ "proxy".toList := by decide
  cases l with
  | routes | hostsServer => exact hserver
  | hostsProxy => exact hproxy

theorem group_append_inj {t t' : EdgeType} {x x' : List Char}
    (h : (group t).toList ++ x = (group t').toList ++ x') : t = t' ∧ x = x' := by
  cases t <;> cases t'
  case proxyToServer.proxyToServer | podToNode.podToNode =>
    exact ⟨rfl, List.append_cancel_left h⟩
  all_goals
    have := congrArg (·[5]?) h
    simp [group] at this

theorem ext_parts {l l' : Link} (htype : l.type = l'.type) (hstart : l.start = l'.start)
    (hword : l.word = l'.word) (hstop : l.stop = l'.stop) : l = l' := by
  cases l <;> cases l' <;> simp_all [type, start, word, stop]

theorem edgeId_eq_iff (l l' : Link) :
    l.edge.id = l'.edge.id ↔ l = l' ∨ l.Confusable l' ∨ l'.Confusable l := by
  rw [← String.toList_inj, edge_id, edge_id]
  constructor
  · intro h
    obtain ⟨htype, h⟩ := group_append_inj h
    rcases (joined_eq_iff l.separator_notMem l'.separator_notMem).mp h with
      ⟨hstart, hword, hstop⟩ | hc | hc
    · exact .inl (ext_parts htype (String.toList_inj.mp hstart) (String.toList_inj.mp hword)
        (String.toList_inj.mp hstop))
    · exact .inr (.inl ⟨htype, hc⟩)
    · exact .inr (.inr ⟨htype.symm, hc⟩)
  · rintro (rfl | ⟨htype, hc⟩ | ⟨htype, hc⟩)
    · rfl
    · rw [htype, hc.joined_eq]
    · rw [htype, hc.joined_eq]

end Link

/-! ## The links of an input -/

namespace BuildEnhancedGraphInput

variable {input : BuildEnhancedGraphInput}

/-- What an input connects. -/
inductive Linked (input : BuildEnhancedGraphInput) : Link → Prop where
  | routes {proxy : ReverseProxyServer} {serverId : String} (hproxy : proxy ∈ input.proxies)
    (hserver : serverId ∈ input.connectedServerIds proxy) :
    Linked input (.routes proxy.id serverId)
  | hostsServer {nodeName serverId : String} {pods : List PodInfo}
    (hnode : nodeName ∈ input.nodeNames) (hpods : (serverId, pods) ∈ input.serverPods)
    (hhosts : nodeName ∈ podNodeNames pods) : Linked input (.hostsServer nodeName serverId)
  | hostsProxy {nodeName proxyId : String} {pods : List PodInfo}
    (hnode : nodeName ∈ input.nodeNames) (hpods : (proxyId, pods) ∈ input.proxyPods)
    (hhosts : nodeName ∈ podNodeNames pods) : Linked input (.hostsProxy nodeName proxyId)

/-- No link of the input can be taken for another. -/
def Unambiguous (input : BuildEnhancedGraphInput) : Prop :=
  ∀ l l' : Link, input.Linked l → input.Linked l' → ¬ l.Confusable l'

theorem Linked.start_mem {l : Link} (hl : input.Linked l) :
    l.start ∈ input.proxies.map (·.id) ++ input.nodeNames := by
  cases hl with
  | routes hproxy _ => exact List.mem_append_left _ (List.mem_map_of_mem hproxy)
  | hostsServer hnode _ _ => exact List.mem_append_right _ hnode
  | hostsProxy hnode _ _ => exact List.mem_append_right _ hnode

/-- Where the words between do not stand in ids and names, no link can be taken for another. -/
theorem unambiguous_of_plain (h : ∀ s ∈ input.proxies.map (·.id) ++ input.nodeNames,
    ¬ "-server-".toList <:+: s.toList ++ ['-'] ∧ ¬ "-proxy-".toList <:+: s.toList ++ ['-']) :
    input.Unambiguous := by
  intro l l' _ hl' hc
  obtain ⟨hserver, hproxy⟩ := h _ hl'.start_mem
  rw [Link.server_between] at hserver
  rw [Link.proxy_between] at hproxy
  have hwithin := hc.2.middle_within
  cases l with
  | routes | hostsServer => exact hserver hwithin
  | hostsProxy => exact hproxy hwithin

/-- Ids and names are distinct, the keys of the maps are ids, and no backend is listed twice. -/
structure Admissible (input : BuildEnhancedGraphInput) : Prop where
  servers : (input.servers.map (·.id)).Nodup
  proxies : (input.proxies.map (·.id)).Nodup
  nodeNames : input.nodeNames.Nodup
  serverPods : (input.serverPods.map (·.1)).Nodup
  serverPods_mem : ∀ id ∈ input.serverPods.map (·.1), id ∈ input.servers.map (·.id)
  proxyPods : (input.proxyPods.map (·.1)).Nodup
  proxyPods_mem : ∀ id ∈ input.proxyPods.map (·.1), id ∈ input.proxies.map (·.id)
  backends : ∀ proxyBackends, input.proxyBackends = some proxyBackends →
    ∀ entry ∈ proxyBackends, entry.2.Nodup

def hosts (input : BuildEnhancedGraphInput) (name : String) : List Link :=
  (input.maps.serverToK8sNodes.filter (name ∈ ·.2)).map (fun entry => .hostsServer name entry.1) ++
  (input.maps.proxyToK8sNodes.filter (name ∈ ·.2)).map fun entry => .hostsProxy name entry.1

/-- The links in the order of the edges. -/
def links (input : BuildEnhancedGraphInput) : List Link :=
  input.proxies.flatMap (fun proxy => (input.connectedServers proxy).map (.routes proxy.id)) ++
  input.nodeNames.flatMap input.hosts

theorem edges_eq (input : BuildEnhancedGraphInput) :
    (buildTopologyGraph input).edges = input.links.map Link.edge := by
  have hproxy : ∀ proxy, input.proxyEdges proxy =
      ((input.connectedServers proxy).map (.routes proxy.id)).map Link.edge := by
    intro proxy
    rw [List.map_map]
    rfl
  have hnode : ∀ name, input.k8sEdges name = (input.hosts name).map Link.edge := by
    intro name
    rw [hosts, List.map_append, List.map_map, List.map_map]
    rfl
  rw [links, List.map_append, List.map_flatMap, List.map_flatMap, ← funext hproxy, ← funext hnode]
  rfl

/-! ## Maps -/

theorem connectedServerIds_nodup (h : input.Admissible) (proxy : ReverseProxyServer) :
    (input.connectedServerIds proxy).Nodup := by
  rw [connectedServerIds, parseProxyServerConnections]
  cases hb : input.proxyBackends.bind (·.lookup proxy.id) with
  | none => exact List.nodup_nil
  | some backends =>
    obtain ⟨proxyBackends, hsome, hlookup⟩ := Option.bind_eq_some_iff.mp hb
    exact (h.backends _ hsome _ (mem_of_lookup hlookup)).filter _

theorem connectedServerIds_mem {proxy : ReverseProxyServer} {id : String}
    (h : id ∈ input.connectedServerIds proxy) : id ∈ input.servers.map (·.id) := by
  rw [connectedServerIds, parseProxyServerConnections] at h
  cases hb : input.proxyBackends.bind (·.lookup proxy.id) with
  | none => simp [hb] at h
  | some backends =>
    rw [hb] at h
    exact of_decide_eq_true (List.mem_filter.mp h).2

theorem podNodeNames_entries (pods : List (String × List PodInfo)) (h : (pods.map (·.1)).Nodup) :
    pods.foldl (fun m entry => setEntry m entry.1 (podNodeNames entry.2)) [] =
      pods.map fun entry => (entry.1, podNodeNames entry.2) := by
  have hfold : setEntries [] (pods.map fun entry => (entry.1, podNodeNames entry.2)) = _ :=
    setEntries_of_nodup (by simpa [Function.comp_def] using h)
  rwa [setEntries, List.foldl_map, List.nil_append] at hfold

theorem serverToK8sNodes_eq (h : input.Admissible) : input.maps.serverToK8sNodes =
    input.serverPods.map fun entry => (entry.1, podNodeNames entry.2) :=
  podNodeNames_entries _ h.serverPods

theorem proxyToK8sNodes_eq (h : input.Admissible) : input.maps.proxyToK8sNodes =
    input.proxyPods.map fun entry => (entry.1, podNodeNames entry.2) :=
  podNodeNames_entries _ h.proxyPods

theorem connectedServers_eq (h : input.Admissible) {proxy : ReverseProxyServer}
    (hproxy : proxy ∈ input.proxies) :
    input.connectedServers proxy = input.connectedServerIds proxy := by
  have hfold : setEntries []
      (input.proxies.map fun proxy => (proxy.id, input.connectedServerIds proxy)) = _ :=
    setEntries_of_nodup (by simpa [Function.comp_def] using h.proxies)
  rw [setEntries, List.foldl_map, List.nil_append] at hfold
  rw [connectedServers, maps, hfold, lookup_map_pair,
    find?_of_mem h.proxies hproxy]
  rfl

theorem serverToProxies_eq (input : BuildEnhancedGraphInput) : input.maps.serverToProxies =
    pushAll [] (input.proxies.flatMap fun proxy =>
      (input.connectedServerIds proxy).map (·, proxy.id)) := by
  rw [pushAll, List.foldl_flatMap]
  simp only [List.foldl_map]
  rfl

theorem mem_connectedProxies {proxyId serverId : String} :
    proxyId ∈ bucket input.maps.serverToProxies serverId ↔
      ∃ proxy ∈ input.proxies, serverId ∈ input.connectedServerIds proxy ∧ proxy.id = proxyId := by
  rw [serverToProxies_eq, bucket_pushAll, bucket_nil, List.nil_append]
  simp only [List.mem_map, List.mem_filter, List.mem_flatMap, decide_eq_true_eq]
  constructor
  · rintro ⟨_, ⟨⟨proxy, hproxy, id, hid, rfl⟩, rfl⟩, rfl⟩
    exact ⟨proxy, hproxy, hid, rfl⟩
  · rintro ⟨proxy, hproxy, hid, rfl⟩
    exact ⟨(serverId, proxy.id), ⟨⟨proxy, hproxy, serverId, hid, rfl⟩, rfl⟩, rfl⟩

/-! ## Every link once -/

theorem mem_hosts (h : input.Admissible) {name : String} {l : Link} : l ∈ input.hosts name ↔
    (∃ serverId pods, (serverId, pods) ∈ input.serverPods ∧ name ∈ podNodeNames pods ∧
      l = .hostsServer name serverId) ∨
    ∃ proxyId pods, (proxyId, pods) ∈ input.proxyPods ∧ name ∈ podNodeNames pods ∧
      l = .hostsProxy name proxyId := by
  rw [hosts, serverToK8sNodes_eq h, proxyToK8sNodes_eq h]
  simp [List.mem_append, List.mem_map, List.mem_filter, and_assoc, eq_comm]

theorem mem_links (h : input.Admissible) {l : Link} : l ∈ input.links ↔ input.Linked l := by
  rw [links, List.mem_append, List.mem_flatMap, List.mem_flatMap]
  constructor
  · rintro (⟨proxy, hproxy, hl⟩ | ⟨name, hname, hl⟩)
    · rw [connectedServers_eq h hproxy] at hl
      obtain ⟨id, hid, rfl⟩ := List.mem_map.mp hl
      exact .routes hproxy hid
    · rcases (mem_hosts h).mp hl with
        ⟨id, pods, hpods, hhosts, rfl⟩ | ⟨id, pods, hpods, hhosts, rfl⟩
      · exact .hostsServer hname hpods hhosts
      · exact .hostsProxy hname hpods hhosts
  · intro hl
    cases hl with
    | @routes proxy id hproxy hid =>
      refine .inl ⟨proxy, hproxy, ?_⟩
      rw [connectedServers_eq h hproxy]
      exact List.mem_map_of_mem hid
    | @hostsServer name id pods hname hpods hhosts =>
      exact .inr ⟨name, hname, (mem_hosts h).mpr (.inl ⟨id, pods, hpods, hhosts, rfl⟩)⟩
    | @hostsProxy name id pods hname hpods hhosts =>
      exact .inr ⟨name, hname, (mem_hosts h).mpr (.inr ⟨id, pods, hpods, hhosts, rfl⟩)⟩

theorem start_of_mem_hosts {name : String} {l : Link} (hl : l ∈ input.hosts name) :
    l.start = name ∧ l.type = .podToNode := by
  rcases List.mem_append.mp hl with hl | hl <;>
    obtain ⟨entry, -, rfl⟩ := List.mem_map.mp hl <;>
    exact ⟨rfl, rfl⟩

/-- Each end of a link is told from the others at the same beginning. -/
theorem hosts_nodup (h : input.Admissible) (name : String) : (input.hosts name).Nodup := by
  have hserver := h.serverPods
  have hproxy := h.proxyPods
  rw [hosts, serverToK8sNodes_eq h, proxyToK8sNodes_eq h, List.nodup_append]
  refine ⟨?_, ?_, ?_⟩
  · refine List.Nodup.of_map Link.stop ?_
    rw [List.map_map]
    refine (List.Sublist.map _ List.filter_sublist).nodup ?_
    simpa [Function.comp_def, Link.stop] using hserver
  · refine List.Nodup.of_map Link.stop ?_
    rw [List.map_map]
    refine (List.Sublist.map _ List.filter_sublist).nodup ?_
    simpa [Function.comp_def, Link.stop] using hproxy
  · intro l hl l' hl' heq
    obtain ⟨entry, -, rfl⟩ := List.mem_map.mp hl
    obtain ⟨entry', -, rfl⟩ := List.mem_map.mp hl'
    cases heq

theorem links_nodup (h : input.Admissible) : input.links.Nodup := by
  rw [links, List.nodup_append, List.nodup_flatMap, List.nodup_flatMap]
  refine ⟨⟨fun proxy hproxy => ?_, ?_⟩, ⟨fun name _ => hosts_nodup h name, ?_⟩, ?_⟩
  · rw [connectedServers_eq h hproxy]
    exact (connectedServerIds_nodup h proxy).map fun _ _ heq => (Link.routes.inj heq).2
  · refine (List.pairwise_map.mp h.proxies).imp fun {proxy proxy'} hne l hl hl' => hne ?_
    obtain ⟨id, -, rfl⟩ := List.mem_map.mp hl
    obtain ⟨id', -, heq⟩ := List.mem_map.mp hl'
    exact (Link.routes.inj heq).1.symm
  · refine h.nodeNames.imp fun {name name'} hne l hl hl' => hne ?_
    rw [← (start_of_mem_hosts hl).1, (start_of_mem_hosts hl').1]
  · rintro l hl _ hl' rfl
    obtain ⟨proxy, -, hl⟩ := List.mem_flatMap.mp hl
    obtain ⟨id, -, rfl⟩ := List.mem_map.mp hl
    obtain ⟨name, -, hl'⟩ := List.mem_flatMap.mp hl'
    cases (start_of_mem_hosts hl').2

/-- The edges of a graph have distinct ids just if no link can be taken for another. -/
theorem edgeIds_nodup_iff (h : input.Admissible) :
    ((buildTopologyGraph input).edges.map (·.id)).Nodup ↔ input.Unambiguous := by
  rw [edges_eq, List.map_map, List.nodup_map_iff_inj_on (links_nodup h)]
  simp only [mem_links h]
  constructor
  · intro hinj l l' hl hl' hc
    obtain rfl := hinj l hl l' hl' ((Link.edgeId_eq_iff l l').mpr (.inr (.inl hc)))
    exact lt_irrefl _ hc.2.length_lt
  · intro hun l hl l' hl' hid
    rcases (Link.edgeId_eq_iff l l').mp hid with heq | hc | hc
    · exact heq
    · exact absurd hc (hun l l' hl hl')
    · exact absurd hc (hun l' l hl' hl)

end BuildEnhancedGraphInput

end Minikura.Web.Topology
