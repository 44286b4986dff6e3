import Minikura.Web.WellFormedTopology

/-!
# The data of the topology page

`fetchTopologyData` asks for everything the graph is made of. It gives up without the nodes or the
custom resources; what it cannot get of a single server or proxy it does without. The operator
reports the backends of a proxy by their names in the cluster, and the page looks up the ids.

## Main definitions

* `Requests` — what each of the requests comes to.
* `fetchTopologyData` — the input of the graph.

## Main results

* `fetchTopologyData_eq_ok` — the input, if there is one.
* `reported_routes` — the routes of the graph are those the operator has reported.
-/

namespace Minikura.Web.Topology

open Backend (kubernetesResourceName kubernetesResourceName_accepted resourceIdAccepted)

/-! ## Answers -/

/-- What a request of the API client resolves to; of an error there is its message. -/
structure Response (α : Type) where
  data : Option α := none
  error : Option String := none

/-- The error is that of a promise that is rejected. -/
abbrev Answer (α : Type) := Except String (Response α)

def assertResponse {α : Type} (response : Response α) (fallback : String) : Except String α :=
  match response.error with
  | some message => .error message
  | none =>
    match response.data with
    | some data => .ok data
    | none => .error fallback

structure CustomResourceSummary where
  name : String
  labels : Option (List (String × String)) := none
  annotations : Option (List (String × String)) := none
  status : Json := .obj []

structure Requests where
  nodes : Answer (List K8sNodeSummary)
  serverPods : String → Answer (List PodInfo)
  proxyPods : String → Answer (List PodInfo)
  serverConnection : String → Answer ConnectionInfo
  proxyConnection : String → Answer ConnectionInfo
  /-- The two requests for metrics together. -/
  metrics : Except String (Response (List PodMetrics) × Response (List NodeMetrics))
  /-- The servers and the proxies together. -/
  customResources : Except String
    (Response (List CustomResourceSummary) × Response (List CustomResourceSummary))

/-- What is asserted of an answer, where a failure is caught. -/
def caught {α : Type} (answer : Answer α) (fallback : String) : Option α :=
  (answer.bind (assertResponse · fallback)).toOption

/-! ## Names in the cluster -/

def databaseIdLabel : String := "minikura.kirameki.cafe/database-id"

namespace CustomResourceSummary

variable (cr : CustomResourceSummary)

def databaseId : Option String :=
  given ((cr.annotations.bind (·.lookup databaseIdLabel)).or
    (cr.labels.bind (·.lookup databaseIdLabel)))

/-- The backends in the status, if that has a list of them. -/
def backends : Option (List String) :=
  ((cr.status.get? "backends").bind Json.arr?).map (·.filterMap Json.str?)

end CustomResourceSummary

/-- `serverIdByK8sName` and `proxyIdByK8sName` -/
def idByK8sName (ids : List String) (crs : List CustomResourceSummary) : List (String × String) :=
  crs.foldl (fun m cr =>
      if cr.name = "" then m
      else match cr.databaseId with
        | some databaseId => setEntry m cr.name databaseId
        | none => m)
    (setEntries [] (ids.map fun id => (kubernetesResourceName id, id)))

/-- The id of a proxy with those of its backends, in the order of the status. -/
def backendEntry (servers proxies : List (String × String)) (cr : CustomResourceSummary) :
    Option (String × List String) :=
  match if cr.name = "" then none else given (proxies.lookup cr.name), cr.backends with
  | some proxyId, some backends =>
    some (proxyId, backends.filterMap fun name => given (servers.lookup name))
  | _, _ => none

def proxyBackends (servers proxies : List (String × String)) (crs : List CustomResourceSummary) :
    List (String × List String) :=
  setEntries [] (crs.filterMap (backendEntry servers proxies))

/-! ## The input -/

/-- An entry for each id, with what was found for it. -/
def entries {α : Type} (ids : List String) (find : String → α) : List (String × α) :=
  setEntries [] (ids.map fun id => (id, find id))

/-- The input, when the nodes and the custom resources are there. -/
def gather (normalServers : List NormalServer) (reverseProxies : List ReverseProxyServer)
    (requests : Requests) (k8sNodes : List K8sNodeSummary)
    (serverCrs proxyCrs : List CustomResourceSummary) : BuildEnhancedGraphInput :=
  let serverIds := normalServers.map (·.id)
  let proxyIds := reverseProxies.map (·.id)
  let pods := fun (answer : String → Answer (List PodInfo)) id =>
    (caught (answer id) ("Failed to load pods for " ++ id)).getD []
  let connection := fun (answer : String → Answer ConnectionInfo) id =>
    caught (answer id) "Connection information unavailable"
  let metrics := match requests.metrics with
    | .ok (pods, nodes) => (pods.data.getD [], nodes.data.getD [])
    | .error _ => ([], [])
  { servers := normalServers
    proxies := reverseProxies
    serverPods := entries serverIds (pods requests.serverPods)
    proxyPods := entries proxyIds (pods requests.proxyPods)
    k8sNodes
    serverConnections := some (entries serverIds (connection requests.serverConnection))
    proxyConnections := some (entries proxyIds (connection requests.proxyConnection))
    proxyBackends := some (proxyBackends (idByK8sName serverIds serverCrs)
      (idByK8sName proxyIds proxyCrs) proxyCrs)
    podMetrics := some metrics.1
    nodeMetrics := some metrics.2 }

def fetchTopologyData (normalServers : List NormalServer) (reverseProxies : List ReverseProxyServer)
    (requests : Requests) : Except String BuildEnhancedGraphInput := do
  let k8sNodes ← assertResponse (← requests.nodes) "Failed to load Kubernetes nodes"
  let (serverCrResponse, proxyCrResponse) ← requests.customResources
  let serverCrs ← assertResponse serverCrResponse "Minecraft server status unavailable"
  let proxyCrs ← assertResponse proxyCrResponse "Reverse proxy status unavailable"
  return gather normalServers reverseProxies requests k8sNodes serverCrs proxyCrs

/-- The requests the page cannot do without are answered with these. -/
structure Requests.Load (requests : Requests) (k8sNodes : List K8sNodeSummary)
    (serverCrs proxyCrs : List CustomResourceSummary) : Prop where
  nodes : requests.nodes = .ok { data := some k8sNodes }
  customResources : requests.customResources =
    .ok ({ data := some serverCrs }, { data := some proxyCrs })

section Input

variable {normalServers : List NormalServer} {reverseProxies : List ReverseProxyServer}
  {requests : Requests} {k8sNodes : List K8sNodeSummary}
  {serverCrs proxyCrs : List CustomResourceSummary}

theorem fetchTopologyData_of_load (h : requests.Load k8sNodes serverCrs proxyCrs) :
    fetchTopologyData normalServers reverseProxies requests =
      .ok (gather normalServers reverseProxies requests k8sNodes serverCrs proxyCrs) := by
  rw [fetchTopologyData, h.nodes, h.customResources]
  rfl

end Input

section Entries

variable {α : Type} {ids : List String} {find : String → α}

theorem entries_eq (h : ids.Nodup) : entries ids find = ids.map fun id => (id, find id) := by
  have hkeys : (([] ++ ids.map fun id => (id, find id)).map Prod.fst).Nodup := by
    simpa [Function.comp_def] using h
  exact setEntries_of_nodup hkeys

theorem keys_entries (h : ids.Nodup) (find : String → α) : (entries ids find).map (·.1) = ids := by
  rw [entries_eq h, List.map_map]
  exact List.map_id ids

theorem lookup_entries (h : ids.Nodup) {id : String} (hid : id ∈ ids) :
    (entries ids find).lookup id = some (find id) := by
  have hkeys := keys_entries h find
  rw [entries_eq h] at hkeys ⊢
  exact lookup_of_mem (hkeys ▸ h) (List.mem_map_of_mem hid)

end Entries

/-! ## Backends -/

/-- What Kubernetes, the backend and the operator see to: names are distinct, a resource that was
made for a row has its id for a name, and a status names every backend once. -/
structure Orderly (crs : List CustomResourceSummary) : Prop where
  names : (crs.map (·.name)).Nodup
  marked : ∀ cr ∈ crs, ∀ id, cr.databaseId = some id → id = cr.name
  backends : ∀ cr ∈ crs, ∀ names, cr.backends = some names → names.Nodup

section Backends

variable {ids : List String} {crs : List CustomResourceSummary} {name id : String}
  {servers proxies : List (String × String)}

/-- Every name stands for itself. -/
structure Plain (m : List (String × String)) (ids : List String) : Prop where
  self : ∀ name id, m.lookup name = some id → id = name
  known : ∀ id ∈ ids, m.lookup id = some id

theorem Plain.setEntry {m : List (String × String)} (h : Plain m ids) (name : String) :
    Plain (setEntry m name name) ids := by
  constructor
  · intro n id hlookup
    rw [lookup_setEntry] at hlookup
    split_ifs at hlookup with hn
    · rw [hn, Option.some.inj hlookup]
    · exact h.self n id hlookup
  · intro id hid
    rw [lookup_setEntry]
    split_ifs with hn
    · rw [hn]
    · exact h.known id hid

theorem plain_idByK8sName (hids : ∀ id ∈ ids, kubernetesResourceName id = id)
    (hmarked : ∀ cr ∈ crs, ∀ id, cr.databaseId = some id → id = cr.name) :
    Plain (idByK8sName ids crs) ids := by
  have hrows : Plain (setEntries [] (ids.map fun id => (kubernetesResourceName id, id))) ids := by
    have hmap : (ids.map fun id => (kubernetesResourceName id, id)) = ids.map fun id => (id, id) :=
      List.map_congr_left fun id hid => by rw [hids id hid]
    rw [hmap]
    have hself : ∀ id ∈ ids, (ids.map fun id => (id, id)).reverse.lookup id = some id := by
      intro id hid
      rw [← List.map_reverse, lookup_map_pair (fun id => id)]
      obtain ⟨d, hd⟩ : ∃ d, (ids.reverse.find? fun a => a = id) = some d :=
        Option.isSome_iff_exists.mp (List.find?_isSome.mpr ⟨id, by simpa using hid, by simp⟩)
      obtain rfl : d = id := by simpa using List.find?_some hd
      rw [hd]
      rfl
    constructor
    · intro name id hlookup
      rw [lookup_setEntries, List.lookup_nil, Option.or_none, ← List.map_reverse,
        lookup_map_pair (fun id => id)] at hlookup
      obtain ⟨d, hd, rfl⟩ := Option.map_eq_some_iff.mp hlookup
      simpa using List.find?_some hd
    · intro id hid
      rw [lookup_setEntries, hself id hid, Option.some_or]
  rw [idByK8sName]
  generalize setEntries [] (ids.map fun id => (kubernetesResourceName id, id)) = m at hrows
  induction crs generalizing m with
  | nil => exact hrows
  | cons cr crs ih =>
    obtain ⟨hcr, hcrs⟩ := List.forall_mem_cons.mp hmarked
    rw [List.foldl_cons]
    refine ih hcrs _ ?_
    split_ifs
    · exact hrows
    · split
      · next databaseId hid =>
        rw [hcr databaseId hid]
        exact hrows.setEntry cr.name
      · exact hrows

theorem given_eq_some {text : Option String} {s : String} :
    given text = some s ↔ text = some s ∧ s ≠ "" := by
  rw [given, Option.filter_eq_some_iff, decide_eq_true_eq]

theorem backendEntry_eq_some {cr : CustomResourceSummary} {entry : String × List String}
    (hproxies : Plain proxies ids) :
    backendEntry servers proxies cr = some entry ↔ entry.1 = cr.name ∧ cr.name ≠ "" ∧
      proxies.lookup cr.name = some cr.name ∧ ∃ names, cr.backends = some names ∧
        entry.2 = names.filterMap fun name => given (servers.lookup name) := by
  unfold backendEntry
  constructor
  · intro h
    split at h
    · next proxyId backends hid hbackends =>
      obtain rfl := Option.some.inj h
      split_ifs at hid with hname
      obtain ⟨hlookup, -⟩ := given_eq_some.mp hid
      obtain rfl := hproxies.self _ _ hlookup
      exact ⟨rfl, hname, hlookup, backends, hbackends, rfl⟩
    · cases h
  · rintro ⟨hid, hname, hlookup, names, hnames, hbackends⟩
    have hgiven : given (some cr.name) = some cr.name := given_eq_some.mpr ⟨rfl, hname⟩
    simp only [if_neg hname, hlookup, hgiven, hnames]
    rw [← hid, ← hbackends]

/-- Backends that have a row are found, and no others. -/
theorem mem_backends (hservers : Plain servers ids) {names : List String} (hid : id ∈ ids)
    (hne : id ≠ "") :
    (id ∈ names.filterMap fun name => given (servers.lookup name)) ↔ id ∈ names := by
  rw [List.mem_filterMap]
  constructor
  · rintro ⟨name, hname, hgiven⟩
    rwa [hservers.self _ _ (given_eq_some.mp hgiven).1]
  · exact fun h => ⟨id, h, given_eq_some.mpr ⟨hservers.known id hid, hne⟩⟩

theorem nodup_backends (hservers : Plain servers ids) {names : List String} (h : names.Nodup) :
    (names.filterMap fun name => given (servers.lookup name)).Nodup := by
  refine h.filterMap fun name name' id hid hid' => ?_
  rw [← hservers.self _ _ (given_eq_some.mp hid).1, ← hservers.self _ _ (given_eq_some.mp hid').1]

theorem keys_backendEntries (hproxies : Plain proxies ids) (hnames : (crs.map (·.name)).Nodup) :
    ((crs.filterMap (backendEntry servers proxies)).map (·.1)).Nodup := by
  have hsub : ((crs.filterMap (backendEntry servers proxies)).map (·.1)).Sublist
      (crs.map (·.name)) := by
    clear hnames
    induction crs with
    | nil => exact .slnil
    | cons cr crs ih =>
      cases h : backendEntry servers proxies cr with
      | none =>
        rw [List.filterMap_cons_none h]
        exact ih.cons _
      | some entry =>
        rw [List.filterMap_cons_some h, List.map_cons, List.map_cons,
          ((backendEntry_eq_some hproxies).mp h).1]
        exact ih.cons_cons _
  exact hnames.sublist hsub

theorem mem_proxyBackends (hproxies : Plain proxies ids) (hnames : (crs.map (·.name)).Nodup)
    {entry : String × List String} : entry ∈ proxyBackends servers proxies crs ↔
      ∃ cr ∈ crs, backendEntry servers proxies cr = some entry := by
  have hkeys : ((crs.filterMap (backendEntry servers proxies)).map (·.1)).Nodup :=
    keys_backendEntries hproxies hnames
  rw [proxyBackends, setEntries_of_nodup (by rwa [List.nil_append]), List.nil_append,
    List.mem_filterMap]

theorem lookup_proxyBackends (hproxies : Plain proxies ids) (hnames : (crs.map (·.name)).Nodup)
    {backends : List String} : (proxyBackends servers proxies crs).lookup id = some backends ↔
      ∃ cr ∈ crs, backendEntry servers proxies cr = some (id, backends) := by
  rw [← mem_proxyBackends hproxies hnames]
  refine ⟨mem_of_lookup, fun h => lookup_of_mem ?_ h⟩
  exact nodup_setEntries _ List.nodup_nil

end Backends

/-! ## Routes -/

/-- The operator has reported the server as a backend of the proxy. -/
def Reported (proxyCrs : List CustomResourceSummary) (proxyId serverId : String) : Prop :=
  ∃ cr ∈ proxyCrs, cr.name = proxyId ∧ ∃ names, cr.backends = some names ∧ serverId ∈ names

section Routes

variable {normalServers : List NormalServer} {reverseProxies : List ReverseProxyServer}
  {requests : Requests} {k8sNodes : List K8sNodeSummary}
  {serverCrs proxyCrs : List CustomResourceSummary}

/-- The rows of the database, as the API admits them. -/
structure Rows (ids : List String) : Prop where
  nodup : ids.Nodup
  accepted : ∀ id ∈ ids, resourceIdAccepted id

theorem Rows.plain {ids : List String} {crs : List CustomResourceSummary} (h : Rows ids)
    (hcrs : Orderly crs) : Plain (idByK8sName ids crs) ids :=
  plain_idByK8sName (fun id hid => kubernetesResourceName_accepted (h.accepted id hid)) hcrs.marked

theorem Rows.ne_empty {ids : List String} (h : Rows ids) {id : String} (hid : id ∈ ids) :
    id ≠ "" := by
  rintro rfl
  exact absurd (h.accepted "" hid) (by decide)

theorem gather_admissible (hservers : Rows (normalServers.map (·.id)))
    (hproxies : Rows (reverseProxies.map (·.id)))
    (hnodes : (k8sNodes.filterMap fun node => given node.name).Nodup)
    (hserverCrs : Orderly serverCrs) (hproxyCrs : Orderly proxyCrs) :
    (gather normalServers reverseProxies requests k8sNodes serverCrs proxyCrs).Admissible where
  servers := hservers.nodup
  proxies := hproxies.nodup
  nodeNames := hnodes
  serverPods := by
    rw [gather, keys_entries hservers.nodup]
    exact hservers.nodup
  serverPods_mem := by
    rw [gather, keys_entries hservers.nodup]
    exact fun id hid => hid
  proxyPods := by
    rw [gather, keys_entries hproxies.nodup]
    exact hproxies.nodup
  proxyPods_mem := by
    rw [gather, keys_entries hproxies.nodup]
    exact fun id hid => hid
  backends := by
    intro backends hbackends entry hentry
    obtain rfl := Option.some.inj hbackends
    obtain ⟨cr, hcr, hsome⟩ := (mem_proxyBackends (hproxies.plain hproxyCrs)
      hproxyCrs.names).mp hentry
    obtain ⟨-, -, -, names, hnames, hlist⟩ :=
      (backendEntry_eq_some (hproxies.plain hproxyCrs)).mp hsome
    rw [hlist]
    exact nodup_backends (hservers.plain hserverCrs) (hproxyCrs.backends cr hcr names hnames)

theorem mem_connectedServerIds {input : BuildEnhancedGraphInput} {proxy : ReverseProxyServer}
    {serverId : String} : serverId ∈ input.connectedServerIds proxy ↔
      serverId ∈ input.servers.map (·.id) ∧ ∃ backends,
        input.proxyBackends.bind (·.lookup proxy.id) = some backends ∧ serverId ∈ backends := by
  rw [BuildEnhancedGraphInput.connectedServerIds, parseProxyServerConnections]
  cases input.proxyBackends.bind (·.lookup proxy.id) with
  | none => simp
  | some backends => simp [and_comm]

/-- The backends the page has for a proxy are those reported that have a row. -/
theorem mem_connectedServerIds_gather (hservers : Rows (normalServers.map (·.id)))
    (hproxies : Rows (reverseProxies.map (·.id))) (hserverCrs : Orderly serverCrs)
    (hproxyCrs : Orderly proxyCrs) {proxy : ReverseProxyServer} (hproxy : proxy ∈ reverseProxies)
    {serverId : String} :
    serverId ∈ (gather normalServers reverseProxies requests k8sNodes serverCrs
        proxyCrs).connectedServerIds proxy ↔
      serverId ∈ normalServers.map (·.id) ∧ Reported proxyCrs proxy.id serverId := by
  have hplain := hproxies.plain hproxyCrs
  have hid : proxy.id ∈ reverseProxies.map (·.id) := List.mem_map_of_mem hproxy
  rw [mem_connectedServerIds]
  refine and_congr_right fun hserver => ?_
  have hmem {names : List String} : (serverId ∈ names.filterMap fun name =>
      given ((idByK8sName (normalServers.map (·.id)) serverCrs).lookup name)) ↔ serverId ∈ names :=
    mem_backends (hservers.plain hserverCrs) hserver (hservers.ne_empty hserver)
  constructor
  · rintro ⟨backends, hlookup, hbackend⟩
    obtain ⟨cr, hcr, hsome⟩ := (lookup_proxyBackends hplain hproxyCrs.names).mp hlookup
    obtain ⟨hname, -, -, names, hnames, rfl⟩ := (backendEntry_eq_some hplain).mp hsome
    exact ⟨cr, hcr, hname.symm, names, hnames, hmem.mp hbackend⟩
  · rintro ⟨cr, hcr, hname, names, hnames, hreported⟩
    refine ⟨_, (lookup_proxyBackends hplain hproxyCrs.names).mpr ⟨cr, hcr, ?_⟩, hmem.mpr hreported⟩
    refine (backendEntry_eq_some hplain).mpr ⟨hname.symm, ?_, ?_, names, hnames, rfl⟩
    · exact hname ▸ hproxies.ne_empty hid
    · exact hname ▸ hplain.known proxy.id hid

/-- When the requests the page cannot do without are answered, whatever the others come to, the
graph has a route from a proxy to a server just if the operator has reported it. -/
theorem reported_routes (hservers : Rows (normalServers.map (·.id)))
    (hproxies : Rows (reverseProxies.map (·.id)))
    (hnodes : (k8sNodes.filterMap fun node => given node.name).Nodup)
    (hserverCrs : Orderly serverCrs) (hproxyCrs : Orderly proxyCrs)
    (hload : requests.Load k8sNodes serverCrs proxyCrs) :
    ∃ input, fetchTopologyData normalServers reverseProxies requests = .ok input ∧
      ∀ proxyId serverId, (buildTopologyGraph input).Routes proxyId serverId ↔
        proxyId ∈ reverseProxies.map (·.id) ∧ serverId ∈ normalServers.map (·.id) ∧
          Reported proxyCrs proxyId serverId := by
  refine ⟨_, fetchTopologyData_of_load hload, fun proxyId serverId => ?_⟩
  have hmem {proxy : ReverseProxyServer} (hproxy : proxy ∈ reverseProxies) :
      serverId ∈ (gather normalServers reverseProxies requests k8sNodes serverCrs
        proxyCrs).connectedServerIds proxy ↔ _ :=
    mem_connectedServerIds_gather hservers hproxies hserverCrs hproxyCrs hproxy
  rw [routes_iff (gather_admissible hservers hproxies hnodes hserverCrs hproxyCrs)]
  constructor
  · intro hlinked
    cases hlinked with
    | @routes proxy _ hproxy hserver =>
      exact ⟨List.mem_map_of_mem hproxy, (hmem hproxy).mp hserver⟩
  · rintro ⟨hid, hserver⟩
    obtain ⟨proxy, hproxy, rfl⟩ := List.mem_map.mp hid
    exact .routes hproxy ((hmem hproxy).mpr hserver)

end Routes

/-- Two proxies, one without a list of backends, and a server that nobody has made here. -/
def reportedRequests : Requests where
  nodes := .ok { data := some [⟨some "worker", "Ready"⟩] }
  serverPods _ := .error "offline"
  proxyPods _ := .ok { error := some "forbidden" }
  serverConnection _ := .error "offline"
  proxyConnection _ := .error "offline"
  metrics := .error "offline"
  customResources := .ok (
    { data := some [
      { name := "lobby", labels := some [(databaseIdLabel, "lobby")] }, { name := "stray" }] },
    { data := some [
      { name := "main", status := .obj [("backends", .arr [.str "lobby", .str "stray"])] },
      { name := "spare" }] })

theorem reported_routes_lobby :
    ∃ input, fetchTopologyData [⟨"lobby"⟩] [⟨"main"⟩, ⟨"spare"⟩] reportedRequests = .ok input ∧
      (buildTopologyGraph input).Routes "main" "lobby" := by
  obtain ⟨input, hinput, hroutes⟩ := @reported_routes [⟨"lobby"⟩] [⟨"main"⟩, ⟨"spare"⟩]
    reportedRequests _ _ _ ⟨by decide, by decide⟩ ⟨by decide, by decide⟩ (by decide)
    ⟨by decide, by decide, by decide⟩ ⟨by decide, by decide, by decide⟩ ⟨rfl, rfl⟩
  exact ⟨input, hinput, (hroutes "main" "lobby").mpr
    ⟨by decide, by decide, _, .head _, rfl, _, rfl, by decide⟩⟩

end Minikura.Web.Topology
