import Minikura.Web.DisplayedUsage
import Minikura.Web.TopologyData

/-!
# The health of a system

The backend writes the ready containers of a pod and all of them as one text, from which the page
reads the two numbers back. A system is graded by its pods, and a request for them that fails is
as good as none.

## Main definitions

* `mapPodInfo`, `listPodsByLabel`, `listNodes` — what the API returns of the cluster.
* `grade` — the health of a system with these pods.

## Main results

* `parsePodReady_mapPodInfo` — the numbers are read back.
* `shown_health` — the graph grades every system by its pods, and counts the grades.
-/

namespace Minikura.Web.Topology

/-! ## The cluster -/

structure ContainerStatus where
  ready : Bool

structure V1Pod where
  name : Option String := none
  labels : Option (List (String × String)) := none
  nodeName : Option String := none
  phase : Option String := none
  containerStatuses : Option (List ContainerStatus) := none
  /-- As of every array in JavaScript. -/
  length_lt : (containerStatuses.getD []).length < 2 ^ 32 := by decide

structure V1Node where
  name : Option String := none
  /-- The type and the status of each. -/
  conditions : List (String × String) := []

namespace V1Pod

variable (pod : V1Pod)

def containers : List ContainerStatus := pod.containerStatuses.getD []

def readyCount : ℕ := pod.containers.countP (·.ready)

def mapPodInfo : PodInfo where
  name := pod.name.getD ""
  status := pod.phase.getD "Unknown"
  ready := toString pod.readyCount ++ "/" ++ toString pod.containers.length
  nodeName := pod.nodeName

/-- The label has the value. -/
def Labelled (key value : String) : Prop := pod.labels.bind (·.lookup key) = some value

instance (key value : String) : Decidable (pod.Labelled key value) := by
  unfold Labelled
  infer_instance

/-- The pod runs, and so does everything in it. -/
def Up : Prop := isWord (pod.phase.getD "Unknown") "running" = true ∧
  ∀ container ∈ pod.containers, container.ready = true

instance : Decidable pod.Up := by
  unfold Up
  infer_instance

end V1Pod

def listPodsByLabel (pods : List V1Pod) (key value : String) : List PodInfo :=
  (pods.filter (·.Labelled key value)).map V1Pod.mapPodInfo

def V1Node.summary (node : V1Node) : K8sNodeSummary where
  name := node.name
  status := if node.conditions.lookup "Ready" = some "True" then "Ready" else "NotReady"

def listNodes (nodes : List V1Node) : List K8sNodeSummary := nodes.map V1Node.summary

/-! ## One pod -/

section Pod

variable (pod : V1Pod)

theorem readyCount_le : pod.readyCount ≤ pod.containers.length := List.countP_le_length

theorem parseInt_toDigits {n : ℕ} (h : n < 2 ^ 53) :
    parseInt (String.ofList (Nat.toDigits 10 n)) = some (n : ℚ) := by
  have hread : parseInt (String.ofList (Nat.toDigits 10 n ++ [])) = _ :=
    parseInt_append Nat.toDigits_ne_nil
      (fun c hc => Nat.isDigit_of_mem_toDigits (by decide) (by decide) hc) rfl
  rwa [List.append_nil, Nat.ofDigitChars_ten_toDigits, toDouble_natCast h] at hread

theorem splitOn_ready : pod.mapPodInfo.ready.toList.splitOn '/' =
    [Nat.toDigits 10 pod.readyCount, Nat.toDigits 10 pod.containers.length] := by
  have hslash : ∀ n, '/' ∉ Nat.toDigits 10 n := fun n hmem =>
    absurd (Nat.isDigit_of_mem_toDigits (by decide) (by decide) hmem) (by decide)
  have htext : pod.mapPodInfo.ready.toList = Nat.toDigits 10 pod.readyCount ++
      '/' :: Nat.toDigits 10 pod.containers.length := by
    simp [V1Pod.mapPodInfo, Nat.toString_eq_repr, Nat.toList_repr]
  rw [htext, List.splitOn_append_cons_self, List.splitOn_eq_singleton (hslash _),
    List.splitOn_eq_singleton (hslash _)]
  rfl

/-- The page reads the two numbers that the backend has written. -/
theorem parsePodReady_mapPodInfo :
    parsePodReady pod.mapPodInfo.ready =
      ((pod.readyCount : ℚ), (pod.containers.length : ℚ)) := by
  have hlength : pod.containers.length < 2 ^ 53 := lt_trans pod.length_lt (by decide)
  have hready : pod.readyCount < 2 ^ 53 := lt_of_le_of_lt (readyCount_le pod) hlength
  simp only [parsePodReady, splitOn_ready, List.map_cons, List.map_nil, List.getElem?_cons_zero,
    List.getElem?_cons_succ, Option.bind_some, parseInt_toDigits hready, parseInt_toDigits hlength,
    Option.getD_some]

theorem isReady_mapPodInfo : isReady pod.mapPodInfo = true ↔ pod.Up := by
  have hcount : ((pod.readyCount : ℚ) = (pod.containers.length : ℚ)) ↔
      ∀ container ∈ pod.containers, container.ready = true := by
    rw [Nat.cast_inj, V1Pod.readyCount, List.countP_eq_length]
  rw [isReady, parsePodReady_mapPodInfo, Bool.and_eq_true, decide_eq_true_eq, hcount, V1Pod.Up,
    and_comm]
  rfl

end Pod

/-! ## Grades -/

/-- The health of a system with these pods. -/
def grade (pods : List V1Pod) : HealthStatus :=
  if pods = [] then .unknown
  else if ∀ pod ∈ pods, pod.Up then .healthy
  else if ∃ pod ∈ pods, pod.Up then .degraded
  else .unhealthy

open BuildEnhancedGraphInput in
theorem podHealth_map (pods : List V1Pod) : podHealth (pods.map V1Pod.mapPodInfo) = grade pods := by
  have hcount : (pods.map V1Pod.mapPodInfo).countP isReady = pods.countP (·.Up) := by
    rw [List.countP_map]
    exact List.countP_congr fun pod _ => by simp [isReady_mapPodInfo]
  rw [podHealth, calculateHealthStatus, grade, hcount, List.length_map]
  have hall : pods.countP (·.Up) = pods.length ↔ ∀ pod ∈ pods, pod.Up := by
    simp [List.countP_eq_length]
  have hsome : 0 < pods.countP (·.Up) ↔ ∃ pod ∈ pods, pod.Up := by
    simp [List.countP_pos_iff]
  simp only [List.length_eq_zero_iff, hall, hsome]

/-! ## The graph -/

/-- What the page learns from a request for the pods of a system: the pods that have its label, or
nothing at all. -/
inductive PodAnswer (pods : List V1Pod) (key id : String) :
    Answer (List PodInfo) → List V1Pod → Prop where
  | listed : PodAnswer pods key id (.ok { data := some (listPodsByLabel pods key id) })
      (pods.filter (·.Labelled key id))
  | failed (response : Response (List PodInfo)) (h : response.error ≠ none ∨ response.data = none) :
      PodAnswer pods key id (.ok response) []
  | rejected (message : String) : PodAnswer pods key id (.error message) []

/-- How many systems are counted under a status. -/
def GraphMetadata.counted (metadata : GraphMetadata) : HealthStatus → ℕ
  | .healthy => metadata.healthySystems
  | .degraded => metadata.degradedSystems
  | .unhealthy => metadata.unhealthySystems
  | .unknown => 0

section Graph

variable {normalServers : List NormalServer} {reverseProxies : List ReverseProxyServer}
  {requests : Requests} {nodes : List V1Node} {pods : List V1Pod}
  {serverCrs proxyCrs : List CustomResourceSummary} {serverPods proxyPods : String → List V1Pod}

theorem PodAnswer.caught_eq {key id : String} {answer : Answer (List PodInfo)}
    {seen : List V1Pod} (h : PodAnswer pods key id answer seen) (fallback : String) :
    (caught answer fallback).getD [] = seen.map V1Pod.mapPodInfo := by
  cases h with
  | listed => rfl
  | rejected message => rfl
  | failed response h =>
    obtain ⟨data, error⟩ := response
    cases error with
    | some message => rfl
    | none =>
      obtain rfl : data = none := by simpa using h
      rfl

theorem serverNode_status {k8sNodes : List K8sNodeSummary} {server : NormalServer}
    (hservers : (normalServers.map (·.id)).Nodup) (hserver : server ∈ normalServers)
    (hpods : PodAnswer pods Backend.labelKeys.serverId server.id (requests.serverPods server.id)
      (serverPods server.id)) :
    ((gather normalServers reverseProxies requests k8sNodes serverCrs
      proxyCrs).serverNode server).data.status = grade (serverPods server.id) := by
  rw [← podHealth_map, ← hpods.caught_eq ("Failed to load pods for " ++ server.id)]
  simp only [BuildEnhancedGraphInput.serverNode, gather,
    BuildEnhancedGraphInput.pushNode, lookup_entries hservers (List.mem_map_of_mem hserver),
    Option.getD_some]

theorem proxyNode_status {k8sNodes : List K8sNodeSummary} {proxy : ReverseProxyServer}
    (hproxies : (reverseProxies.map (·.id)).Nodup) (hproxy : proxy ∈ reverseProxies)
    (hpods : PodAnswer pods Backend.labelKeys.proxyId proxy.id (requests.proxyPods proxy.id)
      (proxyPods proxy.id)) :
    ((gather normalServers reverseProxies requests k8sNodes serverCrs
      proxyCrs).proxyNode proxy).data.status = grade (proxyPods proxy.id) := by
  rw [← podHealth_map, ← hpods.caught_eq ("Failed to load pods for " ++ proxy.id)]
  simp only [BuildEnhancedGraphInput.proxyNode, gather,
    BuildEnhancedGraphInput.pushNode, lookup_entries hproxies (List.mem_map_of_mem hproxy),
    Option.getD_some]

theorem counted_eq (input : BuildEnhancedGraphInput) {status : HealthStatus}
    (h : status ≠ .unknown) : (buildTopologyGraph input).metadata.counted status =
      (input.servers.map input.serverNode ++ input.proxies.map input.proxyNode).countP
        (·.data.status = status) := by
  have hvalue := value_foldl
    (input.servers.map input.serverNode ++ input.proxies.map input.proxyNode) {} h
  rw [show ({} : Counters).value status = 0 by cases status <;> rfl, Nat.zero_add] at hvalue
  rw [← hvalue]
  cases status <;> rfl

/-- The graph grades every system by the pods the page has been told of, shows a node as healthy
just if it is ready, and counts the grades of all systems. -/
theorem shown_health (hservers : (normalServers.map (·.id)).Nodup)
    (hproxies : (reverseProxies.map (·.id)).Nodup)
    (hload : requests.Load (listNodes nodes) serverCrs proxyCrs)
    (hserverPods : ∀ server ∈ normalServers, PodAnswer pods Backend.labelKeys.serverId server.id
      (requests.serverPods server.id) (serverPods server.id))
    (hproxyPods : ∀ proxy ∈ reverseProxies, PodAnswer pods Backend.labelKeys.proxyId proxy.id
      (requests.proxyPods proxy.id) (proxyPods proxy.id)) :
    ∃ input, fetchTopologyData normalServers reverseProxies requests = .ok input ∧
      (∀ server ∈ normalServers, ∃ node ∈ (buildTopologyGraph input).nodes,
        node.id = "server-" ++ server.id ∧ node.data.status = grade (serverPods server.id)) ∧
      (∀ proxy ∈ reverseProxies, ∃ node ∈ (buildTopologyGraph input).nodes,
        node.id = "proxy-" ++ proxy.id ∧ node.data.status = grade (proxyPods proxy.id)) ∧
      (∀ k8s ∈ nodes, ∀ name, given k8s.name = some name →
        ∃ node ∈ (buildTopologyGraph input).nodes, node.id = "k8s-node-" ++ name ∧
          (node.data.status = .healthy ↔ k8s.conditions.lookup "Ready" = some "True")) ∧
      ∀ status ≠ HealthStatus.unknown, (buildTopologyGraph input).metadata.counted status =
        (normalServers.map (serverPods ·.id) ++ reverseProxies.map (proxyPods ·.id)).countP
          (grade · = status) := by
  refine ⟨_, fetchTopologyData_of_load hload, fun server hserver => ?_, fun proxy hproxy => ?_,
    fun k8s hk8s name hname => ?_, fun status hstatus => ?_⟩
  · exact ⟨_, mem_nodes.mpr (.inl ⟨server, hserver, rfl⟩), rfl,
      serverNode_status hservers hserver (hserverPods server hserver)⟩
  · exact ⟨_, mem_nodes.mpr (.inr (.inl ⟨proxy, hproxy, rfl⟩)), rfl,
      proxyNode_status hproxies hproxy (hproxyPods proxy hproxy)⟩
  · refine ⟨_, mem_nodes.mpr (.inr (.inr ⟨k8s.summary, List.mem_map_of_mem hk8s, name, hname,
      rfl⟩)), rfl, ?_⟩
    have hword : isWord "Ready" "ready" = true := by decide
    have hnot : isWord "NotReady" "ready" = false := by decide
    by_cases hready : k8s.conditions.lookup "Ready" = some "True" <;>
      simp [BuildEnhancedGraphInput.k8sNode, BuildEnhancedGraphInput.pushNode, V1Node.summary,
        hready, hword, hnot]
  · rw [counted_eq _ hstatus, List.countP_append, List.countP_append, List.countP_map,
      List.countP_map, List.countP_map, List.countP_map]
    congr 1
    · refine List.countP_congr fun server hserver => ?_
      simp only [Function.comp_apply, decide_eq_true_eq,
        serverNode_status hservers hserver (hserverPods server hserver)]
    · refine List.countP_congr fun proxy hproxy => ?_
      simp only [Function.comp_apply, decide_eq_true_eq,
        proxyNode_status hproxies hproxy (hproxyPods proxy hproxy)]

end Graph

/-- One of two pods of the lobby runs; those of the proxy cannot be listed. -/
def lobbyPods : List V1Pod := [
  { labels := some [(Backend.labelKeys.serverId, "lobby")], phase := some "Running"
    containerStatuses := some [⟨true⟩] },
  { labels := some [(Backend.labelKeys.serverId, "lobby")], phase := some "Running"
    containerStatuses := some [⟨true⟩, ⟨false⟩] }]

def lobbyRequests : Requests where
  nodes := .ok { data := some (listNodes [{ name := some "worker" }]) }
  serverPods _ :=
    .ok { data := some (listPodsByLabel lobbyPods Backend.labelKeys.serverId "lobby") }
  proxyPods _ := .ok { error := some "forbidden" }
  serverConnection _ := .error "offline"
  proxyConnection _ := .error "offline"
  metrics := .error "offline"
  customResources := .ok ({ data := some [] }, { data := some [] })

theorem shown_health_lobby : ∃ input,
    fetchTopologyData [⟨"lobby"⟩] [⟨"main"⟩] lobbyRequests = .ok input ∧
      (buildTopologyGraph input).metadata.counted .degraded = 1 := by
  obtain ⟨input, hinput, -, -, -, hcounted⟩ := @shown_health [⟨"lobby"⟩] [⟨"main"⟩] lobbyRequests
    [{ name := some "worker" }] lobbyPods [] [] (fun _ => lobbyPods) (fun _ => [])
    (by decide) (by decide) ⟨rfl, rfl⟩
    (List.forall_mem_singleton.mpr .listed)
    (List.forall_mem_singleton.mpr (.failed _ (.inl (by decide))))
  exact ⟨input, hinput, (hcounted .degraded (by decide)).trans (by decide)⟩

end Minikura.Web.Topology
