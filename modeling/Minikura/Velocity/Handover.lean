import Minikura.Backend.PluginRoutes
import Minikura.Velocity.Admission
import Minikura.Velocity.Migration

/-!
# Handing the players on

`/end` looks the next proxy up in `ServerDataStore`, which `fetchReverseProxyServers` fills
with the answers of `/plugin/reverse-proxy`. These are about the proxy that asks: the row
that has its API key. Another proxy is not found, and then nothing is done for the players.

## Main definitions

* `HandsOn` — the migration and the monitor are scheduled, or everyone is disconnected.
* `OwnRow` — the row with the plugin's key is that of a given proxy.
* `FromBackend` — the answers to the plugin are those of the backend.

## Main results

* `reverseProxies_own` — what the store can hold.
* `handsOn_iff` — when the players are handed on.
-/

namespace Minikura.Velocity
open Concurrency
open Backend (ReverseProxy)
open Backend.Routes (Tables Stamped Response reverseProxyRoute bearerToken)

/-- What Gson makes of a row. -/
def ReverseProxyServerData.ofRow (x : Stamped ReverseProxy) : ReverseProxyServerData :=
  ⟨x.row.id, x.row.externalAddress, x.row.externalPort.toNat⟩

/-- The header of the plugin's requests. -/
def authorization (apiKey : String) : Option String := some ("Bearer " ++ apiKey)

/-- What `fetchReverseProxyServers` makes of the answer; a failure schedules no task. -/
def reverseProxyResponse (apiKey : String) (tables : Tables) :
    Option (List ReverseProxyServerData) :=
  match ((reverseProxyRoute (authorization apiKey)).exec tables).1 with
  | .ok proxies => some (proxies.map .ofRow)
  | .error _ => none

/-- The row with the key of the plugin, if there is one, has this id. -/
def OwnRow (apiKey own : String) (tables : Tables) : Prop :=
  ∀ owner ∈ tables.proxies, owner.row.apiKey = bearerToken (authorization apiKey) →
    owner.row.id = own

/-- The answers to the plugin are those of the backend, whatever its rows are then, or get
lost. Keys are unique and rows keep them: at all times the plugin's key is that of one proxy. -/
def FromBackend (apiKey own : String) : System → Label → Prop
  | _, .fetchReverseProxies _ response =>
    response = none ∨
      ∃ tables, OwnRow apiKey own tables ∧ response = reverseProxyResponse apiKey tables
  | _, _ => True

/-- The list is empty or has this proxy only. -/
def AtMost (own : String) (proxies : List ReverseProxyServerData) : Prop :=
  proxies = [] ∨ ∃ proxy, proxies = [proxy] ∧ proxy.id = own

/-- The route answers with the plugin's own row. -/
theorem own_reverseProxyResponse {apiKey own : String} {tables : Tables}
    {proxies : List ReverseProxyServerData} (hown : OwnRow apiKey own tables)
    (h : reverseProxyResponse apiKey tables = some proxies) : AtMost own proxies := by
  unfold reverseProxyResponse at h
  rcases hexec : (reverseProxyRoute (authorization apiKey)).exec tables with ⟨r, t⟩
  rw [hexec] at h
  cases r with
  | error e => cases h
  | ok rows =>
    obtain ⟨owner, howner, hkey, row, rfl, hid⟩ := Backend.Routes.exec_reverseProxyRoute hexec
    obtain rfl := Option.some.inj h
    exact .inr ⟨.ofRow row, rfl, hid.trans (hown owner howner hkey)⟩

/-- All the lists of reverse proxies there are. -/
structure System.OwnReverseProxies (own : String) (x : System) : Prop where
  stored : AtMost own x.reverseProxies
  scheduled : ∀ proxies ∈ x.reverseProxyTasks, AtMost own proxies

section Steps

variable {apiKey own : String} {x y : System} {l : Label}

/-- Only two steps touch the reverse proxies. -/
theorem next_reverseProxies (h : x.next l = some y) :
    (∃ i response, l = .fetchReverseProxies i response ∧ y.reverseProxies = x.reverseProxies ∧
      y.reverseProxyTasks = x.reverseProxyTasks ++ response.toList) ∨
    (∃ k proxies, x.reverseProxyTasks[k]? = some proxies ∧ y.reverseProxies = proxies ∧
      y.reverseProxyTasks = x.reverseProxyTasks.eraseIdx k) ∨
    (y.reverseProxies = x.reverseProxies ∧ y.reverseProxyTasks = x.reverseProxyTasks) := by
  cases l <;> simp only [System.next] at h
  case fetchReverseProxies i response =>
    split at h <;> cases h
    exact .inl ⟨i, response, rfl, rfl, rfl⟩
  case runReverseProxyTask k =>
    split at h <;> cases h
    next proxies hk => exact .inr (.inl ⟨k, proxies, hk, rfl, rfl⟩)
  case onProxyInitialization =>
    split_ifs at h
    obtain rfl := Option.some.inj h
    exact .inr (.inr ⟨rfl, rfl⟩)
  case change => exact .inr (.inr (Option.some.inj h ▸ ⟨rfl, rfl⟩))
  case refresh => exact .inr (.inr (Option.some.inj h ▸ ⟨rfl, rfl⟩))
  case endProxy => exact .inr (.inr (Option.some.inj h ▸ ⟨rfl, rfl⟩))
  all_goals
    split at h <;> cases h
    all_goals exact .inr (.inr ⟨rfl, rfl⟩)

theorem System.OwnReverseProxies.next (hx : x.OwnReverseProxies own)
    (hl : FromBackend apiKey own x l) (h : x.next l = some y) : y.OwnReverseProxies own := by
  obtain ⟨i, response, rfl, hstored, htasks⟩ | ⟨k, proxies, hk, hstored, htasks⟩ |
    ⟨hstored, htasks⟩ := next_reverseProxies h
  · refine ⟨hstored ▸ hx.stored, fun proxies hmem => ?_⟩
    rw [htasks, List.mem_append, Option.mem_toList] at hmem
    rcases hmem with hmem | hmem
    · exact hx.scheduled proxies hmem
    · rcases hl with hlost | ⟨tables, hown, hanswer⟩
      · cases hlost.symm.trans hmem
      · exact own_reverseProxyResponse hown (hanswer.symm.trans hmem)
  · refine ⟨hstored ▸ hx.scheduled proxies (List.mem_of_getElem? hk), fun proxies hmem => ?_⟩
    rw [htasks] at hmem
    exact hx.scheduled proxies (List.mem_of_mem_eraseIdx hmem)
  · exact ⟨hstored ▸ hx.stored, htasks ▸ hx.scheduled⟩

end Steps

/-- The store never knows another proxy than the one the plugin runs on. -/
theorem reverseProxies_own {apiKey own : String} {backend : ServerList}
    {registered : List ServerInfo} {x : System}
    (run : Runs System.next (FromBackend apiKey own) (.start backend registered) x) :
    AtMost own x.reverseProxies :=
  (run.invariant (I := System.OwnReverseProxies own) (fun _ _ _ hx hl h => hx.next hl h)
    ⟨.inl rfl, by simp [System.start]⟩).stored

/-- A migration of this proxy's players is scheduled along with the monitor, or every
connected player has been disconnected. -/
def HandsOn (redis : RedisBungee) (allPlayers : List Player) (ended : Ended) : Prop :=
  (∃ task, ended.migration = some task ∧ ended.monitor = true ∧
    ∀ player ∈ allPlayers, player.uniqueId ∈ redis.playersOnProxy redis.proxyId →
      player ∈ task.players) ∨
  ∀ player ∈ allPlayers, ∃ reason, (player, reason) ∈ ended.disconnected

/-- With another proxy alive, the players are handed on if and only if there are none, or
the store knows the first of the other proxies. -/
theorem handsOn_endProxy {redis : RedisBungee} {reverseProxyServers : List ReverseProxyServerData}
    {allPlayers : List Player} {nextProxy : String}
    (h : (redis.allProxies.filter (· ≠ redis.proxyId)).head? = some nextProxy) :
    HandsOn redis allPlayers (endProxy redis reverseProxyServers allPlayers) ↔
      allPlayers = [] ∨ ∃ proxy ∈ reverseProxyServers, proxy.id = nextProxy := by
  obtain ⟨others, hothers⟩ := List.head?_eq_some_iff.mp h
  rw [endProxy_of_others hothers, HandsOn]
  cases htarget : getReverseProxyServer reverseProxyServers nextProxy with
  | none =>
    have hunknown : ∀ proxy ∈ reverseProxyServers, proxy.id ≠ nextProxy := by
      simpa [getReverseProxyServer] using htarget
    constructor
    · rintro (⟨task, htask, -⟩ | hall)
      · cases htask
      · left
        refine List.eq_nil_iff_forall_not_mem.mpr fun player hp => ?_
        obtain ⟨reason, hreason⟩ := hall player hp
        cases hreason
    · rintro (rfl | ⟨proxy, hproxy, hid⟩)
      · exact .inr (by simp)
      · exact absurd hid (hunknown proxy hproxy)
  | some targetServer =>
    have hknown : ∃ proxy ∈ reverseProxyServers, proxy.id = nextProxy :=
      ⟨targetServer, List.mem_of_find?_eq_some htarget, by simpa using List.find?_some htarget⟩
    refine iff_of_true (.inl ⟨_, rfl, rfl, fun player hp huuid => ?_⟩) (.inr hknown)
    exact List.mem_filter.mpr ⟨hp, List.contains_iff_mem.mpr huuid⟩

/-- From every state of the plugin and with another proxy alive: the players are handed on
if and only if there are none, or the store holds an answer of the backend and the first of
the other proxies goes by the id of the plugin's own row. -/
theorem handsOn_iff {apiKey own : String} {backend : ServerList} {registered : List ServerInfo}
    {x : System} (run : Runs System.next (FromBackend apiKey own) (.start backend registered) x)
    {redis : RedisBungee} {allPlayers : List Player} {nextProxy : String}
    (h : (redis.allProxies.filter (· ≠ redis.proxyId)).head? = some nextProxy) :
    HandsOn redis allPlayers (endProxy redis x.reverseProxies allPlayers) ↔
      allPlayers = [] ∨ x.reverseProxies ≠ [] ∧ nextProxy = own := by
  rw [handsOn_endProxy h]
  rcases reverseProxies_own run with hnone | ⟨proxy, hone, hid⟩
  · simp [hnone]
  · have hknown : (∃ p ∈ x.reverseProxies, p.id = nextProxy) ↔ nextProxy = own := by
      simp [hone, hid, eq_comm]
    rw [hknown, hone]
    simp

/-- The rows of two proxies. -/
def twoProxies : Tables where
  servers := []
  proxies := [
    ⟨.ofInput ⟨"proxy-a", none, "a.example.net", 25565, none, none, none, none, none, none, none,
      none⟩ "key-a", 0, 0⟩,
    ⟨.ofInput ⟨"proxy-b", none, "b.example.net", 25565, none, none, none, none, none, none, none,
      none⟩ "key-b", 0, 0⟩]

def edgeA : ReverseProxyServerData := ⟨"proxy-a", "a.example.net", 25565⟩

theorem reverseProxyResponse_twoProxies :
    some [edgeA] = reverseProxyResponse "key-a" twoProxies := by decide +kernel

/-- The initialization of `proxy-a`, with the answer for its key. -/
def initialized : List Label := [
  .onProxyInitialization, .unregister 0, .respond 0, .receive 0, .runTask 0,
  .fetchReverseProxies 0 (some [edgeA]), .runReverseProxyTask 0, .accept 0]

theorem fromBackend_initialized :
    ∀ l ∈ initialized, ∀ x, FromBackend "key-a" "proxy-a" x l := by
  have hown : OwnRow "key-a" "proxy-a" twoProxies := by
    unfold OwnRow
    decide +kernel
  have hanswer : ∃ tables, OwnRow "key-a" "proxy-a" tables ∧
      some [edgeA] = reverseProxyResponse "key-a" tables :=
    ⟨twoProxies, hown, reverseProxyResponse_twoProxies⟩
  simp [initialized, FromBackend, hanswer]

/-- RedisBungee where this proxy is `velocity-1` and another live proxy is `proxy-a`. -/
def renamedA : RedisBungee := { redisA with
  proxyId := "velocity-1"
  allProxies := ["velocity-1", "proxy-a"] }

theorem handsOn_iff_initialized : ∃ x : System, x.reverseProxies = [edgeA] ∧
    (HandsOn redisA [steve] (endProxy redisA x.reverseProxies [steve]) ↔
      [steve] = [] ∨ x.reverseProxies ≠ [] ∧ "proxy-b" = "proxy-a") ∧
    (HandsOn renamedA [steve] (endProxy renamedA x.reverseProxies [steve]) ↔
      [steve] = [] ∨ x.reverseProxies ≠ [] ∧ "proxy-a" = "proxy-a") := by
  obtain ⟨x, hrun, hstore⟩ : ∃ x : System,
      runLabels System.next (.start noServers []) initialized = some x ∧
      x.reverseProxies = [edgeA] := ⟨_, rfl, rfl⟩
  have run := runs_of_labels fromBackend_initialized hrun
  exact ⟨x, hstore, handsOn_iff run (by decide), handsOn_iff run (by decide)⟩

/-- With another proxy alive, the players of `proxy-a` stay where they are. -/
theorem players_not_handed_on : ¬ ∀ (apiKey own : String) (backend : ServerList)
    (registered : List ServerInfo) (x : System) (redis : RedisBungee) (allPlayers : List Player),
    Runs System.next (FromBackend apiKey own) (.start backend registered) x →
    (∃ other ∈ redis.allProxies, other ≠ redis.proxyId) →
    HandsOn redis allPlayers (endProxy redis x.reverseProxies allPlayers) := by
  intro h
  obtain ⟨x, hrun, hstore⟩ : ∃ x : System,
      runLabels System.next (.start noServers []) initialized = some x ∧
      x.reverseProxies = [edgeA] := ⟨_, rfl, rfl⟩
  have hhandsOn := h _ _ _ _ x redisA [steve] (runs_of_labels fromBackend_initialized hrun)
    ⟨"proxy-b", by decide, by decide⟩
  have hnext : (redisA.allProxies.filter (· ≠ redisA.proxyId)).head? = some "proxy-b" := by
    decide
  rw [handsOn_endProxy hnext, hstore] at hhandsOn
  simp [edgeA] at hhandsOn

end Minikura.Velocity
