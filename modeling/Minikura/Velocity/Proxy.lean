import Minikura.Concurrency.Machine
import Minikura.Data.OrderedMap

/-!
# The server list of a Velocity proxy

What the plugin keeps of the backend's servers, and the flows that refresh it: the one
of the initialization, those of `/refresh` and those of the `SERVER_CHANGE` messages. The
servers registered in Velocity, the `servers` map and `ServerDataStore` change at three
moments of a refresh, and the flows overlap freely.

## Main definitions

* `populateServers` — fill the map and register the servers of a list.
* `System.next` — the steps of the flows, of the tasks they schedule and of `/end`.

## Main results

* `mem_populateServers`, `completed_populateServers` — the loop up to a server it throws on.
-/

namespace Minikura.Velocity
open Concurrency

/-! ## Servers -/

structure ServerData where
  id : String
  connectionAddress : String
  listenPort : Nat
deriving Repr, DecidableEq

/-- What the backend responds: `id` is the primary key of its table. -/
structure ServerList where
  entries : List ServerData
  nodup : (entries.map (·.id)).Nodup
deriving Repr, DecidableEq

structure ReverseProxyServerData where
  id : String
  externalAddress : String
  externalPort : Nat
deriving Repr, DecidableEq

/-- A name and an `InetSocketAddress`. -/
structure ServerInfo where
  name : String
  address : String × Nat
deriving Repr, DecidableEq

def ServerData.serverInfo (data : ServerData) : ServerInfo :=
  ⟨data.id, (data.connectionAddress, data.listenPort)⟩

theorem ServerData.serverInfo_injective : Function.Injective ServerData.serverInfo := by
  rintro ⟨id, address, port⟩ ⟨id', address', port'⟩ h
  simp only [ServerData.serverInfo, ServerInfo.mk.injEq, Prod.mk.injEq] at h
  obtain ⟨rfl, rfl, rfl⟩ := h
  rfl

/-- Servers of one list with the same name are the same. -/
theorem ServerList.eq_of_id (L : ServerList) {s t : ServerData} (hs : s ∈ L.entries)
    (ht : t ∈ L.entries) (h : s.id = t.id) : s = t :=
  List.inj_on_of_nodup_map L.nodup hs ht h

/-- `server.registerServer`, which throws if the name is that of another server. -/
def registerServer (registered : List ServerInfo) (info : ServerInfo) :
    Option (List ServerInfo) :=
  match registered.find? (·.name = info.name) with
  | none => some (registered ++ [info])
  | some other => if other = info then some registered else none

/-- The `servers` map and Velocity's own servers, and whether the loop came to its end. -/
structure Populated where
  servers : List (String × ServerInfo)
  registered : List ServerInfo
  completed : Bool
deriving Repr, DecidableEq

def populateLoop (servers : List (String × ServerInfo)) (registered : List ServerInfo) :
    List ServerData → Populated
  | [] => ⟨servers, registered, true⟩
  | data :: rest =>
    let servers := setEntry servers data.id data.serverInfo
    match registerServer registered data.serverInfo with
    | none => ⟨servers, registered, false⟩
    | some registered => populateLoop servers registered rest

def populateServers (registered : List ServerInfo) (serversData : List ServerData) :
    Populated :=
  populateLoop [] registered serversData

/-! ## What a list brings -/

/-- The servers before the first one whose name is that of another server. -/
def brings (registered : List ServerInfo) (serversData : List ServerData) :
    List ServerData :=
  serversData.takeWhile fun data => (registerServer registered data.serverInfo).isSome

section Loop

variable {registered registered' : List ServerInfo} {data : ServerData}
  {serversData : List ServerData} {info : ServerInfo}

theorem mem_of_registerServer (h : registerServer registered info = some registered') :
    ∀ i, i ∈ registered' ↔ i ∈ registered ∨ i = info := by
  intro i
  unfold registerServer at h
  split at h
  · obtain rfl := Option.some.inj h
    simp
  · rename_i other hfind
    split_ifs at h with hother
    obtain rfl := Option.some.inj h
    have hmem : info ∈ registered := hother ▸ List.mem_of_find?_eq_some hfind
    constructor
    · exact .inl
    · rintro (hi | rfl)
      · exact hi
      · exact hmem

/-- A registration matters only to the servers of the same name. -/
theorem isSome_registerServer_of_registerServer {other : ServerInfo}
    (h : registerServer registered info = some registered') (hne : other.name ≠ info.name) :
    (registerServer registered' other).isSome = (registerServer registered other).isSome := by
  unfold registerServer at h
  split at h
  · obtain rfl := Option.some.inj h
    have hfind : (registered ++ [info]).find? (·.name = other.name) =
        registered.find? (·.name = other.name) := by
      rw [List.find?_append]
      simp [Ne.symm hne]
    rw [registerServer, registerServer, hfind]
    cases registered.find? (·.name = other.name) <;> simp
    split_ifs <;> rfl
  · split_ifs at h
    obtain rfl := Option.some.inj h
    rfl

theorem takeWhile_congr {α : Type} {p q : α → Bool} {l : List α} (h : ∀ a ∈ l, p a = q a) :
    l.takeWhile p = l.takeWhile q := by
  induction l with
  | nil => rfl
  | cons a l ih =>
    rw [List.takeWhile_cons, List.takeWhile_cons, h a (by simp),
      ih fun b hb => h b (by simp [hb])]

theorem brings_of_registerServer (h : registerServer registered data.serverInfo = some registered')
    (hnew : ∀ s ∈ serversData, s.id ≠ data.id) :
    brings registered' serversData = brings registered serversData :=
  takeWhile_congr fun s hs => isSome_registerServer_of_registerServer h (hnew s hs)

theorem brings_cons_some (h : registerServer registered data.serverInfo = some registered')
    (hnodup : ((data :: serversData).map (·.id)).Nodup) :
    brings registered (data :: serversData) = data :: brings registered' serversData := by
  rw [List.map_cons, List.nodup_cons] at hnodup
  rw [brings_of_registerServer h]
  · simp [brings, h]
  · exact fun s hs he => hnodup.1 (he ▸ List.mem_map_of_mem hs)

theorem brings_cons_none (h : registerServer registered data.serverInfo = none) :
    brings registered (data :: serversData) = [] := by
  simp [brings, h]

theorem mem_populateLoop (servers : List (String × ServerInfo))
    (hnodup : (serversData.map (·.id)).Nodup) :
    info ∈ (populateLoop servers registered serversData).registered ↔
      info ∈ registered ∨ ∃ s ∈ brings registered serversData, s.serverInfo = info := by
  induction serversData generalizing servers registered with
  | nil => simp [populateLoop, brings]
  | cons data rest ih =>
    cases h : registerServer registered data.serverInfo with
    | none => simp [populateLoop, h, brings_cons_none h]
    | some registered' =>
      have hrest : (rest.map (·.id)).Nodup := (List.nodup_cons.mp hnodup).2
      have hloop := @ih registered' (setEntry servers data.id data.serverInfo) hrest
      rw [brings_cons_some h hnodup]
      simp only [populateLoop, h, hloop, mem_of_registerServer h]
      simp only [List.mem_cons, exists_eq_or_imp, or_assoc, @eq_comm _ info]

theorem completed_populateLoop (servers : List (String × ServerInfo))
    (hnodup : (serversData.map (·.id)).Nodup) :
    (populateLoop servers registered serversData).completed = true ↔
      brings registered serversData = serversData := by
  induction serversData generalizing servers registered with
  | nil => simp [populateLoop, brings]
  | cons data rest ih =>
    cases h : registerServer registered data.serverInfo with
    | none => simp [populateLoop, h, brings_cons_none h]
    | some registered' =>
      have hrest : (rest.map (·.id)).Nodup := (List.nodup_cons.mp hnodup).2
      rw [brings_cons_some h hnodup]
      simp only [populateLoop, h, ih _ hrest, List.cons.injEq, true_and]

/-- If the loop completes, the map is the one of all the servers. -/
theorem servers_populateLoop (servers : List (String × ServerInfo))
    (h : (populateLoop servers registered serversData).completed = true) :
    (populateLoop servers registered serversData).servers =
      setEntries servers (serversData.map fun s => (s.id, s.serverInfo)) := by
  induction serversData generalizing servers registered with
  | nil => rfl
  | cons data rest ih =>
    cases hd : registerServer registered data.serverInfo with
    | none => simp [populateLoop, hd] at h
    | some registered' =>
      simp only [populateLoop, hd] at h ⊢
      rw [ih _ h]
      rfl

end Loop

theorem mem_populateServers (L : ServerList) {registered : List ServerInfo} {info : ServerInfo} :
    info ∈ (populateServers registered L.entries).registered ↔
      info ∈ registered ∨ ∃ s ∈ brings registered L.entries, s.serverInfo = info :=
  mem_populateLoop [] L.nodup

theorem completed_populateServers (L : ServerList) {registered : List ServerInfo} :
    (populateServers registered L.entries).completed = true ↔
      brings registered L.entries = L.entries :=
  completed_populateLoop [] L.nodup

theorem servers_populateServers (L : ServerList) {registered : List ServerInfo}
    (h : brings registered L.entries = L.entries) :
    (populateServers registered L.entries).servers =
      L.entries.map fun s => (s.id, s.serverInfo) := by
  rw [populateServers, servers_populateLoop _ ((completed_populateServers L).mpr h),
    setEntries_of_nodup, List.nil_append]
  simpa [Function.comp_def] using L.nodup

/-! ## The proxy and its flows -/

inductive Stage where
  | started
  /-- `server.allServers.forEach { server.unregisterServer(it.serverInfo) }` is done. -/
  | unregistered
  /-- The backend has responded with a list, or the request has failed. -/
  | responded (response : Option ServerList)
  /-- `fetchServers` has returned. -/
  | fetched
  /-- `fetchReverseProxyServers` has returned. -/
  | fetchedReverseProxies
  | finished
deriving DecidableEq

/-- A run of `fetchServers` and `fetchReverseProxyServers`, which the initialization
follows with `acceptingTransfers.set(true)`. -/
structure Flow where
  initialization : Bool
  stage : Stage
deriving DecidableEq

/-- A task that has run, and what Velocity had registered when it did. -/
structure Run where
  registered : List ServerInfo
  servers : ServerList
deriving DecidableEq

def Run.brings (r : Run) : List ServerData := Velocity.brings r.registered r.servers.entries

/-- The part from `latest` on only records what has happened. -/
structure System where
  /-- The servers of the backend. -/
  backend : ServerList
  /-- The servers registered in Velocity. -/
  registered : List ServerInfo
  servers : List (String × ServerInfo) := []
  /-- `ServerDataStore` -/
  dataStore : List ServerData := []
  reverseProxies : List ReverseProxyServerData := []
  acceptingTransfers : Bool := false
  flows : List Flow := []
  /-- The scheduled tasks that have not run yet. -/
  tasks : List ServerList := []
  reverseProxyTasks : List (List ReverseProxyServerData) := []
  /-- The response produced last. -/
  latest : Option ServerList := none
  /-- The tasks run since the servers were last unregistered, the last one first. -/
  ran : List Run := []
  /-- `populateServers` has completed. -/
  populated : Bool := false
  /-- `/end` has been executed. -/
  ended : Bool := false

inductive Label where
  /-- The backend's servers change. -/
  | change (servers : ServerList)
  | onProxyInitialization
  /-- `/refresh`, or a `SERVER_CHANGE` message -/
  | refresh
  | unregister (i : Nat)
  /-- The backend produces the response to the request of a flow. -/
  | respond (i : Nat)
  | fail (i : Nat)
  /-- A flow receives what came of its request and schedules a task. -/
  | receive (i : Nat)
  | runTask (k : Nat)
  | fetchReverseProxies (i : Nat) (response : Option (List ReverseProxyServerData))
  | runReverseProxyTask (k : Nat)
  /-- `acceptingTransfers.set(true)` -/
  | accept (i : Nat)
  | endProxy

namespace System

def setStage (x : System) (i : Nat) (initialization : Bool) (stage : Stage) : System :=
  { x with flows := x.flows.set i ⟨initialization, stage⟩ }

def next (x : System) : Label → Option System
  | .change servers => some { x with backend := servers }
  | .onProxyInitialization =>
    if x.flows.any (·.initialization) then none
    else some { x with flows := x.flows ++ [⟨true, .started⟩] }
  | .refresh => some { x with flows := x.flows ++ [⟨false, .started⟩] }
  | .unregister i =>
    match x.flows[i]? with
    | some ⟨b, .started⟩ =>
      some { x.setStage i b .unregistered with registered := [], ran := [] }
    | _ => none
  | .respond i =>
    match x.flows[i]? with
    | some ⟨b, .unregistered⟩ =>
      some { x.setStage i b (.responded x.backend) with latest := x.backend }
    | _ => none
  | .fail i =>
    match x.flows[i]? with
    | some ⟨b, .unregistered⟩ => some (x.setStage i b (.responded none))
    | _ => none
  | .receive i =>
    match x.flows[i]? with
    | some ⟨b, .responded (some servers)⟩ =>
      some { x.setStage i b .fetched with tasks := x.tasks ++ [servers] }
    | some ⟨b, .responded none⟩ => some (x.setStage i b .fetched)
    | _ => none
  | .runTask k =>
    match x.tasks[k]? with
    | some servers =>
      let populated := populateServers x.registered servers.entries
      some { x with
        tasks := x.tasks.eraseIdx k
        dataStore := servers.entries
        servers := populated.servers
        registered := populated.registered
        ran := ⟨x.registered, servers⟩ :: x.ran
        populated := x.populated || populated.completed }
    | none => none
  | .fetchReverseProxies i response =>
    match x.flows[i]? with
    | some ⟨b, .fetched⟩ =>
      some { x.setStage i b (if b then .fetchedReverseProxies else .finished) with
        reverseProxyTasks := x.reverseProxyTasks ++ response.toList }
    | _ => none
  | .runReverseProxyTask k =>
    match x.reverseProxyTasks[k]? with
    | some servers => some { x with
        reverseProxyTasks := x.reverseProxyTasks.eraseIdx k
        reverseProxies := servers }
    | none => none
  | .accept i =>
    match x.flows[i]? with
    | some ⟨b, .fetchedReverseProxies⟩ =>
      some { x.setStage i b .finished with acceptingTransfers := true }
    | _ => none
  | .endProxy => some { x with acceptingTransfers := false, ended := true }

end System

/-- A proxy before its first step, with the servers of its configuration. -/
def System.start (backend : ServerList) (registered : List ServerInfo) : System :=
  { backend, registered }

end Minikura.Velocity
