import Minikura.Backend.Connections
import Minikura.Backend.Routes
import Minikura.Data.NumberText

/-!
# The plugin routes

A plugin authorizes itself with the API key of a server or of a reverse proxy, and the
routes answer for the row that has this key. `/reverse-proxy` answers with a list, but of
this row only; `/servers` lists every server with the address of its Service.

## Main results

* `exec_serversRoute` — the answer lists the servers of the table, in their order.
* `exec_reverseProxyRoute` — what a successful answer consists of.
-/

namespace Minikura.Backend.Routes

inductive PluginKind where
  | server
  | reverseProxy
deriving Repr, DecidableEq

def PluginKind.name : PluginKind → String
  | .server => "server"
  | .reverseProxy => "reverse-proxy"

structure ApiKeyOwner where
  kind : PluginKind
  id : String
deriving Repr, DecidableEq

def bearerToken (header : Option String) : String :=
  match header with
  | none => ""
  | some header => if !header.startsWith "Bearer " then "" else trim (header.drop 7).toString

/-- A server with the key comes before a proxy. -/
def findApiKeyOwner (apiKey : String) : Handler (Option ApiKeyOwner) := do
  if apiKey = "" then return none
  else
    let tables ← get
    match tables.servers.find? (·.row.apiKey = apiKey) with
    | some server => return some ⟨.server, server.row.id⟩
    | none =>
      match tables.proxies.find? (·.row.apiKey = apiKey) with
      | some proxy => return some ⟨.reverseProxy, proxy.row.id⟩
      | none => return none

def requirePluginApiKey (authorization : Option String) : Handler ApiKeyOwner := do
  match ← findApiKeyOwner (bearerToken authorization) with
  | none => throw unauthorizedError
  | some owner => return owner

def requirePluginKind (kind : PluginKind) (authorization : Option String) :
    Handler ApiKeyOwner := do
  let pluginAuth ← requirePluginApiKey authorization
  if pluginAuth.kind ≠ kind then
    throw (forbiddenError ("API key is not authorized for " ++ kind.name ++ " resources"))
  else return pluginAuth

/-- `getReverseProxyById(id, true)` -/
def getReverseProxyById (id : String) : Handler (Stamped ReverseProxy) := do
  match ← reverseProxyModel.findById id true with
  | none => throw (notFoundError "ReverseProxyServer" id)
  | some proxy => return proxy

/-- `GET /plugin/reverse-proxy` -/
def reverseProxyRoute (authorization : Option String) : Handler (List (Stamped ReverseProxy)) := do
  let pluginAuth ← requirePluginKind .reverseProxy authorization
  return [← getReverseProxyById pluginAuth.id]

/-- An id that names no resource fails the whole list. -/
def withConnectionAddress (ns : String) (server : Stamped Server) :
    Except Error (Stamped Server × String) := do
  return (server, ← connectionAddress ns server.row.id)

/-- `GET /plugin/servers` -/
def serversRoute (ns : String) (authorization : Option String) :
    Handler (List (Stamped Server × String)) := do
  let _ ← requirePluginKind .reverseProxy authorization
  match (← serverModel.findAll true).mapM (withConnectionAddress ns) with
  | .ok servers => return servers
  | .error _ => throw .unexpected

section

variable {authorization : Option String} {t t' : Tables} {owner : ApiKeyOwner}

theorem exec_requirePluginKind {kind : PluginKind}
    (h : (requirePluginKind kind authorization).exec t = (.ok owner, t')) :
    t' = t ∧ owner.kind = kind ∧
      (findApiKeyOwner (bearerToken authorization)).exec t = (.ok (some owner), t) := by
  have hread : ∀ key, ∃ found, (findApiKeyOwner key).exec t = (.ok found, t) := by
    intro key
    unfold findApiKeyOwner
    split_ifs
    · exact ⟨none, rfl⟩
    · simp only [Stateful.exec_bind, Stateful.exec_get]
      split
      · exact ⟨_, rfl⟩
      · split <;> exact ⟨_, rfl⟩
  obtain ⟨found, hfound⟩ := hread (bearerToken authorization)
  simp only [requirePluginKind, requirePluginApiKey, Stateful.exec_bind, hfound] at h
  cases found with
  | none => simp at h
  | some pluginAuth =>
    simp only [Stateful.exec_pure] at h
    split_ifs at h with hkind
    · cases h
    · push Not at hkind
      obtain ⟨hok, rfl⟩ := Prod.mk.inj h
      obtain rfl := Except.ok.inj hok
      exact ⟨rfl, hkind, hfound⟩

theorem exec_findApiKeyOwner_reverseProxy {apiKey id : String}
    (h : (findApiKeyOwner apiKey).exec t = (.ok (some ⟨.reverseProxy, id⟩), t)) :
    apiKey ≠ "" ∧ ∃ p ∈ t.proxies, p.row.apiKey = apiKey ∧ p.row.id = id := by
  unfold findApiKeyOwner at h
  split_ifs at h with hempty
  · cases h
  · simp only [Stateful.exec_bind, Stateful.exec_get] at h
    split at h
    · cases h
    · split at h
      · next p hp =>
        cases h
        exact ⟨hempty, p, List.mem_of_find?_eq_some hp, by simpa using List.find?_some hp, rfl⟩
      · cases h

/-- The answer is the one row with the id of the row that has the key. -/
theorem exec_reverseProxyRoute {proxies : List (Stamped ReverseProxy)}
    (h : (reverseProxyRoute authorization).exec t = (.ok proxies, t')) :
    ∃ owner ∈ t.proxies, owner.row.apiKey = bearerToken authorization ∧
      ∃ proxy, proxies = [proxy] ∧ proxy.row.id = owner.row.id := by
  rcases hauth : (requirePluginKind .reverseProxy authorization).exec t with ⟨r, u⟩
  cases r with
  | error e =>
    rw [reverseProxyRoute, Stateful.exec_bind, hauth] at h
    cases h
  | ok pluginAuth =>
    obtain ⟨rfl, hkind, hfound⟩ := exec_requirePluginKind hauth
    obtain ⟨kind, id⟩ := pluginAuth
    obtain rfl : kind = .reverseProxy := hkind
    obtain ⟨-, owner, howner, hkey, hid⟩ := exec_findApiKeyOwner_reverseProxy hfound
    refine ⟨owner, howner, hkey, ?_⟩
    simp only [reverseProxyRoute, Stateful.exec_bind, hauth, getReverseProxyById,
      Model.findById, Model.findUnique, Stateful.exec_get, Stateful.exec_pure] at h
    cases hrow : (reverseProxyModel.rows u).find? fun x => reverseProxyModel.id x.row = id with
    | none => simp [hrow] at h
    | some row =>
      rw [hrow] at h
      simp only [Option.map_some, if_true, Stateful.exec_pure] at h
      obtain ⟨hok, -⟩ := Prod.mk.inj h
      refine ⟨_, (Except.ok.inj hok).symm, ?_⟩
      have hrowid : reverseProxyModel.id row.row = id := by simpa using List.find?_some hrow
      exact hrowid.trans hid.symm

theorem mapM_withConnectionAddress {ns : String} {servers : List (Stamped Server)}
    {listed : List (Stamped Server × String)}
    (h : servers.mapM (withConnectionAddress ns) = .ok listed) :
    listed.map (·.1) = servers ∧ ∀ e ∈ listed, connectionAddress ns e.1.row.id = .ok e.2 := by
  induction servers generalizing listed with
  | nil =>
    obtain rfl := Except.ok.inj h
    simp
  | cons server servers ih =>
    rw [List.mapM_cons, withConnectionAddress] at h
    cases haddress : connectionAddress ns server.row.id with
    | error e =>
      rw [haddress] at h
      cases h
    | ok address =>
      cases hrest : servers.mapM (withConnectionAddress ns) with
      | error e =>
        rw [haddress, hrest] at h
        cases h
      | ok rest =>
        rw [haddress, hrest] at h
        obtain rfl := Except.ok.inj h
        obtain ⟨hservers, haddresses⟩ := ih hrest
        refine ⟨?_, ?_⟩
        · rw [List.map_cons, hservers]
        · intro e he
          rcases List.mem_cons.mp he with rfl | he
          · exact haddress
          · exact haddresses e he

/-- The answer lists the rows of the table without their secrets. -/
theorem exec_serversRoute {ns : String} {listed : List (Stamped Server × String)}
    (h : (serversRoute ns authorization).exec t = (.ok listed, t')) :
    (∃ owner ∈ t.proxies, owner.row.apiKey = bearerToken authorization) ∧
      (serverModel.findAll true).exec t = (.ok (listed.map (·.1)), t) ∧
      ∀ e ∈ listed, connectionAddress ns e.1.row.id = .ok e.2 := by
  rcases hauth : (requirePluginKind .reverseProxy authorization).exec t with ⟨r, u⟩
  cases r with
  | error e =>
    rw [serversRoute, Stateful.exec_bind, hauth] at h
    cases h
  | ok pluginAuth =>
    obtain ⟨rfl, hkind, hfound⟩ := exec_requirePluginKind hauth
    obtain ⟨kind, id⟩ := pluginAuth
    obtain rfl : kind = .reverseProxy := hkind
    obtain ⟨-, owner, howner, hkey, -⟩ := exec_findApiKeyOwner_reverseProxy hfound
    refine ⟨⟨owner, howner, hkey⟩, ?_⟩
    have hall : ∃ servers, (serverModel.findAll true).exec u = (.ok servers, u) := ⟨_, rfl⟩
    obtain ⟨servers, hservers⟩ := hall
    simp only [serversRoute, Stateful.exec_bind, hauth, hservers] at h
    cases hlist : servers.mapM (withConnectionAddress ns) with
    | error e =>
      rw [hlist] at h
      cases h
    | ok listed' =>
      rw [hlist] at h
      obtain rfl : listed' = listed := Except.ok.inj (Prod.mk.inj h).1
      obtain ⟨hrows, haddresses⟩ := mapM_withConnectionAddress hlist
      exact ⟨hrows ▸ hservers, haddresses⟩

end

end Minikura.Backend.Routes
