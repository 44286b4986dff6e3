import Minikura.Backend.Platform
import Minikura.Concurrency.Loose
import Minikura.Data.OrderedMap

/-!
# The resource synchronizer

`OperatorResourceSync` projects every row to a Secret and a custom resource. A
server and a proxy are written by the same three steps, `syncRow`: the Secret, the
resource, and the removal of the Secret under its former name.

## Main definitions

* `OperatorResourceSync.serverRow`, `proxyRow` — the projections.
* `syncAll`, `syncServerById`, `syncReverseProxyById` — the programs.
-/

namespace Minikura.Backend
open Concurrency

/-- `value || fallback` for an environment variable. -/
def orElse (value : Option String) (fallback : String) : String :=
  match value with
  | some s => if s = "" then fallback else s
  | none => fallback

/-- The environment variables read by the synchronizer, and whether it found a
cluster to talk to when it was constructed. -/
structure OperatorResourceSync where
  operatorBackendUrl : Option String := none
  pluginDownloadBaseUrl : Option String := none
  velocityPluginUrl : Option String := none
  clients : Bool := true

/-- `operatorResourceName`: the id, if it may name a resource. -/
def operatorResourceName (id : String) : Except Error String :=
  if !resourceIdPattern id || id.length > 51 then
    .error { message := "Invalid Kubernetes resource ID: " ++ id }
  else .ok id

def serviceType (type : String) : String :=
  if type = "NODE_PORT" then "NodePort"
  else if type = "LOAD_BALANCER" then "LoadBalancer"
  else "ClusterIP"

def labels (id : String) : Except Error (List (String × String)) := do
  return [managedBy, ("minikura.kirameki.cafe/database-id", ← operatorResourceName id)]

/-- A thrown or returned value as a computation. -/
def Task.ofExcept {α : Type} (r : Except Error α) : Task α := ExceptT.mk (.pure r)

/-- Computations that may fail before everything they have started has ended. -/
abbrev LooseTask (α : Type) := Loose Error Answer α

@[simp] theorem Task.run_ofExcept {α : Type} (r : Except Error α) :
    (Task.ofExcept r).run = .pure r := rfl

def secretPrefix (plural : Kind) : String :=
  if plural = .minecraftservers then "mc" else "rp"

def secretName (plural : Kind) (name : String) : String :=
  secretPrefix plural ++ "-" ++ name ++ "-api-key"

/-- The name the Secret of a row had before names carried a prefix. -/
def legacySecretName (name : String) : String := name ++ "-api-key"

/-- What `syncServer` and `syncReverseProxy` make of a row. -/
structure Row where
  plural : Kind
  id : String
  apiKey : String
  kind : String
  spec : Json
  custom : plural ≠ .secret

def apiVersion : String := "minikura.kirameki.cafe/v1alpha1"

def Row.secret (r : Row) (labels : List (String × String)) : Resource :=
  ⟨labels, .secret "Opaque" [("api-key", r.apiKey)]⟩

def Row.resource (r : Row) (labels : List (String × String)) : Resource :=
  ⟨labels, .custom apiVersion r.kind r.spec⟩

/-- `url.replace(/\/$/, "")` -/
def withoutSlash (url : String) : String :=
  if url.toList.getLast? = some '/' then String.ofList url.toList.dropLast else url

namespace OperatorResourceSync

variable (o : OperatorResourceSync)

def backendUrl : String := orElse o.operatorBackendUrl "http://minikura-backend:3000/api"

/-! ## Projections -/

/-- `PluginRegistryService.artifactUrl` -/
def artifactUrl (token : String) : String :=
  let baseUrl := orElse o.pluginDownloadBaseUrl o.backendUrl
  withoutSlash baseUrl ++ "/registry/artifacts/" ++ token ++ "/download"

def serverEnvironment (server : Server) : List (String × String) :=
  let environment := setEntries [] (server.envVariables.map fun e => (e.key, e.value))
  let registryUrls := (server.plugins.filter (·.enabled)).map (o.artifactUrl ·.downloadToken)
  if registryUrls.isEmpty then environment
  else
    let existing := (environment.lookup "PLUGINS").toList
    setEntry environment "PLUGINS"
      (",".intercalate ((existing ++ registryUrls).filter (· ≠ "")))

def envJson (env : List (String × String)) : Json :=
  .arr (env.map fun e => .ofFields [("name", some (.str e.1)), ("value", some (.str e.2))])

def serverSpec (server : Server) (apiKeySecretRef : String) : Json := .ofFields [
  ("type", some (.str server.type.name)),
  ("running", some (.bool server.running)),
  ("description", server.description.map .str),
  ("listenPort", some (.num server.listenPort)),
  ("serviceType", some (.str (Backend.serviceType server.serviceType.name))),
  ("nodePort", server.nodePort.map .num),
  ("jarType", some (.str server.jarType.name)),
  ("minecraftVersion", some (.str server.minecraftVersion)),
  ("resources", some (.ofFields [
    ("memoryLimitMB", some (.num server.memory)),
    ("memoryRequestMB", some (.num server.memoryRequest)),
    ("cpuRequest", server.cpuRequest.map .str),
    ("cpuLimit", server.cpuLimit.map .str)])),
  ("jvm", some (.ofFields [
    ("opts", server.jvmOpts.map .str),
    ("useAikarFlags", some (.bool server.useAikarFlags)),
    ("useMeowIceFlags", some (.bool server.useMeowiceFlags)),
    ("heapPercent", some (.num 60))])),
  ("properties", some (.ofFields [
    ("difficulty", some (.str server.difficulty.name)),
    ("gameMode", some (.str server.gameMode.name)),
    ("maxPlayers", some (.num server.maxPlayers)),
    ("pvp", some (.bool server.pvp)),
    ("onlineMode", some (.bool server.onlineMode)),
    ("motd", server.motd.map .str),
    ("levelSeed", server.levelSeed.map .str),
    ("levelType", server.levelType.map .str)])),
  ("env", some (envJson (o.serverEnvironment server))),
  ("apiKeySecretRef", some (.str apiKeySecretRef))]

def proxySpec (proxy : ReverseProxy) (apiKeySecretRef : String) : Json := .ofFields [
  ("type", some (.str proxy.type.name)),
  ("description", proxy.description.map .str),
  ("externalAddress", some (.str proxy.externalAddress)),
  ("externalPort", some (.num proxy.externalPort)),
  ("listenPort", some (.num proxy.listenPort)),
  ("serviceType", some (.str (Backend.serviceType proxy.serviceType.name))),
  ("nodePort", proxy.nodePort.map .num),
  ("resources", some (.ofFields [
    ("memoryLimitMB", some (.num proxy.memory)),
    ("memoryRequestMB", some (.num proxy.memory)),
    ("cpuRequest", proxy.cpuRequest.map .str),
    ("cpuLimit", proxy.cpuLimit.map .str)])),
  ("jvm", some (.ofFields [("heapPercent", some (.num 80))])),
  ("env", some (envJson (proxy.envVariables.map fun e => (e.key, e.value)))),
  ("apiKeySecretRef", some (.str apiKeySecretRef)),
  ("backendURL", some (.str o.backendUrl)),
  ("pluginURL",
    if proxy.type = .velocity then o.velocityPluginUrl.map .str else none)]

def serverRow (server : Server) : Row where
  plural := .minecraftservers
  id := server.id
  apiKey := server.apiKey
  kind := "MinecraftServer"
  spec := o.serverSpec server (secretName .minecraftservers server.id)
  custom := by decide

def proxyRow (proxy : ReverseProxy) : Row where
  plural := .reverseproxyservers
  id := proxy.id
  apiKey := proxy.apiKey
  kind := "ReverseProxyServer"
  spec := o.proxySpec proxy (secretName .reverseproxyservers proxy.id)
  custom := by decide

/-! ## Programs -/

/-- Replace an object at the version just read, or create it when it is not there.
The version read stays in the body when the replacement finds nothing. -/
def upsert (key : Key) (body : Resource) : Task Unit := do
  match ← (await (.read key)).attempt with
  | .error e => if e.isNotFound then await (.create key none body) else throw e
  | .ok existing =>
    match ← (await (.replace key (some existing.version) body)).attempt with
    | .ok _ => return ()
    | .error e =>
      if e.isNotFound then await (.create key (some existing.version) body) else throw e

def upsertSecret (name : String) (body : Resource) : Task Unit :=
  if o.clients then upsert ⟨.secret, name⟩ body else return ()

def upsertResource (plural : Kind) (name : String) (body : Resource) : Task Unit :=
  if o.clients then upsert ⟨plural, name⟩ body else return ()

/-- Delete an object; that it is gone already is no failure. -/
def deleteObject (key : Key) : Task Unit := do
  match ← (await (.delete key)).attempt with
  | .ok _ => return ()
  | .error e => if e.isNotFound then return () else throw e

def deleteSecret (name : String) : Task Unit :=
  if o.clients then deleteObject ⟨.secret, name⟩ else return ()

def deleteResource (plural : Kind) (name : String) : Task Unit :=
  if o.clients then do
    deleteObject ⟨plural, name⟩
    o.deleteSecret (secretName plural name)
  else return ()

def syncRow (r : Row) : Task Unit := do
  let name ← Task.ofExcept (operatorResourceName r.id)
  let labels ← Task.ofExcept (labels r.id)
  o.upsertSecret (secretName r.plural name) (r.secret labels)
  o.upsertResource r.plural name (r.resource labels)
  o.deleteSecret (legacySecretName name)

def syncServer (server : Server) : Task Unit := o.syncRow (o.serverRow server)

def syncReverseProxy (proxy : ReverseProxy) : Task Unit := o.syncRow (o.proxyRow proxy)

def deleteStaleResources (plural : Kind) (expectedNames : List String) : LooseTask Unit :=
  if o.clients then do
    let names ← .ofAsync (await (.list plural))
    let stale := names.filter fun name => name ≠ "" && !expectedNames.contains name
    let _ ← Loose.all (stale.map fun name => .ofAsync (o.deleteResource plural name))
    return ()
  else return ()

/-- One pass of `syncAll`; the failures it hands to the log. -/
def syncPass : LooseTask (List Error) := do
  let (servers, proxies) ←
    Loose.both (.ofAsync (await .findServers)) (.ofAsync (await .findProxies))
  let syncResults ← .ofAsync
    (Async.allSettled (servers.map o.syncServer ++ proxies.map o.syncReverseProxy))
  let failures := Async.failures syncResults
  if !failures.isEmpty then return failures
  let serverNames ← .ofAsync (Task.ofExcept (servers.mapM fun s => operatorResourceName s.id))
  let proxyNames ← .ofAsync (Task.ofExcept (proxies.mapM fun p => operatorResourceName p.id))
  let _ ← Loose.both (o.deleteStaleResources .minecraftservers serverNames)
    (o.deleteStaleResources .reverseproxyservers proxyNames)
  return []

/-- `syncAll`, with the failures it logs as its result. When a deletion fails, the flag is
released while the others are still under way. -/
def syncAll : Task (List Error) := do
  if !o.clients then return []
  let claimed ← await .claimSync
  if !claimed then return []
  o.syncPass.settle fun outcome => do
    await .releaseSync
    match outcome with
    | .ok failures => return failures
    | .error e => return [e]

def syncServerById (id : String) : Task Unit :=
  if o.clients then do
    match ← await (.findServer id) with
    | some server => o.syncServer server
    | none => return ()
  else return ()

def requireClients : Task Unit :=
  if o.clients then return ()
  else throw { message := "Kubernetes operator resource synchronization is unavailable" }

def syncReverseProxyById (id : String) : Task Unit := do
  o.requireClients
  match ← await (.findProxy id) with
  | some proxy => o.syncReverseProxy proxy
  | none => return ()

end OperatorResourceSync
end Minikura.Backend
