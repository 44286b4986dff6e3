import Minikura.Data.OrderedMap
import Minikura.Operator.Naming

/-!
# Generated objects

What the operator makes of a custom resource. Of a pod template the labels and the
environment of its container are kept.

## Main definitions

* `minecraftEnv`, `proxyEnv` — the environments, with `userEnv` on top.
* `minecraftConfigMap`, `minecraftService`, `minecraftDeployment`, `minecraftStatefulSet`.
* `proxyConfigMap`, `proxyService`, `proxyDeployment`.
-/

namespace Minikura.Operator

/-! ## Common parts -/

def containerPort : Int := 25565
def defaultHeapPercent : Int := 60
def defaultMemoryLimitMB : Int := 2048
def minHeapMB : Int := 256

/-- `ServiceType`: the type asked for, if it is one. -/
def serviceType (exposure fallback : String) : String :=
  if exposure = "ClusterIP" then "ClusterIP"
  else if exposure = "NodePort" then "NodePort"
  else if exposure = "LoadBalancer" then "LoadBalancer"
  else fallback

def heapMB (limitMB heapPercent : Int) : String :=
  let limitMB := if limitMB ≤ 0 then defaultMemoryLimitMB else limitMB
  let heapPercent :=
    if heapPercent ≤ 0 || heapPercent > 100 then defaultHeapPercent else heapPercent
  let heap := limitMB * heapPercent / 100
  toString (if heap < minHeapMB then minHeapMB else heap) ++ "M"

def jvmEnv (jvm : JVMOptions) (limitMB : Int) : List EnvVar :=
  [{ name := "MEMORY", value := heapMB limitMB jvm.heapPercent }] ++
    (if jvm.opts ≠ "" then [{ name := "JVM_OPTS", value := jvm.opts }] else []) ++
    (if jvm.useAikarFlags then [{ name := "USE_AIKAR_FLAGS", value := "true" }] else []) ++
    (if jvm.useMeowIceFlags then [{ name := "USE_MEOWICE_FLAGS", value := "true" }] else [])

/-- One variable of `extra`: a source takes the place of the value. -/
def userVar (e : EnvVar) : EnvVar :=
  { e with value := if e.valueFrom.isSome then "" else e.value }

/-- The user's variables over the base, except for the protected names. The names of the
base are distinct. -/
def userEnv (base extra : List EnvVar) (reserved : List String) : List EnvVar :=
  (setEntries (base.map fun e => (e.name, e))
    ((extra.filter fun e => !reserved.contains e.name).map fun e => (e.name, userVar e))).map
      (·.2)

def boolValue (b : Option Bool) (fallback : Bool) : Bool := b.getD fallback

def apiKeyEnv (secretRef : String) : List EnvVar :=
  if secretRef ≠ "" then
    [{ name := "MINIKURA_API_KEY", valueFrom := some (.secretKeyRef secretRef "api-key") }]
  else []

/-! ## Environments -/

def minecraftEnv (mc : MinecraftServer) : List EnvVar :=
  let p := mc.spec.properties
  let env : List EnvVar := [
    { name := "EULA", value := "TRUE" },
    { name := "TYPE", value := mc.spec.jarType },
    { name := "VERSION", value := mc.spec.minecraftVersion },
    { name := "OVERRIDE_SERVER_PROPERTIES", value := "true" },
    { name := "ENABLE_RCON", value := "false" },
    { name := "DIFFICULTY", value := p.difficulty },
    { name := "MODE", value := p.gameMode },
    { name := "MAX_PLAYERS", value := toString p.maxPlayers },
    { name := "PVP", value := toString (boolValue p.pvp true) },
    { name := "ONLINE_MODE", value := toString (boolValue p.onlineMode true) }] ++
    (if p.motd ≠ "" then [{ name := "MOTD", value := p.motd }] else []) ++
    (if p.levelSeed ≠ "" then [{ name := "SEED", value := p.levelSeed }] else []) ++
    (if p.levelType ≠ "" then [{ name := "LEVEL_TYPE", value := p.levelType }] else []) ++
    jvmEnv mc.spec.jvm mc.spec.resources.memoryLimitMB ++ apiKeyEnv mc.spec.apiKeySecretRef
  userEnv env mc.spec.env ["EULA", "MINIKURA_API_KEY"]

/-- The string without a prefix it has. -/
def trimPrefix? (s pre : String) : Option String :=
  if pre.toList.isPrefixOf s.toList then some (String.ofList (s.toList.drop pre.length))
  else none

def trimSlashes (url : String) : String := String.ofList (trimRight url.toList '/')

def websocketURL (apiURL : String) : String :=
  let url := trimSlashes apiURL ++ "/servers/ws"
  match trimPrefix? url "https://", trimPrefix? url "http://" with
  | some rest, _ => "wss://" ++ rest
  | none, some rest => "ws://" ++ rest
  | none, none => url

def proxyEnv (rp : ReverseProxyServer) : List EnvVar :=
  let apiURL := trimSlashes rp.spec.backendURL
  let plugins := rp.spec.type = Types.proxyVelocity && rp.spec.pluginURL ≠ ""
  let env : List EnvVar := [
    { name := "TYPE", value := rp.spec.type },
    { name := "NETWORKADDRESS_CACHE_TTL", value := "30" },
    { name := "MINIKURA_EXTERNAL_ADDRESS", value := rp.spec.externalAddress }] ++
    jvmEnv rp.spec.jvm rp.spec.resources.memoryLimitMB ++ apiKeyEnv rp.spec.apiKeySecretRef ++
    (if rp.spec.backendURL ≠ "" then [
      { name := "MINIKURA_API_URL", value := apiURL },
      { name := "MINIKURA_WEBSOCKET_URL", value := websocketURL apiURL }] else []) ++
    (if plugins then [{ name := "PLUGINS", value := rp.spec.pluginURL }] else [])
  let reserved := ["MINIKURA_API_KEY"] ++
    (if rp.spec.backendURL ≠ "" then ["MINIKURA_API_URL", "MINIKURA_WEBSOCKET_URL"] else []) ++
    (if plugins then ["PLUGINS"] else [])
  userEnv env rp.spec.env reserved

/-! ## Objects -/

/-- An object with the key it is written under. -/
structure Generated where
  key : ObjectKey
  object : Object key.kind

def servicePort (type : String) (port targetPort nodePort : Int) : ServicePort where
  name := "minecraft"
  port := port
  targetPort := targetPort
  protocol := "TCP"
  nodePort := if type = "NodePort" && nodePort ≠ 0 then nodePort else 0

def minecraftConfigMap (mc : MinecraftServer) : Generated where
  key := ⟨.configMap, mc.metadata.ns, configMapName (serverName mc.metadata.name)⟩
  object :=
    { labels := serverLabels mc
      body := [
        ("server-type", mc.spec.type),
        ("minecraft-version", mc.spec.minecraftVersion),
        ("jar-type", mc.spec.jarType)] }

def minecraftService (mc : MinecraftServer) : Generated where
  key := ⟨.service, mc.metadata.ns, serverName mc.metadata.name⟩
  object :=
    let type := serviceType mc.spec.serviceType "ClusterIP"
    { labels := serverLabels mc
      body :=
        { spec :=
            { selector := selectorLabels (serverName mc.metadata.name)
              ports := [servicePort type mc.spec.listenPort containerPort mc.spec.nodePort]
              type := type } } }

/-- The part that the Deployment and the StatefulSet of a server have in common. -/
def minecraftWorkload (mc : MinecraftServer) (storage : Option String) : WorkloadSpec where
  replicas := if mc.spec.running = some false then 0 else 1
  selector := selectorLabels (serverName mc.metadata.name)
  podLabels := serverLabels mc
  env := minecraftEnv mc
  storage := storage

def minecraftDeployment (mc : MinecraftServer) : Generated where
  key := ⟨.deployment, mc.metadata.ns, serverName mc.metadata.name⟩
  object := { labels := serverLabels mc, body := { spec := minecraftWorkload mc none } }

def minecraftStatefulSet (lib : Library) (mc : MinecraftServer) : Except Error Generated := do
  let size := if mc.spec.storageSize = "" then "1Gi" else mc.spec.storageSize
  match lib.parseQuantity size with
  | .error e =>
    .error { e with message := "invalid storageSize " ++ lib.quote size ++ ": " ++ e.message }
  | .ok qty =>
    return {
      key := ⟨.statefulSet, mc.metadata.ns, serverName mc.metadata.name⟩
      object :=
        { labels := serverLabels mc, body := { spec := minecraftWorkload mc (some qty) } } }

theorem minecraftStatefulSet_ok {lib : Library} {mc : MinecraftServer} {g : Generated}
    (h : minecraftStatefulSet lib mc = .ok g) : ∃ qty, g = {
      key := ⟨.statefulSet, mc.metadata.ns, serverName mc.metadata.name⟩
      object :=
        { labels := serverLabels mc, body := { spec := minecraftWorkload mc (some qty) } } } := by
  unfold minecraftStatefulSet at h
  cases hqty : lib.parseQuantity
      (if mc.spec.storageSize = "" then "1Gi" else mc.spec.storageSize) with
  | error e =>
    simp only [hqty] at h
    cases h
  | ok qty =>
    simp only [hqty] at h
    exact ⟨qty, (Except.ok.inj h).symm⟩

def proxyConfigMap (rp : ReverseProxyServer) : Generated where
  key := ⟨.configMap, rp.metadata.ns,
    configMapName (proxyName rp.spec.type rp.metadata.name)⟩
  object :=
    { labels := proxyLabels rp
      body := [("proxy-type", rp.spec.type), ("external-address", rp.spec.externalAddress)] }

def proxyService (rp : ReverseProxyServer) : Generated where
  key := ⟨.service, rp.metadata.ns, proxyName rp.spec.type rp.metadata.name⟩
  object :=
    let type := serviceType rp.spec.serviceType "LoadBalancer"
    { labels := proxyLabels rp
      body :=
        { spec :=
            { selector := selectorLabels (proxyName rp.spec.type rp.metadata.name)
              ports := [servicePort type rp.spec.externalPort rp.spec.listenPort
                rp.spec.nodePort]
              type := type } } }

def proxyDeployment (rp : ReverseProxyServer) : Generated where
  key := ⟨.deployment, rp.metadata.ns, proxyName rp.spec.type rp.metadata.name⟩
  object :=
    { labels := proxyLabels rp
      body :=
        { spec :=
            { replicas := 1
              selector := selectorLabels (proxyName rp.spec.type rp.metadata.name)
              podLabels := proxyLabels rp
              env := proxyEnv rp } } }

end Minikura.Operator
