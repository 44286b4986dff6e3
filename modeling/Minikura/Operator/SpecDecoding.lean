import Mathlib.Data.Option.Basic
import Minikura.Backend.OperatorResourceSync
import Minikura.Operator.Types

/-!
# The spec of a server, as the operator reads it

The way of a `MinecraftServerSpec` from the JSON that the backend writes to the operator:
the API server checks it against the markers of the Go types and fills in their defaults,
and what is still missing is decoded as a zero value.

## Main definitions

* `MinecraftServerSpec.ofJson` — the spec that is read, if the API server accepts it.
* `serverSpecRead` — the spec that is read of a row.

## Main results

* `ofJson_serverSpec` — every admitted row is accepted and read as its spec.
-/

namespace Minikura.Operator
open Json

/-! ## Decoding -/

/-- An `int32` between the markers `Minimum` and `Maximum`. -/
def readInt (minimum maximum : Int) (j : Json) : Option Int :=
  j.num?.filter fun n => minimum ≤ n && n ≤ maximum

def maxInt32 : Int := 2147483647

/-- A string that the marker `Enum` names. -/
def readEnum (names : List String) (j : Json) : Option String :=
  j.str?.filter fun s => names.contains s

/-- The sources that are modelled, each with its own field. -/
def EnvVarSource.ofJson (j : Json) : Option EnvVarSource :=
  (do
    let ref ← j.field? "secretKeyRef"
    return .secretKeyRef (← ref.fieldD "name" str? "") (← (← ref.field? "key").str?)) <|>
  (do
    let ref ← j.field? "configMapKeyRef"
    return .configMapKeyRef (← ref.fieldD "name" str? "") (← (← ref.field? "key").str?)) <|>
  (do
    let ref ← j.field? "fieldRef"
    return .fieldRef (← (← ref.field? "fieldPath").str?)) <|>
  (do
    let ref ← j.field? "resourceFieldRef"
    return .resourceFieldRef (← ref.fieldD "containerName" str? "")
      (← (← ref.field? "resource").str?))

def EnvVar.ofJson (j : Json) : Option EnvVar := do
  -- value and valueFrom are mutually exclusive
  guard (!((j.field? "value").isSome && (j.field? "valueFrom").isSome))
  return {
    name := ← (← j.field? "name").str?
    value := ← j.fieldD "value" str? ""
    valueFrom := ← j.fieldD "valueFrom" (fun v => (EnvVarSource.ofJson v).map some) none }

def Resources.ofJson (j : Json) : Option Resources := do
  return {
    memoryLimitMB := ← j.fieldD "memoryLimitMB" (readInt 256 maxInt32) 2048
    memoryRequestMB := ← j.fieldD "memoryRequestMB" (readInt 256 maxInt32) 0
    cpuRequest := ← j.fieldD "cpuRequest" str? "500m"
    cpuLimit := ← j.fieldD "cpuLimit" str? "2" }

def JVMOptions.ofJson (j : Json) : Option JVMOptions := do
  return {
    opts := ← j.fieldD "opts" str? ""
    useAikarFlags := ← j.fieldD "useAikarFlags" bool? false
    useMeowIceFlags := ← j.fieldD "useMeowIceFlags" bool? false
    heapPercent := ← j.fieldD "heapPercent" (readInt 1 100) 60 }

def MinecraftProperties.ofJson (j : Json) : Option MinecraftProperties := do
  return {
    difficulty := ←
      j.fieldD "difficulty" (readEnum ["PEACEFUL", "EASY", "NORMAL", "HARD"]) "EASY"
    gameMode := ← j.fieldD "gameMode"
      (readEnum ["SURVIVAL", "CREATIVE", "ADVENTURE", "SPECTATOR"]) "SURVIVAL"
    maxPlayers := ← j.fieldD "maxPlayers" (readInt 1 maxInt32) 20
    pvp := some (← j.fieldD "pvp" bool? true)
    onlineMode := some (← j.fieldD "onlineMode" bool? true)
    motd := ← j.fieldD "motd" str? ""
    levelSeed := ← j.fieldD "levelSeed" str? ""
    levelType := ← j.fieldD "levelType" str? "" }

def MinecraftServerSpec.ofJson (j : Json) : Option MinecraftServerSpec := do
  return {
    type := ← readEnum ["STATEFUL", "STATELESS"] (← j.field? "type")
    running := some (← j.fieldD "running" bool? true)
    listenPort := ← j.fieldD "listenPort" (readInt 1 65535) 25565
    serviceType := ←
      j.fieldD "serviceType" (readEnum ["ClusterIP", "NodePort", "LoadBalancer"]) "ClusterIP"
    nodePort := ← j.fieldD "nodePort" (readInt 30000 32767) 0
    jarType := ← j.fieldD "jarType"
      (readEnum ["VANILLA", "PAPER", "SPIGOT", "PURPUR", "FABRIC", "FORGE", "FOLIA"]) "VANILLA"
    minecraftVersion := ← j.fieldD "minecraftVersion" str? "LATEST"
    resources := ← j.fieldD "resources" (readObject Resources.ofJson) {}
    jvm := ← j.fieldD "jvm" (readObject JVMOptions.ofJson) {}
    properties := ← j.fieldD "properties" (readObject MinecraftProperties.ofJson) {}
    env := ← j.fieldD "env" (fun v => v.arr? >>= fun vs => vs.mapM EnvVar.ofJson) []
    apiKeySecretRef := ← j.fieldD "apiKeySecretRef" str? ""
    storageSize := ← j.fieldD "storageSize" str? "1Gi" }

/-! ## What the backend writes -/

/-- What is read of a server row. -/
def serverSpecRead (o : Backend.OperatorResourceSync) (s : Backend.Server) :
    MinecraftServerSpec where
  type := s.type.name
  running := some s.running
  listenPort := s.listenPort
  serviceType := Backend.serviceType s.serviceType.name
  nodePort := s.nodePort.getD 0
  jarType := s.jarType.name
  minecraftVersion := s.minecraftVersion
  resources := {
    memoryLimitMB := s.memory
    memoryRequestMB := s.memoryRequest
    cpuRequest := s.cpuRequest.getD "500m"
    cpuLimit := s.cpuLimit.getD "2" }
  jvm := {
    opts := s.jvmOpts.getD ""
    useAikarFlags := s.useAikarFlags
    useMeowIceFlags := s.useMeowiceFlags
    heapPercent := 60 }
  properties := {
    difficulty := s.difficulty.name
    gameMode := s.gameMode.name
    maxPlayers := s.maxPlayers
    pvp := some s.pvp
    onlineMode := some s.onlineMode
    motd := s.motd.getD ""
    levelSeed := s.levelSeed.getD ""
    levelType := s.levelType.getD "" }
  env := (o.serverEnvironment s).map fun e => { name := e.1, value := e.2 }
  apiKeySecretRef := Backend.secretName .minecraftservers s.id
  storageSize := "1Gi"

variable {o : Backend.OperatorResourceSync} {s : Backend.Server}

theorem readInt_num {minimum maximum n : Int} (h : minimum ≤ n) (h' : n ≤ maximum) :
    readInt minimum maximum (.num n) = some n := by
  simp [readInt, h, h']

theorem ofJson_resources (h : s.Admitted) :
    Resources.ofJson (.ofFields [
      ("memoryLimitMB", some (.num s.memory)),
      ("memoryRequestMB", some (.num s.memoryRequest)),
      ("cpuRequest", s.cpuRequest.map .str),
      ("cpuLimit", s.cpuLimit.map .str)]) = some (serverSpecRead o s).resources := by
  have hs := h.storable
  simp only [Backend.Server.storable, Backend.fitsInt4, Bool.and_eq_true, decide_eq_true_eq] at hs
  have hmemory : readInt 256 maxInt32 (.num s.memory) = some s.memory :=
    readInt_num h.memory hs.1.1.1.1.2.2
  have hrequest : readInt 256 maxInt32 (.num s.memoryRequest) = some s.memoryRequest :=
    readInt_num h.memoryRequest hs.1.1.1.2.2
  cases hcr : s.cpuRequest <;> cases hcl : s.cpuLimit <;>
    simp [Resources.ofJson, fieldD, field?, serverSpecRead, hmemory, hrequest, hcr, hcl]

theorem ofJson_jvm :
    JVMOptions.ofJson (.ofFields [
      ("opts", s.jvmOpts.map .str),
      ("useAikarFlags", some (.bool s.useAikarFlags)),
      ("useMeowIceFlags", some (.bool s.useMeowiceFlags)),
      ("heapPercent", some (.num 60))]) = some (serverSpecRead o s).jvm := by
  have hheap : readInt 1 100 (.num 60) = some 60 := by decide
  cases hopts : s.jvmOpts <;>
    simp [JVMOptions.ofJson, fieldD, field?, serverSpecRead, hheap, hopts]

theorem ofJson_properties (h : s.Admitted) :
    MinecraftProperties.ofJson (.ofFields [
      ("difficulty", some (.str s.difficulty.name)),
      ("gameMode", some (.str s.gameMode.name)),
      ("maxPlayers", some (.num s.maxPlayers)),
      ("pvp", some (.bool s.pvp)),
      ("onlineMode", some (.bool s.onlineMode)),
      ("motd", s.motd.map .str),
      ("levelSeed", s.levelSeed.map .str),
      ("levelType", s.levelType.map .str)]) = some (serverSpecRead o s).properties := by
  have hplayers : readInt 1 maxInt32 (.num s.maxPlayers) = some s.maxPlayers :=
    readInt_num h.maxPlayers.1 (Int.le_trans h.maxPlayers.2 (by decide))
  have hdifficulty : readEnum ["PEACEFUL", "EASY", "NORMAL", "HARD"] (.str s.difficulty.name) =
      some s.difficulty.name := by
    cases s.difficulty <;> decide
  have hmode : readEnum ["SURVIVAL", "CREATIVE", "ADVENTURE", "SPECTATOR"]
      (.str s.gameMode.name) = some s.gameMode.name := by
    cases s.gameMode <;> decide
  cases hmotd : s.motd <;> cases hseed : s.levelSeed <;> cases htype : s.levelType <;>
    simp [MinecraftProperties.ofJson, fieldD, field?, serverSpecRead, hplayers, hdifficulty, hmode,
      hmotd, hseed, htype]

theorem mapM_ofJson_envJson (env : List (String × String)) :
    (env.map fun e => Json.ofFields [("name", some (.str e.1)), ("value", some (.str e.2))]).mapM
      EnvVar.ofJson = some (env.map fun e => { name := e.1, value := e.2 }) := by
  induction env with
  | nil => rfl
  | cons e env ih =>
    have he : EnvVar.ofJson (.ofFields [("name", some (.str e.1)), ("value", some (.str e.2))]) =
        some { name := e.1, value := e.2 } := by
      simp [EnvVar.ofJson, fieldD, field?]
    rw [List.map_cons, List.mapM_cons, he, ih]
    rfl

/-- What the backend writes of an admitted row passes the checks, and is read as the spec
of the row. -/
theorem ofJson_serverSpec (h : s.Admitted) :
    MinecraftServerSpec.ofJson (o.serverRow s).spec = some (serverSpecRead o s) := by
  have hport : readInt 1 65535 (.num s.listenPort) = some s.listenPort := by
    have hp := h.listenPort
    simp only [Backend.portAccepted, Bool.and_eq_true, decide_eq_true_eq] at hp
    exact readInt_num hp.1 hp.2
  have htype : readEnum ["STATEFUL", "STATELESS"] (.str s.type.name) = some s.type.name := by
    cases s.type <;> decide
  have hservice : readEnum ["ClusterIP", "NodePort", "LoadBalancer"]
      (.str (Backend.serviceType s.serviceType.name)) =
      some (Backend.serviceType s.serviceType.name) := by
    cases s.serviceType <;> decide
  have hjar : readEnum ["VANILLA", "PAPER", "SPIGOT", "PURPUR", "FABRIC", "FORGE", "FOLIA"]
      (.str s.jarType.name) = some s.jarType.name := by
    cases s.jarType <;> decide
  have hnode : ∀ n, s.nodePort = some n → readInt 30000 32767 (.num n) = some n := by
    intro n hn
    have hp := h.nodePort
    simp only [hn, Backend.nodePortAccepted, Option.all_some, Bool.and_eq_true,
      decide_eq_true_eq] at hp
    exact readInt_num hp.1 hp.2
  have hresources := @ofJson_resources o s h
  have hjvm := @ofJson_jvm o s
  have hproperties := @ofJson_properties o s h
  have henv := mapM_ofJson_envJson (o.serverEnvironment s)
  simp only [Backend.OperatorResourceSync.serverRow, Backend.OperatorResourceSync.serverSpec]
  cases hd : s.description <;> cases hn : s.nodePort <;>
    simp [MinecraftServerSpec.ofJson, fieldD, field?, hport, htype, hservice, hjar, hn,
      hnode, hresources, hjvm, hproperties, Backend.OperatorResourceSync.envJson, henv] <;>
    simp [serverSpecRead, hn]

end Minikura.Operator
