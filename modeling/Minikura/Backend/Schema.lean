import Mathlib.Data.List.Basic
import Mathlib.Data.List.Nodup

/-!
# Rows and request schemas

The rows of the `Server` and `ReverseProxyServer` tables, with the relations every
query of this development includes, and the inputs of the create and update
requests. A nullable column is an `Option`; an absent field of an update leaves its
column alone, so a nullable field of an update is an option of an option.

## Main definitions

* `operatorResourceName` — the ids that may name a Kubernetes resource.
* `CreateServerInput.accepted`, `UpdateServerInput.accepted` — the request schemas.
* `Server.ofInput`, `Server.update` — the data written by `create` and `update`.
* `Server.Admitted` — what holds of every row written through the schemas.
-/

namespace Minikura.Backend

/-! ## Resource ids -/

def isLowerAlnum (c : Char) : Bool := ('a' ≤ c && c ≤ 'z') || ('0' ≤ c && c ≤ '9')

/-- `/^[a-z0-9](?:[a-z0-9-]*[a-z0-9])?$/` -/
def resourceIdPattern (id : String) : Bool :=
  match id.toList with
  | [] => false
  | c :: cs =>
    isLowerAlnum c &&
      (cs.isEmpty || cs.dropLast.all (fun c => isLowerAlnum c || c == '-') &&
        cs.getLast?.any isLowerAlnum)

def resourceIdAccepted (id : String) : Bool := resourceIdPattern id && id.length ≤ 51

/-! ## Enumerations -/

inductive ServerType where
  | stateful
  | stateless
deriving Repr, DecidableEq

inductive ReverseProxyServerType where
  | velocity
  | bungeecord
deriving Repr, DecidableEq

inductive ServiceType where
  | clusterIp
  | nodePort
  | loadBalancer
deriving Repr, DecidableEq

inductive GameMode where
  | survival
  | creative
  | adventure
  | spectator
deriving Repr, DecidableEq

inductive ServerDifficulty where
  | peaceful
  | easy
  | normal
  | hard
deriving Repr, DecidableEq

inductive MinecraftServerJarType where
  | vanilla
  | paper
  | spigot
  | purpur
  | fabric
  | forge
  | folia
deriving Repr, DecidableEq

def ServerType.name : ServerType → String
  | .stateful => "STATEFUL"
  | .stateless => "STATELESS"

def ReverseProxyServerType.name : ReverseProxyServerType → String
  | .velocity => "VELOCITY"
  | .bungeecord => "BUNGEECORD"

def ServiceType.name : ServiceType → String
  | .clusterIp => "CLUSTER_IP"
  | .nodePort => "NODE_PORT"
  | .loadBalancer => "LOAD_BALANCER"

def GameMode.name : GameMode → String
  | .survival => "SURVIVAL"
  | .creative => "CREATIVE"
  | .adventure => "ADVENTURE"
  | .spectator => "SPECTATOR"

def ServerDifficulty.name : ServerDifficulty → String
  | .peaceful => "PEACEFUL"
  | .easy => "EASY"
  | .normal => "NORMAL"
  | .hard => "HARD"

def MinecraftServerJarType.name : MinecraftServerJarType → String
  | .vanilla => "VANILLA"
  | .paper => "PAPER"
  | .spigot => "SPIGOT"
  | .purpur => "PURPUR"
  | .fabric => "FABRIC"
  | .forge => "FORGE"
  | .folia => "FOLIA"

/-! ## Rows -/

structure EnvVariable where
  key : String
  value : String
deriving Repr, DecidableEq

/-- A `ServerPlugin` row with the download token of its artifact. -/
structure ServerPlugin where
  enabled : Bool
  downloadToken : String
deriving Repr, DecidableEq

structure Server where
  id : String
  type : ServerType
  description : Option String
  listenPort : Int
  memory : Int
  memoryRequest : Int
  cpuRequest : Option String
  cpuLimit : Option String
  serviceType : ServiceType
  nodePort : Option Int
  envVariables : List EnvVariable
  plugins : List ServerPlugin
  apiKey : String
  running : Bool
  jarType : MinecraftServerJarType
  minecraftVersion : String
  jvmOpts : Option String
  useAikarFlags : Bool
  useMeowiceFlags : Bool
  difficulty : ServerDifficulty
  gameMode : GameMode
  maxPlayers : Int
  pvp : Bool
  onlineMode : Bool
  motd : Option String
  levelSeed : Option String
  levelType : Option String
deriving Repr, DecidableEq

structure ReverseProxy where
  id : String
  type : ReverseProxyServerType
  description : Option String
  externalAddress : String
  externalPort : Int
  listenPort : Int
  memory : Int
  cpuRequest : Option String
  cpuLimit : Option String
  serviceType : ServiceType
  nodePort : Option Int
  apiKey : String
  envVariables : List EnvVariable
deriving Repr, DecidableEq

/-! ## Requests -/

/-- The fields that are optional in `createServerSchema`. -/
structure ServerOptions where
  description : Option (Option String) := none
  serviceType : Option ServiceType := none
  nodePort : Option (Option Int) := none
  envVariables : Option (List EnvVariable) := none
  memory : Option Int := none
  memoryRequest : Option Int := none
  cpuRequest : Option String := none
  cpuLimit : Option String := none
  jarType : Option MinecraftServerJarType := none
  minecraftVersion : Option String := none
  jvmOpts : Option String := none
  useAikarFlags : Option Bool := none
  useMeowiceFlags : Option Bool := none
  difficulty : Option ServerDifficulty := none
  gameMode : Option GameMode := none
  maxPlayers : Option Int := none
  pvp : Option Bool := none
  onlineMode : Option Bool := none
  motd : Option String := none
  levelSeed : Option String := none
  levelType : Option String := none
  running : Option Bool := none
deriving Repr, DecidableEq

structure CreateServerInput extends ServerOptions where
  id : String
  listenPort : Int
  type : ServerType
deriving Repr, DecidableEq

structure UpdateServerInput extends ServerOptions where
  listenPort : Option Int := none
deriving Repr, DecidableEq

structure CreateReverseProxyInput where
  id : String
  description : Option (Option String) := none
  externalAddress : String
  externalPort : Int
  listenPort : Option Int := none
  type : Option ReverseProxyServerType := none
  serviceType : Option ServiceType := none
  nodePort : Option (Option Int) := none
  envVariables : Option (List EnvVariable) := none
  memory : Option Int := none
  cpuRequest : Option String := none
  cpuLimit : Option String := none
deriving Repr, DecidableEq

def portAccepted (port : Int) : Bool := 1 ≤ port && port ≤ 65535
def nodePortAccepted (port : Option Int) : Bool := port.all fun p => 30000 ≤ p && p ≤ 32767
def envAccepted (vars : List EnvVariable) : Bool := vars.all fun v => v.key ≠ ""

def ServerOptions.accepted (o : ServerOptions) : Bool :=
  o.nodePort.all nodePortAccepted && o.envVariables.all envAccepted &&
    o.memory.all (256 ≤ ·) && o.memoryRequest.all (256 ≤ ·) &&
    o.maxPlayers.all fun n => 1 ≤ n && n ≤ 1000

/-- `createServerSchema` -/
def CreateServerInput.accepted (i : CreateServerInput) : Bool :=
  resourceIdAccepted i.id && portAccepted i.listenPort && i.toServerOptions.accepted

/-- `updateServerSchema` -/
def UpdateServerInput.accepted (i : UpdateServerInput) : Bool :=
  i.listenPort.all portAccepted && i.toServerOptions.accepted

/-- `createReverseProxySchema` -/
def CreateReverseProxyInput.accepted (i : CreateReverseProxyInput) : Bool :=
  resourceIdAccepted i.id && i.externalAddress ≠ "" && portAccepted i.externalPort &&
    i.listenPort.all portAccepted && i.nodePort.all nodePortAccepted &&
    i.envVariables.all envAccepted && i.memory.all (256 ≤ ·)

/-! ## Data written by the repositories -/

/-- `PrismaServerRepository.create`, for a generated API key. -/
def Server.ofInput (i : CreateServerInput) (token : String) : Server where
  id := i.id
  type := i.type
  description := i.description.join
  listenPort := i.listenPort
  serviceType := i.serviceType.getD .clusterIp
  nodePort := i.nodePort.join
  memory := i.memory.getD 2048
  memoryRequest := i.memoryRequest.getD 1024
  cpuRequest := some (i.cpuRequest.getD "500m")
  cpuLimit := some (i.cpuLimit.getD "2")
  jarType := i.jarType.getD .vanilla
  minecraftVersion := i.minecraftVersion.getD "LATEST"
  jvmOpts := i.jvmOpts
  useAikarFlags := i.useAikarFlags.getD false
  useMeowiceFlags := i.useMeowiceFlags.getD false
  difficulty := i.difficulty.getD .easy
  gameMode := i.gameMode.getD .survival
  maxPlayers := i.maxPlayers.getD 20
  pvp := i.pvp.getD true
  onlineMode := i.onlineMode.getD true
  motd := i.motd
  levelSeed := i.levelSeed
  levelType := i.levelType
  apiKey := token
  running := i.running.getD true
  envVariables := i.envVariables.getD []
  plugins := []

/-- The `data` of `PrismaServerRepository.update`: its fields but `env_variables`. -/
def Server.update (s : Server) (i : UpdateServerInput) : Server :=
  { s with
    description := i.description.getD s.description
    listenPort := i.listenPort.getD s.listenPort
    serviceType := i.serviceType.getD s.serviceType
    nodePort := i.nodePort.getD s.nodePort
    memory := i.memory.getD s.memory
    memoryRequest := i.memoryRequest.getD s.memoryRequest
    cpuRequest := i.cpuRequest.or s.cpuRequest
    cpuLimit := i.cpuLimit.or s.cpuLimit
    jarType := i.jarType.getD s.jarType
    minecraftVersion := i.minecraftVersion.getD s.minecraftVersion
    jvmOpts := i.jvmOpts.or s.jvmOpts
    useAikarFlags := i.useAikarFlags.getD s.useAikarFlags
    useMeowiceFlags := i.useMeowiceFlags.getD s.useMeowiceFlags
    difficulty := i.difficulty.getD s.difficulty
    gameMode := i.gameMode.getD s.gameMode
    maxPlayers := i.maxPlayers.getD s.maxPlayers
    pvp := i.pvp.getD s.pvp
    onlineMode := i.onlineMode.getD s.onlineMode
    motd := i.motd.or s.motd
    levelSeed := i.levelSeed.or s.levelSeed
    levelType := i.levelType.or s.levelType
    running := i.running.getD s.running }

/-- `PrismaReverseProxyRepository.create`, for a generated API key. -/
def ReverseProxy.ofInput (i : CreateReverseProxyInput) (token : String) : ReverseProxy where
  id := i.id
  type := i.type.getD .velocity
  description := i.description.join
  externalAddress := i.externalAddress
  externalPort := i.externalPort
  listenPort := i.listenPort.getD 25565
  serviceType := i.serviceType.getD .loadBalancer
  nodePort := i.nodePort.join
  memory := i.memory.getD 512
  cpuRequest := some (i.cpuRequest.getD "250m")
  cpuLimit := some (i.cpuLimit.getD "500m")
  apiKey := token
  envVariables := i.envVariables.getD []

/-! ## What the database can hold -/

def fitsInt4 (n : Int) : Bool := -2147483648 ≤ n && n ≤ 2147483647

/-- The `INTEGER` columns and the unique index on key and server. -/
def Server.storable (s : Server) : Bool :=
  fitsInt4 s.listenPort && fitsInt4 s.memory && fitsInt4 s.memoryRequest &&
    fitsInt4 s.maxPlayers && s.nodePort.all fitsInt4 &&
    decide (s.envVariables.map (·.key)).Nodup

def ReverseProxy.storable (p : ReverseProxy) : Bool :=
  fitsInt4 p.externalPort && fitsInt4 p.listenPort && fitsInt4 p.memory &&
    p.nodePort.all fitsInt4 && decide (p.envVariables.map (·.key)).Nodup

/-- A row whose every column went through the schemas and into the database. -/
structure Server.Admitted (s : Server) : Prop where
  id : resourceIdAccepted s.id
  listenPort : portAccepted s.listenPort
  nodePort : nodePortAccepted s.nodePort
  env : envAccepted s.envVariables
  memory : 256 ≤ s.memory
  memoryRequest : 256 ≤ s.memoryRequest
  maxPlayers : 1 ≤ s.maxPlayers ∧ s.maxPlayers ≤ 1000
  storable : s.storable

theorem Server.admitted_ofInput {i : CreateServerInput} {token : String}
    (h : i.accepted) (hs : (Server.ofInput i token).storable) :
    (Server.ofInput i token).Admitted := by
  simp only [CreateServerInput.accepted, ServerOptions.accepted, Bool.and_eq_true] at h
  obtain ⟨⟨hid, hport⟩, ⟨⟨⟨hnode, henv⟩, hmem⟩, hreq⟩, hplayers⟩ := h
  refine ⟨hid, hport, ?_, ?_, ?_, ?_, ?_, hs⟩
  · cases hn : i.nodePort <;> simp_all [Server.ofInput, nodePortAccepted]
  · cases hn : i.envVariables <;> simp_all [Server.ofInput, envAccepted]
  · cases hn : i.memory <;> simp_all [Server.ofInput]
  · cases hn : i.memoryRequest <;> simp_all [Server.ofInput]
  · cases hn : i.maxPlayers <;> simp_all [Server.ofInput]

theorem Server.Admitted.update {s : Server} {i : UpdateServerInput} (hs : s.Admitted)
    (h : i.accepted) (hi : (s.update i).storable) : (s.update i).Admitted := by
  simp only [UpdateServerInput.accepted, ServerOptions.accepted, Bool.and_eq_true] at h
  obtain ⟨hport, ⟨⟨⟨hnode, henv⟩, hmem⟩, hreq⟩, hplayers⟩ := h
  obtain ⟨sid, sport, snode, senv, smem, sreq, splayers, -⟩ := hs
  refine ⟨sid, ?_, ?_, senv, ?_, ?_, ?_, hi⟩
  · cases hn : i.listenPort <;> simp_all [Server.update]
  · cases hn : i.nodePort <;> simp_all [Server.update]
  · cases hn : i.memory <;> simp_all [Server.update]
  · cases hn : i.memoryRequest <;> simp_all [Server.update]
  · cases hn : i.maxPlayers <;> simp_all [Server.update]

/-- Any list of variables the schema accepts may take the place of the present one. -/
theorem Server.Admitted.withEnv {s : Server} {vars : List EnvVariable} (hs : s.Admitted)
    (h : envAccepted vars) (hn : (vars.map (·.key)).Nodup) :
    { s with envVariables := vars }.Admitted := by
  obtain ⟨sid, sport, snode, -, smem, sreq, splayers, sstore⟩ := hs
  refine ⟨sid, sport, snode, h, smem, sreq, splayers, ?_⟩
  simp only [Server.storable, Bool.and_eq_true, decide_eq_true_eq] at sstore ⊢
  exact ⟨sstore.1, hn⟩

end Minikura.Backend
