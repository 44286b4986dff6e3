import Minikura.Backend.Schema
import Minikura.Data.NumberText
import Minikura.Data.OrderedMap

/-!
# The server form

The create page and the edit page share a form. Its data go into the fields of a request, most
of them as environment variables under managed keys, and a row comes back into the data of the
form. An absent field of a request is not sent; a number that is not finite is sent as null.
The order of the variables is lost in the database and only partly that of the source here.

## Main definitions

* `ServerFormData`, `ManagedKey` — the data of the form and the keys it manages.
* `toCommonServerRequestFields` — from the data to the fields of a request.
* `toInitialServerFormData`, `serverForm` — from a row to the data, and to the form's first state.
* `createServer`, `patchServer` — the row that a request makes.
-/

namespace Minikura.Web

open Backend (EnvVariable ServiceType ServerDifficulty GameMode MinecraftServerJarType Server)

/-! ## Data -/

inductive ServerType where
  | vanilla
  | paper
  | spigot
  | purpur
  | fabric
  | custom
deriving Repr, DecidableEq

structure ServerFormData where
  id : String
  description : String
  memoryLimit : String
  memoryRequest : String
  cpuRequest : String
  cpuLimit : String
  type : ServerType
  version : Option String := none
  customJarUrl : Option String := none
  eula : Bool
  listenPort : String
  serviceType : ServiceType
  nodePort : Option String := none
  motd : Option String := none
  difficulty : ServerDifficulty
  mode : GameMode
  maxPlayers : String
  pvp : Bool
  onlineMode : Bool
  allowFlight : Bool
  enableCommandBlock : Bool
  spawnProtection : String
  viewDistance : String
  simulationDistance : String
  levelName : String
  levelSeed : Option String := none
  levelType : Option String := none
  generatorSettings : Option String := none
  hardcore : Bool
  spawnAnimals : Bool
  spawnMonsters : Bool
  spawnNpcs : Bool
  enableWhitelist : Bool
  whitelist : Option String := none
  whitelistFile : Option String := none
  ops : Option String := none
  opsFile : Option String := none
  useAikarFlags : Bool
  useMeowiceFlags : Bool
  jvmOpts : Option String := none
  jvmXxOpts : Option String := none
  jvmDdOpts : Option String := none
  resourcePack : Option String := none
  resourcePackSha1 : Option String := none
  resourcePackEnforce : Bool
  enableRcon : Bool
  rconPassword : Option String := none
  rconPort : String
  rconCmdsStartup : Option String := none
  rconCmdsOnConnect : Option String := none
  rconCmdsFirstConnect : Option String := none
  rconCmdsOnDisconnect : Option String := none
  rconCmdsLastDisconnect : Option String := none
  enableQuery : Bool
  queryPort : String
  enableAutopause : Bool
  autopauseTimeoutEst : String
  autopauseTimeoutInit : String
  autopauseTimeoutKn : String
  autopausePeriod : String
  autopauseKnockInterface : String
  enableAutostop : Bool
  autostopTimeoutEst : String
  autostopTimeoutInit : String
  autostopPeriod : String
  plugins : Option String := none
  removeOldPlugins : Bool
  spigetResources : Option String := none
  paperBuild : Option String := none
  timezone : String
  uid : String
  gid : String
  enableJmx : Bool
  stopDuration : String
  serverIcon : Option String := none
  envVars : List EnvVariable

/-- `MANAGED_ENVIRONMENT_KEYS` -/
inductive ManagedKey where
  | eula | type | version | customServer | motd | difficulty | mode | maxPlayers | pvp
  | onlineMode | allowFlight | enableCommandBlock | spawnProtection | viewDistance
  | simulationDistance | level | seed | levelType | generatorSettings | hardcore | spawnAnimals
  | spawnMonsters | spawnNpcs | enableWhitelist | whitelist | whitelistFile | ops | opsFile
  | useAikarFlags | useMeowiceFlags | jvmOpts | jvmXxOpts | jvmDdOpts | enableJmx
  | resourcePack | resourcePackSha1 | resourcePackEnforce | enableRcon | rconPassword
  | rconPort | rconCmdsStartup | rconCmdsOnConnect | rconCmdsFirstConnect
  | rconCmdsOnDisconnect | rconCmdsLastDisconnect | enableQuery | queryPort | enableAutopause
  | autopauseTimeoutEst | autopauseTimeoutInit | autopauseTimeoutKn | autopausePeriod
  | autopauseKnockInterface | enableAutostop | autostopTimeoutEst | autostopTimeoutInit
  | autostopPeriod | plugins | removeOldPlugins | spigetResources | paperBuild | tz | uid | gid
  | stopDuration | icon
deriving DecidableEq

def ManagedKey.name : ManagedKey → String
  | .eula => "EULA"
  | .type => "TYPE"
  | .version => "VERSION"
  | .customServer => "CUSTOM_SERVER"
  | .motd => "MOTD"
  | .difficulty => "DIFFICULTY"
  | .mode => "MODE"
  | .maxPlayers => "MAX_PLAYERS"
  | .pvp => "PVP"
  | .onlineMode => "ONLINE_MODE"
  | .allowFlight => "ALLOW_FLIGHT"
  | .enableCommandBlock => "ENABLE_COMMAND_BLOCK"
  | .spawnProtection => "SPAWN_PROTECTION"
  | .viewDistance => "VIEW_DISTANCE"
  | .simulationDistance => "SIMULATION_DISTANCE"
  | .level => "LEVEL"
  | .seed => "SEED"
  | .levelType => "LEVEL_TYPE"
  | .generatorSettings => "GENERATOR_SETTINGS"
  | .hardcore => "HARDCORE"
  | .spawnAnimals => "SPAWN_ANIMALS"
  | .spawnMonsters => "SPAWN_MONSTERS"
  | .spawnNpcs => "SPAWN_NPCS"
  | .enableWhitelist => "ENABLE_WHITELIST"
  | .whitelist => "WHITELIST"
  | .whitelistFile => "WHITELIST_FILE"
  | .ops => "OPS"
  | .opsFile => "OPS_FILE"
  | .useAikarFlags => "USE_AIKAR_FLAGS"
  | .useMeowiceFlags => "USE_MEOWICE_FLAGS"
  | .jvmOpts => "JVM_OPTS"
  | .jvmXxOpts => "JVM_XX_OPTS"
  | .jvmDdOpts => "JVM_DD_OPTS"
  | .enableJmx => "ENABLE_JMX"
  | .resourcePack => "RESOURCE_PACK"
  | .resourcePackSha1 => "RESOURCE_PACK_SHA1"
  | .resourcePackEnforce => "RESOURCE_PACK_ENFORCE"
  | .enableRcon => "ENABLE_RCON"
  | .rconPassword => "RCON_PASSWORD"
  | .rconPort => "RCON_PORT"
  | .rconCmdsStartup => "RCON_CMDS_STARTUP"
  | .rconCmdsOnConnect => "RCON_CMDS_ON_CONNECT"
  | .rconCmdsFirstConnect => "RCON_CMDS_FIRST_CONNECT"
  | .rconCmdsOnDisconnect => "RCON_CMDS_ON_DISCONNECT"
  | .rconCmdsLastDisconnect => "RCON_CMDS_LAST_DISCONNECT"
  | .enableQuery => "ENABLE_QUERY"
  | .queryPort => "QUERY_PORT"
  | .enableAutopause => "ENABLE_AUTOPAUSE"
  | .autopauseTimeoutEst => "AUTOPAUSE_TIMEOUT_EST"
  | .autopauseTimeoutInit => "AUTOPAUSE_TIMEOUT_INIT"
  | .autopauseTimeoutKn => "AUTOPAUSE_TIMEOUT_KN"
  | .autopausePeriod => "AUTOPAUSE_PERIOD"
  | .autopauseKnockInterface => "AUTOPAUSE_KNOCK_INTERFACE"
  | .enableAutostop => "ENABLE_AUTOSTOP"
  | .autostopTimeoutEst => "AUTOSTOP_TIMEOUT_EST"
  | .autostopTimeoutInit => "AUTOSTOP_TIMEOUT_INIT"
  | .autostopPeriod => "AUTOSTOP_PERIOD"
  | .plugins => "PLUGINS"
  | .removeOldPlugins => "REMOVE_OLD_PLUGINS"
  | .spigetResources => "SPIGET_RESOURCES"
  | .paperBuild => "PAPER_BUILD"
  | .tz => "TZ"
  | .uid => "UID"
  | .gid => "GID"
  | .stopDuration => "STOP_DURATION"
  | .icon => "ICON"

def ManagedKey.all : List ManagedKey := [
  .eula, .type, .version, .customServer, .motd, .difficulty, .mode, .maxPlayers, .pvp,
  .onlineMode, .allowFlight, .enableCommandBlock, .spawnProtection, .viewDistance,
  .simulationDistance, .level, .seed, .levelType, .generatorSettings, .hardcore, .spawnAnimals,
  .spawnMonsters, .spawnNpcs, .enableWhitelist, .whitelist, .whitelistFile, .ops, .opsFile,
  .useAikarFlags, .useMeowiceFlags, .jvmOpts, .jvmXxOpts, .jvmDdOpts, .enableJmx,
  .resourcePack, .resourcePackSha1, .resourcePackEnforce, .enableRcon, .rconPassword,
  .rconPort, .rconCmdsStartup, .rconCmdsOnConnect, .rconCmdsFirstConnect,
  .rconCmdsOnDisconnect, .rconCmdsLastDisconnect, .enableQuery, .queryPort, .enableAutopause,
  .autopauseTimeoutEst, .autopauseTimeoutInit, .autopauseTimeoutKn, .autopausePeriod,
  .autopauseKnockInterface, .enableAutostop, .autostopTimeoutEst, .autostopTimeoutInit,
  .autostopPeriod, .plugins, .removeOldPlugins, .spigetResources, .paperBuild, .tz, .uid, .gid,
  .stopDuration, .icon]

/-- `MANAGED_ENVIRONMENT_KEYS.has(key)` -/
def isManaged (key : String) : Bool := ManagedKey.all.any (·.name == key)

/-! ## Truthy texts -/

def nonBlank (t : String) : Option String := if t = "" then none else some t

/-- `t || undefined` -/
def truthy (t : Option String) : Option String := t.bind nonBlank

def whenTrue (b : Bool) : Option String := if b then some "true" else none

@[simp] theorem nonBlank_of_ne {t : String} (h : t ≠ "") : nonBlank t = some t := if_neg h

@[simp] theorem truthy_none : truthy none = none := rfl

@[simp] theorem truthy_some (t : String) : truthy (some t) = nonBlank t := rfl

theorem nonBlank_eq_some {t u : String} : nonBlank t = some u ↔ t = u ∧ u ≠ "" := by
  unfold nonBlank
  split_ifs <;> grind

theorem truthy_eq_some {t : Option String} {u : String} :
    truthy t = some u ↔ t = some u ∧ u ≠ "" := by
  cases t with
  | none => simp
  | some t => simp [nonBlank_eq_some]

@[simp] theorem truthy_nonBlank (t : String) : truthy (nonBlank t) = nonBlank t := by
  by_cases h : t = ""
  · subst h
    rfl
  · simp [h]

@[simp] theorem truthy_truthy (t : Option String) : truthy (truthy t) = truthy t := by
  cases t <;> simp

theorem getD_truthy_ne {t : Option String} {u : String} (h : u ≠ "") : (truthy t).getD u ≠ "" := by
  cases ht : truthy t with
  | none => exact h
  | some v => exact (truthy_eq_some.mp ht).2

/-! ## Enumerations -/

def ServerType.name : ServerType → String
  | .vanilla => "VANILLA"
  | .paper => "PAPER"
  | .spigot => "SPIGOT"
  | .purpur => "PURPUR"
  | .fabric => "FABRIC"
  | .custom => "CUSTOM"

def ServerType.jarType : ServerType → MinecraftServerJarType
  | .vanilla => .vanilla
  | .paper => .paper
  | .spigot => .spigot
  | .purpur => .purpur
  | .fabric => .fabric
  | .custom => .vanilla

def normalizeServerType (value : String) : ServerType :=
  match value with
  | "VANILLA" => .vanilla
  | "PAPER" => .paper
  | "SPIGOT" => .spigot
  | "PURPUR" => .purpur
  | "FABRIC" => .fabric
  | "CUSTOM" => .custom
  | _ => .paper

def normalizeDifficulty (value : String) : ServerDifficulty :=
  match value.toLower with
  | "peaceful" => .peaceful
  | "easy" => .easy
  | "normal" => .normal
  | "hard" => .hard
  | _ => .easy

def normalizeMode (value : String) : GameMode :=
  match value.toLower with
  | "survival" => .survival
  | "creative" => .creative
  | "adventure" => .adventure
  | "spectator" => .spectator
  | _ => .survival

/-! ## Requests -/

/-- What the form puts under a managed key. -/
def managedValue (data : ServerFormData) : ManagedKey → Option String
  | .allowFlight => whenTrue data.allowFlight
  | .enableCommandBlock => whenTrue data.enableCommandBlock
  | .spawnProtection => nonBlank data.spawnProtection
  | .viewDistance => nonBlank data.viewDistance
  | .simulationDistance => nonBlank data.simulationDistance
  | .level => nonBlank data.levelName
  | .seed => truthy data.levelSeed
  | .levelType => truthy data.levelType
  | .generatorSettings => truthy data.generatorSettings
  | .hardcore => whenTrue data.hardcore
  | .spawnAnimals => some (toString data.spawnAnimals)
  | .spawnMonsters => some (toString data.spawnMonsters)
  | .spawnNpcs => some (toString data.spawnNpcs)
  | .enableWhitelist => whenTrue data.enableWhitelist
  | .whitelist => truthy data.whitelist
  | .whitelistFile => truthy data.whitelistFile
  | .ops => truthy data.ops
  | .opsFile => truthy data.opsFile
  | .jvmXxOpts => truthy data.jvmXxOpts
  | .jvmDdOpts => truthy data.jvmDdOpts
  | .enableJmx => whenTrue data.enableJmx
  | .resourcePack => truthy data.resourcePack
  | .resourcePackSha1 => truthy data.resourcePackSha1
  | .resourcePackEnforce => whenTrue data.resourcePackEnforce
  | .enableRcon => some (toString data.enableRcon)
  | .rconPassword => truthy data.rconPassword
  | .rconPort => nonBlank data.rconPort
  | .rconCmdsStartup => truthy data.rconCmdsStartup
  | .rconCmdsOnConnect => truthy data.rconCmdsOnConnect
  | .rconCmdsFirstConnect => truthy data.rconCmdsFirstConnect
  | .rconCmdsOnDisconnect => truthy data.rconCmdsOnDisconnect
  | .rconCmdsLastDisconnect => truthy data.rconCmdsLastDisconnect
  | .enableQuery => some (toString data.enableQuery)
  | .queryPort => nonBlank data.queryPort
  | .enableAutopause => whenTrue data.enableAutopause
  | .autopauseTimeoutEst => nonBlank data.autopauseTimeoutEst
  | .autopauseTimeoutInit => nonBlank data.autopauseTimeoutInit
  | .autopauseTimeoutKn => nonBlank data.autopauseTimeoutKn
  | .autopausePeriod => nonBlank data.autopausePeriod
  | .autopauseKnockInterface => nonBlank data.autopauseKnockInterface
  | .enableAutostop => whenTrue data.enableAutostop
  | .autostopTimeoutEst => nonBlank data.autostopTimeoutEst
  | .autostopTimeoutInit => nonBlank data.autostopTimeoutInit
  | .autostopPeriod => nonBlank data.autostopPeriod
  | .plugins => truthy data.plugins
  | .removeOldPlugins => whenTrue data.removeOldPlugins
  | .spigetResources => truthy data.spigetResources
  | .paperBuild => truthy data.paperBuild
  | .customServer => if data.type = .custom then truthy data.customJarUrl else none
  | .tz => nonBlank data.timezone
  | .uid => nonBlank data.uid
  | .gid => nonBlank data.gid
  | .stopDuration => nonBlank data.stopDuration
  | .icon => truthy data.serverIcon
  | .eula => some (toString data.eula)
  | .type => some data.type.name
  | .version =>
    if data.type = .custom then (truthy data.customJarUrl).map fun _ => ""
    else truthy data.version
  | .motd | .difficulty | .mode | .maxPlayers | .pvp | .onlineMode | .useAikarFlags
  | .useMeowiceFlags | .jvmOpts => none

/-- A custom server without a jar throws. -/
def toManagedEnvironmentVariables (data : ServerFormData) : Option (List (String × String)) :=
  if data.type = .custom ∧ truthy data.customJarUrl = none then none
  else some (ManagedKey.all.filterMap fun k => (managedValue data k).map (k.name, ·))

/-- `environment[key] = value`; a text is no prototype and is not stored as one. -/
def setProperty (environment : List (String × String)) (key value : String) :
    List (String × String) :=
  if key = "__proto__" then environment else setEntry environment key value

def filterCustomEnvironmentVariables (vars : List EnvVariable) : List EnvVariable :=
  vars.filter (!isManaged ·.key)

structure CommonServerRequestFields where
  description : Option String
  listenPort : Option ℚ
  serviceType : ServiceType
  nodePort : Option ℚ
  envVariables : List EnvVariable
  memory : Option (Option ℚ)
  memoryRequest : Option (Option ℚ)
  cpuRequest : Option String
  cpuLimit : Option String
  jarType : MinecraftServerJarType
  minecraftVersion : Option String
  jvmOpts : Option String
  useAikarFlags : Option Bool
  useMeowiceFlags : Option Bool
  difficulty : ServerDifficulty
  gameMode : GameMode
  maxPlayers : Option (Option ℚ)
  pvp : Bool
  onlineMode : Bool
  motd : Option String
  levelSeed : Option String
  levelType : Option String

def environmentOf (managed : List (String × String)) (envVars : List EnvVariable) :
    List (String × String) :=
  envVars.foldl (fun environment v =>
    if v.key ≠ "" ∧ v.value ≠ "" then setProperty environment v.key v.value
    else environment) managed

/-- The fields of a request, with the variables of the environment. -/
def requestFields (data : ServerFormData) (environment : List (String × String)) :
    CommonServerRequestFields where
  description := nonBlank (trim data.description)
  listenPort := numberOf data.listenPort
  serviceType := data.serviceType
  nodePort := if data.serviceType = .nodePort then (truthy data.nodePort).bind numberOf else none
  envVariables := environment.map fun (key, value) => ⟨key, value⟩
  memory := (nonBlank data.memoryLimit).map numberOf
  memoryRequest := (nonBlank data.memoryRequest).map numberOf
  cpuRequest := nonBlank data.cpuRequest
  cpuLimit := nonBlank data.cpuLimit
  jarType := data.type.jarType
  minecraftVersion :=
    if data.type = .custom then none else some ((truthy data.version).getD "LATEST")
  jvmOpts := truthy data.jvmOpts
  useAikarFlags := if data.useAikarFlags then some true else none
  useMeowiceFlags := if data.useMeowiceFlags then some true else none
  difficulty := data.difficulty
  gameMode := data.mode
  maxPlayers := (nonBlank data.maxPlayers).map numberOf
  pvp := data.pvp
  onlineMode := data.onlineMode
  motd := data.motd
  levelSeed := data.levelSeed
  levelType := data.levelType

def toCommonServerRequestFields (data : ServerFormData) : Option CommonServerRequestFields :=
  (toManagedEnvironmentVariables data).map fun managed =>
    requestFields data (environmentOf managed data.envVars)

/-! ## Rows -/

/-- `z.number().int()` -/
def integer (n : Option ℚ) : Option Int := n.bind fun q => if q.den = 1 then some q.num else none

/-- `z.union([z.number().int(), z.null()])` -/
def integerOrNull : Option ℚ → Option (Option Int)
  | none => some none
  | some n => (integer (some n)).map some

/-- The optional fields of the request, with their integers. -/
def CommonServerRequestFields.options (fields : CommonServerRequestFields)
    (nodePort memory memoryRequest maxPlayers : Option Int) : Backend.ServerOptions where
  description := some fields.description
  serviceType := some fields.serviceType
  nodePort := some nodePort
  envVariables := some fields.envVariables
  memory := memory
  memoryRequest := memoryRequest
  cpuRequest := fields.cpuRequest
  cpuLimit := fields.cpuLimit
  jarType := some fields.jarType
  minecraftVersion := fields.minecraftVersion
  jvmOpts := fields.jvmOpts
  useAikarFlags := fields.useAikarFlags
  useMeowiceFlags := fields.useMeowiceFlags
  difficulty := some fields.difficulty
  gameMode := some fields.gameMode
  maxPlayers := maxPlayers
  pvp := some fields.pvp
  onlineMode := some fields.onlineMode
  motd := fields.motd
  levelSeed := fields.levelSeed
  levelType := fields.levelType

/-- The fields as the schemas read them, with the port that is not optional. -/
def CommonServerRequestFields.parse (fields : CommonServerRequestFields) :
    Option (Int × Backend.ServerOptions) := do
  let listenPort ← integer fields.listenPort
  let nodePort ← integerOrNull fields.nodePort
  let memory ← fields.memory.traverse integer
  let memoryRequest ← fields.memoryRequest.traverse integer
  let maxPlayers ← fields.maxPlayers.traverse integer
  return (listenPort, fields.options nodePort memory memoryRequest maxPlayers)

/-- The checks of `handleSubmit` in the form. -/
def formAccepts (data : ServerFormData) : Bool :=
  trim data.id ≠ "" &&
    data.id.toList.all (fun c => c.isAlphanum || c == '-' || c == '_') && data.eula &&
    !(data.type = .custom && trim (data.customJarUrl.getD "") = "")

/-- The row that a request to create a server makes, for a generated API key. -/
def createServer (data : ServerFormData) (token : String) : Option Server := do
  let fields ← toCommonServerRequestFields data
  let (listenPort, options) ← fields.parse
  let input : Backend.CreateServerInput :=
    { options with id := trim data.id, listenPort := listenPort, type := .stateful }
  if input.accepted && (Server.ofInput input token).storable then
    some (Server.ofInput input token)
  else none

/-- The row of the create page, if it accepts the data. -/
def createPage (data : ServerFormData) (token : String) : Option Server :=
  if formAccepts data then createServer data token else none

/-- The row after a request of the edit page, if it succeeds. -/
def patchServer (server : Server) (data : ServerFormData) : Option Server := do
  let fields ← toCommonServerRequestFields data
  let (listenPort, options) ← fields.parse
  let input : Backend.UpdateServerInput := { options with listenPort := some listenPort }
  let updated := { server.update input with envVariables := fields.envVariables }
  if input.accepted && updated.storable then some updated else none

/-! ## From a row to the form -/

/-- `Object.fromEntries(...)` -/
def variableAt (vars : List EnvVariable) (key : String) : Option String :=
  (setEntries [] (vars.map fun v => (v.key, v.value))).lookup key

def environmentValue (vars : List EnvVariable) (k : ManagedKey) : Option String :=
  variableAt vars k.name

/-- `n || m` -/
def orNumber (n m : Int) : Int := if n = 0 then m else n

def initialData (server : Server) (environment : ManagedKey → Option String) :
    ServerFormData where
  id := server.id
  description := (truthy server.description).getD ""
  memoryLimit := toString (orNumber server.memory 2048)
  memoryRequest := toString server.memoryRequest
  cpuRequest := (truthy server.cpuRequest).getD "500m"
  cpuLimit := (truthy server.cpuLimit).getD "2"
  type := normalizeServerType ((truthy (environment .type)).getD server.jarType.name)
  version := some ((truthy (environment .version)).getD server.minecraftVersion)
  customJarUrl := truthy (environment .customServer)
  eula := environment .eula == some "true"
  listenPort := toString (orNumber server.listenPort 25565)
  serviceType := server.serviceType
  nodePort := (server.nodePort.filter (· ≠ 0)).map toString
  motd := (truthy (environment .motd)).or (truthy server.motd)
  difficulty :=
    normalizeDifficulty ((truthy (environment .difficulty)).getD server.difficulty.name)
  mode := normalizeMode ((truthy (environment .mode)).getD server.gameMode.name)
  maxPlayers :=
    (truthy (environment .maxPlayers)).getD (toString (orNumber server.maxPlayers 20))
  pvp := (truthy (environment .pvp)).elim server.pvp (· == "true")
  onlineMode := (truthy (environment .onlineMode)).elim server.onlineMode (· == "true")
  allowFlight := environment .allowFlight == some "true"
  enableCommandBlock := environment .enableCommandBlock == some "true"
  spawnProtection := (truthy (environment .spawnProtection)).getD "16"
  viewDistance := (truthy (environment .viewDistance)).getD "10"
  simulationDistance := (truthy (environment .simulationDistance)).getD "10"
  levelName := (truthy (environment .level)).getD "world"
  levelSeed := (truthy (environment .seed)).or (truthy server.levelSeed)
  levelType := (truthy (environment .levelType)).or (truthy server.levelType)
  generatorSettings := truthy (environment .generatorSettings)
  hardcore := environment .hardcore == some "true"
  spawnAnimals := environment .spawnAnimals != some "false"
  spawnMonsters := environment .spawnMonsters != some "false"
  spawnNpcs := environment .spawnNpcs != some "false"
  enableWhitelist := environment .enableWhitelist == some "true"
  whitelist := truthy (environment .whitelist)
  whitelistFile := truthy (environment .whitelistFile)
  ops := truthy (environment .ops)
  opsFile := truthy (environment .opsFile)
  useAikarFlags := environment .useAikarFlags == some "true" || server.useAikarFlags
  useMeowiceFlags := environment .useMeowiceFlags == some "true" || server.useMeowiceFlags
  jvmOpts := (truthy (environment .jvmOpts)).or (truthy server.jvmOpts)
  jvmXxOpts := truthy (environment .jvmXxOpts)
  jvmDdOpts := truthy (environment .jvmDdOpts)
  enableJmx := environment .enableJmx == some "true"
  resourcePack := truthy (environment .resourcePack)
  resourcePackSha1 := truthy (environment .resourcePackSha1)
  resourcePackEnforce := environment .resourcePackEnforce == some "true"
  enableRcon := environment .enableRcon != some "false"
  rconPassword := truthy (environment .rconPassword)
  rconPort := (truthy (environment .rconPort)).getD "25575"
  rconCmdsStartup := truthy (environment .rconCmdsStartup)
  rconCmdsOnConnect := truthy (environment .rconCmdsOnConnect)
  rconCmdsFirstConnect := truthy (environment .rconCmdsFirstConnect)
  rconCmdsOnDisconnect := truthy (environment .rconCmdsOnDisconnect)
  rconCmdsLastDisconnect := truthy (environment .rconCmdsLastDisconnect)
  enableQuery := environment .enableQuery == some "true"
  queryPort := (truthy (environment .queryPort)).getD "25565"
  enableAutopause := environment .enableAutopause == some "true"
  autopauseTimeoutEst := (truthy (environment .autopauseTimeoutEst)).getD "3600"
  autopauseTimeoutInit := (truthy (environment .autopauseTimeoutInit)).getD "600"
  autopauseTimeoutKn := (truthy (environment .autopauseTimeoutKn)).getD "120"
  autopausePeriod := (truthy (environment .autopausePeriod)).getD "10"
  autopauseKnockInterface := (truthy (environment .autopauseKnockInterface)).getD "eth0"
  enableAutostop := environment .enableAutostop == some "true"
  autostopTimeoutEst := (truthy (environment .autostopTimeoutEst)).getD "3600"
  autostopTimeoutInit := (truthy (environment .autostopTimeoutInit)).getD "1800"
  autostopPeriod := (truthy (environment .autostopPeriod)).getD "10"
  plugins := truthy (environment .plugins)
  removeOldPlugins := environment .removeOldPlugins == some "true"
  spigetResources := truthy (environment .spigetResources)
  paperBuild := truthy (environment .paperBuild)
  timezone := (truthy (environment .tz)).getD "UTC"
  uid := (truthy (environment .uid)).getD "1000"
  gid := (truthy (environment .gid)).getD "1000"
  stopDuration := (truthy (environment .stopDuration)).getD "60"
  serverIcon := truthy (environment .icon)
  envVars := filterCustomEnvironmentVariables server.envVariables

def toInitialServerFormData (server : Server) : ServerFormData :=
  initialData server (environmentValue server.envVariables)

/-- The first state of `ServerForm`. Fields that it leaves out are absent. -/
def serverForm (initial : ServerFormData) : ServerFormData where
  id := initial.id
  description := initial.description
  memoryLimit := (nonBlank initial.memoryLimit).getD "2048"
  memoryRequest := (nonBlank initial.memoryRequest).getD "1024"
  cpuRequest := (nonBlank initial.cpuRequest).getD "500m"
  cpuLimit := (nonBlank initial.cpuLimit).getD "2"
  type := initial.type
  version :=
    some (if initial.type = .custom then "" else (truthy initial.version).getD "LATEST")
  eula := initial.eula
  listenPort := (nonBlank initial.listenPort).getD "25565"
  serviceType := initial.serviceType
  difficulty := initial.difficulty
  mode := initial.mode
  maxPlayers := (nonBlank initial.maxPlayers).getD "20"
  pvp := initial.pvp
  onlineMode := initial.onlineMode
  allowFlight := initial.allowFlight
  enableCommandBlock := initial.enableCommandBlock
  spawnProtection := (nonBlank initial.spawnProtection).getD "16"
  viewDistance := (nonBlank initial.viewDistance).getD "10"
  simulationDistance := (nonBlank initial.simulationDistance).getD "10"
  levelName := (nonBlank initial.levelName).getD "world"
  hardcore := initial.hardcore
  spawnAnimals := initial.spawnAnimals
  spawnMonsters := initial.spawnMonsters
  spawnNpcs := initial.spawnNpcs
  enableWhitelist := initial.enableWhitelist
  useAikarFlags := initial.useAikarFlags
  useMeowiceFlags := initial.useMeowiceFlags
  resourcePackEnforce := initial.resourcePackEnforce
  enableRcon := initial.enableRcon
  rconPort := (nonBlank initial.rconPort).getD "25575"
  enableQuery := initial.enableQuery
  queryPort := (nonBlank initial.queryPort).getD "25565"
  enableAutopause := initial.enableAutopause
  autopauseTimeoutEst := (nonBlank initial.autopauseTimeoutEst).getD "3600"
  autopauseTimeoutInit := (nonBlank initial.autopauseTimeoutInit).getD "600"
  autopauseTimeoutKn := (nonBlank initial.autopauseTimeoutKn).getD "120"
  autopausePeriod := (nonBlank initial.autopausePeriod).getD "10"
  autopauseKnockInterface := (nonBlank initial.autopauseKnockInterface).getD "eth0"
  enableAutostop := initial.enableAutostop
  autostopTimeoutEst := (nonBlank initial.autostopTimeoutEst).getD "3600"
  autostopTimeoutInit := (nonBlank initial.autostopTimeoutInit).getD "1800"
  autostopPeriod := (nonBlank initial.autostopPeriod).getD "10"
  removeOldPlugins := initial.removeOldPlugins
  timezone := (nonBlank initial.timezone).getD "UTC"
  uid := (nonBlank initial.uid).getD "1000"
  gid := (nonBlank initial.gid).getD "1000"
  enableJmx := initial.enableJmx
  stopDuration := (nonBlank initial.stopDuration).getD "60"
  customJarUrl := some ((truthy initial.customJarUrl).getD "")
  envVars := initial.envVars

end Minikura.Web
