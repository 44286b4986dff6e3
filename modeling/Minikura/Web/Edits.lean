import Mathlib.Control.Traversable.Instances
import Minikura.Web.Environment

/-!
# What an edit changes

The edit page sends the data of the form, and the next visit reads the row again. A field that
is not sent keeps the value of its column, so what was cleared or switched off can come back.

## Main definitions

* `Submitted` — data as the edit page sends them.
* `TakesEffect` — the data that are read back agree with those that were sent.

## Main results

* `toInitialServerFormData_patchServer` — what is read back after an edit.
* `patchServer_takesEffect_iff` — an edit takes effect just if no old column shows through.
-/

namespace Minikura.Web

open Backend (EnvVariable Server)

/-- A number, and written as the page writes it if it is an integer. -/
def IsCanonical (t : String) : Prop := ∃ q, numberOf t = some q ∧ ∀ n : Int, q = n → t = toString n

structure Submitted (f : ServerFormData) : Prop where
  memoryLimit : IsCanonical f.memoryLimit
  memoryRequest : IsCanonical f.memoryRequest
  listenPort : IsCanonical f.listenPort
  nodePort : f.serviceType = .nodePort → ∀ t, truthy f.nodePort = some t → IsCanonical t
  maxPlayers : IsCanonical f.maxPlayers
  cpuRequest : f.cpuRequest ≠ ""
  cpuLimit : f.cpuLimit ≠ ""
  spawnProtection : f.spawnProtection ≠ ""
  viewDistance : f.viewDistance ≠ ""
  simulationDistance : f.simulationDistance ≠ ""
  levelName : f.levelName ≠ ""
  rconPort : f.rconPort ≠ ""
  queryPort : f.queryPort ≠ ""
  autopauseTimeoutEst : f.autopauseTimeoutEst ≠ ""
  autopauseTimeoutInit : f.autopauseTimeoutInit ≠ ""
  autopauseTimeoutKn : f.autopauseTimeoutKn ≠ ""
  autopausePeriod : f.autopausePeriod ≠ ""
  autopauseKnockInterface : f.autopauseKnockInterface ≠ ""
  autostopTimeoutEst : f.autostopTimeoutEst ≠ ""
  autostopTimeoutInit : f.autostopTimeoutInit ≠ ""
  autostopPeriod : f.autostopPeriod ≠ ""
  timezone : f.timezone ≠ ""
  uid : f.uid ≠ ""
  gid : f.gid ≠ ""
  stopDuration : f.stopDuration ≠ ""
  envVars : CustomVariables f.envVars

/-! ## Numbers in requests -/

section Canonical

variable {t : String} {n : Int}

theorem integer_eq_some {q : Option ℚ} : integer q = some n ↔ q = some (n : ℚ) := by
  cases q with
  | none => simp [integer]
  | some q =>
    simp only [integer, Option.bind_some, Option.some.injEq]
    constructor
    · intro h
      split_ifs at h with hden
      cases h
      exact (Rat.den_eq_one_iff q).mp hden |>.symm
    · rintro rfl
      simp

theorem IsCanonical.eq_toString (h : IsCanonical t) (hn : integer (numberOf t) = some n) :
    t = toString n := by
  obtain ⟨q, hq, heq⟩ := h
  rw [integer_eq_some, hq] at hn
  exact heq n (Option.some.inj hn)

theorem IsCanonical.ne_empty (h : IsCanonical t) : t ≠ "" := by
  rintro rfl
  have hzero : integer (numberOf "") = some 0 := by decide +kernel
  exact absurd (h.eq_toString hzero) (by decide)

end Canonical

section Parse

variable {fields : CommonServerRequestFields} {listenPort : Int} {options : Backend.ServerOptions}

theorem traverse_integer_eq_some {n : Option (Option ℚ)} {m : Option Int} :
    n.traverse integer = some m ↔ n = m.map fun i : Int => some (i : ℚ) := by
  cases n with
  | none =>
    cases m with
    | none => exact ⟨fun _ => rfl, fun _ => rfl⟩
    | some i => simp [Option.traverse]
  | some n =>
    cases m with
    | none => simp [Option.traverse]
    | some i => simp [Option.traverse, integer_eq_some]

theorem integerOrNull_eq_some {n : Option ℚ} {m : Option Int} :
    integerOrNull n = some m ↔ n = m.map fun i : Int => (i : ℚ) := by
  cases n with
  | none => cases m <;> simp [integerOrNull]
  | some n => cases m <;> simp [integerOrNull, integer_eq_some]

theorem parse_eq_some : fields.parse = some (listenPort, options) ↔
    ∃ nodePort memory memoryRequest maxPlayers : Option Int,
      fields.listenPort = some (listenPort : ℚ) ∧
      fields.nodePort = nodePort.map (fun n : Int => (n : ℚ)) ∧
      fields.memory = memory.map (fun n : Int => some (n : ℚ)) ∧
      fields.memoryRequest = memoryRequest.map (fun n : Int => some (n : ℚ)) ∧
      fields.maxPlayers = maxPlayers.map (fun n : Int => some (n : ℚ)) ∧
      options = fields.options nodePort memory memoryRequest maxPlayers := by
  simp only [CommonServerRequestFields.parse, Option.bind_eq_bind, Option.bind_eq_some_iff,
    Option.pure_def, integerOrNull_eq_some, traverse_integer_eq_some, integer_eq_some]
  constructor
  · rintro ⟨_, hport, nodePort, hnode, memory, hmemory, request, hrequest, players, hplayers, h⟩
    cases h
    exact ⟨nodePort, memory, request, players, hport, hnode, hmemory, hrequest, hplayers, rfl⟩
  · rintro ⟨nodePort, memory, request, players, hport, hnode, hmemory, hrequest, hplayers, rfl⟩
    exact ⟨_, hport, nodePort, hnode, memory, hmemory, request, hrequest, players, hplayers, rfl⟩

end Parse

/-! ## The patched row -/

/-- What an edit writes into the columns of a row. -/
structure Patched (s : Server) (f : ServerFormData) (s' : Server) : Prop where
  environment : ∃ fields, toCommonServerRequestFields f = some fields ∧
    s'.envVariables = fields.envVariables
  description : s'.description = nonBlank (trim f.description)
  listenPort : numberOf f.listenPort = some (s'.listenPort : ℚ) ∧ 1 ≤ s'.listenPort
  serviceType : s'.serviceType = f.serviceType
  nodePort : (if f.serviceType = .nodePort then (truthy f.nodePort).bind numberOf else none) =
    s'.nodePort.map (fun n : Int => (n : ℚ)) ∧ ∀ n, s'.nodePort = some n → 30000 ≤ n
  memory : f.memoryLimit ≠ "" →
    numberOf f.memoryLimit = some (s'.memory : ℚ) ∧ 256 ≤ s'.memory
  memoryRequest : f.memoryRequest ≠ "" →
    numberOf f.memoryRequest = some (s'.memoryRequest : ℚ) ∧ 256 ≤ s'.memoryRequest
  cpuRequest : s'.cpuRequest = (nonBlank f.cpuRequest).or s.cpuRequest
  cpuLimit : s'.cpuLimit = (nonBlank f.cpuLimit).or s.cpuLimit
  jarType : s'.jarType = f.type.jarType
  minecraftVersion : s'.minecraftVersion =
    if f.type = .custom then s.minecraftVersion else (truthy f.version).getD "LATEST"
  jvmOpts : s'.jvmOpts = (truthy f.jvmOpts).or s.jvmOpts
  useAikarFlags : s'.useAikarFlags = (f.useAikarFlags || s.useAikarFlags)
  useMeowiceFlags : s'.useMeowiceFlags = (f.useMeowiceFlags || s.useMeowiceFlags)
  difficulty : s'.difficulty = f.difficulty
  gameMode : s'.gameMode = f.mode
  maxPlayers : f.maxPlayers ≠ "" →
    numberOf f.maxPlayers = some (s'.maxPlayers : ℚ) ∧ 1 ≤ s'.maxPlayers
  pvp : s'.pvp = f.pvp
  onlineMode : s'.onlineMode = f.onlineMode
  motd : s'.motd = f.motd.or s.motd
  levelSeed : s'.levelSeed = f.levelSeed.or s.levelSeed
  levelType : s'.levelType = f.levelType.or s.levelType
  others : s'.id = s.id ∧ s'.type = s.type ∧ s'.apiKey = s.apiKey ∧ s'.running = s.running ∧
    s'.plugins = s.plugins

section Patch

variable {s s' : Server} {f : ServerFormData}

theorem exists_number {t : String} {m : Option Int}
    (h : (nonBlank t).map numberOf = m.map fun n : Int => some (n : ℚ)) (ht : t ≠ "") :
    ∃ n, m = some n ∧ numberOf t = some (n : ℚ) := by
  rw [nonBlank_of_ne ht] at h
  cases m with
  | none => simp at h
  | some n => exact ⟨n, rfl, Option.some.inj h⟩

theorem getD_ite (b c : Bool) : (if b then some true else none).getD c = (b || c) := by
  cases b <;> rfl

theorem patched_of_patchServer (h : patchServer s f = some s') : Patched s f s' := by
  obtain ⟨fields, hfields, h⟩ := Option.bind_eq_some_iff.mp h
  obtain ⟨⟨listenPort, options⟩, hparse, h⟩ := Option.bind_eq_some_iff.mp h
  obtain ⟨nodePort, memory, request, players, hport, hnode, hmemory, hrequest, hplayers, rfl⟩ :=
    parse_eq_some.mp hparse
  simp only at h
  split_ifs at h with haccepted
  cases h
  obtain ⟨managed, -, rfl⟩ := Option.map_eq_some_iff.mp hfields
  simp only [Backend.UpdateServerInput.accepted, Backend.ServerOptions.accepted,
    CommonServerRequestFields.options, Bool.and_eq_true, Option.all_some] at haccepted
  obtain ⟨⟨hportRange, ⟨⟨⟨hnodeRange, -⟩, hmemoryRange⟩, hrequestRange⟩, hplayersRange⟩, -⟩ :=
    haccepted
  refine {
    environment := ⟨_, hfields, rfl⟩
    description := ?description
    listenPort := ⟨hport, ?port⟩
    serviceType := rfl
    nodePort := ⟨hnode, ?node⟩
    memory := ?memory
    memoryRequest := ?request
    cpuRequest := rfl
    cpuLimit := rfl
    jarType := rfl
    minecraftVersion := ?version
    jvmOpts := rfl
    useAikarFlags := getD_ite _ _
    useMeowiceFlags := getD_ite _ _
    difficulty := rfl
    gameMode := rfl
    maxPlayers := ?players
    pvp := rfl
    onlineMode := rfl
    motd := rfl
    levelSeed := rfl
    levelType := rfl
    others := ?others }
  case description =>
    simp only [Server.update, CommonServerRequestFields.options, Option.getD_some, requestFields]
  case port =>
    simp only [Backend.portAccepted, Bool.and_eq_true, decide_eq_true_eq] at hportRange
    exact hportRange.1
  case node =>
    rintro n rfl
    simp only [Backend.nodePortAccepted, Option.all_some, Bool.and_eq_true,
      decide_eq_true_eq] at hnodeRange
    exact hnodeRange.1
  case memory =>
    intro hne
    obtain ⟨n, rfl, hn⟩ := exists_number hmemory hne
    exact ⟨hn, of_decide_eq_true hmemoryRange⟩
  case request =>
    intro hne
    obtain ⟨n, rfl, hn⟩ := exists_number hrequest hne
    exact ⟨hn, of_decide_eq_true hrequestRange⟩
  case players =>
    intro hne
    obtain ⟨n, rfl, hn⟩ := exists_number hplayers hne
    simp only [Option.all_some, Bool.and_eq_true, decide_eq_true_eq] at hplayersRange
    exact ⟨hn, hplayersRange.1⟩
  case version =>
    simp only [Server.update, CommonServerRequestFields.options, requestFields]
    split_ifs <;> rfl
  case others =>
    simp only [Server.update, CommonServerRequestFields.options, Option.getD_none, and_self]

end Patch

/-! ## What is read back -/

section ReadBack

@[simp] theorem whenTrue_beq (b : Bool) : (whenTrue b == some "true") = b := by
  cases b <;> decide

@[simp] theorem some_toString_beq (b : Bool) : (some (toString b) == some "true") = b := by
  cases b <;> decide

@[simp] theorem some_toString_bne (b : Bool) : (some (toString b) != some "false") = b := by
  cases b <;> decide

theorem normalizeServerType_name (t : ServerType) : normalizeServerType t.name = t := by
  cases t <;> rfl

theorem normalizeDifficulty_name (d : Backend.ServerDifficulty) :
    normalizeDifficulty d.name = d := by
  cases d <;> decide +kernel

theorem normalizeMode_name (m : Backend.GameMode) : normalizeMode m.name = m := by
  cases m <;> decide +kernel

theorem ServerType.name_ne (t : ServerType) : t.name ≠ "" := by
  cases t <;> decide

theorem getD_nonBlank (t : String) : (nonBlank t).getD "" = t := by
  by_cases h : t = ""
  · rw [h]
    rfl
  · rw [nonBlank_of_ne h, Option.getD_some]

/-- The text of a field that has a default is read back. -/
theorem getD_of_ne {t : String} (h : t ≠ "") (u : String) : (nonBlank t).getD u = t := by
  rw [nonBlank_of_ne h, Option.getD_some]

theorem truthy_map_empty (t : Option String) : truthy (t.map fun _ => "") = none := by
  cases t <;> rfl

theorem orNumber_of_pos {n m : Int} (h : 1 ≤ n) : orNumber n m = n := by
  rw [orNumber, if_neg (by omega)]

variable {s s' : Server} {f : ServerFormData}

theorem nodePort_patched (hf : Submitted f) (hs : Patched s f s') :
    (s'.nodePort.filter (· ≠ 0)).map toString =
      if f.serviceType = .nodePort then truthy f.nodePort else none := by
  obtain ⟨hnumber, hrange⟩ := hs.nodePort
  split_ifs at hnumber ⊢ with htype
  · cases htext : truthy f.nodePort with
    | none =>
      rw [htext] at hnumber
      cases hnode : s'.nodePort with
      | none => rfl
      | some n => simp [hnode] at hnumber
    | some t =>
      obtain ⟨q, hq, hcanonical⟩ := hf.nodePort htype t htext
      rw [htext, Option.bind_some, hq] at hnumber
      cases hnode : s'.nodePort with
      | none => simp [hnode] at hnumber
      | some n =>
        rw [hnode, Option.map_some] at hnumber
        have hpos : n ≠ 0 := by
          have := hrange n hnode
          omega
        rw [hcanonical n (Option.some.inj hnumber), Option.filter_some_pos (by simpa using hpos),
          Option.map_some]
  · cases hnode : s'.nodePort with
    | none => rfl
    | some n => simp [hnode] at hnumber

/-- After an edit, the form has what was sent, and old columns where nothing was. -/
theorem toInitialServerFormData_patchServer (hf : Submitted f) (h : patchServer s f = some s') :
    toInitialServerFormData s' = { f with
      id := s.id
      description := trim f.description
      version :=
        some ((if f.type = .custom then none else truthy f.version).getD s'.minecraftVersion)
      customJarUrl := if f.type = .custom then truthy f.customJarUrl else none
      nodePort := if f.serviceType = .nodePort then truthy f.nodePort else none
      motd := truthy (f.motd.or s.motd)
      levelSeed := (truthy f.levelSeed).or (truthy (f.levelSeed.or s.levelSeed))
      levelType := (truthy f.levelType).or (truthy (f.levelType.or s.levelType))
      generatorSettings := truthy f.generatorSettings
      whitelist := truthy f.whitelist
      whitelistFile := truthy f.whitelistFile
      ops := truthy f.ops
      opsFile := truthy f.opsFile
      useAikarFlags := f.useAikarFlags || s.useAikarFlags
      useMeowiceFlags := f.useMeowiceFlags || s.useMeowiceFlags
      jvmOpts := truthy ((truthy f.jvmOpts).or s.jvmOpts)
      jvmXxOpts := truthy f.jvmXxOpts
      jvmDdOpts := truthy f.jvmDdOpts
      resourcePack := truthy f.resourcePack
      resourcePackSha1 := truthy f.resourcePackSha1
      rconPassword := truthy f.rconPassword
      rconCmdsStartup := truthy f.rconCmdsStartup
      rconCmdsOnConnect := truthy f.rconCmdsOnConnect
      rconCmdsFirstConnect := truthy f.rconCmdsFirstConnect
      rconCmdsOnDisconnect := truthy f.rconCmdsOnDisconnect
      rconCmdsLastDisconnect := truthy f.rconCmdsLastDisconnect
      plugins := truthy f.plugins
      spigetResources := truthy f.spigetResources
      paperBuild := truthy f.paperBuild
      serverIcon := truthy f.serverIcon
      envVars := holdable f.envVars } := by
  have hs := patched_of_patchServer h
  obtain ⟨fields, hfields, henv⟩ := hs.environment
  have hvalues : environmentValue s'.envVariables = managedValue f := by
    rw [henv]
    exact funext (environmentValue_fields hfields hf.envVars)
  have hmemory := hs.memory hf.memoryLimit.ne_empty
  have hrequest := hs.memoryRequest hf.memoryRequest.ne_empty
  have hplayers := hs.maxPlayers hf.maxPlayers.ne_empty
  have hdescription : (truthy s'.description).getD "" = trim f.description := by
    rw [hs.description, truthy_nonBlank, getD_nonBlank]
  have hmemoryText : toString (orNumber s'.memory 2048) = f.memoryLimit := by
    rw [orNumber_of_pos (by omega)]
    exact (hf.memoryLimit.eq_toString (integer_eq_some.mpr hmemory.1)).symm
  have hrequestText : toString s'.memoryRequest = f.memoryRequest :=
    (hf.memoryRequest.eq_toString (integer_eq_some.mpr hrequest.1)).symm
  have hplayersText : toString (orNumber s'.maxPlayers 20) = f.maxPlayers := by
    rw [orNumber_of_pos hplayers.2]
    exact (hf.maxPlayers.eq_toString (integer_eq_some.mpr hplayers.1)).symm
  have hportText : toString (orNumber s'.listenPort 25565) = f.listenPort := by
    rw [orNumber_of_pos hs.listenPort.2]
    exact (hf.listenPort.eq_toString (integer_eq_some.mpr hs.listenPort.1)).symm
  have hcpuRequest : (truthy s'.cpuRequest).getD "500m" = f.cpuRequest := by
    rw [hs.cpuRequest, nonBlank_of_ne hf.cpuRequest, Option.some_or, truthy_some,
      getD_of_ne hf.cpuRequest]
  have hcpuLimit : (truthy s'.cpuLimit).getD "2" = f.cpuLimit := by
    rw [hs.cpuLimit, nonBlank_of_ne hf.cpuLimit, Option.some_or, truthy_some,
      getD_of_ne hf.cpuLimit]
  have hnode := nodePort_patched hf hs
  have hversion : truthy (if f.type = .custom then (truthy f.customJarUrl).map fun _ => ""
      else truthy f.version) = if f.type = .custom then none else truthy f.version := by
    split_ifs
    · exact truthy_map_empty _
    · exact truthy_truthy _
  have hjar : truthy (if f.type = .custom then truthy f.customJarUrl else none) =
      if f.type = .custom then truthy f.customJarUrl else none := by
    split_ifs
    · exact truthy_truthy _
    · rfl
  rw [toInitialServerFormData, hvalues]
  simp only [initialData, managedValue, hdescription, hmemoryText, hrequestText, hplayersText,
    hportText, hcpuRequest, hcpuLimit, hnode, hversion, hjar, hs.others.1, hs.serviceType,
    hs.difficulty, hs.gameMode, hs.pvp, hs.onlineMode, hs.motd, hs.levelSeed, hs.levelType,
    hs.jvmOpts, hs.useAikarFlags, hs.useMeowiceFlags, truthy_none, truthy_some, truthy_nonBlank,
    truthy_truthy, whenTrue_beq, some_toString_beq, some_toString_bne, Option.getD_none,
    Option.none_or, Option.elim_none, nonBlank_of_ne f.type.name_ne, Option.getD_some,
    normalizeServerType_name, normalizeDifficulty_name, normalizeMode_name,
    getD_of_ne hf.spawnProtection, getD_of_ne hf.viewDistance, getD_of_ne hf.simulationDistance,
    getD_of_ne hf.levelName, getD_of_ne hf.rconPort, getD_of_ne hf.queryPort,
    getD_of_ne hf.autopauseTimeoutEst, getD_of_ne hf.autopauseTimeoutInit,
    getD_of_ne hf.autopauseTimeoutKn, getD_of_ne hf.autopausePeriod,
    getD_of_ne hf.autopauseKnockInterface, getD_of_ne hf.autostopTimeoutEst,
    getD_of_ne hf.autostopTimeoutInit, getD_of_ne hf.autostopPeriod, getD_of_ne hf.timezone,
    getD_of_ne hf.uid, getD_of_ne hf.gid, getD_of_ne hf.stopDuration]
  rw [henv, filterCustom_fields hfields hf.envVars]
  rfl

end ReadBack

/-! ## Effect -/

/-- What is sent of the data, a blank text like an absent one. -/
def ServerFormData.sent (f : ServerFormData) : ServerFormData :=
  { f with
    id := ""
    description := trim f.description
    version := if f.type = .custom then none else truthy f.version
    customJarUrl := if f.type = .custom then truthy f.customJarUrl else none
    nodePort := if f.serviceType = .nodePort then truthy f.nodePort else none
    motd := truthy f.motd
    levelSeed := truthy f.levelSeed
    levelType := truthy f.levelType
    generatorSettings := truthy f.generatorSettings
    whitelist := truthy f.whitelist
    whitelistFile := truthy f.whitelistFile
    ops := truthy f.ops
    opsFile := truthy f.opsFile
    jvmOpts := truthy f.jvmOpts
    jvmXxOpts := truthy f.jvmXxOpts
    jvmDdOpts := truthy f.jvmDdOpts
    resourcePack := truthy f.resourcePack
    resourcePackSha1 := truthy f.resourcePackSha1
    rconPassword := truthy f.rconPassword
    rconCmdsStartup := truthy f.rconCmdsStartup
    rconCmdsOnConnect := truthy f.rconCmdsOnConnect
    rconCmdsFirstConnect := truthy f.rconCmdsFirstConnect
    rconCmdsOnDisconnect := truthy f.rconCmdsOnDisconnect
    rconCmdsLastDisconnect := truthy f.rconCmdsLastDisconnect
    plugins := truthy f.plugins
    spigetResources := truthy f.spigetResources
    paperBuild := truthy f.paperBuild
    serverIcon := truthy f.serverIcon
    envVars := [] }

/-- The data `g` that are read back agree with the data `f` that were sent. -/
structure TakesEffect (f g : ServerFormData) : Prop where
  fields : g.sent = f.sent
  envVars : ∀ v, v ∈ g.envVars ↔ v ∈ f.envVars

/-- Where nothing is sent, the old column holds nothing. -/
structure Overwrites (s : Server) (f : ServerFormData) : Prop where
  version : f.type ≠ .custom → truthy f.version ≠ none
  motd : f.motd = none → truthy s.motd = none
  levelSeed : f.levelSeed = none → truthy s.levelSeed = none
  levelType : f.levelType = none → truthy s.levelType = none
  jvmOpts : truthy f.jvmOpts = none → truthy s.jvmOpts = none
  useAikarFlags : f.useAikarFlags = false → s.useAikarFlags = false
  useMeowiceFlags : f.useMeowiceFlags = false → s.useMeowiceFlags = false
  /-- The one key that an object does not hold. -/
  keys : ∀ v ∈ f.envVars, v.key ≠ "__proto__"

section Effect

theorem truthy_or_eq_iff {t u : Option String} :
    truthy (t.or u) = truthy t ↔ (t = none → truthy u = none) := by
  cases t <;> simp

theorem truthy_truthy_or_eq_iff {t u : Option String} :
    truthy ((truthy t).or u) = truthy t ↔ (truthy t = none → truthy u = none) := by
  rw [← truthy_or_eq_iff, truthy_truthy]

theorem or_truthy_or_eq_iff {t u : Option String} :
    truthy ((truthy t).or (truthy (t.or u))) = truthy t ↔ (t = none → truthy u = none) := by
  cases t with
  | none => simp
  | some t =>
    have hleft : (truthy (some t)).or (truthy ((some t).or u)) = truthy (some t) := by
      rw [Option.some_or, Option.or_self]
    rw [hleft]
    simp

theorem ite_truthy_ite {c : Prop} [Decidable c] (t : Option String) :
    (if c then truthy (if c then truthy t else none) else none) =
      if c then truthy t else none := by
  split_ifs <;> simp

theorem or_eq_left_iff {a b : Bool} : (a || b) = a ↔ (a = false → b = false) := by
  cases a <;> simp

theorem holdable_mem_iff {vars : List EnvVariable} :
    (∀ v, v ∈ holdable vars ↔ v ∈ vars) ↔ ∀ v ∈ vars, v.key ≠ "__proto__" := by
  constructor
  · intro h v hv
    simpa using (List.mem_filter.mp ((h v).mpr hv)).2
  · intro h v
    exact ⟨fun hv => (List.mem_filter.mp hv).1,
      fun hv => List.mem_filter.mpr ⟨hv, by simpa using h v hv⟩⟩

variable {s s' : Server} {f : ServerFormData}

theorem version_eq_iff (h : Patched s f s') :
    (if f.type = .custom then none else nonBlank
      ((if f.type = .custom then none else truthy f.version).getD s'.minecraftVersion)) =
        (if f.type = .custom then none else truthy f.version) ↔
      (f.type ≠ .custom → truthy f.version ≠ none) := by
  have hcolumn := h.minecraftVersion
  split_ifs at hcolumn ⊢ with htype
  · simp [htype]
  · cases hversion : truthy f.version with
    | none =>
      rw [hcolumn, hversion]
      simp [htype, nonBlank]
    | some v => simp [(truthy_eq_some.mp hversion).2]

/-- An edit takes effect just if no old column shows through. -/
theorem patchServer_takesEffect_iff (hf : Submitted f) (h : patchServer s f = some s') :
    TakesEffect f (toInitialServerFormData s') ↔ Overwrites s f := by
  have hversion := version_eq_iff (patched_of_patchServer h)
  have hfields : (toInitialServerFormData s').sent = f.sent ↔
      (f.type ≠ .custom → truthy f.version ≠ none) ∧ (f.motd = none → truthy s.motd = none) ∧
      (f.levelSeed = none → truthy s.levelSeed = none) ∧
      (f.levelType = none → truthy s.levelType = none) ∧
      (f.useAikarFlags = false → s.useAikarFlags = false) ∧
      (f.useMeowiceFlags = false → s.useMeowiceFlags = false) ∧
      (truthy f.jvmOpts = none → truthy s.jvmOpts = none) := by
    rw [toInitialServerFormData_patchServer hf h]
    simp only [ServerFormData.sent, ServerFormData.mk.injEq, true_and, and_true, trim_trim,
      truthy_some, truthy_truthy, ite_truthy_ite, hversion, or_truthy_or_eq_iff]
    simp only [truthy_or_eq_iff, truthy_truthy_or_eq_iff, or_eq_left_iff]
  have hkeys : (∀ v, v ∈ (toInitialServerFormData s').envVars ↔ v ∈ f.envVars) ↔
      ∀ v ∈ f.envVars, v.key ≠ "__proto__" := by
    rw [toInitialServerFormData_patchServer hf h]
    exact holdable_mem_iff
  constructor
  · intro heffect
    obtain ⟨hversion, hmotd, hseed, htype, haikar, hmeowice, hjvm⟩ := hfields.mp heffect.fields
    exact ⟨hversion, hmotd, hseed, htype, hjvm, haikar, hmeowice, hkeys.mp heffect.envVars⟩
  · intro h
    exact ⟨hfields.mpr ⟨h.version, h.motd, h.levelSeed, h.levelType, h.useAikarFlags,
      h.useMeowiceFlags, h.jvmOpts⟩, hkeys.mpr h.keys⟩

end Effect

/-! ## A flag that stays on -/

/-- The first state of the form for a new server, with its name. -/
def survivalForm : ServerFormData where
  id := "survival"
  description := ""
  memoryLimit := "2048"
  memoryRequest := "1024"
  cpuRequest := "500m"
  cpuLimit := "2"
  type := .paper
  version := some "LATEST"
  eula := true
  listenPort := "25565"
  serviceType := .clusterIp
  difficulty := .easy
  mode := .survival
  maxPlayers := "20"
  pvp := true
  onlineMode := true
  allowFlight := false
  enableCommandBlock := false
  spawnProtection := "16"
  viewDistance := "10"
  simulationDistance := "10"
  levelName := "world"
  hardcore := false
  spawnAnimals := true
  spawnMonsters := true
  spawnNpcs := true
  enableWhitelist := false
  useAikarFlags := false
  useMeowiceFlags := false
  resourcePackEnforce := false
  enableRcon := true
  rconPort := "25575"
  enableQuery := false
  queryPort := "25565"
  enableAutopause := false
  autopauseTimeoutEst := "3600"
  autopauseTimeoutInit := "600"
  autopauseTimeoutKn := "120"
  autopausePeriod := "10"
  autopauseKnockInterface := "eth0"
  enableAutostop := false
  autostopTimeoutEst := "3600"
  autostopTimeoutInit := "1800"
  autostopPeriod := "10"
  removeOldPlugins := false
  timezone := "UTC"
  uid := "1000"
  gid := "1000"
  enableJmx := false
  stopDuration := "60"
  customJarUrl := some ""
  envVars := []

def survivalRow : Server where
  id := "survival"
  type := .stateful
  description := none
  listenPort := 25565
  memory := 2048
  memoryRequest := 1024
  cpuRequest := some "500m"
  cpuLimit := some "2"
  serviceType := .clusterIp
  nodePort := none
  envVariables := [⟨"EULA", "true"⟩, ⟨"TYPE", "PAPER"⟩]
  plugins := []
  apiKey := "key"
  running := true
  jarType := .paper
  minecraftVersion := "LATEST"
  jvmOpts := none
  useAikarFlags := false
  useMeowiceFlags := false
  difficulty := .easy
  gameMode := .survival
  maxPlayers := 20
  pvp := true
  onlineMode := true
  motd := none
  levelSeed := none
  levelType := none

theorem isCanonical_toString {n : ℕ} (h : n < 2 ^ 53) : IsCanonical (toString n) := by
  refine ⟨n, numberOf_toString h, fun m hm => ?_⟩
  obtain rfl : (n : Int) = m := by exact_mod_cast hm
  rfl

theorem submitted_survivalForm : Submitted survivalForm := by
  constructor
  case memoryLimit => exact isCanonical_toString (n := 2048) (by decide)
  case memoryRequest => exact isCanonical_toString (n := 1024) (by decide)
  case listenPort => exact isCanonical_toString (n := 25565) (by decide)
  case nodePort => exact fun htype => absurd htype (by decide)
  case maxPlayers => exact isCanonical_toString (n := 20) (by decide)
  case envVars => exact ⟨List.nodup_nil, by decide, by decide, by decide⟩
  all_goals decide

/-- A row that has the flag, and a form that has it switched off. -/
theorem flag_stays : Submitted survivalForm ∧
    ∃ s', patchServer { survivalRow with useAikarFlags := true } survivalForm = some s' ∧
      ¬TakesEffect survivalForm (toInitialServerFormData s') := by
  have hsome : (patchServer { survivalRow with useAikarFlags := true } survivalForm).isSome := by
    decide +kernel
  obtain ⟨s', hs'⟩ := Option.isSome_iff_exists.mp hsome
  refine ⟨submitted_survivalForm, s', hs', fun heffect => ?_⟩
  have hflag : (survivalForm.useAikarFlags || true) = survivalForm.useAikarFlags := by
    have hfields := congrArg ServerFormData.useAikarFlags heffect.fields
    rwa [toInitialServerFormData_patchServer submitted_survivalForm hs'] at hfields
  exact absurd hflag (by decide)

/-- A vanilla server with a greeting, a whitelist and a variable. -/
def oldRow : Server := { survivalRow with
  motd := some "Welcome"
  jarType := .vanilla
  envVariables := [⟨"EULA", "true"⟩, ⟨"TYPE", "VANILLA"⟩, ⟨"MOTD", "Welcome"⟩,
    ⟨"ENABLE_WHITELIST", "true"⟩, ⟨"WHITELIST", "alice"⟩, ⟨"FORCE_REDSTONE", "true"⟩] }

/-- All of these and the port are changed. -/
def editedForm : ServerFormData := { survivalForm with
  listenPort := "25566"
  motd := some "Hello"
  enableWhitelist := true
  whitelist := some "alice,bob"
  envVars := [⟨"FORCE_REDSTONE", "false"⟩, ⟨"DEBUG", "true"⟩] }

theorem submitted_editedForm : Submitted editedForm :=
  { submitted_survivalForm with
    listenPort := isCanonical_toString (n := 25566) (by decide)
    envVars := ⟨by decide, by decide, by decide, by decide⟩ }

theorem patchServer_editedForm : ∃ s', patchServer oldRow editedForm = some s' ∧
    TakesEffect editedForm (toInitialServerFormData s') := by
  have hsome : (patchServer oldRow editedForm).isSome := by decide +kernel
  obtain ⟨s', hs'⟩ := Option.isSome_iff_exists.mp hsome
  refine ⟨s', hs', (patchServer_takesEffect_iff submitted_editedForm hs').mpr ?_⟩
  constructor <;> decide

end Minikura.Web
