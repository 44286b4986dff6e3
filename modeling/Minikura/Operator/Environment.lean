import Minikura.Backend.SyncAll
import Minikura.Operator.Resources
import Minikura.Operator.SpecDecoding

/-!
# The environment of a server

From a row to the environment of the container: what the backend writes of the row, what the
operator reads of that, and what it puts into the container.

## Main definitions

* `settings` — the variables that columns of a row stand for.
* `Describes` — an environment is the one that a row describes.

## Main results

* `find?_userEnv`, `nodup_userEnv` — the variables of the user over those of the operator.
* `environment_of_row` — every admitted row gets the environment it describes.
-/

namespace Minikura.Operator
open Concurrency

/-! ## The variables of the user -/

section UserEnv

variable {base extra : List EnvVar} {reserved : List String}

theorem name_userVar (e : EnvVar) : (userVar e).name = e.name := rfl

/-- Each variable is kept under its name. -/
theorem name_of_mem_userEnv {e : String × EnvVar}
    (h : e ∈ setEntries (base.map fun e => (e.name, e))
      ((extra.filter fun e => !reserved.contains e.name).map fun e => (e.name, userVar e))) :
    e.2.name = e.1 := by
  rcases mem_setEntries h with h | h <;> obtain ⟨d, -, rfl⟩ := List.mem_map.mp h
  · rfl
  · exact name_userVar d

theorem find?_unreserved (l : List EnvVar) (name : String) :
    ((l.filter fun e => !reserved.contains e.name).find? fun e => e.name = name) =
      if name ∈ reserved then none else l.find? fun e => e.name = name := by
  split_ifs with hname
  · refine List.find?_eq_none.mpr fun e he hen => ?_
    have hfree := (List.mem_filter.mp he).2
    rw [of_decide_eq_true hen] at hfree
    simp [hname] at hfree
  · induction l with
    | nil => rfl
    | cons e l ih =>
      by_cases he : e.name = name
      · simp [he, hname]
      · have hskip : ∀ l : List EnvVar, ((e :: l).find? fun e => e.name = name) =
            l.find? fun e => e.name = name :=
          fun l => List.find?_cons_of_neg (by simpa using he)
        rw [List.filter_cons, hskip]
        split_ifs
        · rw [hskip, ih]
        · exact ih

/-- The last variable of the user decides, unless the name is protected. -/
theorem find?_userEnv (name : String) :
    ((userEnv base extra reserved).find? fun e => e.name = name) =
      if name ∈ reserved then base.find? fun e => e.name = name
      else ((extra.reverse.find? fun e => e.name = name).map userVar).or
        (base.find? fun e => e.name = name) := by
  rw [userEnv, find?_map_snd (fun _ => name_of_mem_userEnv), lookup_setEntries, ← List.map_reverse,
    lookup_map_pair, lookup_map_pair, Option.map_id', ← List.filter_reverse, find?_unreserved]
  split_ifs <;> rfl

theorem nodup_userEnv (h : (base.map (·.name)).Nodup) :
    ((userEnv base extra reserved).map (·.name)).Nodup := by
  have hkeys : (userEnv base extra reserved).map (·.name) =
      (setEntries (base.map fun e => (e.name, e))
        ((extra.filter fun e => !reserved.contains e.name).map fun e =>
          (e.name, userVar e))).map (·.1) := by
    rw [userEnv, List.map_map]
    exact List.map_congr_left fun e he => name_of_mem_userEnv he
  rw [hkeys]
  refine nodup_setEntries _ ?_
  rwa [List.map_map]

end UserEnv

/-! ## The variables of the operator -/

/-- The variables that have values. -/
def envVars (values : List (String × Option String)) : List EnvVar :=
  values.filterMap fun e => e.2.map fun v => { name := e.1, value := v }

def nonEmpty (s : String) : Option String := if s = "" then none else some s

def flag (b : Bool) : Option String := if b then some "true" else none

section Variables

variable {values : List (String × Option String)} {name : String}

theorem envVars_cons_some (v : String) :
    envVars ((name, some v) :: values) = { name := name, value := v } :: envVars values := rfl

theorem envVars_cons_nonEmpty (v : String) :
    envVars ((name, nonEmpty v) :: values) =
      (if v ≠ "" then [{ name := name, value := v }] else []) ++ envVars values := by
  by_cases h : v = "" <;> simp [envVars, nonEmpty, h]

theorem envVars_cons_flag (b : Bool) :
    envVars ((name, flag b) :: values) =
      (if b then [{ name := name, value := "true" }] else []) ++ envVars values := by
  cases b <;> rfl

theorem name_mem_of_envVars {e : EnvVar} (h : e ∈ envVars values) :
    e.name ∈ values.map (·.1) := by
  obtain ⟨d, hd, he⟩ := List.mem_filterMap.mp h
  obtain ⟨v, -, rfl⟩ := Option.map_eq_some_iff.mp he
  exact List.mem_map_of_mem hd

theorem find?_envVars_of_notMem (h : name ∉ values.map (·.1)) :
    ((envVars values).find? fun e => e.name = name) = none := by
  refine List.find?_eq_none.mpr fun e he hen => h ?_
  rw [← of_decide_eq_true hen]
  exact name_mem_of_envVars he

theorem find?_envVars {v : Option String} (hnodup : (values.map (·.1)).Nodup)
    (h : (name, v) ∈ values) :
    ((envVars values).find? fun e => e.name = name) =
      v.map fun v => { name := name, value := v } := by
  induction values with
  | nil => cases h
  | cons e values ih =>
    obtain ⟨n, w⟩ := e
    obtain ⟨hn, hvalues⟩ := List.nodup_cons.mp hnodup
    rcases List.mem_cons.mp h with he | hmem
    · obtain ⟨rfl, rfl⟩ := Prod.mk.inj he
      cases v with
      | none =>
        change ((envVars values).find? fun e => e.name = name) = none
        exact find?_envVars_of_notMem hn
      | some v => simp [envVars_cons_some]
    · have hne : n ≠ name := by
        rintro rfl
        exact hn (List.mem_map.mpr ⟨_, hmem, rfl⟩)
      cases w with
      | none => exact ih hvalues hmem
      | some w =>
        rw [envVars_cons_some, List.find?_cons_of_neg (by simpa using hne)]
        exact ih hvalues hmem

theorem nodup_envVars (hnodup : (values.map (·.1)).Nodup) :
    ((envVars values).map (·.name)).Nodup := by
  induction values with
  | nil => exact List.nodup_nil
  | cons e values ih =>
    obtain ⟨n, w⟩ := e
    obtain ⟨hn, hvalues⟩ := List.nodup_cons.mp hnodup
    cases w with
    | none => exact ih hvalues
    | some w =>
      rw [envVars_cons_some, List.map_cons]
      refine List.nodup_cons.mpr ⟨fun hmem => hn ?_, ih hvalues⟩
      obtain ⟨d, hd, rfl⟩ : ∃ d ∈ envVars values, d.name = n := List.mem_map.mp hmem
      exact name_mem_of_envVars hd

end Variables

/-- The variables of a server but its key, each with its value if it has one. -/
def managedValues (spec : MinecraftServerSpec) : List (String × Option String) := [
  ("EULA", some "TRUE"),
  ("TYPE", some spec.jarType),
  ("VERSION", some spec.minecraftVersion),
  ("OVERRIDE_SERVER_PROPERTIES", some "true"),
  ("ENABLE_RCON", some "false"),
  ("DIFFICULTY", some spec.properties.difficulty),
  ("MODE", some spec.properties.gameMode),
  ("MAX_PLAYERS", some (toString spec.properties.maxPlayers)),
  ("PVP", some (toString (boolValue spec.properties.pvp true))),
  ("ONLINE_MODE", some (toString (boolValue spec.properties.onlineMode true))),
  ("MOTD", nonEmpty spec.properties.motd),
  ("SEED", nonEmpty spec.properties.levelSeed),
  ("LEVEL_TYPE", nonEmpty spec.properties.levelType),
  ("MEMORY", some (heapMB spec.resources.memoryLimitMB spec.jvm.heapPercent)),
  ("JVM_OPTS", nonEmpty spec.jvm.opts),
  ("USE_AIKAR_FLAGS", flag spec.jvm.useAikarFlags),
  ("USE_MEOWICE_FLAGS", flag spec.jvm.useMeowIceFlags)]

theorem minecraftEnv_eq (mc : MinecraftServer) :
    minecraftEnv mc = userEnv (envVars (managedValues mc.spec) ++
      apiKeyEnv mc.spec.apiKeySecretRef) mc.spec.env ["EULA", "MINIKURA_API_KEY"] := by
  simp only [minecraftEnv, managedValues, jvmEnv, envVars_cons_some, envVars_cons_nonEmpty,
    envVars_cons_flag, List.cons_append, List.nil_append, List.append_assoc]
  rfl

theorem keys_managedValues (spec spec' : MinecraftServerSpec) :
    (managedValues spec).map (·.1) = (managedValues spec').map (·.1) := rfl

theorem nodup_managedValues (spec : MinecraftServerSpec) :
    ((managedValues spec).map (·.1)).Nodup := by
  rw [keys_managedValues spec { type := "" }]
  decide

/-! ## The variables of a row -/

section Row

variable {o : Backend.OperatorResourceSync} {s : Backend.Server}

/-- The columns of a row as variables: a column that is null, empty or false has none. -/
def settings (s : Backend.Server) : List (String × Option String) := [
  ("TYPE", some s.jarType.name),
  ("VERSION", some s.minecraftVersion),
  ("DIFFICULTY", some s.difficulty.name),
  ("MODE", some s.gameMode.name),
  ("MAX_PLAYERS", some (toString s.maxPlayers)),
  ("PVP", some (toString s.pvp)),
  ("ONLINE_MODE", some (toString s.onlineMode)),
  ("MOTD", s.motd.filter (· ≠ "")),
  ("SEED", s.levelSeed.filter (· ≠ "")),
  ("LEVEL_TYPE", s.levelType.filter (· ≠ "")),
  ("MEMORY", some (toString (max 256 (s.memory * 60 / 100)) ++ "M")),
  ("JVM_OPTS", s.jvmOpts.filter (· ≠ "")),
  ("USE_AIKAR_FLAGS", if s.useAikarFlags then some "true" else none),
  ("USE_MEOWICE_FLAGS", if s.useMeowiceFlags then some "true" else none)]

/-- The addresses of the enabled plugins. -/
def pluginUrls (o : Backend.OperatorResourceSync) (s : Backend.Server) : List String :=
  (s.plugins.filter (·.enabled)).map fun p => o.artifactUrl p.downloadToken

/-- What the user asks for as plugins. -/
def userPlugins (s : Backend.Server) : List String :=
  (s.envVariables.filter fun v => v.value ≠ "" && v.key = "PLUGINS").map (·.value)

def lookupEnv (env : List EnvVar) (name : String) : Option EnvVar :=
  env.find? fun e => e.name = name

/-- The environment that a row describes. -/
structure Describes (o : Backend.OperatorResourceSync) (s : Backend.Server)
    (env : List EnvVar) : Prop where
  nodup : (env.map (·.name)).Nodup
  eula : lookupEnv env "EULA" = some { name := "EULA", value := "TRUE" }
  apiKey : lookupEnv env "MINIKURA_API_KEY" = some {
    name := "MINIKURA_API_KEY"
    valueFrom := some (.secretKeyRef ("mc-" ++ s.id ++ "-api-key") "api-key") }
  plugins : pluginUrls o s ≠ [] → lookupEnv env "PLUGINS" = some {
    name := "PLUGINS", value := ",".intercalate (userPlugins s ++ pluginUrls o s) }
  user : ∀ v ∈ s.envVariables, v.key ∉ ["EULA", "MINIKURA_API_KEY"] →
    (v.key = "PLUGINS" → pluginUrls o s = []) →
    lookupEnv env v.key = some { name := v.key, value := v.value }
  managed : ∀ e ∈ settings s, (∀ v ∈ s.envVariables, v.key ≠ e.1) →
    lookupEnv env e.1 = e.2.map fun value => { name := e.1, value := value }
  /-- Beside these there are two constants, and variables of the user. -/
  other : ∀ e ∈ env, e.name ∈ ["EULA", "MINIKURA_API_KEY", "PLUGINS"] ∨
    e.name ∈ (settings s).map (·.1) ∨ (∃ v ∈ s.envVariables, v.key = e.name) ∨
    e = { name := "OVERRIDE_SERVER_PROPERTIES", value := "true" } ∨
    e = { name := "ENABLE_RCON", value := "false" }

theorem artifactUrl_ne_empty (token : String) : o.artifactUrl token ≠ "" := by
  intro h
  have hlength := congrArg String.length h
  simp only [Backend.OperatorResourceSync.artifactUrl, String.length_append,
    show "/download".length = 9 from rfl] at hlength
  exact absurd hlength (by simp)

theorem lookup_serverEnvironment (h : (s.envVariables.map (·.key)).Nodup) (name : String) :
    (o.serverEnvironment s).lookup name =
      if name = "PLUGINS" ∧ pluginUrls o s ≠ [] then
        some (",".intercalate (userPlugins s ++ pluginUrls o s))
      else (s.envVariables.find? fun v => v.key = name).map (·.value) := by
  have hset : setEntries [] (s.envVariables.map fun e => (e.key, e.value)) =
      s.envVariables.map fun e => (e.key, e.value) := by
    refine (setEntries_of_nodup ?_).trans (List.nil_append _)
    simpa [List.map_map, Function.comp_def] using h
  have hurls : (pluginUrls o s).filter (· ≠ "") = pluginUrls o s := by
    refine List.filter_eq_self.mpr fun url hurl => ?_
    obtain ⟨p, -, rfl⟩ := List.mem_map.mp hurl
    simpa using artifactUrl_ne_empty p.downloadToken
  have hplugins : (((s.envVariables.find? fun v => v.key = "PLUGINS").map
      (·.value)).toList.filter (· ≠ "")) = userPlugins s := by
    rw [userPlugins, ← List.filter_filter, filter_eq_toList_find? h]
    cases s.envVariables.find? fun v => v.key = "PLUGINS" with
    | none => rfl
    | some v => by_cases hv : v.value = "" <;> simp [hv]
  have hjoin : ((((s.envVariables.find? fun v => v.key = "PLUGINS").map (·.value)).toList ++
      pluginUrls o s).filter (· ≠ "")) = userPlugins s ++ pluginUrls o s := by
    rw [List.filter_append, hplugins, hurls]
  unfold Backend.OperatorResourceSync.serverEnvironment
  change ((if (pluginUrls o s).isEmpty then _ else setEntry _ "PLUGINS" (",".intercalate
    ((_ ++ pluginUrls o s).filter (· ≠ "")))) : List (String × String)).lookup name = _
  rw [hset, lookup_map_pair, hjoin]
  cases hnil : pluginUrls o s with
  | nil => simp [lookup_map_pair]
  | cons url urls => simp [lookup_map_pair]

theorem nodup_serverEnvironment (o : Backend.OperatorResourceSync) (s : Backend.Server) :
    ((o.serverEnvironment s).map (·.1)).Nodup := by
  have hset := nodup_setEntries (m := []) (s.envVariables.map fun e => (e.key, e.value))
    List.nodup_nil
  unfold Backend.OperatorResourceSync.serverEnvironment
  dsimp only
  split_ifs
  · exact hset
  · exact nodup_setEntry _ _ hset

theorem find?_env (env : List (String × String)) (name : String) :
    ((env.map fun e => ({ name := e.1, value := e.2 } : EnvVar)).find? fun e => e.name = name) =
      (env.lookup name).map fun value => { name := name, value := value } := by
  induction env with
  | nil => rfl
  | cons e env ih =>
    obtain ⟨k, v⟩ := e
    rw [List.map_cons, lookup_cons_ite]
    by_cases hk : name = k
    · simp [hk]
    · rw [List.find?_cons_of_neg (by simpa using Ne.symm hk), ih, if_neg hk]

theorem nonEmpty_getD (v : Option String) : nonEmpty (v.getD "") = v.filter (· ≠ "") := by
  cases v with
  | none => rfl
  | some v => by_cases hv : v = "" <;> simp [nonEmpty, Option.filter, hv]

theorem heapMB_sixty {memory : Int} (h : 256 ≤ memory) :
    heapMB memory 60 = toString (max 256 (memory * 60 / 100)) ++ "M" := by
  have hlimit : ¬memory ≤ 0 := by omega
  have hheap : (if memory * 60 / 100 < minHeapMB then minHeapMB else memory * 60 / 100) =
      max 256 (memory * 60 / 100) := by
    simp only [minHeapMB]
    omega
  simp only [heapMB, if_neg hlimit, show (decide ((60 : Int) ≤ 0) || decide ((60 : Int) > 100)) =
    false from rfl, Bool.false_eq_true, if_false, hheap]

/-- What a server has beside the settings. -/
def constants : List String := ["EULA", "OVERRIDE_SERVER_PROPERTIES", "ENABLE_RCON"]

/-- The settings of a row are what the operator makes of the spec it reads. -/
theorem settings_eq (h : 256 ≤ s.memory) :
    settings s = (managedValues (serverSpecRead o s)).filter fun e => !constants.contains e.1 := by
  simp only [settings, ← nonEmpty_getD, ← heapMB_sixty h]
  rfl

/-- The variables of a row before those of the user. -/
def baseEnv (o : Backend.OperatorResourceSync) (s : Backend.Server) : List EnvVar :=
  envVars (managedValues (serverSpecRead o s)) ++
    [{ name := "MINIKURA_API_KEY"
       valueFrom := some (.secretKeyRef ("mc-" ++ s.id ++ "-api-key") "api-key") }]

theorem minecraftEnv_read {mc : MinecraftServer} (h : mc.spec = serverSpecRead o s) :
    minecraftEnv mc = userEnv (baseEnv o s)
      ((o.serverEnvironment s).map fun e => { name := e.1, value := e.2 })
      ["EULA", "MINIKURA_API_KEY"] := by
  have hne : Backend.secretName .minecraftservers s.id ≠ "" := by
    intro he
    have hlength := congrArg String.length he
    simp only [Backend.secretName, String.length_append, show "-api-key".length = 8 from rfl]
      at hlength
    exact absurd hlength (by simp)
  have hkey : apiKeyEnv (serverSpecRead o s).apiKeySecretRef =
      [{ name := "MINIKURA_API_KEY"
         valueFrom := some (.secretKeyRef ("mc-" ++ s.id ++ "-api-key") "api-key") }] :=
    if_pos hne
  rw [minecraftEnv_eq, h, hkey]
  rfl

theorem apiKey_notMem (spec : MinecraftServerSpec) :
    "MINIKURA_API_KEY" ∉ (managedValues spec).map (·.1) := by
  rw [keys_managedValues spec { type := "" }]
  decide

theorem plugins_notMem (spec : MinecraftServerSpec) :
    "PLUGINS" ∉ (managedValues spec).map (·.1) := by
  rw [keys_managedValues spec { type := "" }]
  decide

theorem nodup_baseEnv : ((baseEnv o s).map (·.name)).Nodup := by
  rw [baseEnv, List.map_append, List.nodup_append]
  refine ⟨nodup_envVars (nodup_managedValues _), List.nodup_singleton _, ?_⟩
  rintro name hname _ hkey rfl
  obtain rfl := List.mem_singleton.mp hkey
  obtain ⟨e, he, hn⟩ := List.mem_map.mp hname
  exact apiKey_notMem _ (hn ▸ name_mem_of_envVars he)

theorem find?_baseEnv {e : String × Option String} (h : e ∈ managedValues (serverSpecRead o s)) :
    ((baseEnv o s).find? fun d => d.name = e.1) =
      e.2.map fun value => { name := e.1, value := value } := by
  have hkey : "MINIKURA_API_KEY" ≠ e.1 := by
    intro he
    exact apiKey_notMem (serverSpecRead o s) (List.mem_map.mpr ⟨e, h, he.symm⟩)
  rw [baseEnv, List.find?_append, find?_envVars (nodup_managedValues _) h,
    List.find?_cons_of_neg (by simpa using hkey), List.find?_nil, Option.or_none]

theorem find?_baseEnv_apiKey :
    ((baseEnv o s).find? fun d => d.name = "MINIKURA_API_KEY") = some {
      name := "MINIKURA_API_KEY"
      valueFrom := some (.secretKeyRef ("mc-" ++ s.id ++ "-api-key") "api-key") } := by
  rw [baseEnv, List.find?_append, find?_envVars_of_notMem (apiKey_notMem _), Option.none_or]
  rfl

/-- The variable of a name: the operator's if the name is protected, else the user's if
there is one. -/
theorem lookupEnv_minecraftEnv {mc : MinecraftServer} (h : mc.spec = serverSpecRead o s)
    (name : String) :
    lookupEnv (minecraftEnv mc) name =
      if name ∈ ["EULA", "MINIKURA_API_KEY"] then (baseEnv o s).find? fun e => e.name = name
      else (((o.serverEnvironment s).lookup name).map fun value =>
        { name := name, value := value }).or ((baseEnv o s).find? fun e => e.name = name) := by
  have hnodup : (((o.serverEnvironment s).map fun e =>
      ({ name := e.1, value := e.2 } : EnvVar)).map (·.name)).Nodup := by
    rw [List.map_map]
    exact nodup_serverEnvironment o s
  rw [lookupEnv, minecraftEnv_read h, find?_userEnv, find?_reverse_of_nodup hnodup, find?_env,
    Option.map_map]
  rfl

theorem nodup_envVariables (h : s.Admitted) : (s.envVariables.map (·.key)).Nodup := by
  have hs := h.storable
  simp only [Backend.Server.storable, Bool.and_eq_true, decide_eq_true_eq] at hs
  exact hs.2

/-- What is known of a variable that the user does not set. -/
theorem other_of_mem_baseEnv (h : s.Admitted) {e : EnvVar} (he : e ∈ baseEnv o s) :
    e.name ∈ ["EULA", "MINIKURA_API_KEY", "PLUGINS"] ∨ e.name ∈ (settings s).map (·.1) ∨
      e = { name := "OVERRIDE_SERVER_PROPERTIES", value := "true" } ∨
      e = { name := "ENABLE_RCON", value := "false" } := by
  rcases List.mem_append.mp he with he | he
  · obtain ⟨⟨name, v⟩, hd, hv⟩ := List.mem_filterMap.mp he
    obtain ⟨value, rfl, rfl⟩ := Option.map_eq_some_iff.mp hv
    by_cases hname : constants.contains name
    · simp only [managedValues, List.mem_cons, Prod.mk.injEq, List.not_mem_nil, or_false] at hd
      simp only [constants, List.contains_eq_mem, List.mem_cons, List.not_mem_nil, or_false,
        decide_eq_true_eq] at hname
      rcases hname with rfl | rfl | rfl <;> simp_all
    · refine .inr (.inl (List.mem_map.mpr ⟨(name, some value), ?_, rfl⟩))
      rw [settings_eq (o := o) h.memory]
      exact List.mem_filter.mpr ⟨hd, by simpa using hname⟩
  · obtain rfl := List.mem_singleton.mp he
    exact .inl (List.mem_cons_of_mem _ (List.mem_cons_self ..))

theorem describes (h : s.Admitted) {mc : MinecraftServer} (hspec : mc.spec = serverSpecRead o s) :
    Describes o s (minecraftEnv mc) where
  nodup := by
    rw [minecraftEnv_read hspec]
    exact nodup_userEnv nodup_baseEnv
  eula := by
    rw [lookupEnv_minecraftEnv hspec, if_pos (by decide)]
    exact find?_baseEnv (List.mem_cons_self ..)
  apiKey := by
    rw [lookupEnv_minecraftEnv hspec, if_pos (by decide)]
    exact find?_baseEnv_apiKey
  plugins hurls := by
    rw [lookupEnv_minecraftEnv hspec, if_neg (by decide),
      lookup_serverEnvironment (nodup_envVariables h), if_pos ⟨rfl, hurls⟩]
    rfl
  user v hv hprotected hplugins := by
    have hfind := find?_of_mem (nodup_envVariables h) hv
    rw [lookupEnv_minecraftEnv hspec, if_neg hprotected,
      lookup_serverEnvironment (nodup_envVariables h),
      if_neg fun hp => hp.2 (hplugins hp.1), hfind]
    rfl
  managed e he hfree := by
    rw [settings_eq (o := o) h.memory] at he
    obtain ⟨he, hconstant⟩ := List.mem_filter.mp he
    have hmem : e.1 ∈ (managedValues (serverSpecRead o s)).map (·.1) :=
      List.mem_map.mpr ⟨e, he, rfl⟩
    have hprotected : e.1 ∉ ["EULA", "MINIKURA_API_KEY"] := by
      intro hp
      rcases List.mem_cons.mp hp with hp | hp
      · simp [hp, constants] at hconstant
      · exact apiKey_notMem _ (List.mem_singleton.mp hp ▸ hmem)
    have hnone : (s.envVariables.find? fun v => v.key = e.1) = none :=
      List.find?_eq_none.mpr fun v hv hk => hfree v hv (of_decide_eq_true hk)
    rw [lookupEnv_minecraftEnv hspec, if_neg hprotected,
      lookup_serverEnvironment (nodup_envVariables h),
      if_neg fun hp => plugins_notMem _ (hp.1 ▸ hmem), hnone]
    exact find?_baseEnv he
  other e he := by
    have hnodup : ((minecraftEnv mc).map (·.name)).Nodup := by
      rw [minecraftEnv_read hspec]
      exact nodup_userEnv nodup_baseEnv
    have hfind : lookupEnv (minecraftEnv mc) e.name = some e := find?_of_mem hnodup he
    rw [lookupEnv_minecraftEnv hspec] at hfind
    split_ifs at hfind with hprotected
    · exact .inl (List.mem_append_left ["PLUGINS"] hprotected)
    cases huser : (o.serverEnvironment s).lookup e.name with
    | some value =>
      rw [lookup_serverEnvironment (nodup_envVariables h)] at huser
      split_ifs at huser with hp
      · exact .inl (by simp [hp.1])
      · obtain ⟨v, hv, -⟩ := Option.map_eq_some_iff.mp huser
        have hkey := List.find?_some hv
        exact .inr (.inr (.inl ⟨v, List.mem_of_find?_eq_some hv, of_decide_eq_true hkey⟩))
    | none =>
      rw [huser, Option.map_none, Option.none_or] at hfind
      rcases other_of_mem_baseEnv h (List.mem_of_find?_eq_some hfind) with hn | hn | hn
      · exact .inl hn
      · exact .inr (.inl hn)
      · exact .inr (.inr (.inr hn))

/-- While others leave the database and the Secret and the resource of an admitted row alone,
`syncServer` leaves a resource that the operator can read, and the environment that the
operator makes of it is the one that the row describes. -/
theorem environment_of_row {x y : Backend.State} {r : Except Backend.Error Unit}
    (hc : o.clients = true) (h : s.Admitted)
    (run : Steps Backend.api (Backend.owning (fun k => k = (o.serverRow s).secretKey ∨
        k = (o.serverRow s).resourceKey) fun _ => True).rely
      ((o.syncServer s).run, x) (.pure r, y)) :
    ∃ spec, ((y.cluster.value ⟨.minecraftservers, s.id⟩).bind Backend.Resource.spec?).bind
        MinecraftServerSpec.ofJson = some spec ∧
      ∀ mc : MinecraftServer, mc.spec = spec → Describes o s (minecraftEnv mc) := by
  have written := wp_result (Backend.wp_syncRow hc h.id (.inl rfl) (.inr rfl) trivial trivial
    trivial) (fun _ _ h => h) run
  have hresource : y.cluster.value ⟨.minecraftservers, s.id⟩ =
      some ((o.serverRow s).resource (o.serverRow s).labels) := written.2.1.2
  refine ⟨serverSpecRead o s, ?_, fun mc hspec => describes h hspec⟩
  rw [hresource]
  exact ofJson_serverSpec h

end Row

/-- A row with a plugin and with variables of all sorts. -/
def modded : Backend.Server :=
  { Backend.Server.ofInput { id := "smp", listenPort := 25565, type := .stateful } "key" with
    envVariables := [⟨"EULA", "FALSE"⟩, ⟨"DIFFICULTY", "hard"⟩, ⟨"PLUGINS", "maps.jar"⟩]
    plugins := [⟨true, "token"⟩, ⟨false, "spare"⟩]
    motd := some "" }

def syncModded : Prog Backend.Call (Settled Backend.Error Backend.Answer)
    (Except Backend.Error Unit) × Backend.State :=
  (({} : Backend.OperatorResourceSync).syncServer modded).run.runTurns
    (fun c s => some (Backend.handle c s)) (List.replicate 5 .go) (.idle .empty .empty)

theorem environment_of_row_modded : ∃ spec,
    ((syncModded.2.cluster.value ⟨.minecraftservers, "smp"⟩).bind Backend.Resource.spec?).bind
      MinecraftServerSpec.ofJson = some spec ∧
    ∀ mc : MinecraftServer, mc.spec = spec → Describes {} modded (minecraftEnv mc) := by
  have admitted : modded.Admitted := by
    constructor <;> decide
  have hapi : ∀ c s r s', some (Backend.handle c s) = some (r, s') → Backend.api c s r s' :=
    fun c s r s' h => Option.some.inj h
  have hend : syncModded.1.result? = some (.ok ()) := by decide
  exact environment_of_row rfl admitted (steps_result hapi hend)

/-- The user's difficulty is kept, and the EULA is not. -/
example : (minecraftEnv ⟨⟨"smp", "", "", 0, false, []⟩, serverSpecRead {} modded, {}⟩).map
    (fun e => (e.name, e.value)) = [
      ("EULA", "TRUE"), ("TYPE", "VANILLA"), ("VERSION", "LATEST"),
      ("OVERRIDE_SERVER_PROPERTIES", "true"), ("ENABLE_RCON", "false"), ("DIFFICULTY", "hard"),
      ("MODE", "SURVIVAL"), ("MAX_PLAYERS", "20"), ("PVP", "true"), ("ONLINE_MODE", "true"),
      ("MEMORY", "1228M"), ("MINIKURA_API_KEY", ""),
      ("PLUGINS", "maps.jar,http://minikura-backend:3000/api/registry/artifacts/token/download")] :=
  by decide +kernel

end Minikura.Operator
