import Minikura.Operator.Environment

/-!
# Merging environments

The user's variables are put over those of the operator in a slice that grows, with an index
of the places by name.

## Main definitions

* `userEnvLoop` — `UserEnv` with its slice and its index.
* `minecraftBase`, `proxyBase`, `proxyProtected` — what the two callers pass.
* `Merged` — what the merged environment holds, and in which order.

## Main results

* `userEnvLoop_eq` — over a base with distinct names, the loop makes `userEnv`.
* `environments_merged` — the environments of both resources are merged.
-/

namespace Minikura.Operator

/-! ## The loop -/

/-- The slice of `UserEnv`, and the place of each name in it. -/
structure IndexedEnv where
  base : List EnvVar
  index : List (String × ℕ)

namespace IndexedEnv

/-- Before the loop: a later variable of a name takes the place of an earlier one. -/
def ofBase (base : List EnvVar) : IndexedEnv where
  base := base
  index := setEntries [] (base.zipIdx.map fun e => (e.1.name, e.2))

/-- One variable of the user. -/
def add (reserved : List String) (env : IndexedEnv) (e : EnvVar) : IndexedEnv :=
  if reserved.contains e.name then env
  else
    let valueFrom := e.valueFrom
    let value := if e.valueFrom.isSome then "" else e.value
    match env.index.lookup e.name with
    | some i =>
      { env with
        base := env.base.modify i fun b => { b with value := value, valueFrom := valueFrom } }
    | none =>
      { base := env.base ++ [{ name := e.name, value := value, valueFrom := valueFrom }]
        index := setEntry env.index e.name env.base.length }

end IndexedEnv

def userEnvLoop (base extra : List EnvVar) (reserved : List String) : List EnvVar :=
  (extra.foldl (IndexedEnv.add reserved) (.ofBase base)).base

/-- The variables under their names. -/
def keyed (env : List EnvVar) : List (String × EnvVar) := env.map fun e => (e.name, e)

section Loop

variable {base extra : List EnvVar} {reserved : List String} {env : IndexedEnv}

@[simp] theorem keys_keyed (env : List EnvVar) : (keyed env).map (·.1) = env.map (·.name) := by
  rw [keyed, List.map_map]
  rfl

@[simp] theorem values_keyed (env : List EnvVar) : (keyed env).map (·.2) = env := by
  rw [keyed, List.map_map]
  exact List.map_id env

@[simp] theorem keyed_append (env env' : List EnvVar) :
    keyed (env ++ env') = keyed env ++ keyed env' :=
  List.map_append

theorem userEnv_eq_setEntries (base extra : List EnvVar) (reserved : List String) :
    userEnv base extra reserved = (setEntries (keyed base)
      (keyed ((extra.filter fun e => !reserved.contains e.name).map userVar))).map (·.2) := by
  rw [userEnv, keyed, keyed, List.map_map]
  rfl

namespace IndexedEnv

/-- A name is in the index with its place in the slice, and only then. -/
def Accurate (env : IndexedEnv) : Prop :=
  ∀ name, env.index.lookup name = (env.base.map (·.name)).findIdx? fun n => n = name

theorem accurate_ofBase (h : (base.map (·.name)).Nodup) : (ofBase base).Accurate := by
  intro name
  have hkeys : ((base.zipIdx.map fun e => (e.1.name, e.2)).map (·.1)).Nodup := by
    have hnames : (base.zipIdx.map fun e => (e.1.name, e.2)).map (·.1) = base.map (·.name) := by
      conv => rhs; rw [← List.zipIdx_map_fst 0 base, List.map_map]
      rw [List.map_map]
      rfl
    rwa [hnames]
  rw [ofBase, setEntries_of_nodup hkeys, List.nil_append, lookup_map_pair, List.findIdx?_map,
    List.findIdx?_eq_fst_find?_zipIdx]
  rfl

theorem findIdx?_keyed (env : List EnvVar) (name : String) :
    (keyed env).findIdx? (fun e => e.1 = name) =
      (env.map (·.name)).findIdx? fun n => n = name := by
  rw [← keys_keyed, List.findIdx?_map]
  rfl

/-- An overwritten variable keeps its name, which is that of the user's. -/
theorem keyed_modify {base : List EnvVar} {e : EnvVar} {i : ℕ}
    (h : (base.map (·.name)).findIdx? (fun n => n = e.name) = some i) :
    keyed (base.modify i fun b =>
      { b with value := if e.valueFrom.isSome then "" else e.value, valueFrom := e.valueFrom }) =
      (keyed base).set i (e.name, userVar e) := by
  obtain ⟨hi, hname, -⟩ := List.findIdx?_eq_some_iff_getElem.mp h
  rw [List.length_map] at hi
  rw [List.getElem_map, decide_eq_true_eq] at hname
  refine List.ext_getElem? fun j => ?_
  by_cases hij : i = j
  · subst hij
    simp [keyed, userVar, hi, hname]
  · simp [keyed, hij]

theorem add_of_reserved {e : EnvVar} (h : reserved.contains e.name) : env.add reserved e = env :=
  if_pos h

theorem add_of_place {e : EnvVar} {i : ℕ} (h : ¬reserved.contains e.name)
    (hplace : env.index.lookup e.name = some i) : env.add reserved e =
      { env with
        base := env.base.modify i fun b =>
          { b with
            value := if e.valueFrom.isSome then "" else e.value
            valueFrom := e.valueFrom } } := by
  rw [add, if_neg h]
  simp only [hplace]

theorem add_of_new {e : EnvVar} (h : ¬reserved.contains e.name)
    (hplace : env.index.lookup e.name = none) : env.add reserved e =
      { base := env.base ++ [userVar e]
        index := setEntry env.index e.name env.base.length } := by
  rw [add, if_neg h]
  simp only [hplace]
  rfl

theorem Accurate.mem_of_place (h : env.Accurate) {name : String} {i : ℕ}
    (hplace : env.index.lookup name = some i) : name ∈ env.base.map (·.name) := by
  rw [h] at hplace
  obtain ⟨hi, hname, -⟩ := List.findIdx?_eq_some_iff_getElem.mp hplace
  exact of_decide_eq_true hname ▸ List.getElem_mem hi

theorem Accurate.notMem_of_new (h : env.Accurate) {name : String}
    (hplace : env.index.lookup name = none) : name ∉ env.base.map (·.name) := by
  rw [h, List.findIdx?_eq_none_iff] at hplace
  exact fun hmem => by simpa using hplace _ hmem

/-- What one variable of the user does to the slice. -/
theorem keyed_add (h : env.Accurate) (e : EnvVar) :
    keyed (env.add reserved e).base =
      if reserved.contains e.name then keyed env.base
      else setEntry (keyed env.base) e.name (userVar e) := by
  split_ifs with hreserved
  · rw [add_of_reserved hreserved]
  cases hplace : env.index.lookup e.name with
  | some i =>
    have hi := (h e.name).symm.trans hplace
    rw [add_of_place hreserved hplace, setEntry_eq_set _ ((findIdx?_keyed ..).trans hi)]
    exact keyed_modify hi
  | none =>
    have hnew := h.notMem_of_new hplace
    rw [← keys_keyed] at hnew
    rw [add_of_new hreserved hplace, setEntry_eq_append _ hnew, keyed_append]
    rfl

theorem accurate_add (h : env.Accurate) (e : EnvVar) : (env.add reserved e).Accurate := by
  by_cases hreserved : reserved.contains e.name
  · rwa [add_of_reserved hreserved]
  intro name
  cases hplace : env.index.lookup e.name with
  | some i =>
    have hnames := congrArg (List.map (·.1)) (keyed_add h e : keyed (env.add reserved e).base = _)
    have hmem := h.mem_of_place hplace
    rw [← keys_keyed] at hmem
    rw [if_neg hreserved, keys_setEntry, if_pos hmem, keys_keyed, keys_keyed] at hnames
    rw [hnames, add_of_place hreserved hplace]
    exact h name
  | none =>
    have hnew := (h e.name).symm.trans hplace
    rw [add_of_new hreserved hplace, lookup_setEntry, h name, List.map_append,
      List.findIdx?_append]
    by_cases hname : name = e.name
    · subst hname
      simp [hnew, userVar]
    · simp [hname, Ne.symm hname, userVar]

/-- What the whole loop does to it. -/
theorem keyed_foldl_add (h : env.Accurate) (extra : List EnvVar) :
    keyed (extra.foldl (add reserved) env).base = setEntries (keyed env.base)
      (keyed ((extra.filter fun e => !reserved.contains e.name).map userVar)) := by
  induction extra generalizing env with
  | nil => rfl
  | cons e extra ih =>
    rw [List.foldl_cons, ih (accurate_add h e), keyed_add h, List.filter_cons]
    cases reserved.contains e.name
    · simp only [Bool.not_false, if_true, Bool.false_eq_true, if_false]
      rfl
    · simp only [Bool.not_true, if_true, Bool.false_eq_true, if_false]

end IndexedEnv

/-- Over a base with distinct names the loop makes what `userEnv` says. -/
theorem userEnvLoop_eq (h : (base.map (·.name)).Nodup) :
    userEnvLoop base extra reserved = userEnv base extra reserved := by
  rw [userEnv_eq_setEntries, ← values_keyed (userEnvLoop base extra reserved)]
  exact congrArg _ (IndexedEnv.keyed_foldl_add (IndexedEnv.accurate_ofBase h) extra)

/-! ## The merged environment -/

/-- What the user's variables make of a base. -/
structure Merged (base extra : List EnvVar) (reserved : List String) (env : List EnvVar) :
    Prop where
  nodup : (env.map (·.name)).Nodup
  /-- A protected name has what the base has under it, if anything. -/
  fixed : ∀ name ∈ reserved, lookupEnv env name = lookupEnv base name
  /-- Every other name of the user has the last variable of that name. -/
  user : ∀ name ∉ reserved, ∀ e : EnvVar, (extra.reverse.find? fun d => d.name = name) = some e →
    lookupEnv env name = some (userVar e)
  kept : ∀ (i : ℕ) (e : EnvVar), base[i]? = some e → (∀ d ∈ extra, d.name ≠ e.name) →
    env[i]? = some e
  order : env.map (·.name) = base.map (·.name) ++
    ((extra.map (·.name)).filter fun n => n ∉ reserved ∧ n ∉ base.map (·.name)).eraseDups

theorem names_userEnv (base extra : List EnvVar) (reserved : List String) :
    (userEnv base extra reserved).map (·.name) = base.map (·.name) ++
      ((extra.map (·.name)).filter fun n => n ∉ reserved ∧ n ∉ base.map (·.name)).eraseDups := by
  have hnames : (userEnv base extra reserved).map (·.name) =
      (setEntries (keyed base)
        (keyed ((extra.filter fun e => !reserved.contains e.name).map userVar))).map (·.1) := by
    rw [userEnv_eq_setEntries, List.map_map]
    refine List.map_congr_left fun e he => ?_
    rcases mem_setEntries he with he | he <;> obtain ⟨d, -, rfl⟩ := List.mem_map.mp he <;> rfl
  have hextra : ((extra.filter fun e => !reserved.contains e.name).map userVar).map (·.name) =
      (extra.map (·.name)).filter fun n => n ∉ reserved := by
    rw [List.map_map, List.filter_map]
    have hfree : extra.filter ((fun n => decide (n ∉ reserved)) ∘ EnvVar.name) =
        extra.filter fun e => !reserved.contains e.name :=
      List.filter_congr fun e _ => by simp
    rw [hfree]
    rfl
  rw [hnames, keys_setEntries, keys_keyed, keys_keyed, hextra, List.filter_filter]
  refine congrArg (fun l => base.map (·.name) ++ List.eraseDups l) ?_
  refine List.filter_congr fun n _ => ?_
  rw [Bool.decide_and, Bool.and_comm]

theorem getElem?_userEnv {e : EnvVar} {i : ℕ} (h : base[i]? = some e)
    (hextra : ∀ d ∈ extra, d.name ≠ e.name) : (userEnv base extra reserved)[i]? = some e := by
  have hkeyed : (keyed base)[i]? = some (e.name, e) := by
    rw [keyed, List.getElem?_map, h]
    rfl
  rw [userEnv_eq_setEntries, List.getElem?_map, getElem?_setEntries hkeyed]
  · rfl
  intro d hd
  obtain ⟨_, hvar, rfl⟩ := List.mem_map.mp hd
  obtain ⟨d, hmem, rfl⟩ := List.mem_map.mp hvar
  exact (hextra d (List.mem_of_mem_filter hmem)).symm

theorem merged_userEnv (h : (base.map (·.name)).Nodup) :
    Merged base extra reserved (userEnv base extra reserved) where
  nodup := nodup_userEnv h
  fixed name hname := (find?_userEnv name).trans (if_pos hname)
  user name hname e he := by
    rw [lookupEnv, find?_userEnv, if_neg hname, he]
    rfl
  kept _ _ := getElem?_userEnv
  order := names_userEnv ..

end Loop

/-! ## The two callers -/

def minecraftBase (mc : MinecraftServer) : List EnvVar :=
  envVars (managedValues mc.spec) ++ apiKeyEnv mc.spec.apiKeySecretRef

/-- The variables of a proxy that a user may set, each with its value if it has one. -/
def proxyValues (spec : ReverseProxyServerSpec) : List (String × Option String) := [
  ("TYPE", some spec.type),
  ("NETWORKADDRESS_CACHE_TTL", some "30"),
  ("MINIKURA_EXTERNAL_ADDRESS", some spec.externalAddress),
  ("MEMORY", some (heapMB spec.resources.memoryLimitMB spec.jvm.heapPercent)),
  ("JVM_OPTS", nonEmpty spec.jvm.opts),
  ("USE_AIKAR_FLAGS", flag spec.jvm.useAikarFlags),
  ("USE_MEOWICE_FLAGS", flag spec.jvm.useMeowIceFlags)]

/-- The variables that connect a proxy with the backend. -/
def proxyWiring (spec : ReverseProxyServerSpec) : List (String × Option String) :=
  let apiURL := trimSlashes spec.backendURL
  [("MINIKURA_API_URL", if spec.backendURL ≠ "" then some apiURL else none),
   ("MINIKURA_WEBSOCKET_URL", if spec.backendURL ≠ "" then some (websocketURL apiURL) else none),
   ("PLUGINS", if spec.type = Types.proxyVelocity ∧ spec.pluginURL ≠ "" then some spec.pluginURL
      else none)]

def proxyBase (rp : ReverseProxyServer) : List EnvVar :=
  envVars (proxyValues rp.spec) ++ apiKeyEnv rp.spec.apiKeySecretRef ++
    envVars (proxyWiring rp.spec)

def proxyProtected (rp : ReverseProxyServer) : List String :=
  "MINIKURA_API_KEY" :: (envVars (proxyWiring rp.spec)).map (·.name)

theorem proxyEnv_eq (rp : ReverseProxyServer) :
    proxyEnv rp = userEnv (proxyBase rp) rp.spec.env (proxyProtected rp) := by
  have hbase : proxyBase rp = [
      { name := "TYPE", value := rp.spec.type },
      { name := "NETWORKADDRESS_CACHE_TTL", value := "30" },
      { name := "MINIKURA_EXTERNAL_ADDRESS", value := rp.spec.externalAddress }] ++
      jvmEnv rp.spec.jvm rp.spec.resources.memoryLimitMB ++ apiKeyEnv rp.spec.apiKeySecretRef ++
      envVars (proxyWiring rp.spec) := by
    simp only [proxyBase, proxyValues, jvmEnv, envVars_cons_some, envVars_cons_nonEmpty,
      envVars_cons_flag, List.cons_append, List.nil_append, List.append_assoc]
    rfl
  rw [hbase]
  unfold proxyEnv proxyProtected proxyWiring
  by_cases hurl : rp.spec.backendURL = "" <;>
    by_cases hplugins : rp.spec.type = Types.proxyVelocity ∧ rp.spec.pluginURL ≠ "" <;>
      simp [hurl, hplugins, envVars]

theorem names_apiKeyEnv (secretRef : String) :
    ((apiKeyEnv secretRef).map (·.name)).Sublist ["MINIKURA_API_KEY"] := by
  unfold apiKeyEnv
  split_ifs
  · exact List.Sublist.refl _
  · exact List.nil_sublist _

theorem names_envVars (values : List (String × Option String)) :
    ((envVars values).map (·.name)).Sublist (values.map (·.1)) := by
  induction values with
  | nil => exact List.Sublist.refl _
  | cons e values ih =>
    obtain ⟨name, value⟩ := e
    cases value with
    | none => exact ih.cons name
    | some value => exact ih.cons_cons name

theorem nodup_minecraftBase (mc : MinecraftServer) :
    ((minecraftBase mc).map (·.name)).Nodup := by
  have hsub : ((minecraftBase mc).map (·.name)).Sublist
      ((managedValues mc.spec).map (·.1) ++ ["MINIKURA_API_KEY"]) := by
    rw [minecraftBase, List.map_append]
    exact (names_envVars _).append (names_apiKeyEnv _)
  refine hsub.nodup ?_
  rw [keys_managedValues mc.spec { type := "" }]
  decide

theorem nodup_proxyBase (rp : ReverseProxyServer) : ((proxyBase rp).map (·.name)).Nodup := by
  have hsub : ((proxyBase rp).map (·.name)).Sublist
      ((proxyValues rp.spec).map (·.1) ++ ["MINIKURA_API_KEY"] ++
        (proxyWiring rp.spec).map (·.1)) := by
    rw [proxyBase, List.map_append, List.map_append]
    exact ((names_envVars _).append (names_apiKeyEnv _)).append (names_envVars _)
  refine hsub.nodup ?_
  have hkeys : (proxyValues rp.spec).map (·.1) ++ ["MINIKURA_API_KEY"] ++
      (proxyWiring rp.spec).map (·.1) = ["TYPE", "NETWORKADDRESS_CACHE_TTL",
        "MINIKURA_EXTERNAL_ADDRESS", "MEMORY", "JVM_OPTS", "USE_AIKAR_FLAGS",
        "USE_MEOWICE_FLAGS", "MINIKURA_API_KEY", "MINIKURA_API_URL", "MINIKURA_WEBSOCKET_URL",
        "PLUGINS"] := rfl
  rw [hkeys]
  decide

/-- Of variables with distinct names, a name finds the one that has it. -/
theorem lookupEnv_of_mem {env : List EnvVar} (h : (env.map (·.name)).Nodup) {e : EnvVar}
    (he : e ∈ env) : lookupEnv env e.name = some e :=
  find?_of_mem h he

theorem mem_envVars {values : List (String × Option String)} {name value : String}
    (h : (name, some value) ∈ values) :
    ({ name := name, value := value } : EnvVar) ∈ envVars values :=
  List.mem_filterMap.mpr ⟨_, h, rfl⟩

/-- The key of a resource is found, if it refers to one. -/
theorem lookupEnv_apiKey {base : List EnvVar} {secretRef : String}
    (h : (base.map (·.name)).Nodup) (hkey : apiKeyEnv secretRef ⊆ base)
    (hnone : secretRef = "" → "MINIKURA_API_KEY" ∉ base.map (·.name)) :
    lookupEnv base "MINIKURA_API_KEY" = if secretRef = "" then none else some {
      name := "MINIKURA_API_KEY", valueFrom := some (.secretKeyRef secretRef "api-key") } := by
  split_ifs with href
  · refine List.find?_eq_none.mpr fun e he hn => hnone href ?_
    exact List.mem_map.mpr ⟨e, he, of_decide_eq_true hn⟩
  · rw [apiKeyEnv, if_pos href] at hkey
    exact lookupEnv_of_mem h (hkey (List.mem_singleton_self _))

theorem lookupEnv_minecraftBase (mc : MinecraftServer) :
    lookupEnv (minecraftBase mc) "EULA" = some { name := "EULA", value := "TRUE" } ∧
    lookupEnv (minecraftBase mc) "MINIKURA_API_KEY" =
      if mc.spec.apiKeySecretRef = "" then none else some {
        name := "MINIKURA_API_KEY"
        valueFrom := some (.secretKeyRef mc.spec.apiKeySecretRef "api-key") } := by
  refine ⟨lookupEnv_of_mem (nodup_minecraftBase mc) (List.mem_cons_self ..),
    lookupEnv_apiKey (nodup_minecraftBase mc) (List.subset_append_right ..) fun href hmem => ?_⟩
  rw [minecraftBase, href, apiKeyEnv, if_neg (by simp), List.append_nil] at hmem
  obtain ⟨e, he, hname⟩ := List.mem_map.mp hmem
  exact apiKey_notMem mc.spec (hname ▸ name_mem_of_envVars he)

theorem lookupEnv_proxyBase_apiKey (rp : ReverseProxyServer) :
    lookupEnv (proxyBase rp) "MINIKURA_API_KEY" =
      if rp.spec.apiKeySecretRef = "" then none else some {
        name := "MINIKURA_API_KEY"
        valueFrom := some (.secretKeyRef rp.spec.apiKeySecretRef "api-key") } := by
  refine lookupEnv_apiKey (nodup_proxyBase rp)
    (List.subset_append_of_subset_left _ (List.subset_append_right ..)) fun href hmem => ?_
  rw [proxyBase, href, apiKeyEnv, if_neg (by simp), List.append_nil, List.map_append,
    List.mem_append] at hmem
  have hvalues : "MINIKURA_API_KEY" ∉ (proxyValues rp.spec).map (·.1) := by
    have hkeys : (proxyValues rp.spec).map (·.1) = (proxyValues { type := "" }).map (·.1) := rfl
    rw [hkeys]
    decide
  have hwiring : "MINIKURA_API_KEY" ∉ (proxyWiring rp.spec).map (·.1) := by
    have hkeys : (proxyWiring rp.spec).map (·.1) =
        ["MINIKURA_API_URL", "MINIKURA_WEBSOCKET_URL", "PLUGINS"] := rfl
    rw [hkeys]
    decide
  rcases hmem with hmem | hmem
  · exact hvalues ((names_envVars _).subset hmem)
  · exact hwiring ((names_envVars _).subset hmem)

/-- The variables of a user are put over those of the operator, for servers and for proxies. -/
theorem environments_merged :
    (∀ mc : MinecraftServer,
      minecraftEnv mc = userEnvLoop (minecraftBase mc) mc.spec.env
        ["EULA", "MINIKURA_API_KEY"] ∧
      Merged (minecraftBase mc) mc.spec.env ["EULA", "MINIKURA_API_KEY"] (minecraftEnv mc) ∧
      lookupEnv (minecraftEnv mc) "EULA" = some { name := "EULA", value := "TRUE" } ∧
      lookupEnv (minecraftEnv mc) "MINIKURA_API_KEY" =
        if mc.spec.apiKeySecretRef = "" then none else some {
          name := "MINIKURA_API_KEY"
          valueFrom := some (.secretKeyRef mc.spec.apiKeySecretRef "api-key") }) ∧
    ∀ rp : ReverseProxyServer,
      proxyEnv rp = userEnvLoop (proxyBase rp) rp.spec.env (proxyProtected rp) ∧
      Merged (proxyBase rp) rp.spec.env (proxyProtected rp) (proxyEnv rp) ∧
      (lookupEnv (proxyEnv rp) "MINIKURA_API_KEY" =
        if rp.spec.apiKeySecretRef = "" then none else some {
          name := "MINIKURA_API_KEY"
          valueFrom := some (.secretKeyRef rp.spec.apiKeySecretRef "api-key") }) ∧
      ∀ name value, (name, some value) ∈ proxyWiring rp.spec →
        lookupEnv (proxyEnv rp) name = some { name := name, value := value } := by
  refine ⟨fun mc => ?_, fun rp => ?_⟩
  · have merged : Merged (minecraftBase mc) mc.spec.env ["EULA", "MINIKURA_API_KEY"]
        (minecraftEnv mc) := by
      rw [minecraftEnv_eq]
      exact merged_userEnv (nodup_minecraftBase mc)
    obtain ⟨heula, hkey⟩ := lookupEnv_minecraftBase mc
    refine ⟨?_, merged, ?_, ?_⟩
    · rw [userEnvLoop_eq (nodup_minecraftBase mc), minecraftEnv_eq]
      rfl
    · exact (merged.fixed _ (List.mem_cons_self ..)).trans heula
    · exact (merged.fixed _ (List.mem_cons_of_mem _ (List.mem_singleton_self _))).trans hkey
  · have merged : Merged (proxyBase rp) rp.spec.env (proxyProtected rp) (proxyEnv rp) := by
      rw [proxyEnv_eq]
      exact merged_userEnv (nodup_proxyBase rp)
    refine ⟨?_, merged, ?_, fun name value hwiring => ?_⟩
    · rw [userEnvLoop_eq (nodup_proxyBase rp), proxyEnv_eq]
    · exact (merged.fixed _ (List.mem_cons_self ..)).trans (lookupEnv_proxyBase_apiKey rp)
    · have hmem := mem_envVars hwiring
      refine (merged.fixed name ?_).trans
        (lookupEnv_of_mem (nodup_proxyBase rp) (List.mem_append_right _ hmem))
      exact List.mem_cons_of_mem _ (List.mem_map.mpr ⟨_, hmem, rfl⟩)

/-- A user sets a name twice, one that is protected, and one of the operator. -/
example : (proxyEnv ⟨⟨"edge", "", "", 0, false, []⟩,
    { type := "BUNGEECORD", backendURL := "https://api/"
      env := [⟨"A", "1", none⟩, ⟨"MINIKURA_API_URL", "evil", none⟩, ⟨"TYPE", "CUSTOM", none⟩,
        ⟨"PLUGINS", "a.jar", none⟩, ⟨"A", "2", none⟩] }, {}⟩).map (fun e => (e.name, e.value)) = [
      ("TYPE", "CUSTOM"), ("NETWORKADDRESS_CACHE_TTL", "30"), ("MINIKURA_EXTERNAL_ADDRESS", ""),
      ("MEMORY", "1228M"), ("MINIKURA_API_URL", "https://api"),
      ("MINIKURA_WEBSOCKET_URL", "wss://api/servers/ws"), ("A", "2"), ("PLUGINS", "a.jar")] := by
  decide +kernel

end Minikura.Operator
