import Minikura.Backend.AdmittedRows
import Minikura.Operator.EnvMerging

/-!
# The proxy of a row

From the row of a proxy to its container and its Service: what the backend writes of the row,
what the operator reads of that, and what it makes of it.

## Main definitions

* `ReverseProxyServerSpec.ofJson` — the spec that is read, if the API server accepts it.
* `ProxyEnvironment`, `ProxyExposed` — the environment and the Service that a row describes.

## Main results

* `ofJson_proxySpec` — every admitted row is accepted and read as its spec.
* `proxy_of_row` — every admitted row gets the environment and the Service it describes.
-/

namespace Minikura.Operator
open Concurrency Json

/-! ## Decoding -/

def LabelSelectorRequirement.ofJson (j : Json) : Option LabelSelectorRequirement := do
  return {
    key := ← (← j.field? "key").str?
    operator := ← (← j.field? "operator").str?
    values := ← j.fieldD "values" (fun v => v.arr? >>= fun vs => vs.mapM str?) [] }

def LabelSelector.ofJson (j : Json) : Option LabelSelector := do
  return {
    matchLabels := ← j.fieldD "matchLabels" (fun
      | .obj fields => fields.mapM fun f => f.2.str?.map (f.1, ·)
      | _ => none) []
    matchExpressions := ← j.fieldD "matchExpressions"
      (fun v => v.arr? >>= fun vs => vs.mapM (readObject LabelSelectorRequirement.ofJson)) [] }

def ReverseProxyServerSpec.ofJson (j : Json) : Option ReverseProxyServerSpec := do
  return {
    type := ← readEnum [Types.proxyVelocity, Types.proxyBungeeCord] (← j.field? "type")
    externalAddress := ← (← j.field? "externalAddress").str?
    externalPort := ← readInt 1 65535 (← j.field? "externalPort")
    listenPort := ← j.fieldD "listenPort" (readInt 1 65535) 25565
    serviceType :=
      ← j.fieldD "serviceType" (readEnum ["ClusterIP", "NodePort", "LoadBalancer"]) "LoadBalancer"
    nodePort := ← j.fieldD "nodePort" (readInt 30000 32767) 0
    resources := ← j.fieldD "resources" (readObject Resources.ofJson) {}
    jvm := ← j.fieldD "jvm" (readObject JVMOptions.ofJson) {}
    env := ← j.fieldD "env" (fun v => v.arr? >>= fun vs => vs.mapM EnvVar.ofJson) []
    apiKeySecretRef := ← (← j.field? "apiKeySecretRef").str?
    backendURL := ← j.fieldD "backendURL" str? ""
    pluginURL := ← j.fieldD "pluginURL" str? ""
    backendSelector := ←
      j.fieldD "backendSelector" (fun v => (readObject LabelSelector.ofJson v).map some) none }

/-! ## What the backend writes -/

/-- The plugins of a Velocity proxy, if there are any. -/
def velocityPlugins (o : Backend.OperatorResourceSync) (p : Backend.ReverseProxy) :
    Option String :=
  if p.type = .velocity then o.velocityPluginUrl else none

/-- What is read of the row of a proxy. -/
def proxySpecRead (o : Backend.OperatorResourceSync) (p : Backend.ReverseProxy) :
    ReverseProxyServerSpec where
  type := p.type.name
  externalAddress := p.externalAddress
  externalPort := p.externalPort
  listenPort := p.listenPort
  serviceType := Backend.serviceType p.serviceType.name
  nodePort := p.nodePort.getD 0
  resources := {
    memoryLimitMB := p.memory
    memoryRequestMB := p.memory
    cpuRequest := p.cpuRequest.getD "500m"
    cpuLimit := p.cpuLimit.getD "2" }
  jvm := { heapPercent := 80 }
  env := p.envVariables.map fun v => { name := v.key, value := v.value }
  apiKeySecretRef := Backend.secretName .reverseproxyservers p.id
  backendURL := o.backendUrl
  pluginURL := (velocityPlugins o p).getD ""

section Read

variable {o : Backend.OperatorResourceSync} {p : Backend.ReverseProxy}

theorem readInt_port {port : Int} (h : Backend.portAccepted port) :
    readInt 1 65535 (.num port) = some port := by
  simp only [Backend.portAccepted, Bool.and_eq_true, decide_eq_true_eq] at h
  exact readInt_num h.1 h.2

theorem readInt_nodePort {port : Int} (h : Backend.nodePortAccepted (some port)) :
    readInt 30000 32767 (.num port) = some port := by
  simp only [Backend.nodePortAccepted, Option.all_some, Bool.and_eq_true, decide_eq_true_eq] at h
  exact readInt_num h.1 h.2

theorem ofJson_proxyResources (h : p.Admitted) :
    Resources.ofJson (.ofFields [
      ("memoryLimitMB", some (.num p.memory)),
      ("memoryRequestMB", some (.num p.memory)),
      ("cpuRequest", p.cpuRequest.map .str),
      ("cpuLimit", p.cpuLimit.map .str)]) = some (proxySpecRead o p).resources := by
  have hs := h.storable
  simp only [Backend.ReverseProxy.storable, Backend.fitsInt4, Bool.and_eq_true,
    decide_eq_true_eq] at hs
  have hmemory : readInt 256 maxInt32 (.num p.memory) = some p.memory :=
    readInt_num h.memory hs.1.1.2.2
  cases hcr : p.cpuRequest <;> cases hcl : p.cpuLimit <;>
    simp [Resources.ofJson, fieldD, field?, proxySpecRead, hmemory, hcr, hcl]

theorem ofJson_proxyJvm :
    JVMOptions.ofJson (.ofFields [("heapPercent", some (.num 80))]) =
      some (proxySpecRead o p).jvm := by
  have hheap : readInt 1 100 (.num 80) = some 80 := by decide
  simp [JVMOptions.ofJson, fieldD, field?, proxySpecRead, hheap]

/-- What the backend writes of an admitted row passes the checks, and is read as the spec
of the row. -/
theorem ofJson_proxySpec (h : p.Admitted) :
    ReverseProxyServerSpec.ofJson (o.proxyRow p).spec = some (proxySpecRead o p) := by
  have htype : readEnum [Types.proxyVelocity, Types.proxyBungeeCord] (.str p.type.name) =
      some p.type.name := by
    cases p.type <;> decide
  have hservice : readEnum ["ClusterIP", "NodePort", "LoadBalancer"]
      (.str (Backend.serviceType p.serviceType.name)) =
      some (Backend.serviceType p.serviceType.name) := by
    cases p.serviceType <;> decide
  have hexternal := readInt_port h.externalPort
  have hlisten := readInt_port h.listenPort
  have hnode : ∀ n, p.nodePort = some n → readInt 30000 32767 (.num n) = some n := by
    intro n hn
    exact readInt_nodePort (hn ▸ h.nodePort)
  have hresources := @ofJson_proxyResources o p h
  have hjvm := @ofJson_proxyJvm o p
  have henv := mapM_ofJson_envJson (p.envVariables.map fun v => (v.key, v.value))
  rw [List.map_map, List.map_map] at henv
  have hplugins : (if p.type = .velocity then o.velocityPluginUrl.map Json.str else none) =
      (velocityPlugins o p).map .str := by
    rw [velocityPlugins]
    split_ifs <;> rfl
  simp only [Backend.OperatorResourceSync.proxyRow, Backend.OperatorResourceSync.proxySpec,
    hplugins]
  cases hd : p.description <;> cases hn : p.nodePort <;> cases hv : velocityPlugins o p <;>
    simp [ReverseProxyServerSpec.ofJson, fieldD, field?, hexternal, hlisten, htype, hservice,
      hnode, hn, hresources, hjvm, Backend.OperatorResourceSync.envJson, henv] <;>
    simp [proxySpecRead, hn, hv]

end Read

/-! ## What a row describes -/

section Row

variable {o : Backend.OperatorResourceSync} {p : Backend.ReverseProxy} {rp : ReverseProxyServer}

/-- The variables that stand for columns of a row, and a constant. -/
def proxySettings (p : Backend.ReverseProxy) : List (String × String) := [
  ("TYPE", p.type.name),
  ("NETWORKADDRESS_CACHE_TTL", "30"),
  ("MINIKURA_EXTERNAL_ADDRESS", p.externalAddress),
  ("MEMORY", toString (max 256 (p.memory * 80 / 100)) ++ "M")]

/-- The variables that lead a proxy to the backend and to its plugins. -/
def backendSettings (o : Backend.OperatorResourceSync) (p : Backend.ReverseProxy) :
    List (String × String) :=
  let apiURL := trimSlashes o.backendUrl
  [("MINIKURA_API_URL", apiURL), ("MINIKURA_WEBSOCKET_URL", websocketURL apiURL)] ++
    ((velocityPlugins o p).filter (· ≠ "")).toList.map ("PLUGINS", ·)

/-- The environment is the one that the row describes, and the Secret in it has the key of
the row. -/
structure ProxyEnvironment (o : Backend.OperatorResourceSync) (p : Backend.ReverseProxy)
    (c : Backend.Cluster) (env : List EnvVar) : Prop where
  nodup : (env.map (·.name)).Nodup
  apiKey : ∃ secret, lookupEnv env "MINIKURA_API_KEY" =
      some { name := "MINIKURA_API_KEY", valueFrom := some (.secretKeyRef secret "api-key") } ∧
    (c.value ⟨.secret, secret⟩).bind Backend.Resource.apiKey? = some p.apiKey
  /-- No variable of the row takes the place of these. -/
  backend : ∀ e ∈ backendSettings o p, lookupEnv env e.1 = some { name := e.1, value := e.2 }
  user : ∀ v ∈ p.envVariables, v.key ≠ "MINIKURA_API_KEY" →
    v.key ∉ (backendSettings o p).map (·.1) →
    lookupEnv env v.key = some { name := v.key, value := v.value }
  settings : ∀ e ∈ proxySettings p, (∀ v ∈ p.envVariables, v.key ≠ e.1) →
    lookupEnv env e.1 = some { name := e.1, value := e.2 }
  other : ∀ e ∈ env, e.name = "MINIKURA_API_KEY" ∨ e.name ∈ (backendSettings o p).map (·.1) ∨
    e.name ∈ (proxySettings p).map (·.1) ∨ ∃ v ∈ p.envVariables, v.key = e.name

/-- The Service leads from the outer port to the inner one of the pods of the Deployment. -/
structure ProxyExposed (p : Backend.ReverseProxy) (service : ServiceSpec)
    (workload : WorkloadSpec) : Prop where
  type : service.type = Backend.serviceType p.serviceType.name
  ports : service.ports = [{
    name := "minecraft"
    port := p.externalPort
    targetPort := p.listenPort
    protocol := "TCP"
    nodePort := if p.serviceType = .nodePort then p.nodePort.getD 0 else 0 }]
  selected : service.selector ⊆ workload.podLabels
  running : workload.replicas = 1

def proxyServiceSpec (rp : ReverseProxyServer) : ServiceSpec := (proxyService rp).object.body.spec
def proxyWorkload (rp : ReverseProxyServer) : WorkloadSpec := (proxyDeployment rp).object.body.spec

/-! ## What the operator makes of a row -/

/-- Variables with values of their own. -/
def plainVars (values : List (String × String)) : List EnvVar :=
  values.map fun e => { name := e.1, value := e.2 }

@[simp] theorem names_plainVars (values : List (String × String)) :
    (plainVars values).map (·.name) = values.map (·.1) := by
  rw [plainVars, List.map_map]
  rfl

def secretVar (p : Backend.ReverseProxy) : EnvVar where
  name := "MINIKURA_API_KEY"
  valueFrom := some (.secretKeyRef (Backend.secretName .reverseproxyservers p.id) "api-key")

theorem proxySecretName_ne_empty (id : String) :
    Backend.secretName .reverseproxyservers id ≠ "" := by
  intro he
  have hlength := congrArg String.length he
  simp only [Backend.secretName, String.length_append, show "-api-key".length = 8 from rfl]
    at hlength
  exact absurd hlength (by simp)

theorem backendUrl_ne_empty : o.backendUrl ≠ "" := by
  unfold Backend.OperatorResourceSync.backendUrl Backend.orElse
  cases o.operatorBackendUrl with
  | none => decide
  | some url =>
    by_cases hurl : url = ""
    · simp [hurl]
    · simp [hurl]

theorem heapMB_eighty {memory : Int} (h : 256 ≤ memory) :
    heapMB memory 80 = toString (max 256 (memory * 80 / 100)) ++ "M" := by
  have hlimit : ¬memory ≤ 0 := by omega
  have hheap : (if memory * 80 / 100 < minHeapMB then minHeapMB else memory * 80 / 100) =
      max 256 (memory * 80 / 100) := by
    simp only [minHeapMB]
    omega
  simp only [heapMB, if_neg hlimit, show (decide ((80 : Int) ≤ 0) || decide ((80 : Int) > 100)) =
    false from rfl, Bool.false_eq_true, if_false, hheap]

theorem envVars_proxyValues (h : p.Admitted) :
    envVars (proxyValues (proxySpecRead o p)) = plainVars (proxySettings p) := by
  rw [proxySettings, ← heapMB_eighty h.memory]
  rfl

/-- A proxy has plugins if it is one of Velocity and the backend knows where they are. -/
theorem pluginsValue_eq :
    (if p.type.name = Types.proxyVelocity ∧ (velocityPlugins o p).getD "" ≠ "" then
      some ((velocityPlugins o p).getD "") else none) =
      (velocityPlugins o p).filter (· ≠ "") := by
  have hname : p.type.name = Types.proxyVelocity ↔ p.type = .velocity := by
    cases p.type <;> decide
  cases hplugins : velocityPlugins o p with
  | none => simp
  | some url =>
    have hvelocity : p.type = .velocity := by
      by_contra hne
      simp [velocityPlugins, hne] at hplugins
    by_cases hurl : url = "" <;> simp [hname.mpr hvelocity, hurl, Option.filter]

theorem envVars_proxyWiring :
    envVars (proxyWiring (proxySpecRead o p)) = plainVars (backendSettings o p) := by
  have hurl : (proxySpecRead o p).backendURL ≠ "" := backendUrl_ne_empty
  have hplugins : (if (proxySpecRead o p).type = Types.proxyVelocity ∧
      (proxySpecRead o p).pluginURL ≠ "" then some (proxySpecRead o p).pluginURL else none) =
      (velocityPlugins o p).filter (· ≠ "") := pluginsValue_eq
  have hread : (proxySpecRead o p).backendURL = o.backendUrl := rfl
  rw [proxyWiring, hplugins, if_pos hurl, if_pos hurl, envVars_cons_some, envVars_cons_some,
    backendSettings, hread]
  cases (velocityPlugins o p).filter (· ≠ "") <;> simp [envVars, plainVars]

theorem proxyBase_read (h : p.Admitted) (hspec : rp.spec = proxySpecRead o p) :
    proxyBase rp = plainVars (proxySettings p) ++ [secretVar p] ++
      plainVars (backendSettings o p) := by
  have hkey : apiKeyEnv (proxySpecRead o p).apiKeySecretRef = [secretVar p] :=
    if_pos (proxySecretName_ne_empty p.id)
  rw [proxyBase, hspec, envVars_proxyValues h, hkey, envVars_proxyWiring]

theorem proxyProtected_read (hspec : rp.spec = proxySpecRead o p) :
    proxyProtected rp = "MINIKURA_API_KEY" :: (backendSettings o p).map (·.1) := by
  rw [proxyProtected, hspec, envVars_proxyWiring, names_plainVars]

theorem proxyEnvironment (h : p.Admitted) (hspec : rp.spec = proxySpecRead o p)
    {c : Backend.Cluster}
    (hsecret : (c.value ⟨.secret, Backend.secretName .reverseproxyservers p.id⟩).bind
      Backend.Resource.apiKey? = some p.apiKey) :
    ProxyEnvironment o p c (proxyEnv rp) := by
  have merged : Merged (proxyBase rp) rp.spec.env (proxyProtected rp) (proxyEnv rp) := by
    rw [proxyEnv_eq]
    exact merged_userEnv (nodup_proxyBase rp)
  have hbase := proxyBase_read h hspec
  have hprotected := proxyProtected_read hspec
  have henv : rp.spec.env = plainVars (p.envVariables.map fun v => (v.key, v.value)) := by
    rw [hspec, plainVars, List.map_map]
    rfl
  have hfixed : ∀ e ∈ proxyBase rp, e.name ∈ proxyProtected rp →
      lookupEnv (proxyEnv rp) e.name = some e := by
    intro e he hname
    exact (merged.fixed e.name hname).trans (lookupEnv_of_mem (nodup_proxyBase rp) he)
  refine ⟨merged.nodup, ?_, ?_, ?_, ?_, ?_⟩
  · refine ⟨_, hfixed (secretVar p) ?_ ?_, hsecret⟩
    · rw [hbase]
      simp
    · rw [hprotected]
      exact List.mem_cons_self ..
  · intro e he
    refine hfixed { name := e.1, value := e.2 } ?_ ?_
    · rw [hbase]
      exact List.mem_append_right _ (List.mem_map_of_mem he)
    · rw [hprotected]
      exact List.mem_cons_of_mem _ (List.mem_map_of_mem he)
  · intro v hv hkey hwired
    have hmem : ({ name := v.key, value := v.value } : EnvVar) ∈ rp.spec.env := by
      rw [hspec]
      exact List.mem_map_of_mem hv
    have hnodup : (rp.spec.env.map (·.name)).Nodup := by
      have hs := h.storable
      simp only [Backend.ReverseProxy.storable, Bool.and_eq_true, decide_eq_true_eq] at hs
      rw [henv, names_plainVars, List.map_map]
      exact hs.2
    have hlast := (find?_reverse_of_nodup hnodup v.key).trans (find?_of_mem hnodup hmem)
    have hfree : v.key ∉ proxyProtected rp := by
      rw [hprotected]
      exact List.not_mem_cons_of_ne_of_not_mem hkey hwired
    exact merged.user v.key hfree _ hlast
  · intro e he hfree
    have hmem : ({ name := e.1, value := e.2 } : EnvVar) ∈ proxyBase rp := by
      rw [hbase]
      exact List.mem_append_left _ (List.mem_append_left _ (List.mem_map_of_mem he))
    obtain ⟨i, hi⟩ := List.getElem?_of_mem hmem
    have hextra : ∀ d ∈ rp.spec.env, d.name ≠ e.1 := by
      rw [henv]
      grind [plainVars]
    exact lookupEnv_of_mem merged.nodup (List.mem_of_getElem? (merged.kept i _ hi hextra))
  · intro e he
    have hname : e.name ∈ (proxyEnv rp).map (·.name) := List.mem_map_of_mem he
    rw [merged.order, hbase, henv, List.map_append, List.map_append, names_plainVars,
      names_plainVars, names_plainVars, List.map_map, List.mem_append, List.mem_append,
      List.mem_append, List.mem_eraseDups, List.mem_filter] at hname
    rcases hname with ((hsetting | hkey) | hbackend) | ⟨huser, -⟩
    · exact .inr (.inr (.inl hsetting))
    · exact .inl (List.mem_singleton.mp hkey)
    · exact .inr (.inl hbackend)
    · obtain ⟨v, hv, hv'⟩ := List.mem_map.mp huser
      exact .inr (.inr (.inr ⟨v, hv, hv'⟩))

theorem proxyExposed (hspec : rp.spec = proxySpecRead o p) :
    ProxyExposed p (proxyServiceSpec rp) (proxyWorkload rp) := by
  have htype : serviceType (Backend.serviceType p.serviceType.name) "LoadBalancer" =
      Backend.serviceType p.serviceType.name := by
    cases p.serviceType <;> decide
  have hport : (servicePort (Backend.serviceType p.serviceType.name) p.externalPort p.listenPort
      (p.nodePort.getD 0)).nodePort =
      if p.serviceType = .nodePort then p.nodePort.getD 0 else 0 := by
    have hnode : Backend.serviceType p.serviceType.name = "NodePort" ↔
        p.serviceType = .nodePort := by
      cases p.serviceType <;> decide
    simp only [servicePort]
    grind
  refine ⟨?_, ?_, ?_, rfl⟩
  · change serviceType rp.spec.serviceType "LoadBalancer" = _
    rw [hspec]
    exact htype
  · change [servicePort (serviceType rp.spec.serviceType "LoadBalancer") rp.spec.externalPort
      rp.spec.listenPort rp.spec.nodePort] = _
    rw [hspec, ← hport]
    simp only [proxySpecRead, htype]
    rfl
  · exact List.cons_subset_cons _ (List.nil_subset _)

end Row

/-- A proxy that a request has made and another one has moved to a port of the nodes, with
variables of all sorts. -/
def edgeInput : Backend.CreateReverseProxyInput where
  id := "edge"
  externalAddress := "play.example.org"
  externalPort := 25577
  envVariables := some [⟨"MINIKURA_API_URL", "elsewhere"⟩, ⟨"TYPE", "WATERFALL"⟩, ⟨"MOTD", "hi"⟩]

def edgeUpdate : Backend.Routes.UpdateReverseProxyInput where
  serviceType := some .nodePort
  nodePort := some (some 30577)

def edgeRow : Backend.ReverseProxy :=
  Backend.Routes.ReverseProxy.update (Backend.ReverseProxy.ofInput edgeInput "key") edgeUpdate

def edgeSync : Backend.OperatorResourceSync where
  operatorBackendUrl := some "https://minikura/api/"
  velocityPluginUrl := some "https://plugins/a.jar"

def syncEdge : Prog Backend.Call (Settled Backend.Error Backend.Answer)
    (Except Backend.Error Unit) × Backend.State :=
  (edgeSync.syncReverseProxy edgeRow).run.runTurns
    (fun c s => some (Backend.handle c s)) (List.replicate 5 .go) (.idle .empty .empty)

/-- The type is that of the user, and the way to the backend is not. -/
example : (proxyEnv ⟨⟨"edge", "", "", 0, false, []⟩, proxySpecRead edgeSync edgeRow, {}⟩).map
    (fun e => (e.name, e.value)) = [
      ("TYPE", "WATERFALL"), ("NETWORKADDRESS_CACHE_TTL", "30"),
      ("MINIKURA_EXTERNAL_ADDRESS", "play.example.org"), ("MEMORY", "409M"),
      ("MINIKURA_API_KEY", ""), ("MINIKURA_API_URL", "https://minikura/api"),
      ("MINIKURA_WEBSOCKET_URL", "wss://minikura/api/servers/ws"),
      ("PLUGINS", "https://plugins/a.jar"), ("MOTD", "hi")] := by
  decide +kernel

end Minikura.Operator
