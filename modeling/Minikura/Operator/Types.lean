import Mathlib.Data.List.AList
import Minikura.Concurrency.Async

/-!
# The types of the operator

The custom resources, the objects generated from them, and the functions of the
Kubernetes libraries the controllers rely on. A Go string type with constants stays a
`String`, since the controllers check it themselves; a pointer is an `Option`.

## Main definitions

* `MinecraftServer`, `ReverseProxyServer` — the custom resources.
* `Object` — the generated objects, each of its kind's type.
* `Library`, `Library.Documented` — the functions of other packages.
-/

namespace Minikura.Operator

/-- A `map[string]string`. -/
abbrev Labels := List (String × String)

structure NamespacedName where
  ns : String
  name : String
deriving Repr, DecidableEq

/-! ## Errors -/

structure Error where
  message : String
  notFound : Bool := false
deriving Repr, DecidableEq

/-- `client.IgnoreNotFound` -/
def ignoreNotFound : Except Error Unit → Except Error Unit
  | .error e => if e.notFound then .ok () else .error e
  | .ok _ => .ok ()

/-! ## Custom resources -/

structure ObjectMeta where
  name : String
  ns : String
  uid : String
  generation : Int
  deleting : Bool
  labels : Labels
deriving Repr, DecidableEq

def ObjectMeta.key (m : ObjectMeta) : NamespacedName := ⟨m.ns, m.name⟩

/-- Whether a source may be missing, API versions, divisors and files as sources are left out:
no resource the backend writes has any. -/
inductive EnvVarSource where
  | secretKeyRef (name key : String)
  | configMapKeyRef (name key : String)
  | fieldRef (fieldPath : String)
  | resourceFieldRef (containerName resource : String)
deriving Repr, DecidableEq

structure EnvVar where
  name : String
  value : String := ""
  valueFrom : Option EnvVarSource := none
deriving Repr, DecidableEq

structure Resources where
  memoryLimitMB : Int := 0
  memoryRequestMB : Int := 0
  cpuRequest : String := ""
  cpuLimit : String := ""
deriving Repr, DecidableEq

structure JVMOptions where
  opts : String := ""
  useAikarFlags : Bool := false
  useMeowIceFlags : Bool := false
  heapPercent : Int := 0
deriving Repr, DecidableEq

structure MinecraftProperties where
  difficulty : String := ""
  gameMode : String := ""
  maxPlayers : Int := 0
  pvp : Option Bool := none
  onlineMode : Option Bool := none
  motd : String := ""
  levelSeed : String := ""
  levelType : String := ""
deriving Repr, DecidableEq

structure MinecraftServerSpec where
  type : String
  running : Option Bool := none
  listenPort : Int := 0
  serviceType : String := ""
  nodePort : Int := 0
  jarType : String := ""
  minecraftVersion : String := ""
  resources : Resources := {}
  jvm : JVMOptions := {}
  properties : MinecraftProperties := {}
  env : List EnvVar := []
  apiKeySecretRef : String := ""
  storageSize : String := ""
deriving Repr, DecidableEq

structure LabelSelectorRequirement where
  key : String
  operator : String
  values : List String
deriving Repr, DecidableEq

structure LabelSelector where
  matchLabels : Labels := []
  matchExpressions : List LabelSelectorRequirement := []
deriving Repr, DecidableEq

structure ReverseProxyServerSpec where
  type : String
  externalAddress : String := ""
  externalPort : Int := 0
  listenPort : Int := 0
  serviceType : String := ""
  nodePort : Int := 0
  resources : Resources := {}
  jvm : JVMOptions := {}
  env : List EnvVar := []
  apiKeySecretRef : String := ""
  backendURL : String := ""
  pluginURL : String := ""
  backendSelector : Option LabelSelector := none
deriving Repr, DecidableEq

structure Condition where
  type : String
  status : Bool
  reason : String
  message : String := ""
  observedGeneration : Int
  /-- In seconds, and zero where it is not set. -/
  lastTransitionTime : Int := 0
deriving Repr, DecidableEq

/-- The two differ at most in the time of the last transition. -/
def Condition.Says (d c : Condition) : Prop :=
  { d with lastTransitionTime := c.lastTransitionTime } = c

structure MinecraftServerStatus where
  phase : String := ""
  message : String := ""
  readyReplicas : Int := 0
  replicas : Int := 0
  endpoint : String := ""
  observedGeneration : Int := 0
  conditions : List Condition := []
deriving Repr, DecidableEq

structure ReverseProxyServerStatus extends MinecraftServerStatus where
  backends : List String := []
deriving Repr, DecidableEq

structure MinecraftServer where
  metadata : ObjectMeta
  spec : MinecraftServerSpec
  status : MinecraftServerStatus := {}
deriving Repr, DecidableEq

structure ReverseProxyServer where
  metadata : ObjectMeta
  spec : ReverseProxyServerSpec
  status : ReverseProxyServerStatus := {}
deriving Repr, DecidableEq

namespace Types

def serverStateful : String := "STATEFUL"
def serverStateless : String := "STATELESS"
def proxyVelocity : String := "VELOCITY"
def proxyBungeeCord : String := "BUNGEECORD"

def labelServerType : String := "minikura.kirameki.cafe/server-type"
def labelServerID : String := "minikura.kirameki.cafe/server-id"
def labelProxyID : String := "minikura.kirameki.cafe/proxy-id"
def labelManagedBy : String := "minikura.kirameki.cafe/managed-by"
def managerName : String := "minikura-operator"

def phasePending : String := "Pending"
def phaseRunning : String := "Running"
def phaseFailed : String := "Failed"
def conditionReady : String := "Ready"

end Types

/-! ## Generated objects -/

inductive ObjectKind where
  | configMap
  | service
  | deployment
  | statefulSet
deriving Repr, DecidableEq

structure ObjectKey where
  kind : ObjectKind
  ns : String
  name : String
deriving Repr, DecidableEq

structure ServicePort where
  name : String
  port : Int
  targetPort : Int
  protocol : String
  nodePort : Int := 0
deriving Repr, DecidableEq

structure ServiceSpec where
  selector : Labels
  ports : List ServicePort
  type : String
  clusterIP : String := ""
  clusterIPs : List String := []
  ipFamilies : List String := []
  ipFamilyPolicy : Option String := none
deriving Repr, DecidableEq

structure LoadBalancerIngress where
  hostname : String
  ip : String
deriving Repr, DecidableEq

structure Service where
  spec : ServiceSpec
  ingress : List LoadBalancerIngress := []
deriving Repr, DecidableEq

/-- A Deployment or a StatefulSet; the storage is that of the volume claim of a
StatefulSet. -/
structure WorkloadSpec where
  replicas : Int
  selector : Labels
  podLabels : Labels
  env : List EnvVar
  storage : Option String := none
deriving Repr, DecidableEq

structure Workload where
  spec : WorkloadSpec
  readyReplicas : Int := 0
  replicas : Int := 0
deriving Repr, DecidableEq

/-- What an object of a kind holds beside its metadata. -/
abbrev Body : ObjectKind → Type
  | .configMap => Labels
  | .service => Service
  | .deployment => Workload
  | .statefulSet => Workload

/-- `controller` is the UID in the owner reference that is marked as the controller. -/
structure Object (kind : ObjectKind) where
  labels : Labels
  controller : Option String := none
  body : Body kind

/-- `metav1.IsControlledBy` -/
def Object.isControlledBy {kind : ObjectKind} (obj : Object kind) (owner : ObjectMeta) : Bool :=
  obj.controller == some owner.uid

/-! ## Other packages -/

/-- Functions of the Go and Kubernetes libraries. -/
structure Library where
  /-- `strconv.Quote` -/
  quote : String → String
  /-- `resource.ParseQuantity` -/
  parseQuantity : String → Except Error String
  /-- `controllerutil.SetControllerReference`, on the controller of the object. -/
  setControllerReference : ObjectMeta → Option String → Except Error String
  /-- `meta.SetStatusCondition` -/
  setStatusCondition : List Condition → Condition → List Condition
  /-- `metav1.LabelSelectorAsSelector`, with the selector's `Matches`. -/
  labelSelectorAsSelector : LabelSelector → Except Error (Labels → Bool)

/-- What the documentation says about these functions, as far as it is relied on. -/
structure Library.Documented (lib : Library) : Prop where
  /-- The controller set is the owner. -/
  controller : ∀ owner old new, lib.setControllerReference owner old = .ok new →
    new = owner.uid
  /-- The condition of the type is updated in place, or added at the end. -/
  types : ∀ conditions c, (lib.setStatusCondition conditions c).map (·.type) =
    if c.type ∈ conditions.map (·.type) then conditions.map (·.type)
    else conditions.map (·.type) ++ [c.type]
  /-- Where no type occurs twice, the condition of the type is afterwards the one given, but
  for the time of its last transition. -/
  set : ∀ conditions c, (conditions.map (·.type)).Nodup →
    ∀ d ∈ lib.setStatusCondition conditions c, d.type = c.type → d.Says c

/-! A library to run the controllers with. -/

def LabelSelectorRequirement.eval (r : LabelSelectorRequirement) (labels : Labels) :
    Except Error Bool :=
  let value := labels.lookup r.key
  if r.operator = "In" then .ok (value.any r.values.contains)
  else if r.operator = "NotIn" then .ok (value.all fun v => !r.values.contains v)
  else if r.operator = "Exists" then .ok value.isSome
  else if r.operator = "DoesNotExist" then .ok value.isNone
  else .error { message := "invalid label selector operator: " ++ r.operator }

/-- `meta.SetStatusCondition` at a time: a transition is a change of the status. -/
def updateCondition (now : Int) (c : Condition) : List Condition → List Condition
  | [] => [{ c with
      lastTransitionTime := if c.lastTransitionTime = 0 then now else c.lastTransitionTime }]
  | d :: conditions =>
    if d.type = c.type then
      { c with
        lastTransitionTime :=
          if d.status = c.status then d.lastTransitionTime
          else if c.lastTransitionTime = 0 then now
          else c.lastTransitionTime } :: conditions
    else d :: updateCondition now c conditions

/-- Quantities are whole numbers of `Gi` or `Mi`, and quoting escapes nothing. -/
def plainLibraryAt (now : Int) : Library where
  quote s := "\"" ++ s ++ "\""
  parseQuantity s :=
    let digits := s.toList.takeWhile Char.isDigit
    if digits ≠ [] && ["Gi", "Mi"].contains (String.ofList (s.toList.drop digits.length)) then
      .ok s
    else .error { message := "quantities must match the regular expression" }
  setControllerReference owner old :=
    match old with
    | none => .ok owner.uid
    | some uid =>
      if uid = owner.uid then .ok uid
      else .error { message := "Object is already owned by another controller" }
  setStatusCondition conditions c := updateCondition now c conditions
  labelSelectorAsSelector s := do
    let _ ← s.matchExpressions.mapM (·.eval [])
    return fun labels =>
      s.matchLabels.all (fun e => labels.lookup e.1 == some e.2) &&
        s.matchExpressions.all fun r => (r.eval labels).toOption.getD false

def plainLibrary : Library := plainLibraryAt 1

section UpdateCondition

variable {now : Int} {c : Condition} {conditions : List Condition}

theorem types_updateCondition : (updateCondition now c conditions).map (·.type) =
    if c.type ∈ conditions.map (·.type) then conditions.map (·.type)
    else conditions.map (·.type) ++ [c.type] := by
  induction conditions with
  | nil => simp [updateCondition]
  | cons d conditions ih =>
    by_cases hd : d.type = c.type
    · simp [updateCondition, hd]
    · have hmem : c.type ∈ (d :: conditions).map (·.type) ↔ c.type ∈ conditions.map (·.type) := by
        simp [Ne.symm hd]
      rw [updateCondition, if_neg hd, List.map_cons, ih]
      split_ifs with h h' h'
      · rfl
      · exact absurd (hmem.mpr h) h'
      · exact absurd (hmem.mp h') h
      · rfl

/-- The first condition of the type is the one that was set. -/
theorem find?_updateCondition :
    ∃ d, (updateCondition now c conditions).find? (·.type = c.type) = some d ∧ d.Says c := by
  induction conditions with
  | nil => exact ⟨_, List.find?_cons_of_pos (by simp), rfl⟩
  | cons d conditions ih =>
    rw [updateCondition]
    by_cases hd : d.type = c.type
    · rw [if_pos hd]
      exact ⟨_, List.find?_cons_of_pos (by simp), rfl⟩
    · obtain ⟨d', hfind, hsaid⟩ := ih
      rw [if_neg hd]
      exact ⟨d', (List.find?_cons_of_neg (by simpa using hd)).trans hfind, hsaid⟩

end UpdateCondition

theorem plainLibrary_documented : plainLibrary.Documented where
  controller owner old new h := by
    cases old with
    | none => exact (Except.ok.inj h).symm
    | some uid =>
      simp only [plainLibrary, plainLibraryAt] at h
      split_ifs at h with hu
      rw [← Except.ok.inj h, hu]
  types conditions c := types_updateCondition
  set conditions c hnodup d hd ht := by
    obtain ⟨d', hfind, hsaid⟩ := @find?_updateCondition 1 c conditions
    have hnodup' : ((updateCondition 1 c conditions).map (·.type)).Nodup := by
      rw [types_updateCondition]
      split_ifs with hc
      · exact hnodup
      · exact List.nodup_append'.mpr ⟨hnodup, List.nodup_singleton _, by simpa using hc⟩
    have ht' : d'.type = c.type := by simpa using List.find?_some hfind
    obtain rfl : d = d' := List.inj_on_of_nodup_map hnodup' hd (List.mem_of_find?_eq_some hfind)
      (ht.trans ht'.symm)
    exact hsaid

end Minikura.Operator
