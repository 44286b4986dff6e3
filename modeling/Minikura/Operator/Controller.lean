import Minikura.Operator.Client
import Minikura.Operator.Resources

/-!
# The controllers

`Reconcile` of both controllers. A failed step reports itself in the status before it is
returned; the status is patched by the difference to the copy taken just before it is
edited, and the edits stay in memory also when the patch is refused.

## Main definitions

* `apply`, `pruneObject` — writing and removing one generated object.
* `failWithStatus` — reporting a failure.
* `reconcileMinecraftServer`, `reconcileReverseProxyServer` — the two `Reconcile`.
-/

namespace Minikura.Operator
open Concurrency

variable (lib : Library)

/-! ## Objects -/

/-- What the service in the cluster was allocated, on the one about to be applied. -/
def ServiceSpec.preserve (current desired : ServiceSpec) : ServiceSpec :=
  { desired with
    clusterIP := current.clusterIP
    clusterIPs := current.clusterIPs
    ipFamilies := current.ipFamilies
    ipFamilyPolicy := current.ipFamilyPolicy
    ports :=
      if desired.type = "ClusterIP" then desired.ports
      else desired.ports.map fun p =>
        if p.nodePort ≠ 0 then p
        else
          match current.ports.find? fun q => q.name = p.name && q.protocol = p.protocol with
          | some q => { p with nodePort := q.nodePort }
          | none => p }

def preserveServiceAllocations : (g : Generated) → Task (Object g.key.kind)
  | ⟨⟨.service, ns, name⟩, desired⟩ => do
    match ← (await (.get ⟨.service, ns, name⟩)).attempt with
    | .error e => if e.notFound then return desired else throw e
    | .ok current =>
      let spec := current.body.spec.preserve desired.body.spec
      return { desired with body := { desired.body with spec := spec } }
  | ⟨_, desired⟩ => return desired

def apply (owner : ObjectMeta) (g : Generated) : Task Unit := do
  let obj ← preserveServiceAllocations g
  let controller ← Task.ofExcept (lib.setControllerReference owner obj.controller)
  await (.apply g.key { obj with controller := some controller })

/-- Delete an object if the owner controls it; that it is gone is no failure. -/
def pruneObject (owner : ObjectMeta) (key : ObjectKey) : Task Unit := do
  match ← (await (.get key)).attempt with
  | .error e => Task.ofExcept (ignoreNotFound (.error e))
  | .ok obj =>
    if !obj.isControlledBy owner then return ()
    else
      let r ← (await (.delete key)).attempt
      Task.ofExcept (ignoreNotFound r)

/-! ## Status -/

def phaseFromReady (ready : Int) : String :=
  if ready > 0 then Types.phaseRunning else Types.phasePending

def setCondition (conditions : List Condition) (c : Condition) : List Condition :=
  lib.setStatusCondition conditions
    { c with reason := if c.reason = "" then "Unknown" else c.reason }

/-- What `fail` writes into a status. -/
def MinecraftServerStatus.failed (s : MinecraftServerStatus) (generation : Int)
    (reason : String) (cause : Error) : MinecraftServerStatus :=
  { s with
    phase := Types.phaseFailed
    message := cause.message
    observedGeneration := generation
    conditions := setCondition lib s.conditions
      { type := Types.conditionReady, status := false, reason := reason
        message := cause.message, observedGeneration := generation } }

/-- What `updateStatus` writes into a status. -/
def MinecraftServerStatus.observed (s : MinecraftServerStatus) (generation ready replicas : Int)
    (endpoint : String) : MinecraftServerStatus :=
  { s with
    phase := phaseFromReady ready
    readyReplicas := ready
    replicas := replicas
    endpoint := endpoint
    observedGeneration := generation
    message := ""
    conditions := setCondition lib s.conditions
      { type := Types.conditionReady, status := ready > 0, reason := phaseFromReady ready
        observedGeneration := generation } }

def ReverseProxyServerStatus.failed (s : ReverseProxyServerStatus) (generation : Int)
    (reason : String) (cause : Error) : ReverseProxyServerStatus :=
  { s with
    toMinecraftServerStatus := s.toMinecraftServerStatus.failed lib generation reason cause }

def ReverseProxyServerStatus.observed (s : ReverseProxyServerStatus)
    (generation ready replicas : Int) (endpoint : String) (backends : List String) :
    ReverseProxyServerStatus where
  toMinecraftServerStatus :=
    s.toMinecraftServerStatus.observed lib generation ready replicas endpoint
  backends := backends

/-- Send what an edit of the status changes, then return the cause. -/
def failWithStatus (send : StatusPatch → Task Unit) (before after : StatusDocument)
    (cause : Error) : Task Unit := do
  match ← (send (MergePatch.diff before after)).attempt with
  | .error err =>
    throw { cause with
      message := cause.message ++ " (status patch failed: " ++ err.message ++ ")" }
  | .ok _ => throw cause

def serviceEndpoint (name ns : String) (svc : Service) : String :=
  let internal := name ++ "." ++ ns ++ ".svc.cluster.local"
  let port := (svc.spec.ports.head?.map (·.port)).getD 0
  if svc.spec.type = "LoadBalancer" then
    match svc.ingress.find? fun ing => ing.hostname ≠ "" || ing.ip ≠ "" with
    | none => ""
    | some ing =>
      (if ing.hostname ≠ "" then ing.hostname else ing.ip) ++ ":" ++ toString port
  else if svc.spec.type = "NodePort" then
    match svc.spec.ports.head? with
    | none => internal
    | some p => if p.nodePort ≠ 0 then "<node-ip>:" ++ toString p.nodePort else internal
  else internal ++ ":" ++ toString port

/-- The ready and all replicas in the status of a workload. -/
def Body.counts : {kind : ObjectKind} → Body kind → Int × Int
  | .deployment, w => (w.readyReplicas, w.replicas)
  | .statefulSet, w => (w.readyReplicas, w.replicas)
  | _, _ => (0, 0)

/-- What a function makes of an object, or a default when there is none. -/
def readOr {α : Type} (key : ObjectKey) (f : Object key.kind → α) (default : α) : Task α := do
  match ← (await (.get key)).attempt with
  | .ok obj => return f obj
  | .error e => if e.notFound then return default else throw e

def readReplicas (key : ObjectKey) : Task (Int × Int) :=
  readOr key (fun obj => Body.counts obj.body) (0, 0)

def readEndpoint (ns name : String) : Task String :=
  readOr ⟨.service, ns, name⟩ (fun svc => serviceEndpoint name ns svc.body) ""

/-- `if err := step; err != nil { return fail(err) }`, and what follows. -/
def orFail (step : Task Unit) (fail : Error → Task Unit) (rest : Task Unit) : Task Unit := do
  match ← step.attempt with
  | .error e => fail e
  | .ok _ => rest

/-! ## Minecraft servers -/

namespace MinecraftServer

def patchStatus (mc : MinecraftServer) (patch : StatusPatch) : Task Unit :=
  await (.patchServerStatus mc.metadata.key patch)

def fail (mc : MinecraftServer) (reason : String) (cause : Error) : Task Unit :=
  failWithStatus mc.patchStatus mc.status.document
    (mc.status.failed lib mc.metadata.generation reason cause).document cause

def reconcileWorkload (mc : MinecraftServer) (stateful : Bool) : Task Unit :=
  if !stateful then apply lib mc.metadata (minecraftDeployment mc)
  else do
    let sts ← Task.ofExcept (minecraftStatefulSet lib mc)
    apply lib mc.metadata sts

def pruneOppositeWorkload (mc : MinecraftServer) (stateful : Bool) : Task Unit :=
  pruneObject mc.metadata
    ⟨if stateful then .deployment else .statefulSet, mc.metadata.ns, serverName mc.metadata.name⟩

/-- The outcome, with the resource as it is left in memory. -/
def updateStatus (mc : MinecraftServer) (stateful : Bool) :
    Task (MinecraftServer × Except Error Unit) := do
  let name := serverName mc.metadata.name
  let kind := if stateful then .statefulSet else .deployment
  let read : Task _ := do
    let counts ← readReplicas ⟨kind, mc.metadata.ns, name⟩
    return (counts, ← readEndpoint mc.metadata.ns name)
  match ← read.attempt with
  | .error e => return (mc, .error e)
  | .ok ((ready, replicas), endpoint) =>
    let status := mc.status.observed lib mc.metadata.generation ready replicas endpoint
    let r ← (mc.patchStatus (MergePatch.diff mc.status.document status.document)).attempt
    return ({ mc with status := status }, r)

/-- `Reconcile` of a resource that was found. -/
def reconcile (mc : MinecraftServer) : Task Unit :=
  let stateful : Bool := mc.spec.type = Types.serverStateful
  if mc.metadata.deleting then return ()
  else if mc.spec.type ≠ Types.serverStateful && mc.spec.type ≠ Types.serverStateless then
    mc.fail lib "InvalidSpec"
      { message := "unsupported server type " ++ lib.quote mc.spec.type }
  else if mc.spec.listenPort ≤ 0 then
    mc.fail lib "InvalidSpec" { message := "listenPort must be set" }
  else
    orFail (apply lib mc.metadata (minecraftConfigMap mc)) (mc.fail lib "ConfigMapFailed") <|
    orFail (apply lib mc.metadata (minecraftService mc)) (mc.fail lib "ServiceFailed") <|
    orFail (mc.reconcileWorkload lib stateful) (mc.fail lib "WorkloadFailed") <|
    orFail (mc.pruneOppositeWorkload stateful) (mc.fail lib "PruneFailed") <| do
      match ← mc.updateStatus lib stateful with
      | (mc, .error e) => mc.fail lib "StatusFailed" e
      | (_, .ok _) => return ()

end MinecraftServer

/-- `MinecraftServerReconciler.Reconcile` -/
def reconcileMinecraftServer (key : NamespacedName) : Task Unit := do
  match ← (await (.getServer key)).attempt with
  | .error e => Task.ofExcept (ignoreNotFound (.error e))
  | .ok mc => mc.reconcile lib

/-! ## Reverse proxies -/

/-- `sort.Strings` -/
def sortStrings (names : List String) : List String := names.mergeSort fun a b => decide (a ≤ b)

theorem pairwise_sortStrings (names : List String) : (sortStrings names).Pairwise (· ≤ ·) := by
  have h := @List.pairwise_mergeSort String (fun a b => decide (a ≤ b))
    (fun a b c hab hbc => by
      simpa using String.le_trans (of_decide_eq_true hab) (of_decide_eq_true hbc))
    (fun a b => by simpa using String.le_total a b) names
  exact h.imp of_decide_eq_true

theorem sortStrings_perm {names names' : List String} (h : names.Perm names') :
    sortStrings names = sortStrings names' :=
  List.Perm.eq_of_pairwise (fun _ _ _ _ => String.le_antisymm) (pairwise_sortStrings names)
    (pairwise_sortStrings names')
    ((List.mergeSort_perm names _).trans (h.trans (List.mergeSort_perm names' _).symm))

namespace ReverseProxyServer

def patchStatus (rp : ReverseProxyServer) (patch : StatusPatch) : Task Unit :=
  await (.patchProxyStatus rp.metadata.key patch)

def fail (rp : ReverseProxyServer) (reason : String) (cause : Error) : Task Unit :=
  failWithStatus rp.patchStatus rp.status.document
    (rp.status.failed lib rp.metadata.generation reason cause).document cause

def pruneStaleResources (rp : ReverseProxyServer) : Task Unit :=
  let current := proxyName rp.spec.type rp.metadata.name
  [Types.proxyVelocity, Types.proxyBungeeCord].forM fun kind =>
    let name := proxyName kind rp.metadata.name
    if name = current then return ()
    else [ObjectKind.deployment, .service, .configMap].forM fun k =>
      pruneObject rp.metadata ⟨k, rp.metadata.ns, name⟩

/-- The selector of `backends`; without one, every server is a backend. -/
def selector (rp : ReverseProxyServer) : Except Error (Labels → Bool) :=
  match rp.spec.backendSelector with
  | none => .ok fun _ => true
  | some s =>
    match lib.labelSelectorAsSelector s with
    | .ok selector => .ok selector
    | .error e => .error { e with message := "invalid backendSelector: " ++ e.message }

def backends (rp : ReverseProxyServer) : Task (List String) := do
  let selector ← Task.ofExcept (rp.selector lib)
  let list ← await (.listServers rp.metadata.ns selector)
  return sortStrings (list.map (·.metadata.name))

def matchesBackend (rp : ReverseProxyServer) (obj : MinecraftServer) : Bool :=
  match rp.spec.backendSelector with
  | none => true
  | some s =>
    match lib.labelSelectorAsSelector s with
    | .error _ => false
    | .ok selector => selector obj.metadata.labels

/-- `proxiesForServer`, on the proxies there are. -/
def proxiesForServer (proxies : List ReverseProxyServer) (obj : MinecraftServer) :
    List NamespacedName :=
  (proxies.filter fun rp => rp.metadata.ns = obj.metadata.ns && rp.matchesBackend lib obj).map
    (·.metadata.key)

/-- The outcome, with the resource as it is left in memory. -/
def updateStatus (rp : ReverseProxyServer) : Task (ReverseProxyServer × Except Error Unit) := do
  let name := proxyName rp.spec.type rp.metadata.name
  let read : Task _ := do
    let counts ← readReplicas ⟨.deployment, rp.metadata.ns, name⟩
    let backends ← rp.backends lib
    return (counts, backends, ← readEndpoint rp.metadata.ns name)
  match ← read.attempt with
  | .error e => return (rp, .error e)
  | .ok ((ready, replicas), backends, endpoint) =>
    let status :=
      rp.status.observed lib rp.metadata.generation ready replicas endpoint backends
    let r ← (rp.patchStatus (MergePatch.diff rp.status.document status.document)).attempt
    return ({ rp with status := status }, r)

/-- `Reconcile` of a resource that was found. -/
def reconcile (rp : ReverseProxyServer) : Task Unit :=
  if rp.metadata.deleting then return ()
  else if rp.spec.type ≠ Types.proxyVelocity && rp.spec.type ≠ Types.proxyBungeeCord then
    rp.fail lib "InvalidSpec"
      { message := "unsupported proxy type " ++ lib.quote rp.spec.type }
  else if rp.spec.externalPort ≤ 0 || rp.spec.listenPort ≤ 0 then
    rp.fail lib "InvalidSpec" { message := "externalPort and listenPort must be set" }
  else
    orFail (apply lib rp.metadata (proxyConfigMap rp)) (rp.fail lib "ConfigMapFailed") <|
    orFail (apply lib rp.metadata (proxyService rp)) (rp.fail lib "ServiceFailed") <|
    orFail (apply lib rp.metadata (proxyDeployment rp)) (rp.fail lib "DeploymentFailed") <|
    orFail rp.pruneStaleResources (rp.fail lib "PruneFailed") <| do
      match ← rp.updateStatus lib with
      | (rp, .error e) => rp.fail lib "StatusFailed" e
      | (_, .ok _) => return ()

end ReverseProxyServer

/-- `ReverseProxyServerReconciler.Reconcile` -/
def reconcileReverseProxyServer (key : NamespacedName) : Task Unit := do
  match ← (await (.getProxy key)).attempt with
  | .error e => Task.ofExcept (ignoreNotFound (.error e))
  | .ok rp => rp.reconcile lib

/-! ## Rules -/

section Rules

variable {σ : Type} {H : Handler Call (Settled Error Answer) σ} {K : Contract Call σ}
  {Q : Except Error Unit → σ → Prop} {s : σ}

theorem wp_orFail {step rest : Task Unit} {fail : Error → Task Unit}
    (h : wp H K step.run (fun r s => match r with
      | .ok _ => wp H K rest.run Q s
      | .error e => wp H K (fail e).run Q s) s) :
    wp H K (orFail step fail rest).run Q s := by
  unfold orFail
  refine wp_async_bind (wp_map.mpr (wp_mono h fun r t ht => ?_))
  cases r <;> exact ht

/-- A failure is reported by one call and returned whatever comes of it. -/
theorem wp_failWithStatus {send : StatusPatch → Task Unit} {before after : StatusDocument}
    {cause : Error}
    (h : wp H K (send (MergePatch.diff before after)).run (fun r s => match r with
      | .ok _ => ∀ t, K.rely s t → Q (.error cause) t
      | .error err => ∀ t, K.rely s t → Q (.error { cause with
          message := cause.message ++ " (status patch failed: " ++ err.message ++ ")" }) t) s) :
    wp H K (failWithStatus send before after cause).run Q s := by
  unfold failWithStatus
  refine wp_async_bind (wp_map.mpr (wp_mono h fun r t ht => ?_))
  cases r <;> exact ht

/-- Deleting what was found under the owner's control, with the condition that is known
in between. -/
theorem wp_pruneObject {owner : ObjectMeta} {k : ObjectKey} (P C : σ → Prop) (hs : P s)
    (stableP : ∀ t u, P t → K.rely t u → P u) (stableC : ∀ t u, C t → K.rely t u → C u)
    (stableQ : ∀ r t u, Q r t → K.rely t u → Q r u)
    (hget : ∀ t r u, P t → H (.get k) t r u → K.guar (.get k) t u ∧ match r with
      | .error e => Q (ignoreNotFound (.error e)) u
      | .ok obj => if obj.isControlledBy owner then C u else Q (.ok ()) u)
    (hdelete : ∀ t r u, C t → H (.delete k) t r u →
      K.guar (.delete k) t u ∧ Q (ignoreNotFound r) u) :
    wp H K (pruneObject owner k).run Q s := by
  simp only [pruneObject, Async.run_bind, Async.run_attempt, await, Async.await, ExceptT.run_mk,
    Prog.lift_bind, Prog.call_bind, Prog.pure_bind]
  refine wp_call P hs stableP fun t r u ht hu => ?_
  obtain ⟨hguar, hr⟩ := hget t r u ht hu
  refine ⟨hguar, ?_⟩
  cases r with
  | error e => exact wp_pure hr (stableQ _)
  | ok obj =>
    dsimp only at hr ⊢
    cases hc : obj.isControlledBy owner with
    | false =>
      rw [hc, if_neg (by decide)] at hr
      exact wp_pure hr (stableQ _)
    | true =>
      rw [hc, if_pos rfl] at hr
      simp only [Bool.not_true, Bool.false_eq_true, if_false, Async.run_bind, Async.run_attempt,
        ExceptT.run_mk, Prog.lift_bind, Prog.call_bind, Prog.pure_bind, Task.run_ofExcept]
      refine wp_call C hr stableC fun t r u ht hu => ?_
      obtain ⟨hguar, hQ⟩ := hdelete t r u ht hu
      exact ⟨hguar, wp_pure hQ (stableQ _)⟩

end Rules

/-! ## The calls of each step -/

section Only

variable {lib : Library} {P : Call → Prop} (hget : ∀ k, P (.get k))
include hget

theorem only_preserveServiceAllocations (g : Generated) :
    (preserveServiceAllocations g).run.Only P := by
  obtain ⟨⟨kind, ns, name⟩, desired⟩ := g
  cases kind with
  | service =>
    refine Async.only_bind (Async.only_attempt (Async.only_await (hget _))) fun r => ?_
    cases r with
    | ok obj => trivial
    | error e =>
      dsimp only
      split_ifs <;> trivial
  | configMap => trivial
  | deployment => trivial
  | statefulSet => trivial

theorem only_apply {g : Generated} (happly : ∀ obj, P (.apply g.key obj)) (owner : ObjectMeta) :
    (apply lib owner g).run.Only P := by
  refine Async.only_bind (only_preserveServiceAllocations hget g) fun obj => ?_
  simp only [Async.run_bind, Task.run_ofExcept, Prog.pure_bind]
  cases lib.setControllerReference owner obj.controller with
  | error e => trivial
  | ok controller => exact Async.only_await (happly _)

theorem only_pruneObject {k : ObjectKey} (hdelete : P (.delete k)) (owner : ObjectMeta) :
    (pruneObject owner k).run.Only P := by
  refine Async.only_bind (Async.only_attempt (Async.only_await (hget _))) fun r => ?_
  cases r with
  | error e => trivial
  | ok obj =>
    dsimp only
    split_ifs
    · trivial
    · exact Async.only_bind (Async.only_attempt (Async.only_await hdelete)) fun _ => trivial

theorem only_readOr {α : Type} (k : ObjectKey) (f : Object k.kind → α) (d : α) :
    (readOr k f d).run.Only P := by
  refine Async.only_bind (Async.only_attempt (Async.only_await (hget _))) fun r => ?_
  cases r with
  | ok obj => trivial
  | error e =>
    dsimp only
    split_ifs <;> trivial

theorem only_reconcileWorkload
    (happly : ∀ k obj, k.kind = .deployment ∨ k.kind = .statefulSet → P (.apply k obj))
    (mc : MinecraftServer) (stateful : Bool) :
    (mc.reconcileWorkload lib stateful).run.Only P := by
  unfold MinecraftServer.reconcileWorkload
  cases stateful with
  | false => exact only_apply hget (fun _ => happly _ _ (.inl rfl)) _
  | true =>
    simp only [Bool.not_true, Bool.false_eq_true, if_false, Async.run_bind, Task.run_ofExcept,
      Prog.pure_bind]
    cases hsts : minecraftStatefulSet lib mc with
    | error e => trivial
    | ok sts =>
      obtain ⟨_, rfl⟩ := minecraftStatefulSet_ok hsts
      exact only_apply hget (fun _ => happly _ _ (.inr rfl)) _

theorem only_pruneOppositeWorkload
    (hdelete : ∀ k, k.kind = .deployment ∨ k.kind = .statefulSet → P (.delete k))
    (mc : MinecraftServer) (stateful : Bool) :
    (mc.pruneOppositeWorkload stateful).run.Only P := by
  refine only_pruneObject hget (hdelete _ ?_) _
  cases stateful with
  | false => exact .inr rfl
  | true => exact .inl rfl

theorem only_pruneStaleResources {rp : ReverseProxyServer}
    (hdelete : ∀ k, k.name ≠ proxyName rp.spec.type rp.metadata.name → P (.delete k)) :
    rp.pruneStaleResources.run.Only P := by
  refine Async.only_forM fun t => ?_
  dsimp only
  split_ifs with hname
  · trivial
  · exact Async.only_forM fun k => only_pruneObject hget (hdelete _ hname) _

omit hget in
theorem only_backends (hlist : ∀ ns selector, P (.listServers ns selector))
    (rp : ReverseProxyServer) : (rp.backends lib).run.Only P := by
  simp only [ReverseProxyServer.backends, Async.run_bind, Task.run_ofExcept, Prog.pure_bind]
  cases rp.selector lib with
  | error e => trivial
  | ok selector => exact Async.only_bind (Async.only_await (hlist _ _)) fun _ => trivial

end Only

/-! ## Steps that write no object -/

/-- The calls that neither fetch the resource of a run nor write an object. -/
def Call.minor : Call → Bool
  | .get _ | .listServers .. | .patchServerStatus .. | .patchProxyStatus .. => true
  | _ => false

theorem Call.calm_of_minor {c : Call} (h : c.minor) : c.calm := by
  cases c <;> first | rfl | cases h

section Minor

variable {σ : Type} {H : Handler Call (Settled Error Answer) σ} {K : Contract Call σ}
  {I : σ → Prop} {s : σ} {lib : Library}

/-- Neither the others nor a minor call destroy the condition. -/
structure KeptByMinor (H : Handler Call (Settled Error Answer) σ) (K : Contract Call σ)
    (I : σ → Prop) : Prop where
  stable : ∀ s t, I s → K.rely s t → I t
  call : ∀ c s r t, c.minor → I s → H c s r t → K.guar c s t ∧ I t

variable (hI : KeptByMinor H K I)
include hI

theorem KeptByMinor.pure {α : Type} {a : α} (hs : I s) : wp H K (.pure a) (fun _ => I) s :=
  wp_pure hs hI.stable

theorem KeptByMinor.returned {α : Type} {a : α} (hs : I s) :
    wp H K (.pure (.ok a)) (fun (r : Except Error α) t => (∃ a, r = .ok a) ∧ I t) s :=
  wp_pure ⟨⟨a, rfl⟩, hs⟩ fun t u h hu => ⟨h.1, hI.stable t u h.2 hu⟩

theorem KeptByMinor.await {c : Call} (hc : c.minor) (hs : I s) :
    wp H K (await c).run (fun _ => I) s := by
  refine wp_call I hs hI.stable fun t r u ht hu => ?_
  obtain ⟨hguar, hu⟩ := hI.call c t r u hc ht hu
  exact ⟨hguar, hI.pure hu⟩

theorem KeptByMinor.of_only {α : Type} {p : Prog Call (Settled Error Answer) α}
    (hp : p.Only fun c => c.minor) (hs : I s) : wp H K p (fun _ => I) s :=
  wp_of_only hp hs hI.stable fun c s r t hc => hI.call c s r t hc

/-- An apply comes down to one call, which names the owner as the controller. -/
theorem KeptByMinor.apply {owner : ObjectMeta} {g : Generated} {Q : Except Error Unit → σ → Prop}
    (hlib : lib.Documented) (hs : I s) (stableQ : ∀ r t u, Q r t → K.rely t u → Q r u)
    (hQ : ∀ e t, I t → Q (.error e) t)
    (hcall : ∀ (new : Object g.key.kind) t r u, new.controller = some owner.uid → I t →
      H (.apply g.key new) t r u → K.guar (.apply g.key new) t u ∧ Q r u) :
    wp H K (apply lib owner g).run Q s := by
  refine wp_async_bind (wp_mono (hI.of_only (only_preserveServiceAllocations (fun _ => rfl) g) hs)
    fun r t ht => ?_)
  cases r with
  | error e => exact wp_pure (hQ e t ht) (stableQ _)
  | ok obj =>
    simp only [Async.run_bind, Task.run_ofExcept, Prog.pure_bind]
    cases hset : lib.setControllerReference owner obj.controller with
    | error e => exact wp_pure (hQ e t ht) (stableQ _)
    | ok controller =>
      obtain rfl : controller = owner.uid := hlib.controller _ _ _ hset
      refine wp_call I ht hI.stable fun t r u ht hu => ?_
      obtain ⟨hguar, hr⟩ := hcall _ t r u rfl ht hu
      exact ⟨hguar, wp_pure hr (stableQ _)⟩

/-- A run that fails ends in an error. -/
theorem KeptByMinor.failWithStatus {send : StatusPatch → Task Unit}
    {before after : StatusDocument} {cause : Error} {Q : Except Error Unit → σ → Prop}
    (hsend : ∀ patch t, I t → wp H K (send patch).run (fun _ => I) t)
    (hQ : ∀ e t, I t → Q (.error e) t) (hs : I s) :
    wp H K (failWithStatus send before after cause).run Q s := by
  refine wp_failWithStatus (wp_mono (hsend _ s hs) fun r t ht => ?_)
  cases r <;> exact fun u hu => hQ _ u (hI.stable t u ht hu)

theorem KeptByMinor.serverFail {mc : MinecraftServer} {reason : String} {cause : Error}
    {Q : Except Error Unit → σ → Prop} (hQ : ∀ e t, I t → Q (.error e) t) (hs : I s) :
    wp H K (mc.fail lib reason cause).run Q s :=
  hI.failWithStatus (fun _ _ ht => hI.await rfl ht) hQ hs

theorem KeptByMinor.proxyFail {rp : ReverseProxyServer} {reason : String} {cause : Error}
    {Q : Except Error Unit → σ → Prop} (hQ : ∀ e t, I t → Q (.error e) t) (hs : I s) :
    wp H K (rp.fail lib reason cause).run Q s :=
  hI.failWithStatus (fun _ _ ht => hI.await rfl ht) hQ hs

/-- `updateStatus` hands its outcome over and does not throw. -/
theorem KeptByMinor.serverUpdateStatus {mc : MinecraftServer} {stateful : Bool} (hs : I s) :
    wp H K (mc.updateStatus lib stateful).run (fun r t => (∃ a, r = .ok a) ∧ I t) s := by
  refine wp_async_bind (wp_map.mpr (wp_mono (Q := fun _ => I) ?_ fun r t ht => ?_))
  · refine wp_async_bind (wp_mono (hI.of_only (only_readOr (fun _ => rfl) _ _ _) hs)
      fun r t ht => ?_)
    cases r with
    | error e => exact hI.pure ht
    | ok counts =>
      refine wp_async_bind (wp_mono (hI.of_only (only_readOr (fun _ => rfl) _ _ _) ht)
        fun r t ht => ?_)
      cases r <;> exact hI.pure ht
  · cases r with
    | error e => exact hI.returned ht
    | ok read =>
      refine wp_async_bind (wp_map.mpr (wp_mono (hI.await rfl ht) fun r t ht => ?_))
      exact hI.returned ht

theorem KeptByMinor.proxyUpdateStatus {rp : ReverseProxyServer} (hs : I s) :
    wp H K (rp.updateStatus lib).run (fun r t => (∃ a, r = .ok a) ∧ I t) s := by
  refine wp_async_bind (wp_map.mpr (wp_mono (Q := fun _ => I) ?_ fun r t ht => ?_))
  · refine wp_async_bind (wp_mono (hI.of_only (only_readOr (fun _ => rfl) _ _ _) hs)
      fun r t ht => ?_)
    cases r with
    | error e => exact hI.pure ht
    | ok counts =>
      refine wp_async_bind (wp_mono (hI.of_only (only_backends (fun _ _ => rfl) rp) ht)
        fun r t ht => ?_)
      cases r with
      | error e => exact hI.pure ht
      | ok backends =>
        refine wp_async_bind (wp_mono (hI.of_only (only_readOr (fun _ => rfl) _ _ _) ht)
          fun r t ht => ?_)
        cases r <;> exact hI.pure ht
  · cases r with
    | error e => exact hI.returned ht
    | ok read =>
      refine wp_async_bind (wp_map.mpr (wp_mono (hI.await rfl ht) fun r t ht => ?_))
      exact hI.returned ht

end Minor

end Minikura.Operator
