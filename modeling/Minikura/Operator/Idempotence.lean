import Mathlib.Data.Set.Insert
import Minikura.Operator.EnvMerging
import Minikura.Operator.FailureStatus
import Minikura.Operator.ProxyObjects
import Minikura.Operator.ServerSideApply
import Minikura.Operator.Workloads

/-!
# Reconciling again

A second `Reconcile` sends other objects than the first one, since the Service carries back what
it was allocated, and it starts from the status that the first one left. It writes nothing.

## Main definitions

* `Library.Transitions` — when the time of the last transition of a condition is kept.
* `Resting` — the generated objects are at rest, and stale ones are gone.

## Main results

* `reconcile_idempotent` — after a `Reconcile` without an error, another one has none and leaves
  the cluster as it is.
-/

namespace Minikura.Operator
open Concurrency

/-! ## Conditions -/

/-- The documentation of `meta.SetStatusCondition` on times: the first condition of the type says
what was set, and if it did so before, with any time, all conditions stay as they are. -/
structure Library.Transitions (lib : Library) : Prop where
  found : ∀ conditions c,
    ∃ d, (lib.setStatusCondition conditions c).find? (·.type = c.type) = some d ∧ d.Says c
  unchanged : ∀ conditions c d, conditions.find? (·.type = c.type) = some d → d.Says c →
    lib.setStatusCondition conditions c = conditions

/-- The library at another time. -/
def Library.later (lib : Library) (set : List Condition → Condition → List Condition) : Library :=
  { lib with setStatusCondition := set }

variable {lib lib' : Library}

/-- The conditions are set again as they are. -/
theorem setCondition_again (hlib : lib.Transitions) (hlib' : lib'.Transitions)
    (conditions : List Condition) (c : Condition) :
    setCondition lib' (setCondition lib conditions c) c = setCondition lib conditions c := by
  obtain ⟨d, hfind, hsaid⟩ := hlib.found conditions
    { c with reason := if c.reason = "" then "Unknown" else c.reason }
  exact hlib'.unchanged _ _ d hfind hsaid

theorem MinecraftServerStatus.observed_again (hlib : lib.Transitions) (hlib' : lib'.Transitions)
    (s : MinecraftServerStatus) (generation ready replicas : Int) (endpoint : String) :
    (s.observed lib generation ready replicas endpoint).observed lib' generation ready replicas
      endpoint = s.observed lib generation ready replicas endpoint := by
  simp only [observed, setCondition_again hlib hlib']

theorem ReverseProxyServerStatus.observed_again (hlib : lib.Transitions)
    (hlib' : lib'.Transitions) (s : ReverseProxyServerStatus) (generation ready replicas : Int)
    (endpoint : String) (backends : List String) :
    (s.observed lib generation ready replicas endpoint backends).observed lib' generation ready
      replicas endpoint backends =
        s.observed lib generation ready replicas endpoint backends := by
  simp only [observed, MinecraftServerStatus.observed_again hlib hlib']

/-! ## Steps -/

variable {allocate : Allocator} {owner : ObjectMeta} {s t u : Managed}

theorem eval_failWithStatus_ne {send : StatusPatch → Task Unit} {before after : StatusDocument}
    {cause : Error} :
    (Async.eval (serve allocate) (failWithStatus send before after cause) s).1 ≠ .ok () := by
  simp only [failWithStatus, Async.eval_bind, Async.eval_attempt]
  cases (Async.eval (serve allocate) (send (MergePatch.diff before after)) s).1 <;> nofun

/-- A step that is followed by others has succeeded where the whole has. -/
theorem eval_orFail_ok {step rest : Task Unit} {fail : Error → Task Unit}
    (hfail : ∀ e s, (Async.eval (serve allocate) (fail e) s).1 ≠ .ok ())
    (h : Async.eval (serve allocate) (orFail step fail rest) s = (.ok (), t)) :
    ∃ u, Async.eval (serve allocate) step s = (.ok (), u) ∧
      Async.eval (serve allocate) rest u = (.ok (), t) := by
  simp only [orFail, Async.eval_bind, Async.eval_attempt] at h
  cases hstep : Async.eval (serve allocate) step s with
  | mk r u =>
    rw [hstep] at h
    cases r with
    | error e => exact absurd (congrArg Prod.fst h) (hfail e u)
    | ok a => exact ⟨u, rfl, h⟩

theorem eval_orFail_of_ok {step rest : Task Unit} {fail : Error → Task Unit}
    (h : Async.eval (serve allocate) step s = (.ok (), u)) :
    Async.eval (serve allocate) (orFail step fail rest) s =
      Async.eval (serve allocate) rest u := by
  simp only [orFail, Async.eval_bind, Async.eval_attempt, h]

/-! ## Pruning -/

/-- No object that the owner controls is stored under the key. -/
def Pruned (owner : ObjectMeta) (k : ObjectKey) (s : Cluster) : Prop :=
  ∀ obj, s.objects.lookup k = some obj → obj.isControlledBy owner = false

/-- The task removes what the owner controls under some keys, and changes nothing else. -/
structure Prunes (allocate : Allocator) (owner : ObjectMeta) (stale : Set ObjectKey)
    (task : Task Unit) (s t : Managed) : Prop where
  eval : Async.eval (serve allocate) task s = (.ok (), t)
  pruned : ∀ k ∈ stale, Pruned owner k t.cluster
  frame : ∀ k ∉ stale, s.SameAt t k
  servers : t.cluster.servers = s.cluster.servers
  proxies : t.cluster.proxies = s.cluster.proxies
  unchanged : (∀ k ∈ stale, Pruned owner k s.cluster) → t = s

theorem prunes_pruneObject (allocate : Allocator) (owner : ObjectMeta) (k : ObjectKey)
    (s : Managed) : ∃ t, Prunes allocate owner {k} (pruneObject owner k) s t := by
  cases hlookup : s.cluster.objects.lookup k with
  | none =>
    refine ⟨s, ?_, ?_, fun _ _ => ⟨rfl, rfl⟩, rfl, rfl, fun _ => rfl⟩
    · simp only [pruneObject, Async.eval_bind, Async.eval_attempt, await, Async.eval_await,
        serve_get, handle, hlookup]
      rfl
    · rintro _ rfl obj hobj
      cases hlookup.symm.trans hobj
  | some obj =>
    cases hc : obj.isControlledBy owner with
    | false =>
      refine ⟨s, ?_, ?_, fun _ _ => ⟨rfl, rfl⟩, rfl, rfl, fun _ => rfl⟩
      · simp only [pruneObject, Async.eval_bind, Async.eval_attempt, await, Async.eval_await,
          serve_get, handle, hlookup, hc]
        rfl
      · rintro _ rfl obj' hobj
        obtain rfl := Option.some.inj (hlookup.symm.trans hobj)
        exact hc
    | true =>
      refine ⟨{ cluster := { s.cluster with objects := s.cluster.objects.erase k }
                applied := s.applied.erase k }, ?_, ?_, fun l hl => ?_, rfl, rfl, fun h => ?_⟩
      · have hdelete : serve allocate (.delete k) s = (.ok (),
            { cluster := { s.cluster with objects := s.cluster.objects.erase k }
              applied := s.applied.erase k }) := by
          simp only [serve, handle, hlookup, Option.isSome_some, if_true]
        simp only [pruneObject, Async.eval_bind, Async.eval_attempt, await, Async.eval_await,
          serve_get, handle, hlookup, hc, Bool.not_true, Bool.false_eq_true, if_false, hdelete]
        rfl
      · rintro _ rfl obj' hobj
        cases (AList.lookup_erase _ _).symm.trans hobj
      · exact ⟨AList.lookup_erase_ne hl, AList.lookup_erase_ne hl⟩
      · exact absurd ((h k rfl obj hlookup).symm.trans hc) (by decide)

theorem prunes_pure (allocate : Allocator) (owner : ObjectMeta) (s : Managed) :
    Prunes allocate owner ∅ (pure ()) s s where
  eval := rfl
  pruned _ hk := hk.elim
  frame _ _ := ⟨rfl, rfl⟩
  servers := rfl
  proxies := rfl
  unchanged _ := rfl

theorem Prunes.bind {stale stale' : Set ObjectKey} {p q : Task Unit}
    (hp : Prunes allocate owner stale p s t) (hq : Prunes allocate owner stale' q t u) :
    Prunes allocate owner (stale ∪ stale') (p >>= fun _ => q) s u where
  eval := by
    rw [Async.eval_bind, hp.eval]
    exact hq.eval
  pruned k hk := by
    by_cases hk' : k ∈ stale'
    · exact hq.pruned k hk'
    · intro obj hobj
      exact hp.pruned k (hk.resolve_right hk') obj ((hq.frame k hk').stored.symm.trans hobj)
  frame k hk := by
    obtain ⟨hk, hk'⟩ := not_or.mp hk
    exact ⟨(hq.frame k hk').stored.trans (hp.frame k hk).stored,
      (hq.frame k hk').applied.trans (hp.frame k hk).applied⟩
  servers := hq.servers.trans hp.servers
  proxies := hq.proxies.trans hp.proxies
  unchanged h := by
    obtain rfl := hp.unchanged fun k hk => h k (.inl hk)
    exact hq.unchanged fun k hk => h k (.inr hk)

theorem prunes_forM {ι : Type} {f : ι → Task Unit} {stale : ι → Set ObjectKey} {l : List ι}
    (h : ∀ i ∈ l, ∀ s, ∃ t, Prunes allocate owner (stale i) (f i) s t) (s : Managed) :
    ∃ t, Prunes allocate owner {k | ∃ i ∈ l, k ∈ stale i} (l.forM f) s t := by
  induction l generalizing s with
  | nil =>
    have hnone : {k | ∃ i ∈ ([] : List ι), k ∈ stale i} = ∅ := by simp
    rw [hnone]
    exact ⟨s, prunes_pure allocate owner s⟩
  | cons i l ih =>
    obtain ⟨t, ht⟩ := h i (List.mem_cons_self ..) s
    obtain ⟨u, hu⟩ := ih (fun j hj => h j (List.mem_cons_of_mem i hj)) t
    have hunion : {k | ∃ j ∈ i :: l, k ∈ stale j} = stale i ∪ {k | ∃ j ∈ l, k ∈ stale j} := by
      ext k
      simp
    rw [hunion]
    exact ⟨u, ht.bind hu⟩

/-! ## Writing the generated objects -/

/-- The part of a `Reconcile` that applies objects, each with what reports its failure. -/
def writing (lib : Library) (owner : ObjectMeta)
    (steps : List (Generated × (Error → Task Unit))) (rest : Task Unit) : Task Unit :=
  steps.foldr (fun step rest => orFail (apply lib owner step.1) step.2 rest) rest

section Writing

variable {steps : List (Generated × (Error → Task Unit))} {rest : Task Unit}

/-- What was applied in turn is at rest afterwards. -/
theorem atRest_of_writing (halloc : allocate.Documented)
    (hproper : ∀ step ∈ steps, step.1.Proper) (hkeys : (steps.map (·.1.key)).Nodup)
    (hfail : ∀ step ∈ steps, ∀ e s, (Async.eval (serve allocate) (step.2 e) s).1 ≠ .ok ())
    (h : Async.eval (serve allocate) (writing lib owner steps rest) s = (.ok (), t)) :
    ∃ u, (∀ step ∈ steps, step.1.AtRest lib owner u) ∧
      (∀ k ∉ steps.map (·.1.key), s.SameAt u k) ∧
      u.cluster.servers = s.cluster.servers ∧ u.cluster.proxies = s.cluster.proxies ∧
      Async.eval (serve allocate) rest u = (.ok (), t) := by
  induction steps generalizing s with
  | nil => exact ⟨s, by simp, fun _ _ => ⟨rfl, rfl⟩, rfl, rfl, h⟩
  | cons step steps ih =>
    obtain ⟨hkey, hkeys⟩ := List.nodup_cons.mp hkeys
    obtain ⟨hstep, hsteps⟩ := List.forall_mem_cons.mp hproper
    obtain ⟨hf, hfail⟩ := List.forall_mem_cons.mp hfail
    obtain ⟨v, happly, hrest⟩ := eval_orFail_ok hf h
    obtain ⟨hframe, hservers, hproxies⟩ := frame_of_apply happly
    obtain ⟨u, hatRest, hsame, hservers', hproxies', heval⟩ := ih hsteps hkeys hfail hrest
    refine ⟨u, ?_, fun k hk => ?_, hservers'.trans hservers, hproxies'.trans hproxies, heval⟩
    · refine List.forall_mem_cons.mpr ⟨?_, hatRest⟩
      exact (Generated.atRest_of_apply halloc hstep happly).congr (hsame _ hkey)
    · obtain ⟨hk, hks⟩ := not_or.mp (List.mem_cons.not.mp hk)
      exact ⟨(hsame k hks).stored.trans (hframe k hk).stored,
        (hsame k hks).applied.trans (hframe k hk).applied⟩

/-- Objects at rest are applied in turn without a write. -/
theorem eval_writing_of_atRest (halloc : allocate.Documented)
    (hkeys : (steps.map (·.1.key)).Nodup) (h : ∀ step ∈ steps, step.1.AtRest lib owner s) :
    ∃ applied, Async.eval (serve allocate) (writing lib owner steps rest) s =
      Async.eval (serve allocate) rest { cluster := s.cluster, applied := applied } := by
  induction steps generalizing s with
  | nil => exact ⟨s.applied, rfl⟩
  | cons step steps ih =>
    obtain ⟨hkey, hkeys⟩ := List.nodup_cons.mp hkeys
    obtain ⟨hstep, hsteps⟩ := List.forall_mem_cons.mp h
    obtain ⟨applied, heval, hsame⟩ := hstep.eval halloc
    have hrested : ∀ step' ∈ steps, step'.1.AtRest lib owner { s with applied := applied } :=
      fun step' hmem => (hsteps step' hmem).congr
        ⟨rfl, hsame _ fun he => hkey (List.mem_map.mpr ⟨step', hmem, he⟩)⟩
    obtain ⟨applied', heval'⟩ := ih hkeys hrested
    exact ⟨applied', (eval_orFail_of_ok heval).trans heval'⟩

/-- What is at rest stays so while its object is left alone. -/
theorem atRest_of_frame {stale : Set ObjectKey} {task : Task Unit}
    (h : Prunes allocate owner stale task s t) (hstale : ∀ step ∈ steps, step.1.key ∉ stale)
    (hrest : ∀ step ∈ steps, step.1.AtRest lib owner s) :
    ∀ step ∈ steps, step.1.AtRest lib owner t :=
  fun step hmem => (hrest step hmem).congr (h.frame _ (hstale step hmem))

end Writing

/-- The one port of a generated Service. -/
theorem proper_servicePort (selector : Labels) (type : String) (port targetPort nodePort : Int) :
    ServiceSpec.Proper
      { selector := selector, ports := [servicePort type port targetPort nodePort]
        type := type } where
  ports := List.nodup_singleton _
  nodePorts htype p hp := by
    obtain rfl := List.mem_singleton.mp hp
    have hcluster : type = "ClusterIP" := htype
    simp [servicePort, hcluster]

/-! ## Servers -/

theorem eval_readOr {α : Type} (k : ObjectKey) (f : Object k.kind → α) (d : α) (s : Managed) :
    Async.eval (serve allocate) (readOr k f d) s =
      (.ok (((s.cluster.objects.lookup k).map f).getD d), s) := by
  simp only [readOr, Async.eval_bind, Async.eval_attempt, await, Async.eval_await, serve_get,
    handle]
  cases s.cluster.objects.lookup k <;> rfl

namespace MinecraftServer

variable {mc : MinecraftServer}

/-- The status that a run writes, from the objects that it reads. -/
def observedStatus (lib : Library) (mc : MinecraftServer) (stateful : Bool) (s : Cluster) :
    MinecraftServerStatus :=
  let name := serverName mc.metadata.name
  let workload : ObjectKey := ⟨if stateful then .statefulSet else .deployment, mc.metadata.ns, name⟩
  let counts := ((s.objects.lookup workload).map fun obj => Body.counts obj.body).getD (0, 0)
  let endpoint := ((s.objects.lookup ⟨.service, mc.metadata.ns, name⟩).map fun svc =>
    serviceEndpoint name mc.metadata.ns svc.body).getD ""
  mc.status.observed lib mc.metadata.generation counts.1 counts.2 endpoint

/-- The state with a status, which is written where it is another one. -/
def patched (s : Managed) (mc : MinecraftServer) (status : MinecraftServerStatus) : Managed :=
  if status = mc.status then s
  else
    { s with
      cluster.servers := s.cluster.servers.insert mc.metadata.key { mc with status := status } }

/-- What is left alone when a status is written. -/
theorem frame_patched (s : Managed) (mc : MinecraftServer) (status : MinecraftServerStatus) :
    (patched s mc status).cluster.objects = s.cluster.objects ∧
      (patched s mc status).applied = s.applied := by
  unfold patched
  split_ifs <;> exact ⟨rfl, rfl⟩

theorem lookup_patched {status : MinecraftServerStatus}
    (hstored : s.cluster.servers.lookup mc.metadata.key = some mc) :
    (patched s mc status).cluster.servers.lookup mc.metadata.key =
      some { mc with status := status } := by
  unfold patched
  split_ifs with h
  · rw [hstored, h]
  · exact AList.lookup_insert _

theorem serve_patchStatus {status : MinecraftServerStatus}
    (hstored : s.cluster.servers.lookup mc.metadata.key = some mc) :
    serve allocate (.patchServerStatus mc.metadata.key
        (MergePatch.diff mc.status.document status.document)) s =
      (.ok (), patched s mc status) := by
  simp only [serve, hstored, MergePatch.apply_diff_self,
    MinecraftServerStatus.ofDocument_document, patched]

theorem eval_updateStatus (stateful : Bool)
    (hstored : s.cluster.servers.lookup mc.metadata.key = some mc) :
    Async.eval (serve allocate) (mc.updateStatus lib stateful) s =
      (.ok ({ mc with status := mc.observedStatus lib stateful s.cluster }, .ok ()),
        patched s mc (mc.observedStatus lib stateful s.cluster)) := by
  simp only [updateStatus, Async.eval_bind, Async.eval_attempt, readReplicas, readEndpoint,
    eval_readOr, Async.eval_pure, patchStatus, await, Async.eval_await]
  exact congrArg (fun x : Except Error Unit × Managed => (Except.ok
    ({ mc with status := mc.observedStatus lib stateful s.cluster }, x.1), x.2))
    (serve_patchStatus hstored)

/-- What is applied to the workload of a server, if its spec is one. -/
def workload (lib : Library) (mc : MinecraftServer) (stateful : Bool) : Except Error Generated :=
  if !stateful then .ok (minecraftDeployment mc) else minecraftStatefulSet lib mc

theorem reconcileWorkload_eq (stateful : Bool) : mc.reconcileWorkload lib stateful =
    (Task.ofExcept (mc.workload lib stateful) >>= fun g => apply lib mc.metadata g) := by
  cases stateful <;> rfl

/-- The writes of a run, with the workload that it applies. -/
def writes (lib : Library) (mc : MinecraftServer) (g : Generated) :
    List (Generated × (Error → Task Unit)) := [
  (minecraftConfigMap mc, mc.fail lib "ConfigMapFailed"),
  (minecraftService mc, mc.fail lib "ServiceFailed"),
  (g, mc.fail lib "WorkloadFailed")]

/-- Which objects are written depends on neither the time nor the status. -/
theorem exists_writes (lib : Library) (mc : MinecraftServer) {mc' : MinecraftServer}
    {g : Generated} {step : Generated × (Error → Task Unit)} (h : step ∈ mc'.writes lib' g)
    (hsame : mc'.metadata = mc.metadata ∧ mc'.spec = mc.spec) :
    ∃ step' ∈ mc.writes lib g, step'.1 = step.1 := by
  obtain ⟨metadata, spec, status⟩ := mc'
  obtain ⟨rfl, rfl⟩ := hsame
  simp only [writes, List.mem_cons, List.not_mem_nil, or_false] at h
  rcases h with rfl | rfl | rfl
  · exact ⟨_, List.mem_cons_self .., rfl⟩
  · exact ⟨_, List.mem_cons_of_mem _ (List.mem_cons_self ..), rfl⟩
  · exact ⟨_, List.mem_cons_of_mem _ (List.mem_cons_of_mem _ (List.mem_cons_self ..)), rfl⟩

/-- The part of a run that follows its writes. -/
def finishing (lib : Library) (mc : MinecraftServer) (stateful : Bool) : Task Unit :=
  orFail (mc.pruneOppositeWorkload stateful) (mc.fail lib "PruneFailed") <| do
    match ← mc.updateStatus lib stateful with
    | (mc, .error e) => mc.fail lib "StatusFailed" e
    | (_, .ok _) => return ()

theorem eval_finishing (stateful : Bool) {u : Managed}
    (hstored : u.cluster.servers.lookup mc.metadata.key = some mc)
    (hprune : Async.eval (serve allocate) (mc.pruneOppositeWorkload stateful) s = (.ok (), u)) :
    Async.eval (serve allocate) (mc.finishing lib stateful) s =
      (.ok (), patched u mc (mc.observedStatus lib stateful u.cluster)) := by
  rw [finishing, eval_orFail_of_ok hprune, Async.eval_bind, eval_updateStatus stateful hstored]
  rfl

/-- A run that is not over at once. -/
theorem reconcile_eq {g : Generated} {stateful : Bool}
    (hstateful : stateful = decide (mc.spec.type = Types.serverStateful))
    (hdeleting : mc.metadata.deleting = false)
    (htype : ¬(mc.spec.type ≠ Types.serverStateful && mc.spec.type ≠ Types.serverStateless))
    (hport : ¬mc.spec.listenPort ≤ 0) (hg : mc.workload lib stateful = .ok g) :
    mc.reconcile lib = writing lib mc.metadata (mc.writes lib g) (mc.finishing lib stateful) := by
  have hwork : mc.reconcileWorkload lib stateful = apply lib mc.metadata g := by
    rw [reconcileWorkload_eq, hg]
    rfl
  subst hstateful
  rw [reconcile, if_neg (by simp [hdeleting]), if_neg htype, if_neg hport, hwork]
  rfl

/-- What `pruneOppositeWorkload` looks at. -/
def oppositeKey (mc : MinecraftServer) (stateful : Bool) : ObjectKey :=
  ⟨if stateful then .deployment else .statefulSet, mc.metadata.ns, serverName mc.metadata.name⟩

theorem key_workload {g : Generated} {stateful : Bool} (h : mc.workload lib stateful = .ok g) :
    g.key.kind = if stateful then .statefulSet else .deployment := by
  cases stateful with
  | false =>
    obtain rfl := Except.ok.inj h
    rfl
  | true =>
    rw [key_of_minecraftStatefulSet h]
    rfl

theorem keys_writes {g : Generated} {stateful : Bool} (h : mc.workload lib stateful = .ok g) :
    ((mc.writes lib g).map (·.1.key)).Nodup := by
  refine List.Nodup.of_map ObjectKey.kind ?_
  have hkinds : ((mc.writes lib g).map (·.1.key)).map ObjectKey.kind =
      [.configMap, .service, if stateful then .statefulSet else .deployment] := by
    rw [← key_workload h]
    rfl
  rw [hkinds]
  cases stateful <;> decide

theorem oppositeKey_notMem {g : Generated} {stateful : Bool}
    (h : mc.workload lib stateful = .ok g) :
    ∀ step ∈ mc.writes lib g, step.1.key ∉ ({mc.oppositeKey stateful} : Set ObjectKey) := by
  have hkind : ∀ k : ObjectKey, k.kind ≠ (if stateful then .deployment else .statefulSet) →
      k ∉ ({mc.oppositeKey stateful} : Set ObjectKey) :=
    fun k hk hmem => hk (congrArg ObjectKey.kind hmem)
  have hconfigMap : ObjectKind.configMap ≠ if stateful then .deployment else .statefulSet := by
    cases stateful <;> decide
  have hservice : ObjectKind.service ≠ if stateful then .deployment else .statefulSet := by
    cases stateful <;> decide
  simp only [writes, List.forall_mem_cons]
  refine ⟨hkind _ hconfigMap, hkind _ hservice, hkind _ ?_, by simp⟩
  rw [key_workload h]
  cases stateful <;> decide

theorem nodup_serverLabels (mc : MinecraftServer) : ((serverLabels mc).map (·.1)).Nodup := by
  have hkeys : (serverLabels mc).map (·.1) = ["app", Types.labelServerType, Types.labelServerID,
      Types.labelManagedBy] := rfl
  rw [hkeys]
  decide

theorem proper_workload (mc : MinecraftServer) (storage : Option String) :
    ((minecraftWorkload mc storage).podLabels.map (·.1)).Nodup ∧
      ((minecraftWorkload mc storage).env.map (·.name)).Nodup := by
  refine ⟨nodup_serverLabels mc, ?_⟩
  rw [minecraftWorkload, minecraftEnv_eq]
  exact nodup_userEnv (nodup_minecraftBase mc)

theorem proper_writes {g : Generated} {stateful : Bool} (h : mc.workload lib stateful = .ok g) :
    ∀ step ∈ mc.writes lib g, step.1.Proper := by
  simp only [writes, List.forall_mem_cons]
  refine ⟨⟨nodup_serverLabels mc, ?_⟩, ⟨nodup_serverLabels mc, proper_servicePort ..⟩, ?_, by simp⟩
  · change ["server-type", "minecraft-version", "jar-type"].Nodup
    decide
  · cases stateful with
    | false =>
      obtain rfl := Except.ok.inj h
      exact ⟨nodup_serverLabels mc, proper_workload mc none⟩
    | true =>
      obtain ⟨qty, rfl⟩ := minecraftStatefulSet_ok h
      exact ⟨nodup_serverLabels mc, proper_workload mc (some qty)⟩

theorem fail_writes (g : Generated) : ∀ step ∈ mc.writes lib g, ∀ e s,
    (Async.eval (serve allocate) (step.2 e) s).1 ≠ .ok () := by
  simp only [writes, List.forall_mem_cons]
  exact ⟨fun _ _ => eval_failWithStatus_ne, fun _ _ => eval_failWithStatus_ne,
    fun _ _ => eval_failWithStatus_ne, by simp⟩

theorem observedStatus_again (hlib : lib.Transitions) (hlib' : lib'.Transitions)
    (stateful : Bool) {s t : Cluster} (h : t.objects = s.objects) :
    ({ mc with status := mc.observedStatus lib stateful s } : MinecraftServer).observedStatus lib'
      stateful t = mc.observedStatus lib stateful s := by
  simp only [observedStatus, h, MinecraftServerStatus.observed_again hlib hlib']

/-- A run without an error has had a spec to work on. -/
theorem valid_of_ok (hdeleting : mc.metadata.deleting = false)
    (h : Async.eval (serve allocate) (mc.reconcile lib) s = (.ok (), t)) :
    ¬(mc.spec.type ≠ Types.serverStateful && mc.spec.type ≠ Types.serverStateless) ∧
      ¬mc.spec.listenPort ≤ 0 ∧
      ∃ g, mc.workload lib (decide (mc.spec.type = Types.serverStateful)) = .ok g := by
  have hfail : ∀ reason e s,
      (Async.eval (serve allocate) (mc.fail lib reason e) s).1 ≠ .ok () :=
    fun _ _ _ => eval_failWithStatus_ne
  rw [reconcile, if_neg (by simp [hdeleting])] at h
  split_ifs at h with htype hport
  · exact absurd (congrArg Prod.fst h) (hfail _ _ _)
  · exact absurd (congrArg Prod.fst h) (hfail _ _ _)
  · refine ⟨htype, hport, ?_⟩
    obtain ⟨_, -, h⟩ := eval_orFail_ok (hfail _) h
    obtain ⟨_, -, h⟩ := eval_orFail_ok (hfail _) h
    obtain ⟨_, hwork, -⟩ := eval_orFail_ok (hfail _) h
    rw [reconcileWorkload_eq] at hwork
    cases hg : mc.workload lib (decide (mc.spec.type = Types.serverStateful)) with
    | ok g => exact ⟨g, rfl⟩
    | error e =>
      rw [hg] at hwork
      cases hwork

/-- A state is not written where the status is the stored one. -/
theorem patched_self (s : Managed) (mc : MinecraftServer) : patched s mc mc.status = s :=
  if_pos rfl

/-- A run on objects at rest and a status that says what it observes writes nothing. -/
theorem reconcile_of_atRest {g : Generated} {stateful : Bool} (halloc : allocate.Documented)
    (hstateful : stateful = decide (mc.spec.type = Types.serverStateful))
    (hdeleting : mc.metadata.deleting = false)
    (htype : ¬(mc.spec.type ≠ Types.serverStateful && mc.spec.type ≠ Types.serverStateless))
    (hport : ¬mc.spec.listenPort ≤ 0) (hg : mc.workload lib stateful = .ok g)
    (hstored : s.cluster.servers.lookup mc.metadata.key = some mc)
    (hrest : ∀ step ∈ mc.writes lib g, step.1.AtRest lib mc.metadata s)
    (hpruned : Pruned mc.metadata (mc.oppositeKey stateful) s.cluster)
    (hstatus : mc.observedStatus lib stateful s.cluster = mc.status) :
    ∃ t, Async.eval (serve allocate) (mc.reconcile lib) s = (.ok (), t) ∧
      t.cluster = s.cluster := by
  obtain ⟨applied, heval⟩ : ∃ applied, Async.eval (serve allocate) (writing lib mc.metadata
      (mc.writes lib g) (mc.finishing lib stateful)) s =
        Async.eval (serve allocate) (mc.finishing lib stateful) ⟨s.cluster, applied⟩ :=
    eval_writing_of_atRest halloc (keys_writes hg) hrest
  obtain ⟨u, hprune⟩ := prunes_pruneObject allocate mc.metadata (mc.oppositeKey stateful)
    { cluster := s.cluster, applied := applied }
  obtain rfl := hprune.unchanged fun k (hk : k = _) => hk ▸ hpruned
  refine ⟨⟨s.cluster, applied⟩, ?_, rfl⟩
  rw [reconcile_eq hstateful hdeleting htype hport hg, heval,
    eval_finishing (u := ⟨s.cluster, applied⟩) stateful hstored hprune.eval, hstatus,
    patched_self]

/-- What a run without an error leaves behind, another one leaves alone. -/
theorem reconcile_again {set : List Condition → Condition → List Condition}
    (hlib : lib.Transitions) (hlater : (lib.later set).Transitions) (halloc : allocate.Documented)
    (hstored : s.cluster.servers.lookup mc.metadata.key = some mc)
    (h : Async.eval (serve allocate) (mc.reconcile lib) s = (.ok (), t)) :
    ∃ mc', t.cluster.servers.lookup mc.metadata.key = some mc' ∧
      ∃ t', Async.eval (serve allocate) (mc'.reconcile (lib.later set)) t = (.ok (), t') ∧
        t'.cluster = t.cluster := by
  cases hdeleting : mc.metadata.deleting with
  | true =>
    have hover : ∀ lib, mc.reconcile lib = pure () := fun lib => if_pos hdeleting
    rw [hover] at h
    obtain rfl : s = t := congrArg Prod.snd h
    exact ⟨mc, hstored, s, by rw [hover]; rfl, rfl⟩
  | false =>
    obtain ⟨htype, hport, g, hg⟩ := valid_of_ok hdeleting h
    generalize hstateful : decide (mc.spec.type = Types.serverStateful) = stateful at hg
    rw [reconcile_eq hstateful.symm hdeleting htype hport hg] at h
    obtain ⟨u, hrest, -, hservers, -, hfinish⟩ :=
      atRest_of_writing halloc (proper_writes hg) (keys_writes hg) (fail_writes g) h
    obtain ⟨v, hprune⟩ :=
      prunes_pruneObject allocate mc.metadata (mc.oppositeKey stateful) u
    have hstored' : v.cluster.servers.lookup mc.metadata.key = some mc := by
      rw [hprune.servers, hservers, hstored]
    rw [eval_finishing stateful hstored' hprune.eval] at hfinish
    obtain rfl : patched v mc (mc.observedStatus lib stateful v.cluster) = t :=
      congrArg Prod.snd hfinish
    have hrest' := atRest_of_frame hprune (oppositeKey_notMem hg) hrest
    obtain ⟨hobjects, happlied⟩ := frame_patched v mc (mc.observedStatus lib stateful v.cluster)
    refine ⟨_, lookup_patched hstored', ?_⟩
    refine reconcile_of_atRest (g := g) halloc hstateful.symm hdeleting htype hport hg
      (lookup_patched hstored') (fun step hstep => ?_) ?_
      (observedStatus_again hlib hlater stateful hobjects)
    · obtain ⟨step', hstep', hsame⟩ := exists_writes lib mc hstep ⟨rfl, rfl⟩
      rw [← hsame]
      exact Generated.AtRest.congr (hrest' step' hstep')
        ⟨by rw [hobjects], by rw [happlied]⟩
    · intro obj hobj
      rw [hobjects] at hobj
      exact hprune.pruned _ rfl obj hobj

end MinecraftServer

/-! ## Proxies -/

namespace ReverseProxyServer

variable {rp : ReverseProxyServer}

/-- The status that a run writes, from the objects and the servers that it reads. -/
def observedStatus (lib : Library) (rp : ReverseProxyServer) (selector : Labels → Bool)
    (s : Cluster) : ReverseProxyServerStatus :=
  let name := proxyName rp.spec.type rp.metadata.name
  let workload : ObjectKey := ⟨.deployment, rp.metadata.ns, name⟩
  let counts := ((s.objects.lookup workload).map fun obj => Body.counts obj.body).getD (0, 0)
  let servers := (s.servers.entries.map (·.2)).filter fun mc =>
    mc.metadata.ns = rp.metadata.ns && selector mc.metadata.labels
  let endpoint := ((s.objects.lookup ⟨.service, rp.metadata.ns, name⟩).map fun svc =>
    serviceEndpoint name rp.metadata.ns svc.body).getD ""
  rp.status.observed lib rp.metadata.generation counts.1 counts.2 endpoint
    (sortStrings (servers.map (·.metadata.name)))

/-- The state with a status, which is written where it is another one. -/
def patched (s : Managed) (rp : ReverseProxyServer) (status : ReverseProxyServerStatus) :
    Managed :=
  if status = rp.status then s
  else
    { s with
      cluster.proxies := s.cluster.proxies.insert rp.metadata.key { rp with status := status } }

/-- What is left alone when a status is written. -/
theorem frame_patched (s : Managed) (rp : ReverseProxyServer)
    (status : ReverseProxyServerStatus) :
    (patched s rp status).cluster.objects = s.cluster.objects ∧
      (patched s rp status).cluster.servers = s.cluster.servers ∧
      (patched s rp status).applied = s.applied := by
  unfold patched
  split_ifs <;> exact ⟨rfl, rfl, rfl⟩

theorem patched_self (s : Managed) (rp : ReverseProxyServer) : patched s rp rp.status = s :=
  if_pos rfl

theorem lookup_patched {status : ReverseProxyServerStatus}
    (hstored : s.cluster.proxies.lookup rp.metadata.key = some rp) :
    (patched s rp status).cluster.proxies.lookup rp.metadata.key =
      some { rp with status := status } := by
  unfold patched
  split_ifs with h
  · rw [hstored, h]
  · exact AList.lookup_insert _

theorem serve_patchStatus {status : ReverseProxyServerStatus}
    (hstored : s.cluster.proxies.lookup rp.metadata.key = some rp) :
    serve allocate (.patchProxyStatus rp.metadata.key
        (MergePatch.diff rp.status.document status.document)) s =
      (.ok (), patched s rp status) := by
  simp only [serve, hstored, MergePatch.apply_diff_self,
    ReverseProxyServerStatus.ofDocument_document, patched]

theorem eval_backends (s : Managed) : Async.eval (serve allocate) (rp.backends lib) s =
    match rp.selector lib with
    | .error e => (.error e, s)
    | .ok selector => (.ok (sortStrings (((s.cluster.servers.entries.map (·.2)).filter fun mc =>
        mc.metadata.ns = rp.metadata.ns && selector mc.metadata.labels).map
          (·.metadata.name))), s) := by
  simp only [backends, Async.eval_bind]
  cases rp.selector lib <;> rfl

theorem eval_updateStatus {selector : Labels → Bool} (hselector : rp.selector lib = .ok selector)
    (hstored : s.cluster.proxies.lookup rp.metadata.key = some rp) :
    Async.eval (serve allocate) (rp.updateStatus lib) s =
      (.ok ({ rp with status := rp.observedStatus lib selector s.cluster }, .ok ()),
        patched s rp (rp.observedStatus lib selector s.cluster)) := by
  simp only [updateStatus, Async.eval_bind, Async.eval_attempt, readReplicas, readEndpoint,
    eval_readOr, eval_backends, hselector, Async.eval_pure, patchStatus, await, Async.eval_await]
  exact congrArg (fun x : Except Error Unit × Managed => (Except.ok
    ({ rp with status := rp.observedStatus lib selector s.cluster }, x.1), x.2))
    (serve_patchStatus hstored)

/-- The writes of a run. -/
def writes (lib : Library) (rp : ReverseProxyServer) :
    List (Generated × (Error → Task Unit)) := [
  (proxyConfigMap rp, rp.fail lib "ConfigMapFailed"),
  (proxyService rp, rp.fail lib "ServiceFailed"),
  (proxyDeployment rp, rp.fail lib "DeploymentFailed")]

/-- The part of a run that follows its writes. -/
def finishing (lib : Library) (rp : ReverseProxyServer) : Task Unit :=
  orFail rp.pruneStaleResources (rp.fail lib "PruneFailed") <| do
    match ← rp.updateStatus lib with
    | (rp, .error e) => rp.fail lib "StatusFailed" e
    | (_, .ok _) => return ()

theorem fail_ne (reason : String) (e : Error) (s : Managed) :
    (Async.eval (serve allocate) (rp.fail lib reason e) s).1 ≠ .ok () :=
  eval_failWithStatus_ne

/-- A run without an error has had a selector to work with. -/
theorem eval_finishing {u : Managed}
    (hstored : u.cluster.proxies.lookup rp.metadata.key = some rp)
    (hprune : Async.eval (serve allocate) rp.pruneStaleResources s = (.ok (), u)) :
    Async.eval (serve allocate) (rp.finishing lib) s = (.ok (), t) ↔
      ∃ selector, rp.selector lib = .ok selector ∧
        t = patched u rp (rp.observedStatus lib selector u.cluster) := by
  rw [finishing, eval_orFail_of_ok hprune, Async.eval_bind]
  cases hselector : rp.selector lib with
  | ok selector =>
    rw [eval_updateStatus hselector hstored]
    constructor
    · intro h
      exact ⟨selector, rfl, (congrArg Prod.snd h).symm⟩
    · rintro ⟨_, hok, rfl⟩
      obtain rfl := Except.ok.inj hok
      rfl
  | error e =>
    have hupdate : Async.eval (serve allocate) (rp.updateStatus lib) u =
        (.ok (rp, .error e), u) := by
      simp only [updateStatus, Async.eval_bind, Async.eval_attempt, readReplicas, readEndpoint,
        eval_readOr, eval_backends, hselector]
      rfl
    rw [hupdate]
    constructor
    · exact fun h => absurd (congrArg Prod.fst h) (fail_ne _ e u)
    · rintro ⟨_, hok, -⟩
      cases hok

theorem reconcile_eq (hdeleting : rp.metadata.deleting = false)
    (htype : ¬(rp.spec.type ≠ Types.proxyVelocity && rp.spec.type ≠ Types.proxyBungeeCord))
    (hport : ¬(rp.spec.externalPort ≤ 0 || rp.spec.listenPort ≤ 0)) :
    rp.reconcile lib = writing lib rp.metadata (rp.writes lib) (rp.finishing lib) := by
  rw [reconcile, if_neg (by simp [hdeleting]), if_neg htype, if_neg hport]
  rfl

theorem valid_of_ok (hdeleting : rp.metadata.deleting = false)
    (h : Async.eval (serve allocate) (rp.reconcile lib) s = (.ok (), t)) :
    ¬(rp.spec.type ≠ Types.proxyVelocity && rp.spec.type ≠ Types.proxyBungeeCord) ∧
      ¬(rp.spec.externalPort ≤ 0 || rp.spec.listenPort ≤ 0) := by
  rw [reconcile, if_neg (by simp [hdeleting])] at h
  split_ifs at h with htype hport
  · exact absurd (congrArg Prod.fst h) (fail_ne _ _ _)
  · exact absurd (congrArg Prod.fst h) (fail_ne _ _ _)
  · exact ⟨htype, hport⟩

theorem keys_writes : ((rp.writes lib).map (·.1.key)).Nodup := by
  refine List.Nodup.of_map ObjectKey.kind ?_
  change [ObjectKind.configMap, .service, .deployment].Nodup
  decide

theorem nodup_proxyLabels (rp : ReverseProxyServer) : ((proxyLabels rp).map (·.1)).Nodup := by
  change ["app", Types.labelServerType, Types.labelProxyID, Types.labelManagedBy].Nodup
  decide

theorem proper_writes : ∀ step ∈ rp.writes lib, step.1.Proper := by
  simp only [writes, List.forall_mem_cons]
  refine ⟨⟨nodup_proxyLabels rp, ?_⟩, ⟨nodup_proxyLabels rp, proper_servicePort ..⟩,
    ⟨nodup_proxyLabels rp, nodup_proxyLabels rp, ?_⟩, by simp⟩
  · change ["proxy-type", "external-address"].Nodup
    decide
  · change ((proxyEnv rp).map (·.name)).Nodup
    rw [proxyEnv_eq]
    exact nodup_userEnv (nodup_proxyBase rp)

theorem fail_writes : ∀ step ∈ rp.writes lib, ∀ e s,
    (Async.eval (serve allocate) (step.2 e) s).1 ≠ .ok () := by
  simp only [writes, List.forall_mem_cons]
  exact ⟨fail_ne _, fail_ne _, fail_ne _, by simp⟩

theorem exists_writes (lib : Library) (rp : ReverseProxyServer) {rp' : ReverseProxyServer}
    {step : Generated × (Error → Task Unit)} (h : step ∈ rp'.writes lib')
    (hsame : rp'.metadata = rp.metadata ∧ rp'.spec = rp.spec) :
    ∃ step' ∈ rp.writes lib, step'.1 = step.1 := by
  obtain ⟨metadata, spec, status⟩ := rp'
  obtain ⟨rfl, rfl⟩ := hsame
  simp only [writes, List.mem_cons, List.not_mem_nil, or_false] at h
  rcases h with rfl | rfl | rfl
  · exact ⟨_, List.mem_cons_self .., rfl⟩
  · exact ⟨_, List.mem_cons_of_mem _ (List.mem_cons_self ..), rfl⟩
  · exact ⟨_, List.mem_cons_of_mem _ (List.mem_cons_of_mem _ (List.mem_cons_self ..)), rfl⟩

/-- The objects that are written have the names of the type of the spec. -/
theorem staleKeys_notMem (htype : rp.spec.type ∈ proxyTypes) :
    ∀ step ∈ rp.writes lib, step.1.key ∉ staleKeys rp proxyTypes := by
  have hnamed : ∀ k : ObjectKey, k.name = proxyName rp.spec.type rp.metadata.name →
      k ∉ staleKeys rp proxyTypes := by
    rintro k hk ⟨t, -, hne, kind, -, rfl⟩
    exact hne hk
  simp only [writes, List.forall_mem_cons]
  refine ⟨?_, hnamed _ rfl, hnamed _ rfl, by simp⟩
  rintro ⟨t, ht, hne, kind, -, hk⟩
  have hname : configMapName (proxyName rp.spec.type rp.metadata.name) =
      proxyName t rp.metadata.name := congrArg ObjectKey.name hk
  exact hne (type_eq_of_configMapName htype ht hname ▸ rfl)

theorem prunes_stale (allocate : Allocator) (rp : ReverseProxyServer) (s : Managed) :
    ∃ t, Prunes allocate rp.metadata (staleKeys rp proxyTypes) rp.pruneStaleResources s t := by
  have htypes : ∀ t ∈ proxyTypes, ∀ s, ∃ u, Prunes allocate rp.metadata (staleKeys rp [t])
      (if proxyName t rp.metadata.name = proxyName rp.spec.type rp.metadata.name then pure ()
        else proxyKinds.forM fun k =>
          pruneObject rp.metadata ⟨k, rp.metadata.ns, proxyName t rp.metadata.name⟩) s u := by
    intro t _ s
    split_ifs with hname
    · have hnone : staleKeys rp [t] = ∅ := by
        ext k
        simp [staleKeys, hname]
      rw [hnone]
      exact ⟨s, prunes_pure allocate rp.metadata s⟩
    · have hkeys : staleKeys rp [t] = {k | ∃ kind ∈ proxyKinds,
          k ∈ ({⟨kind, rp.metadata.ns, proxyName t rp.metadata.name⟩} : Set ObjectKey)} := by
        ext k
        simp [staleKeys, hname, typeKey, ObjectMeta.key]
      rw [hkeys]
      exact prunes_forM (fun kind _ s => prunes_pruneObject allocate rp.metadata _ s) s
  have hall : staleKeys rp proxyTypes = {k | ∃ t ∈ proxyTypes, k ∈ staleKeys rp [t]} := by
    ext k
    simp [staleKeys]
  rw [hall, pruneStaleResources_eq]
  exact prunes_forM htypes s

theorem observedStatus_again (hlib : lib.Transitions) (hlib' : lib'.Transitions)
    (selector : Labels → Bool) {s t : Cluster} (h : t.objects = s.objects)
    (hservers : t.servers = s.servers) :
    ({ rp with status := rp.observedStatus lib selector s } : ReverseProxyServer).observedStatus
      lib' selector t = rp.observedStatus lib selector s := by
  simp only [observedStatus, h, hservers, ReverseProxyServerStatus.observed_again hlib hlib']

/-- A run on objects at rest and a status that says what it observes writes nothing. -/
theorem reconcile_of_atRest {selector : Labels → Bool} (halloc : allocate.Documented)
    (hdeleting : rp.metadata.deleting = false)
    (htype : ¬(rp.spec.type ≠ Types.proxyVelocity && rp.spec.type ≠ Types.proxyBungeeCord))
    (hport : ¬(rp.spec.externalPort ≤ 0 || rp.spec.listenPort ≤ 0))
    (hselector : rp.selector lib = .ok selector)
    (hstored : s.cluster.proxies.lookup rp.metadata.key = some rp)
    (hrest : ∀ step ∈ rp.writes lib, step.1.AtRest lib rp.metadata s)
    (hpruned : ∀ k ∈ staleKeys rp proxyTypes, Pruned rp.metadata k s.cluster)
    (hstatus : rp.observedStatus lib selector s.cluster = rp.status) :
    ∃ t, Async.eval (serve allocate) (rp.reconcile lib) s = (.ok (), t) ∧
      t.cluster = s.cluster := by
  obtain ⟨applied, heval⟩ : ∃ applied, Async.eval (serve allocate) (writing lib rp.metadata
      (rp.writes lib) (rp.finishing lib)) s =
        Async.eval (serve allocate) (rp.finishing lib) ⟨s.cluster, applied⟩ :=
    eval_writing_of_atRest halloc keys_writes hrest
  obtain ⟨u, hprune⟩ := prunes_stale allocate rp ⟨s.cluster, applied⟩
  obtain rfl := hprune.unchanged hpruned
  refine ⟨⟨s.cluster, applied⟩, ?_, rfl⟩
  rw [reconcile_eq hdeleting htype hport, heval,
    eval_finishing (u := ⟨s.cluster, applied⟩) hstored hprune.eval]
  exact ⟨selector, hselector, by rw [hstatus, patched_self]⟩

/-- What a run without an error leaves behind, another one leaves alone. -/
theorem reconcile_again {set : List Condition → Condition → List Condition}
    (hlib : lib.Transitions) (hlater : (lib.later set).Transitions) (halloc : allocate.Documented)
    (hstored : s.cluster.proxies.lookup rp.metadata.key = some rp)
    (h : Async.eval (serve allocate) (rp.reconcile lib) s = (.ok (), t)) :
    ∃ rp', t.cluster.proxies.lookup rp.metadata.key = some rp' ∧
      ∃ t', Async.eval (serve allocate) (rp'.reconcile (lib.later set)) t = (.ok (), t') ∧
        t'.cluster = t.cluster := by
  cases hdeleting : rp.metadata.deleting with
  | true =>
    have hover : ∀ lib, rp.reconcile lib = pure () := fun lib => if_pos hdeleting
    rw [hover] at h
    obtain rfl : s = t := congrArg Prod.snd h
    exact ⟨rp, hstored, s, by rw [hover]; rfl, rfl⟩
  | false =>
    obtain ⟨htype, hport⟩ := valid_of_ok hdeleting h
    have htypes : rp.spec.type ∈ proxyTypes := by
      simpa [proxyTypes, or_iff_not_imp_left] using htype
    rw [reconcile_eq hdeleting htype hport] at h
    obtain ⟨u, hrest, -, -, hproxies, hfinish⟩ :=
      atRest_of_writing halloc proper_writes keys_writes fail_writes h
    obtain ⟨v, hprune⟩ := prunes_stale allocate rp u
    have hstored' : v.cluster.proxies.lookup rp.metadata.key = some rp := by
      rw [hprune.proxies, hproxies, hstored]
    rw [eval_finishing hstored' hprune.eval] at hfinish
    obtain ⟨selector, hselector, rfl⟩ := hfinish
    have hrest' := atRest_of_frame hprune (staleKeys_notMem htypes) hrest
    obtain ⟨hobjects, hservers, happlied⟩ :=
      frame_patched v rp (rp.observedStatus lib selector v.cluster)
    refine ⟨_, lookup_patched hstored', ?_⟩
    refine reconcile_of_atRest halloc hdeleting htype hport hselector (lookup_patched hstored')
      (fun step hstep => ?_) (fun k hk obj hobj => ?_)
      (observedStatus_again hlib hlater selector hobjects hservers)
    · obtain ⟨step', hstep', hsame⟩ := exists_writes lib rp hstep ⟨rfl, rfl⟩
      rw [← hsame]
      exact Generated.AtRest.congr (hrest' step' hstep')
        ⟨by rw [hobjects], by rw [happlied]⟩
    · rw [hobjects] at hobj
      exact hprune.pruned k hk obj hobj

end ReverseProxyServer

/-! ## Both kinds -/

/-- A resource is stored under its own name. -/
def Cluster.Keyed (s : Cluster) (key : NamespacedName) : Prop :=
  (∀ mc, s.servers.lookup key = some mc → mc.metadata.key = key) ∧
    ∀ rp, s.proxies.lookup key = some rp → rp.metadata.key = key

section Found

variable {key : NamespacedName}

theorem eval_reconcileServer {mc : MinecraftServer}
    (h : s.cluster.servers.lookup key = some mc) :
    Async.eval (serve allocate) (reconcile lib .server key) s =
      Async.eval (serve allocate) (mc.reconcile lib) s := by
  simp only [reconcile, reconcileMinecraftServer, Async.eval_bind, Async.eval_attempt, await,
    Async.eval_await, serve, handle, h]

theorem eval_reconcileServer_none (h : s.cluster.servers.lookup key = none) :
    Async.eval (serve allocate) (reconcile lib .server key) s = (.ok (), s) := by
  simp only [reconcile, reconcileMinecraftServer, Async.eval_bind, Async.eval_attempt, await,
    Async.eval_await, serve, handle, h]
  rfl

theorem eval_reconcileProxy {rp : ReverseProxyServer}
    (h : s.cluster.proxies.lookup key = some rp) :
    Async.eval (serve allocate) (reconcile lib .proxy key) s =
      Async.eval (serve allocate) (rp.reconcile lib) s := by
  simp only [reconcile, reconcileReverseProxyServer, Async.eval_bind, Async.eval_attempt, await,
    Async.eval_await, serve, handle, h]

theorem eval_reconcileProxy_none (h : s.cluster.proxies.lookup key = none) :
    Async.eval (serve allocate) (reconcile lib .proxy key) s = (.ok (), s) := by
  simp only [reconcile, reconcileReverseProxyServer, Async.eval_bind, Async.eval_attempt, await,
    Async.eval_await, serve, handle, h]
  rfl

end Found

/-- Another `Reconcile`, at whatever time, returns no error either and leaves the cluster as it
is: every object, and every resource with its status. -/
theorem reconcile_idempotent {set : List Condition → Condition → List Condition}
    (hlib : lib.Transitions) (hlater : (lib.later set).Transitions) (halloc : allocate.Documented)
    {kind : ResourceKind} {key : NamespacedName} (hkeyed : s.cluster.Keyed key)
    (h : Async.eval (serve allocate) (reconcile lib kind key) s = (.ok (), t)) :
    ∃ t', Async.eval (serve allocate) (reconcile (lib.later set) kind key) t = (.ok (), t') ∧
      t'.cluster = t.cluster := by
  cases kind with
  | server =>
    cases hstored : s.cluster.servers.lookup key with
    | none =>
      rw [eval_reconcileServer_none hstored] at h
      obtain rfl : s = t := congrArg Prod.snd h
      exact ⟨s, eval_reconcileServer_none hstored, rfl⟩
    | some mc =>
      rw [eval_reconcileServer hstored] at h
      have hkey := hkeyed.1 mc hstored
      obtain ⟨mc', hstored', t', heval, hcluster⟩ :=
        MinecraftServer.reconcile_again hlib hlater halloc (hkey ▸ hstored) h
      rw [hkey] at hstored'
      exact ⟨t', (eval_reconcileServer hstored').trans heval, hcluster⟩
  | proxy =>
    cases hstored : s.cluster.proxies.lookup key with
    | none =>
      rw [eval_reconcileProxy_none hstored] at h
      obtain rfl : s = t := congrArg Prod.snd h
      exact ⟨s, eval_reconcileProxy_none hstored, rfl⟩
    | some rp =>
      rw [eval_reconcileProxy hstored] at h
      have hkey := hkeyed.2 rp hstored
      obtain ⟨rp', hstored', t', heval, hcluster⟩ :=
        ReverseProxyServer.reconcile_again hlib hlater halloc (hkey ▸ hstored) h
      rw [hkey] at hstored'
      exact ⟨t', (eval_reconcileProxy hstored').trans heval, hcluster⟩

/-! ## A server that is reconciled twice -/

theorem updateCondition_of_says {now : Int} {c d : Condition} {conditions : List Condition}
    (h : conditions.find? (·.type = c.type) = some d) (hsaid : d.Says c) :
    updateCondition now c conditions = conditions := by
  induction conditions with
  | nil => cases h
  | cons e conditions ih =>
    by_cases he : e.type = c.type
    · rw [List.find?_cons_of_pos (by simpa using he), Option.some.injEq] at h
      obtain rfl := h
      have heq : { e with lastTransitionTime := c.lastTransitionTime } = c := hsaid
      have hstatus := congrArg Condition.status heq
      rw [updateCondition, if_pos he, if_pos hstatus, ← heq]
    · rw [List.find?_cons_of_neg (by simpa using he)] at h
      rw [updateCondition, if_neg he, ih h]

theorem plainLibraryAt_transitions (now : Int) : (plainLibraryAt now).Transitions where
  found _ _ := find?_updateCondition
  unchanged _ _ _ := updateCondition_of_says

/-- The server before its first `Reconcile`, with nothing applied. -/
def untouched : Managed := { cluster := fresh, applied := ∅ }

def reconcileOnce : Except Error Unit × Managed :=
  Async.eval (serve plainAllocator) (reconcile plainLibrary .server survival.metadata.key) untouched

theorem reconcile_idempotent_survival : ∃ t',
    Async.eval (serve plainAllocator) (reconcile (plainLibraryAt 2) .server survival.metadata.key)
      reconcileOnce.2 = (.ok (), t') ∧ t'.cluster = reconcileOnce.2.cluster := by
  have hkeyed : untouched.cluster.Keyed survival.metadata.key := by
    refine ⟨fun mc hmc => ?_, fun rp hrp => by cases hrp⟩
    obtain rfl : survival = mc := Option.some.inj ((by decide :
      untouched.cluster.servers.lookup survival.metadata.key = some survival).symm.trans hmc)
    rfl
  have hlater : (plainLibrary.later fun conditions c =>
      updateCondition 2 c conditions).Transitions := plainLibraryAt_transitions 2
  have hok : reconcileOnce.1 = .ok () := by decide +kernel
  exact reconcile_idempotent (plainLibraryAt_transitions 1) hlater plainAllocator_documented
    hkeyed (Prod.ext hok rfl)

end Minikura.Operator
