import Minikura.Concurrency.Team
import Minikura.Operator.Workloads

/-!
# Resources do not touch each other's objects

The operator runs `Reconcile` for all resources of both kinds at the same time. An apply cannot
take an object from its controller, and a run deletes only what it has found under the control
of its resource, so no call of any run, however late it is made and whatever has failed before,
changes an object that another resource controls. Names need not be distinct for that.

## Main definitions

* `ResourceRef`, `reconcileResource` — the resources and their `Reconcile`.
* `OperatorSteps` — the operator at work.

## Main result

* `objects_isolated` — the objects of the others are left as they are.
-/

namespace Minikura.Operator
open Concurrency

inductive ResourceRef where
  | server (key : NamespacedName)
  | proxy (key : NamespacedName)
deriving Repr, DecidableEq

def reconcileResource (lib : Library) : ResourceRef → Task Unit
  | .server key => reconcileMinecraftServer lib key
  | .proxy key => reconcileReverseProxyServer lib key

/-- The resources there are have the uids. -/
structure Cluster.Identified (uid : ResourceRef → String) (s : Cluster) : Prop where
  servers : ∀ key mc, s.servers.lookup key = some mc → mc.metadata.uid = uid (.server key)
  proxies : ∀ key rp, s.proxies.lookup key = some rp → rp.metadata.uid = uid (.proxy key)

/-- Edits of the resources, and anything else but taking a controlled object from its
controller. -/
structure Kept (uid : ResourceRef → String) (s s' : Cluster) : Prop where
  identified : s.Identified uid → s'.Identified uid
  controls : ∀ i k, s.Controls (uid i) k → s'.Controls (uid i) k

/-- The operator at work: runs of `Reconcile` for any of the resources, interleaved call by call
and stopped anywhere, with requests that fail at any point. -/
abbrev OperatorSteps (lib : Library) (uid : ResourceRef → String) :=
  TeamSteps flakyApi (Kept uid) fun i => (reconcileResource lib i).run

variable {lib : Library} {uid : ResourceRef → String} {i : ResourceRef} {s s' : Cluster}

/-! ## The contract of a run -/

/-- What others control is left as it is. -/
def tending (uid : ResourceRef → String) (i : ResourceRef) : Contract Call Cluster where
  rely s s' := (s.Identified uid → s'.Identified uid) ∧
    ∀ k, s.Controls (uid i) k → s'.Controls (uid i) k
  guar _ s s' := (s.Identified uid → s'.Identified uid) ∧
    ∀ k u, u ≠ uid i → s.Controls u k → s'.objects.lookup k = s.objects.lookup k
  refl _ := ⟨id, fun _ => id⟩
  trans _ _ _ h h' := ⟨fun hs => h'.1 (h.1 hs), fun k hk => h'.2 k (h.2 k hk)⟩

theorem controls_of_lookup_eq {k : ObjectKey} {u : String}
    (h : s'.objects.lookup k = s.objects.lookup k) (hk : s.Controls u k) : s'.Controls u k := by
  rw [Cluster.Controls, Cluster.controllerOf, h]
  exact hk

/-- Nothing but the status of a resource is written. -/
theorem identified_handle (c : Call) (hs : s.Identified uid) :
    (handle c s).2.Identified uid := by
  cases hc : c.patchesStatus with
  | false =>
    obtain ⟨hservers, hproxies⟩ := resources_handle hc s
    exact ⟨by rw [hservers]; exact hs.servers, by rw [hproxies]; exact hs.proxies⟩
  | true =>
    cases c with
    | patchServerStatus l patch =>
      simp only [handle]
      cases hl : s.servers.lookup l with
      | none => exact hs
      | some mc =>
        refine ⟨fun key mc' hkey => ?_, hs.proxies⟩
        by_cases hk : key = l
        · subst hk
          obtain rfl := Option.some.inj ((AList.lookup_insert _).symm.trans hkey)
          exact hs.servers key mc hl
        · exact hs.servers key mc' ((AList.lookup_insert_ne hk).symm.trans hkey)
    | patchProxyStatus l patch =>
      simp only [handle]
      cases hl : s.proxies.lookup l with
      | none => exact hs
      | some rp =>
        refine ⟨hs.servers, fun key rp' hkey => ?_⟩
        by_cases hk : key = l
        · subst hk
          obtain rfl := Option.some.inj ((AList.lookup_insert _).symm.trans hkey)
          exact hs.proxies key rp hl
        · exact hs.proxies key rp' ((AList.lookup_insert_ne hk).symm.trans hkey)
    | _ => cases hc

section Steps

variable {c : Call} {r : Settled Error Answer c}

theorem FlakyStep.identified (h : FlakyStep c s r s') (hs : s.Identified uid) :
    s'.Identified uid := by
  rcases h.state with rfl | rfl
  exacts [hs, identified_handle c hs]

/-- An apply is rejected where somebody else is the controller. -/
theorem lookup_apply_of_controls {k l : ObjectKey} {new : Object k.kind} {u v : String}
    {r : Settled Error Answer (.apply k new)} (h : FlakyStep (.apply k new) s r s')
    (hnew : new.controller = some u) (hv : v ≠ u) (hl : s.Controls v l) :
    s'.objects.lookup l = s.objects.lookup l := by
  rcases h.state with rfl | rfl
  · rfl
  simp only [handle]
  by_cases hlk : l = k
  · subst hlk
    obtain ⟨old, hold, hcontroller⟩ := Option.map_eq_some_iff.mp hl
    have hrejected : old.accepts new = false := by
      simp [Object.accepts, hcontroller, hnew, hv.symm]
    simp [hold, hrejected]
  · cases s.objects.lookup k with
    | none => exact AList.lookup_insert_ne hlk
    | some old =>
      dsimp only
      split_ifs
      exacts [AList.lookup_insert_ne hlk, rfl]

theorem lookup_delete_of_ne {k l : ObjectKey} {r : Settled Error Answer (.delete k)}
    (h : FlakyStep (.delete k) s r s') (hl : l ≠ k) :
    s'.objects.lookup l = s.objects.lookup l := by
  rcases h.state with rfl | rfl
  · rfl
  simp only [handle]
  split_ifs
  exacts [AList.lookup_erase_ne hl, rfl]

end Steps

theorem keptByMinor_identified :
    KeptByMinor flakyApi (tending uid i) (Cluster.Identified uid) where
  stable _ _ hs h := h.1 hs
  call c s r s' hc hs h := by
    have hstep := flakyStep_of_flakyApi h
    have hobjects := hstep.objects (Call.calm_of_minor hc)
    exact ⟨⟨hstep.identified, fun k u _ _ => by rw [hobjects]⟩, hstep.identified hs⟩

/-! ## The steps of a run -/

section Runs

variable {owner : ObjectMeta}

theorem wp_apply_tending {g : Generated} (hlib : lib.Documented) (howner : owner.uid = uid i)
    (hs : s.Identified uid) :
    wp flakyApi (tending uid i) (apply lib owner g).run (fun _ => Cluster.Identified uid) s := by
  refine keptByMinor_identified.apply hlib hs (fun _ _ _ ht h => h.1 ht) (fun _ _ ht => ht) ?_
  intro new t r u hnew ht h
  have hstep := flakyStep_of_flakyApi h
  rw [howner] at hnew
  exact ⟨⟨hstep.identified, fun k v hv hk => lookup_apply_of_controls hstep hnew hv hk⟩,
    hstep.identified ht⟩

theorem wp_pruneObject_tending {k : ObjectKey} (howner : owner.uid = uid i)
    (hs : s.Identified uid) :
    wp flakyApi (tending uid i) (pruneObject owner k).run (fun _ => Cluster.Identified uid) s := by
  refine wp_pruneObject (Cluster.Identified uid)
    (fun t => t.Identified uid ∧ t.Controls (uid i) k) hs (fun _ _ ht h => h.1 ht)
    (fun _ _ ht h => ⟨h.1 ht.1, h.2 k ht.2⟩) (fun _ _ _ ht h => h.1 ht) ?_ ?_
  · intro t r u ht h
    obtain ⟨hguar, hu⟩ := keptByMinor_identified.call (.get k) t r u rfl ht h
    refine ⟨hguar, ?_⟩
    cases r with
    | error e => exact hu
    | ok obj =>
      dsimp only
      split_ifs with hcontrolled
      · obtain ⟨rfl, hfound, -⟩ := (flakyStep_of_flakyApi h).get
        have hcontroller : obj.controller = some (uid i) := by
          simpa [Object.isControlledBy, howner] using hcontrolled
        exact ⟨hu, (hfound obj rfl).trans (congrArg some hcontroller)⟩
      · exact hu
  · -- the object found is still there, under the same control
    rintro t r u ⟨ht, hcontrols⟩ h
    have hstep := flakyStep_of_flakyApi h
    refine ⟨⟨hstep.identified, fun l v hv hl => lookup_delete_of_ne hstep ?_⟩,
      hstep.identified ht⟩
    rintro rfl
    exact hv (Option.some.inj (Option.some.inj (hl.symm.trans hcontrols)))

theorem wp_forM_tending {β : Type} {f : β → Task Unit} {l : List β}
    (h : ∀ b t, t.Identified uid →
      wp flakyApi (tending uid i) (f b).run (fun _ => Cluster.Identified uid) t)
    (hs : s.Identified uid) :
    wp flakyApi (tending uid i) (l.forM f).run (fun _ => Cluster.Identified uid) s := by
  have hloop := wp_forM (H := flakyApi) (K := tending uid i) (f := f) (l := l)
    (fun _ => Cluster.Identified uid) (Cluster.Identified uid) [] hs
    (fun _ _ _ ht hu => hu.1 ht) (fun _ _ ht hu => hu.1 ht)
    fun _ t b _ ht => wp_mono (h b t ht) fun r _ hr => by cases r <;> exact hr
  exact wp_mono hloop fun r _ hr => by cases r <;> exact hr

theorem wp_serverStep {step rest : Task Unit} {mc : MinecraftServer} {reason : String}
    (hstep : wp flakyApi (tending uid i) step.run (fun _ => Cluster.Identified uid) s)
    (hrest : ∀ t, t.Identified uid →
      wp flakyApi (tending uid i) rest.run (fun _ => Cluster.Identified uid) t) :
    wp flakyApi (tending uid i) (orFail step (mc.fail lib reason) rest).run
      (fun _ => Cluster.Identified uid) s := by
  refine wp_orFail (wp_mono hstep fun r t ht => ?_)
  cases r with
  | ok _ => exact hrest t ht
  | error e => exact keptByMinor_identified.serverFail (fun _ _ h => h) ht

theorem wp_proxyStep {step rest : Task Unit} {rp : ReverseProxyServer} {reason : String}
    (hstep : wp flakyApi (tending uid i) step.run (fun _ => Cluster.Identified uid) s)
    (hrest : ∀ t, t.Identified uid →
      wp flakyApi (tending uid i) rest.run (fun _ => Cluster.Identified uid) t) :
    wp flakyApi (tending uid i) (orFail step (rp.fail lib reason) rest).run
      (fun _ => Cluster.Identified uid) s := by
  refine wp_orFail (wp_mono hstep fun r t ht => ?_)
  cases r with
  | ok _ => exact hrest t ht
  | error e => exact keptByMinor_identified.proxyFail (fun _ _ h => h) ht

theorem wp_reconcileServer_tending (hlib : lib.Documented) {mc : MinecraftServer}
    (howner : mc.metadata.uid = uid i) (hs : s.Identified uid) :
    wp flakyApi (tending uid i) (mc.reconcile lib).run (fun _ => Cluster.Identified uid) s := by
  unfold MinecraftServer.reconcile
  split_ifs
  · exact keptByMinor_identified.pure hs
  · exact keptByMinor_identified.serverFail (fun _ _ h => h) hs
  · exact keptByMinor_identified.serverFail (fun _ _ h => h) hs
  · refine wp_serverStep (wp_apply_tending hlib howner hs) fun s hs => ?_
    refine wp_serverStep (wp_apply_tending hlib howner hs) fun s hs => ?_
    refine wp_serverStep ?_ fun s hs => ?_
    · unfold MinecraftServer.reconcileWorkload
      split_ifs
      · exact wp_apply_tending hlib howner hs
      · simp only [Async.run_bind, Task.run_ofExcept, Prog.pure_bind]
        cases minecraftStatefulSet lib mc with
        | error e => exact keptByMinor_identified.pure hs
        | ok sts => exact wp_apply_tending hlib howner hs
    refine wp_serverStep (wp_pruneObject_tending howner hs) fun s hs => ?_
    refine wp_async_bind (wp_mono (keptByMinor_identified.serverUpdateStatus hs) ?_)
    rintro r t ⟨⟨⟨mc', r'⟩, rfl⟩, ht⟩
    cases r' with
    | error e => exact keptByMinor_identified.serverFail (fun _ _ h => h) ht
    | ok u => exact keptByMinor_identified.pure ht

theorem wp_pruneStale_tending {rp : ReverseProxyServer} (howner : rp.metadata.uid = uid i)
    (hs : s.Identified uid) :
    wp flakyApi (tending uid i) rp.pruneStaleResources.run
      (fun _ => Cluster.Identified uid) s := by
  unfold ReverseProxyServer.pruneStaleResources
  refine wp_forM_tending (fun kind s hs => ?_) hs
  dsimp only
  split_ifs
  · exact keptByMinor_identified.pure hs
  · exact wp_forM_tending (fun k s hs => wp_pruneObject_tending howner hs) hs

theorem wp_reconcileProxy_tending (hlib : lib.Documented) {rp : ReverseProxyServer}
    (howner : rp.metadata.uid = uid i) (hs : s.Identified uid) :
    wp flakyApi (tending uid i) (rp.reconcile lib).run (fun _ => Cluster.Identified uid) s := by
  unfold ReverseProxyServer.reconcile
  split_ifs
  · exact keptByMinor_identified.pure hs
  · exact keptByMinor_identified.proxyFail (fun _ _ h => h) hs
  · exact keptByMinor_identified.proxyFail (fun _ _ h => h) hs
  · refine wp_proxyStep (wp_apply_tending hlib howner hs) fun s hs => ?_
    refine wp_proxyStep (wp_apply_tending hlib howner hs) fun s hs => ?_
    refine wp_proxyStep (wp_apply_tending hlib howner hs) fun s hs => ?_
    refine wp_proxyStep (wp_pruneStale_tending howner hs) fun s hs => ?_
    refine wp_async_bind (wp_mono (keptByMinor_identified.proxyUpdateStatus hs) ?_)
    rintro r t ⟨⟨⟨rp', r'⟩, rfl⟩, ht⟩
    cases r' with
    | error e => exact keptByMinor_identified.proxyFail (fun _ _ h => h) ht
    | ok u => exact keptByMinor_identified.pure ht

theorem wp_reconcileResource (hlib : lib.Documented) (i : ResourceRef)
    (hs : s.Identified uid) :
    wp flakyApi (tending uid i) (reconcileResource lib i).run
      (fun _ => Cluster.Identified uid) s := by
  cases i with
  | server key =>
    simp only [reconcileResource, reconcileMinecraftServer, Async.run_bind, Async.run_attempt,
      await, Async.await, ExceptT.run_mk, Prog.lift_bind, Prog.call_bind, Prog.pure_bind]
    refine wp_call (Cluster.Identified uid) hs (fun _ _ ht h => h.1 ht) fun t r u ht h => ?_
    have hstep := flakyStep_of_flakyApi h
    have hu := hstep.identified ht
    have hobjects := hstep.objects rfl
    refine ⟨⟨hstep.identified, fun k v _ _ => by rw [hobjects]⟩, ?_⟩
    cases r with
    | error e => exact keptByMinor_identified.pure hu
    | ok mc =>
      refine wp_reconcileServer_tending hlib (ht.servers key mc ?_) hu
      have hread := congrArg Prod.fst (hstep.ok mc rfl)
      simp only [handle] at hread
      split at hread
      · next mc' hmc => rwa [← Except.ok.inj hread]
      · cases hread
  | proxy key =>
    simp only [reconcileResource, reconcileReverseProxyServer, Async.run_bind, Async.run_attempt,
      await, Async.await, ExceptT.run_mk, Prog.lift_bind, Prog.call_bind, Prog.pure_bind]
    refine wp_call (Cluster.Identified uid) hs (fun _ _ ht h => h.1 ht) fun t r u ht h => ?_
    have hstep := flakyStep_of_flakyApi h
    have hu := hstep.identified ht
    have hobjects := hstep.objects rfl
    refine ⟨⟨hstep.identified, fun k v _ _ => by rw [hobjects]⟩, ?_⟩
    cases r with
    | error e => exact keptByMinor_identified.pure hu
    | ok rp =>
      refine wp_reconcileProxy_tending hlib (ht.proxies key rp ?_) hu
      have hread := congrArg Prod.fst (hstep.ok rp rfl)
      simp only [handle] at hread
      split at hread
      · next rp' hrp => rwa [← Except.ok.inj hread]
      · cases hread

end Runs

/-! ## The operator -/

theorem operatorSpec (hlib : lib.Documented) (huid : Function.Injective uid) :
    TeamSpec flakyApi (Kept uid) (fun i => (reconcileResource lib i).run) (tending uid)
      (fun _ _ => Cluster.Identified uid) (Cluster.Identified uid) where
  env _ _ hs h := ⟨h.identified hs, fun i => ⟨h.identified, h.controls i⟩⟩
  guar _ _ _ _ hs h := h.1 hs
  compatible _ _ hij _ _ _ _ h :=
    ⟨h.1, fun k hk => controls_of_lookup_eq (h.2 k _ (fun he => hij (huid he).symm) hk) hk⟩
  wp i _ hs := wp_reconcileResource hlib i hs

/-- A spelling of a resource that no other resource has. -/
def ResourceRef.spelled : ResourceRef → List Char
  | .server key => 's' :: (key.ns.toList.flatMap (['-', ·]) ++ '/' :: key.name.toList)
  | .proxy key => 'p' :: (key.ns.toList.flatMap (['-', ·]) ++ '/' :: key.name.toList)

def spelledUid (i : ResourceRef) : String := String.ofList i.spelled

theorem flatMap_dash_append_inj {a b c d : List Char}
    (h : a.flatMap (['-', ·]) ++ '/' :: c = b.flatMap (['-', ·]) ++ '/' :: d) :
    a = b ∧ c = d := by
  induction a generalizing b with
  | nil => cases b <;> simp_all
  | cons x a ih =>
    cases b with
    | nil => simp at h
    | cons y b =>
      simp only [List.flatMap_cons, List.cons_append, List.nil_append, List.cons.injEq,
        true_and] at h
      obtain ⟨hab, hcd⟩ := ih h.2
      exact ⟨by rw [h.1, hab], hcd⟩

theorem key_eq_of_toList {key key' : NamespacedName} (hns : key.ns.toList = key'.ns.toList)
    (hname : key.name.toList = key'.name.toList) : key = key' := by
  obtain ⟨ns, name⟩ := key
  obtain ⟨ns', name'⟩ := key'
  have hns := String.toList_inj.mp hns
  have hname := String.toList_inj.mp hname
  grind

theorem spelledUid_injective : Function.Injective spelledUid := by
  intro i j h
  have hspelled : i.spelled = j.spelled := by
    simpa [spelledUid] using congrArg String.toList h
  cases i with
  | server key =>
    cases j with
    | server key' =>
      obtain ⟨hns, hname⟩ := flatMap_dash_append_inj (List.cons.inj hspelled).2
      exact congrArg _ (key_eq_of_toList hns hname)
    | proxy key' => cases (List.cons.inj hspelled).1
  | proxy key =>
    cases j with
    | server key' => cases (List.cons.inj hspelled).1
    | proxy key' =>
      obtain ⟨hns, hname⟩ := flatMap_dash_append_inj (List.cons.inj hspelled).2
      exact congrArg _ (key_eq_of_toList hns hname)

def contestedKey : ObjectKey := ⟨.configMap, "minikura", configMapName (serverName "smp")⟩

def contestedServer : MinecraftServer :=
  { survival with
    metadata := { survival.metadata with uid := spelledUid (.server survival.metadata.key) } }

/-- Somebody else has an object of the name that the server generates for its own. -/
def contested : Cluster :=
  { Cluster.empty with
    servers := AList.singleton survival.metadata.key contestedServer
    objects := AList.singleton contestedKey
      { labels := [], controller := some "uid-lobby", body := [] } }

/-- The run of the server, about to apply its first object. -/
def contestedRun : Prog Call (Settled Error Answer) (Except Error Unit) × Cluster :=
  (reconcileResource plainLibrary (.server survival.metadata.key)).run.runTurns
    (fun c s => some (handle c s)) [.go] contested

theorem contested_identified : contested.Identified spelledUid where
  servers key mc h := by
    have hlookup : contested.servers.lookup key =
        if key = survival.metadata.key then some contestedServer else none := by
      split_ifs with hkey
      · subst hkey
        rfl
      · exact List.dlookup_cons_ne [] _ hkey
    rw [hlookup] at h
    split_ifs at h with hkey
    rw [hkey, ← Option.some.inj h]
    rfl
  proxies key rp h := by cases h

end Minikura.Operator
